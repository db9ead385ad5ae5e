import Toolpath.Proofs.Double.Integers
import Toolpath.Proofs.Double.Opposites
import Toolpath.Proofs.Double.Relative
import Toolpath.Proofs.Number.Shortest

/-! # Decimals that are taken for natural numbers

A decimal is read as the double nearest to it. So each natural number stands for all decimals up to
half the way to the doubles beside it, and not for itself alone.
-/
namespace Toolpath
namespace Double

/-- Half the way from a natural number to the double above it. -/
def halfAbove (n : ℕ) : ℚ := if n = 0 then 2 ^ (-1075 : ℤ) else 2 ^ ((n.log2 : ℤ) - 53)

/-- Half the way to the double below it. Below a power of two the doubles are closer. -/
def halfBelow (n : ℕ) : ℚ :=
  if n ≠ 0 ∧ n = 2 ^ n.log2 then 2 ^ ((n.log2 : ℤ) - 54) else halfAbove n

/-- A rational number no further from a natural number than half the way to the next double. -/
def RoundsTo (q : ℚ) (n : ℕ) : Prop := n - halfBelow n ≤ q ∧ q ≤ n + halfAbove n

instance (q : ℚ) (n : ℕ) : Decidable (RoundsTo q n) := inferInstanceAs (Decidable (_ ∧ _))

theorem halfBelow_pos (n : ℕ) : 0 < halfBelow n := by
  unfold halfBelow halfAbove
  split_ifs <;> positivity

theorem halfBelow_le (n : ℕ) : halfBelow n ≤ halfAbove n := by
  unfold halfBelow
  split_ifs with h
  · rw [halfAbove, if_neg h.1]
    exact zpow_le_zpow_right₀ (by norm_num) (by omega)
  · exact le_rfl

theorem halfAbove_le {n k : ℕ} (h : n < 2 ^ k) : halfAbove n ≤ 2 ^ ((k : ℤ) - 54) := by
  unfold halfAbove
  split_ifs with h0
  · exact zpow_le_zpow_right₀ (by norm_num) (by omega)
  · have hlog := (Nat.log2_lt h0).mpr h
    exact zpow_le_zpow_right₀ (by norm_num) (by omega)

theorem RoundsTo.abs_sub_le {q : ℚ} {n k : ℕ} (h : RoundsTo q n) (hn : n < 2 ^ k) :
    |q - n| ≤ 2 ^ ((k : ℤ) - 54) := by
  have habove := halfAbove_le hn
  have hbelow := halfBelow_le n
  rw [abs_le]
  constructor <;> linarith [h.1, h.2]

theorem roundsTo_self (n : ℕ) : RoundsTo n n := by
  have hpos := halfBelow_pos n
  exact ⟨by linarith, by linarith [halfBelow_le n]⟩

theorem half_zpow (e : ℤ) : (2 : ℝ) ^ (e - 1) = 2 ^ e / 2 := by
  rw [zpow_sub_one₀ two_ne_zero, ← div_eq_mul_inv]

theorem nearest_le_zpow {r : ℝ} {e : ℤ} (he : -1074 ≤ e) (hr : 0 ≤ r) (h : r ≤ 2 ^ e) :
    nearest r ≤ 2 ^ e := (nearest_mono hr h).trans_eq (nearest_zpow he)

theorem zpow_le_nearest {r : ℝ} {e : ℤ} (he : -1074 ≤ e) (h : 2 ^ e ≤ r) : 2 ^ e ≤ nearest r :=
  (nearest_zpow he).symm.trans_le (nearest_mono (by positivity) h)

/-- From one power of two to the next the doubles are evenly spaced. -/
theorem abs_nearest_sub_le_of_zpow {r : ℝ} {e : ℤ} (he : -1022 ≤ e) (hlow : 2 ^ e ≤ r)
    (hhigh : r < 2 ^ (e + 1)) : |nearest r - r| ≤ 2 ^ (e - 53) := by
  have hpos : 0 < r := lt_of_lt_of_le (by positivity) hlow
  have hgrid : gridExponent r = e - 52 :=
    gridExponent_eq (by omega) (.inr (by rwa [sub_add_cancel])) hpos
      (by rwa [show e - 52 + 53 = e + 1 by ring])
  have hnear := abs_nearest_sub_le r
  rwa [hgrid, ← half_zpow, show e - 52 - 1 = e - 53 by ring] at hnear

/-- Half the least double is as near to zero, and zero is even. -/
theorem nearest_half_least : nearest (2 ^ (-1075 : ℤ)) = 0 := by
  have htie : (2 : ℝ) ^ (-1075 : ℤ) = ((0 : ℕ) + 1 / 2) * 2 ^ (-1074 : ℤ) := by
    rw [show (-1075 : ℤ) = -1074 - 1 by norm_num, half_zpow, Nat.cast_zero]
    ring
  have hlow : ((0 : ℕ) - 1 / 2 : ℝ) * 2 ^ (-1074 : ℤ) ≤ 2 ^ (-1075 : ℤ) := by
    rw [htie]
    exact mul_le_mul_of_nonneg_right (by norm_num) (by positivity)
  have hround := Shortest.Interval.nearest_of_between le_rfl (.inl rfl) (by positivity)
    (zpow_lt_zpow_right₀ (by norm_num) (by norm_num)) hlow htie.le fun _ => Even.zero
  rw [hround, Nat.cast_zero, zero_mul]

theorem nearest_eq_zero_iff {r : ℝ} (hr : 0 ≤ r) : nearest r = 0 ↔ r ≤ 2 ^ (-1075 : ℤ) := by
  constructor
  · intro h
    have hsmall : r < 2 ^ (-1074 + 53 : ℤ) := by
      by_contra hle
      have hmono := zpow_le_nearest (by norm_num) (not_lt.mp hle)
      rw [h] at hmono
      exact absurd hmono (not_le.mpr (by positivity))
    rcases hr.eq_or_lt with rfl | hpos
    · positivity
    · have hnear := abs_nearest_sub_le r
      rwa [h, gridExponent_eq le_rfl (.inl rfl) hpos hsmall, zero_sub, abs_neg, abs_of_pos hpos,
        ← half_zpow] at hnear
  · intro h
    have hmono := nearest_mono hr h
    rw [nearest_half_least] at hmono
    exact le_antisymm hmono (nearest_nonneg hr)

section
variable {n : ℕ} (hn : 0 < n)
include hn

theorem cast_halfAbove : (halfAbove n : ℝ) = 2 ^ ((n.log2 : ℤ) - 53) := by
  rw [halfAbove, if_neg hn.ne', Rat.cast_zpow, Rat.cast_ofNat]

theorem cast_halfBelow : (halfBelow n : ℝ) =
    if n = 2 ^ n.log2 then 2 ^ ((n.log2 : ℤ) - 54) else 2 ^ ((n.log2 : ℤ) - 53) := by
  unfold halfBelow
  rw [← cast_halfAbove hn]
  simp only [hn.ne', ne_eq, not_false_eq_true, true_and]
  split_ifs <;> push_cast <;> rfl

theorem zpow_log2_le : (2 : ℝ) ^ (n.log2 : ℤ) ≤ n := by
  rw [zpow_natCast]
  exact_mod_cast Nat.log2_self_le hn.ne'

omit hn in
theorem lt_zpow_log2 : (n : ℝ) < 2 ^ ((n.log2 : ℤ) + 1) := by
  exact_mod_cast Nat.lt_log2_self (n := n)

/-- What is rounded to a natural number lies within half the way to the doubles beside it. -/
theorem between_of_nearest {r : ℝ} (hr : 0 ≤ r) (h : nearest r = n) :
    n - halfBelow n ≤ r ∧ r ≤ n + halfAbove n := by
  have hlow := zpow_log2_le hn
  have hhigh := lt_zpow_log2 (n := n)
  rw [cast_halfAbove hn, cast_halfBelow hn]
  rcases le_or_gt (2 ^ (n.log2 : ℤ)) r with hge | hlt
  · have htop : r < 2 ^ ((n.log2 : ℤ) + 1) := by
      by_contra hle
      have hmono := zpow_le_nearest (by omega) (not_lt.mp hle)
      rw [h] at hmono
      exact absurd hhigh (not_lt.mpr hmono)
    have hnear := abs_nearest_sub_le_of_zpow (by omega) hge htop
    rw [h, abs_le] at hnear
    refine ⟨?_, by linarith⟩
    split_ifs with hpower
    · have hpower' : (n : ℝ) = 2 ^ (n.log2 : ℤ) := by exact_mod_cast hpower
      have hstep : (0 : ℝ) < 2 ^ ((n.log2 : ℤ) - 54) := by positivity
      linarith
    · linarith
  · -- The numbers below the power of two are rounded to it on the finer grid there.
    have hpower : (n : ℝ) = 2 ^ (n.log2 : ℤ) :=
      le_antisymm (h ▸ nearest_le_zpow (by omega) hr hlt.le) hlow
    have hbelow : 2 ^ ((n.log2 : ℤ) - 1) ≤ r := by
      by_contra hle
      have hmono := nearest_le_zpow (by omega) hr (not_le.mp hle).le
      rw [h, hpower] at hmono
      exact absurd hmono (not_le.mpr (zpow_lt_zpow_right₀ (by norm_num) (by omega)))
    have hnear := abs_nearest_sub_le_of_zpow (by omega) hbelow (by rwa [sub_add_cancel])
    rw [h, abs_le, show (n.log2 : ℤ) - 1 - 53 = n.log2 - 54 by ring] at hnear
    have hpower' : n = 2 ^ n.log2 := by exact_mod_cast hpower
    rw [if_pos hpower']
    have hstep : (0 : ℝ) < 2 ^ ((n.log2 : ℤ) - 53) := by positivity
    exact ⟨by linarith, by linarith⟩

/-- The mantissa of a natural number is even, since its last bits are zero. -/
theorem exists_mantissa (hbits : n < 2 ^ 52) : ∃ m : ℕ,
    (m : ℝ) * 2 ^ ((n.log2 : ℤ) - 52) = n ∧ 2 ^ 52 ≤ m ∧ m < 2 ^ 53 ∧ m % 2 = 0 ∧
    (m = 2 ^ 52 ↔ n = 2 ^ n.log2) := by
  have hlog : n.log2 < 52 := (Nat.log2_lt hn.ne').mpr hbits
  have hpow : 2 ^ n.log2 * 2 ^ (52 - n.log2) = 2 ^ 52 := by
    rw [← pow_add]
    congr 1
    omega
  refine ⟨n * 2 ^ (52 - n.log2), ?_, ?_, ?_, ?_, ?_⟩
  · push_cast
    rw [mul_assoc, ← zpow_natCast, ← zpow_add₀ two_ne_zero,
      show ((52 - n.log2 : ℕ) : ℤ) + (n.log2 - 52) = 0 by omega, zpow_zero, mul_one]
  · rw [← hpow]
    exact Nat.mul_le_mul_right _ (Nat.log2_self_le hn.ne')
  · rw [pow_succ, ← hpow, mul_right_comm, ← pow_succ]
    exact Nat.mul_lt_mul_of_pos_right Nat.lt_log2_self (by positivity)
  · rw [show 52 - n.log2 = (51 - n.log2) + 1 by omega, pow_succ, ← mul_assoc, Nat.mul_mod_left]
  · rw [← hpow, Nat.mul_left_inj (by positivity)]

theorem nearest_of_halves (hbits : n < 2 ^ 52) {r : ℝ} (hlow : n - halfBelow n ≤ r)
    (hhigh : r ≤ n + halfAbove n) : nearest r = n := by
  obtain ⟨m, hvalue, hmlow, hmhigh, heven, hpower⟩ := exists_mantissa hn hbits
  have hm : 0 < m := lt_of_lt_of_le (by positivity) hmlow
  have hhalf : (2 : ℝ) ^ ((n.log2 : ℤ) - 53) = 2 ^ ((n.log2 : ℤ) - 52) / 2 := by
    rw [← half_zpow, show (n.log2 : ℤ) - 52 - 1 = n.log2 - 53 by ring]
  have hquarter : (2 : ℝ) ^ ((n.log2 : ℤ) - 54) = 2 ^ ((n.log2 : ℤ) - 53) / 2 := by
    rw [← half_zpow, show (n.log2 : ℤ) - 53 - 1 = n.log2 - 54 by ring]
  have hcontains : (Shortest.Interval.ofBinary m ((n.log2 : ℤ) - 52)).Contains r := by
    have hnormal : -1074 < (n.log2 : ℤ) - 52 := by omega
    rw [cast_halfBelow hn, hquarter, hhalf] at hlow
    rw [cast_halfAbove hn, hhalf] at hhigh
    rw [Shortest.Interval.contains_ofBinary hm, if_pos heven, sub_mul, add_mul, hvalue,
      Shortest.Interval.reach]
    simp only [hpower, hnormal, and_true]
    refine ⟨?_, by linarith⟩
    split_ifs at hlow ⊢ <;> push_cast <;> linarith
  rw [Shortest.Interval.nearest_of_contains hm hmhigh (by omega) (.inl hmlow) hcontains, hvalue]

end

/-- The double nearest to a rational number is the natural number just if the rational number is
within half the way to the doubles beside it. -/
theorem signedNearest_eq_natCast_iff {q : ℚ} {n : ℕ} (hbits : n < 2 ^ 52) :
    signedNearest (q : ℝ) = n ↔ RoundsTo q n := by
  have hcast : RoundsTo q n ↔ (n : ℝ) - halfBelow n ≤ q ∧ (q : ℝ) ≤ n + halfAbove n := by
    unfold RoundsTo
    norm_cast
  rcases Nat.eq_zero_or_pos n with rfl | hn
  · have hbelow : halfBelow 0 = halfAbove 0 := if_neg fun h => h.1 rfl
    have habove : ((halfAbove 0 : ℚ) : ℝ) = 2 ^ (-1075 : ℤ) := by
      rw [halfAbove, if_pos rfl, Rat.cast_zpow, Rat.cast_ofNat]
    rw [hcast, hbelow, habove, Nat.cast_zero, zero_sub, zero_add, ← abs_le,
      ← nearest_eq_zero_iff (abs_nonneg _), ← abs_signedNearest, abs_eq_zero]
  · rw [hcast]
    constructor
    · intro h
      have hpos : 0 ≤ (q : ℝ) := by
        by_contra hneg
        have hmono := signedNearest_mono (not_le.mp hneg).le
        rw [h, signedNearest_of_nonneg le_rfl, nearest_zero] at hmono
        exact absurd hmono (not_le.mpr (Nat.cast_pos.mpr hn))
      rw [signedNearest_of_nonneg hpos] at h
      exact between_of_nearest hn hpos h
    · intro h
      have hpos : (0 : ℝ) ≤ q := by
        have hnear := (abs_le.mp ((hcast.mpr h).abs_sub_le hbits)).1
        have hone : (1 : ℚ) ≤ n := Nat.one_le_cast.mpr hn
        norm_num at hnear
        exact_mod_cast (show 0 ≤ q by linarith)
      rw [signedNearest_of_nonneg hpos]
      exact nearest_of_halves hn hbits h.1 h.2

theorem rounded_neg (r : ℝ) : rounded (-r) = -rounded r := by
  have hpos := overflow_pos
  unfold rounded
  simp only [le_neg, neg_le_neg_iff, signedNearest_neg, EReal.coe_neg]
  split_ifs
  · linarith
  · rfl
  · rfl
  · rfl

theorem IsRounded.neg {z : Float} {r : ℝ} (h : IsRounded z r) : IsRounded (-z) (-r) where
  not_nan := (isNaN_neg z).trans h.not_nan
  value_eq := by rw [value_neg, h.value_eq, rounded_neg]

end Double

namespace Literal
open Double

theorem isRounded_toFloat (l : Literal) : IsRounded l.toFloat (l.toRat : ℝ) := by
  have h := l.isRounded_magnitude
  unfold toFloat toRat
  cases l.negative with
  | false =>
    dsimp only
    rw [if_neg Bool.false_ne_true, if_neg Bool.false_ne_true]
    push_cast
    exact h
  | true =>
    dsimp only
    rw [if_pos rfl, if_pos rfl]
    push_cast
    exact h.neg

/-- The double of a literal is a natural number just if the literal rounds to it. -/
theorem nat?_toFloat_iff (l : Literal) {n : ℕ} (hbits : n < 2 ^ 52) :
    (Binary.ofFloat l.toFloat).nat? = some n ↔ RoundsTo l.toRat n := by
  have hround := l.isRounded_toFloat
  rw [nat?_eq_some_iff, ← signedNearest_eq_natCast_iff hbits]
  constructor
  · rintro ⟨hfinite, hn⟩
    rw [← hround.toReal_eq hfinite, hn]
  · intro h
    have hn : (n : ℝ) < 2 ^ (1024 : ℤ) := by
      calc (n : ℝ) < 2 ^ 52 := by exact_mod_cast hbits
        _ ≤ 2 ^ (1024 : ℤ) := by
          rw [← zpow_natCast]
          exact zpow_le_zpow_right₀ (by norm_num) (by norm_num)
    have hfinite : l.toFloat.isFinite = true := by
      rw [hround.isFinite_iff, ← nearest_lt_iff (abs_nonneg _), ← abs_signedNearest, h,
        Nat.abs_cast]
      exact hn
    exact ⟨hfinite, (hround.toReal_eq hfinite).trans h⟩

end Literal
end Toolpath
