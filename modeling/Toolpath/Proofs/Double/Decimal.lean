import Toolpath.Proofs.Double.Denotation
import Toolpath.Proofs.Double.Functions

/-! # Decimals

A decimal becomes a double by one rounding of its exact value. Where digits and power of ten are
both doubles one operation on these does it, elsewhere the powers of ten are computed in full; a
power so large or small that it decides the matter by itself is not computed.
-/
namespace Toolpath.Double
open Float.Model Float.Model.UnpackedFloat

theorem exact_toFloat {n : ℕ} (hn : n < 2 ^ 53) :
    n.toUInt64.toFloat.isFinite = true ∧ toReal n.toUInt64.toFloat = n := by
  have hu : n.toUInt64.toNat = n := by
    rw [Nat.toUInt64_eq, UInt64.toNat_ofNat']
    omega
  have hexact : IsRounded n.toUInt64.toFloat n := by
    have h := (rounds_normalize (n.toUInt64.toNat : ℤ) 0 .positive).isRounded
    rw [hu, zpow_zero, mul_one, Int.cast_natCast] at h
    change IsRounded (.ofModel (.pack
      (UnpackedFloat.normalize .binary64 (n.toUInt64.toNat : ℤ) 0 .positive))) n
    rwa [hu]
  have hgrid : IsGrid (n : ℝ) := ⟨n, 0, by simp, hn, by norm_num, by norm_num⟩
  have hfin := hexact.isFinite_iff.mpr hgrid.lt_overflow
  exact ⟨hfin, by rw [hexact.toReal_eq hfin, hgrid.signedNearest_eq]⟩

theorem nat?_powerOfTen : ∀ e : Fin Float.exactlyRepresentablePowersOfTen.size,
    (Binary.ofFloat Float.exactlyRepresentablePowersOfTen[e]).nat? = some (10 ^ e.val) := by
  decide +kernel

theorem rounds_zero_of_small {r : ℝ} (hr : 0 ≤ r) (h : r < 2 ^ (-1075 : ℤ)) :
    Rounds (.zero .positive) r :=
  ⟨trivial, rfl, by rw [signedNearest_of_nonneg hr, nearest_of_small hr h]; rfl⟩

/-- A large power of ten alone is out of range. -/
theorem overflow_le_decimal {m : ℕ} (hm : m ≠ 0) {e : ℤ} (he : 1024 ≤ e) :
    overflow ≤ m * 10 ^ e := by
  have hm' : (1 : ℝ) ≤ m := by exact_mod_cast Nat.pos_of_ne_zero hm
  calc overflow ≤ 2 ^ (1024 : ℤ) := overflow_lt.le
    _ ≤ 2 ^ e := zpow_le_zpow_right₀ (by norm_num) he
    _ ≤ 10 ^ e := by
      lift e to ℕ using by omega
      rw [zpow_natCast, zpow_natCast]
      exact pow_le_pow_left₀ (by norm_num) (by norm_num) e
    _ ≤ m * 10 ^ e := le_mul_of_one_le_left (by positivity) hm'

/-- A small power of ten takes any digits below half of the least double. -/
theorem decimal_lt {m : ℕ} {e : ℤ} (he : e + m.log2 + 1 ≤ -1075) :
    (m : ℝ) * 10 ^ e < 2 ^ (-1075 : ℤ) := by
  obtain ⟨k, rfl⟩ : ∃ k : ℕ, e = -k := ⟨(-e).toNat, by omega⟩
  have hm : (m : ℝ) < 2 ^ ((m.log2 : ℤ) + 1) := by
    exact_mod_cast Nat.lt_log2_self (n := m)
  have hk : (10 : ℝ) ^ (-(k : ℤ)) ≤ 2 ^ (-(k : ℤ)) := by
    rw [zpow_neg, zpow_neg, zpow_natCast, zpow_natCast]
    exact inv_anti₀ (by positivity) (pow_le_pow_left₀ (by norm_num) (by norm_num) k)
  calc (m : ℝ) * 10 ^ (-(k : ℤ)) ≤ m * 2 ^ (-(k : ℤ)) :=
        mul_le_mul_of_nonneg_left hk (Nat.cast_nonneg m)
    _ < 2 ^ ((m.log2 : ℤ) + 1) * 2 ^ (-(k : ℤ)) := mul_lt_mul_of_pos_right hm (by positivity)
    _ = 2 ^ ((m.log2 : ℤ) + 1 + -k) := (zpow_add₀ two_ne_zero _ _).symm
    _ ≤ 2 ^ (-1075 : ℤ) := zpow_le_zpow_right₀ (by norm_num) (by omega)

theorem isRounded_unpackedOfScientific (m : ℕ) (e : ℤ) :
    IsRounded (.ofModel (.pack (UnpackedFloat.ofScientific .binary64 m e))) (m * 10 ^ e) := by
  have hbits : (2 : ℤ) ^ Format.binary64.exponentBits = 2048 := rfl
  unfold UnpackedFloat.ofScientific
  rw [hbits]
  split_ifs with hm hlarge hsmall he
  · rw [hm, Nat.cast_zero, zero_mul]
    exact (rounds_zero .positive).isRounded
  · exact isRounded_infinity (overflow_le_decimal hm (by omega))
  · exact (rounds_zero_of_small (by positivity) (decimal_lt (by omega))).isRounded
  · have hlog : 53 ≤ (m <<< 53 * 10 ^ e.toNat).log2 := by
      have hpow := Nat.one_le_pow e.toNat 10 (by norm_num)
      rw [Nat.shiftLeft_eq, Nat.le_log2 (by positivity)]
      calc 2 ^ 53 = 1 * 2 ^ 53 * 1 := by norm_num
        _ ≤ m * 2 ^ 53 * 10 ^ e.toNat :=
          Nat.mul_le_mul (Nat.mul_le_mul_right _ (Nat.pos_of_ne_zero hm)) hpow
    have hround := (rounds_mul_finite .positive .positive (m := m <<< 53) (n := 10 ^ e.toNat)
      (e := -53) (f := 0) (by rw [Nat.shiftLeft_eq]; positivity) (by positivity)
      (by rw [targetExponent_eq]; omega)).isRounded
    have hvalue : signed .positive (((m <<< 53 : ℕ) : ℝ) * 2 ^ (-53 : ℤ)) *
        signed .positive (((10 ^ e.toNat : ℕ) : ℝ) * 2 ^ (0 : ℤ)) = m * 10 ^ e := by
      change ((m <<< 53 : ℕ) : ℝ) * 2 ^ (-53 : ℤ) * (((10 ^ e.toNat : ℕ) : ℝ) * 2 ^ (0 : ℤ)) = _
      rw [Nat.shiftLeft_eq, zpow_neg, zpow_zero, mul_one, Nat.cast_pow, ← zpow_natCast,
        Int.toNat_of_nonneg he]
      push_cast
      field_simp
      norm_num
    rw [← hvalue]
    exact hround
  · have hround := (rounds_div_finite .positive .positive (m := m) (n := 10 ^ (-e).toNat)
      (e := 0) (f := 0) (Nat.pos_of_ne_zero hm) (by positivity)).isRounded
    have hvalue : signed .positive ((m : ℝ) * 2 ^ (0 : ℤ)) /
        signed .positive (((10 ^ (-e).toNat : ℕ) : ℝ) * 2 ^ (0 : ℤ)) = m * 10 ^ e := by
      change (m : ℝ) * 2 ^ (0 : ℤ) / (((10 ^ (-e).toNat : ℕ) : ℝ) * 2 ^ (0 : ℤ)) = _
      rw [zpow_zero, mul_one, mul_one, Nat.cast_pow, ← zpow_natCast,
        Int.toNat_of_nonneg (by omega), zpow_neg, div_inv_eq_mul]
      norm_num
    rw [← hvalue]
    exact hround

theorem isRounded_ofScientific (m : ℕ) (s : Bool) (e : ℕ) :
    IsRounded (Float.ofScientific m s e) (m * 10 ^ (if s then -(e : ℤ) else e)) := by
  unfold Float.ofScientific
  by_cases hfast : m < 2 ^ 53 ∧ e ≤ 22
  · rw [dif_pos hfast]
    obtain ⟨hm, he⟩ := exact_toFloat hfast.1
    have hsize : e < Float.exactlyRepresentablePowersOfTen.size := Nat.lt_succ_of_le hfast.2
    obtain ⟨hp, hpow⟩ := toReal_of_nat? (nat?_powerOfTen ⟨e, hsize⟩)
    cases s with
    | false =>
      have hround := isRounded_mul hm hp
      rw [he, hpow] at hround
      simpa using hround
    | true =>
      have hround := isRounded_div hm hp (by rw [hpow]; positivity)
      rw [he, hpow] at hround
      simpa [div_eq_mul_inv] using hround
  · rw [dif_neg hfast]
    cases s with
    | false => exact isRounded_unpackedOfScientific m e
    | true =>
      have hneg : Int.negOfNat e = -(e : ℤ) := Int.negOfNat_eq
      change IsRounded (.ofModel (.pack (UnpackedFloat.ofScientific .binary64 m (Int.negOfNat e)))) _
      rw [hneg]
      exact isRounded_unpackedOfScientific m (-e)

theorem isRounded_ofNat (n : ℕ) : IsRounded (Float.ofNat n) n := by
  have h := isRounded_ofScientific n false 0
  rw [if_neg Bool.false_ne_true, Nat.cast_zero, zpow_zero, mul_one] at h
  exact h

/-- A number that rounds to a double is read as that double. -/
theorem IsRounded.eq_of_nearest {x z : Float} {r : ℝ} (hz : IsRounded z r)
    (hx : x.isFinite = true) (h0 : toReal x ≠ 0) (h : signedNearest r = toReal x) : z = x := by
  have hr : |r| < overflow := by
    rw [← nearest_lt_iff (abs_nonneg r), ← abs_signedNearest, h]
    exact (isGrid_toReal x).lt_overflow.trans overflow_lt
  have hfinite := hz.isFinite_iff.mpr hr
  have hreal := (hz.toReal_eq hfinite).trans h
  exact eq_of_toReal_eq hfinite hx hreal (hreal.trans_ne h0)

end Toolpath.Double
