import Toolpath.Number.Literal
import Toolpath.Number.Shortest
import Toolpath.Proofs.Double.Decimal
import Toolpath.Proofs.Double.Identities

/-! # The shortest decimal is read back

The interval of a double holds the real numbers that are rounded to it. It is wider than a step in
the seventeenth digit, so it holds a decimal of so many digits, and whatever decimal of it is taken
is read as the double.
-/
namespace Toolpath
open Double

def Binary.Neighbouring (round : Binary.Rounding) : Prop :=
  ∀ num den, 0 < den → round num den = num / den ∨ round num den = num / den + 1

theorem Binary.neighbouring_roundHalfUp : Neighbouring roundHalfUp := by
  intro num den hden
  have hlow : num / den ≤ roundHalfUp num den := by
    rw [roundHalfUp, Nat.le_div_iff_mul_le (by omega)]
    calc num / den * (2 * den) = 2 * (num / den * den) := by ring
      _ ≤ 2 * num := Nat.mul_le_mul_left 2 (Nat.div_mul_le_self num den)
      _ ≤ 2 * num + den := Nat.le_add_right ..
  have hhigh : roundHalfUp num den < num / den + 2 := by
    rw [roundHalfUp, Nat.div_lt_iff_lt_mul (by omega)]
    have hlt : num < (num / den + 1) * den :=
      (Nat.div_lt_iff_lt_mul hden).mp (Nat.lt_succ_self _)
    calc 2 * num + den < 2 * ((num / den + 1) * den) + 2 * den := by omega
      _ = (num / den + 2) * (2 * den) := by ring
  omega

theorem Binary.neighbouring_roundHalfEven : Neighbouring roundHalfEven := by
  intro num den _
  unfold roundHalfEven
  dsimp only
  split <;> omega

namespace Shortest
namespace Interval

def Contains (i : Interval) (r : ℝ) : Prop :=
  if i.closed then i.low ≤ r * i.unit ∧ r * i.unit ≤ i.high
  else i.low < r * i.unit ∧ r * i.unit < i.high

variable {i : Interval}

theorem admits_iff {n : ℕ} {r : ℝ} (h : (n : ℝ) = r * i.unit) :
    i.admits n = true ↔ i.Contains r := by
  unfold admits Contains
  rw [← h]
  split_ifs
  · rw [Bool.and_eq_true, decide_eq_true_eq, decide_eq_true_eq]
    norm_cast
  · rw [Bool.and_eq_true, decide_eq_true_eq, decide_eq_true_eq]
    norm_cast

theorem contains_scale {factor : ℕ} (h : 0 < factor) (r : ℝ) :
    (i.scale factor).Contains (r * factor) ↔ i.Contains r := by
  have hf : (0 : ℝ) < factor := by exact_mod_cast h
  have hr : r * factor * i.unit = r * i.unit * factor := by ring
  unfold Contains scale
  dsimp only
  push_cast
  simp only [hr, mul_le_mul_iff_left₀ hf, mul_lt_mul_iff_left₀ hf]

/-- On a grid the value lies between two neighbours, and those are looked at. -/
theorem onGrid?_eq (round : Binary.Rounding) (hunit : 0 < i.unit) (power : ℤ) :
    ∃ (num den : ℕ) (admitted : ℕ → Bool), 0 < den ∧
      (num : ℝ) * i.unit * 10 ^ power = i.value * den ∧
      (∀ k, admitted k = true ↔ i.Contains (k * 10 ^ power)) ∧
      i.onGrid? round power = match admitted (num / den), admitted (num / den + 1) with
        | true, true => some (round num den)
        | true, false => some (num / den)
        | false, true => some (num / den + 1)
        | false, false => none := by
  unfold onGrid?
  have hunit' : (0 : ℝ) < i.unit := by exact_mod_cast hunit
  split_ifs with hp
  · obtain ⟨k, rfl⟩ := Int.eq_ofNat_of_zero_le hp
    refine ⟨i.value, i.unit * 10 ^ k, fun n => i.admits (n * (i.unit * 10 ^ k)), by positivity,
      ?_, ?_, rfl⟩
    · rw [zpow_natCast]
      push_cast
      ring
    · intro n
      apply admits_iff
      rw [zpow_natCast]
      push_cast
      ring
  · obtain ⟨k, rfl⟩ : ∃ k : ℕ, power = -k := ⟨(-power).toNat, by omega⟩
    refine ⟨i.value * 10 ^ k, i.unit, fun n => (i.scale (10 ^ k)).admits (n * i.unit), hunit,
      ?_, ?_, ?_⟩
    · rw [zpow_neg, zpow_natCast]
      push_cast
      field_simp
    · intro n
      have hfactor : 0 < 10 ^ k := by positivity
      rw [← contains_scale hfactor]
      apply admits_iff
      rw [zpow_neg, zpow_natCast]
      push_cast
      field_simp
      rfl
    · simp only [neg_neg, Int.toNat_natCast]
      rfl

theorem Contains.between {a b c : ℝ} (ha : i.Contains a) (hb : i.Contains b) (hac : a ≤ c)
    (hcb : c ≤ b) : i.Contains c := by
  have hlow := mul_le_mul_of_nonneg_right hac (Nat.cast_nonneg i.unit)
  have hhigh := mul_le_mul_of_nonneg_right hcb (Nat.cast_nonneg i.unit)
  unfold Contains at *
  split_ifs at * with hclosed
  · exact ⟨ha.1.trans hlow, hhigh.trans hb.2⟩
  · exact ⟨ha.1.trans_le hlow, hhigh.trans_lt hb.2⟩

theorem contains_of_onGrid? {round : Binary.Rounding} (hround : Binary.Neighbouring round)
    (hunit : 0 < i.unit) {power : ℤ} {d : ℕ} (h : i.onGrid? round power = some d) :
    i.Contains (d * 10 ^ power) := by
  obtain ⟨num, den, admitted, hden, -, hadmitted, heq⟩ := onGrid?_eq round hunit power
  rw [heq] at h
  rw [← hadmitted]
  cases hbelow : admitted (num / den) with
  | true =>
    cases habove : admitted (num / den + 1) with
    | true =>
      rw [hbelow, habove] at h
      obtain rfl := Option.some.inj h
      rcases hround num den hden with hr | hr <;> rw [hr]
      · exact hbelow
      · exact habove
    | false =>
      rw [hbelow, habove] at h
      obtain rfl := Option.some.inj h
      exact hbelow
  | false =>
    cases habove : admitted (num / den + 1) with
    | true =>
      rw [hbelow, habove] at h
      obtain rfl := Option.some.inj h
      exact habove
    | false =>
      rw [hbelow, habove] at h
      cases h

/-- If the grid has a point in the interval, then one of the neighbours of the value is. -/
theorem isSome_onGrid? (round : Binary.Rounding) (hunit : 0 < i.unit) {v : ℝ}
    (hv : v * i.unit = i.value) (hvalue : i.Contains v) {power : ℤ} {k : ℕ}
    (hk : i.Contains (k * 10 ^ power)) : (i.onGrid? round power).isSome := by
  obtain ⟨num, den, admitted, hden, hnum, hadmitted, heq⟩ := onGrid?_eq round hunit power
  have hunit' : (0 : ℝ) < i.unit := by exact_mod_cast hunit
  have hden' : (0 : ℝ) < den := by exact_mod_cast hden
  have hp : (0 : ℝ) < 10 ^ power := by positivity
  have hvden : v * den = num * 10 ^ power := by
    have : v * den * i.unit = num * 10 ^ power * i.unit := by
      rw [mul_right_comm, hv, ← hnum]
      ring
    exact mul_right_cancel₀ hunit'.ne' this
  have hbelow : ((num / den : ℕ) : ℝ) * 10 ^ power ≤ v := by
    have hle : ((num / den : ℕ) : ℝ) * den ≤ num := by exact_mod_cast Nat.div_mul_le_self num den
    refine le_of_mul_le_mul_right ?_ hden'
    rw [hvden, mul_right_comm]
    exact mul_le_mul_of_nonneg_right hle hp.le
  have habove : v ≤ ((num / den + 1 : ℕ) : ℝ) * 10 ^ power := by
    have hle : (num : ℝ) ≤ ((num / den + 1 : ℕ) : ℝ) * den := by
      exact_mod_cast ((Nat.div_lt_iff_lt_mul hden).mp (Nat.lt_succ_self _)).le
    refine le_of_mul_le_mul_right ?_ hden'
    rw [hvden, mul_right_comm]
    exact mul_le_mul_of_nonneg_right hle hp.le
  have hhit : admitted (num / den) = true ∨ admitted (num / den + 1) = true := by
    rw [hadmitted, hadmitted]
    rcases le_or_gt k (num / den) with hle | hlt
    · left
      refine hk.between hvalue ?_ hbelow
      exact mul_le_mul_of_nonneg_right (by exact_mod_cast hle) hp.le
    · right
      refine hvalue.between hk habove ?_
      exact mul_le_mul_of_nonneg_right (by exact_mod_cast hlt) hp.le
  rw [heq]
  rcases hhit with hhit | hhit <;> rw [hhit]
  · cases admitted (num / den + 1) <;> rfl
  · cases admitted (num / den) <;> rfl

/-- How far below a double the numbers that round to it begin, in units of its last place. -/
noncomputable def reach (m : ℕ) (e : ℤ) : ℝ :=
  ((if m = 2 ^ 52 ∧ -1074 < e then 1 else 2 : ℕ) : ℝ) / 4

theorem reach_pos (m : ℕ) (e : ℤ) : 0 < reach m e := by
  unfold reach
  split_ifs <;> norm_num

theorem reach_le (m : ℕ) (e : ℤ) : reach m e ≤ 1 / 2 := by
  unfold reach
  split_ifs <;> norm_num

theorem nearest_of_between {m : ℕ} {e : ℤ} (he : -1074 ≤ e) {r : ℝ}
    (hgrid : e = -1074 ∨ 2 ^ (e + 52) ≤ r) (hr : 0 < r) (htop : r < 2 ^ (e + 53))
    (hlow : ((m : ℝ) - 1 / 2) * 2 ^ e ≤ r) (hhigh : r ≤ ((m : ℝ) + 1 / 2) * 2 ^ e)
    (heven : r = ((m : ℝ) - 1 / 2) * 2 ^ e ∨ r = ((m : ℝ) + 1 / 2) * 2 ^ e → Even m) :
    nearest r = m * 2 ^ e := by
  have hp : (0 : ℝ) < 2 ^ e := by positivity
  rw [← div_eq_iff hp.ne', ← div_eq_iff hp.ne'] at heven
  have hint : nearestInt (r / 2 ^ e) = (m : ℤ) := by
    apply nearestInt_eq
    · rw [le_div_iff₀ hp]
      exact_mod_cast hlow
    · rw [div_le_iff₀ hp]
      exact_mod_cast hhigh
    · exact_mod_cast heven
  rw [nearest, gridExponent_eq he hgrid hr htop, hint, Int.cast_natCast]

/-- Below a power of two the grid is finer. -/
theorem nearest_below_power {e : ℤ} (he : -1074 < e) {r : ℝ}
    (hlow : ((2 : ℝ) ^ 52 - 1 / 4) * 2 ^ e ≤ r) (hhigh : r < 2 ^ 52 * 2 ^ e) :
    nearest r = 2 ^ 52 * 2 ^ e := by
  have hstep : (2 : ℝ) ^ e = 2 * 2 ^ (e - 1) := by
    rw [zpow_sub_one₀ two_ne_zero]
    ring
  have hp : (0 : ℝ) < 2 ^ (e - 1) := by positivity
  rw [hstep] at hlow hhigh
  have hr : 0 < r := by
    refine lt_of_lt_of_le (mul_pos ?_ (by positivity)) hlow
    norm_num
  have hgrid : gridExponent r = e - 1 := by
    apply gridExponent_eq (by omega) (.inr _) hr
    · rw [zpow_add₀ two_ne_zero, mul_comm]
      norm_num at hhigh ⊢
      linarith
    · rw [zpow_add₀ two_ne_zero, mul_comm]
      norm_num at hlow ⊢
      linarith
  have hint : nearestInt (r / 2 ^ (e - 1)) = 2 ^ 53 := by
    apply nearestInt_eq
    · rw [le_div_iff₀ hp]
      norm_num at hlow ⊢
      linarith
    · rw [div_le_iff₀ hp]
      norm_num at hhigh ⊢
      linarith
    · exact fun _ => by decide
  rw [nearest, hgrid, hint, hstep]
  push_cast
  ring

section
variable {m : ℕ} (hm : 0 < m) (e : ℤ)
include hm

theorem ofBinary_spec : 0 < (ofBinary m e).unit ∧
    (m : ℝ) * 2 ^ e * (ofBinary m e).unit = (ofBinary m e).value ∧
    ((m : ℝ) - reach m e) * 2 ^ e * (ofBinary m e).unit = (ofBinary m e).low ∧
    ((m : ℝ) + 1 / 2) * 2 ^ e * (ofBinary m e).unit = (ofBinary m e).high := by
  obtain ⟨hunit, hscale⟩ := ratio_spec 1 (e - 2)
  have hquarter : (2 : ℝ) ^ (e - 2) = 2 ^ e / 4 := by
    rw [zpow_sub₀ two_ne_zero]
    norm_num
  have hbit : (1 <<< 52 : ℕ) = 2 ^ 52 := rfl
  rw [Nat.cast_one, one_mul, hquarter] at hscale
  simp only [ofBinary, hbit]
  refine ⟨hunit, ?_, ?_, ?_⟩
  · push_cast
    rw [hscale]
    ring
  · have hbelow : (if m = 2 ^ 52 ∧ -1074 < e then 1 else 2) ≤ 4 * m := by
      split_ifs <;> omega
    rw [reach, Nat.cast_mul, Nat.cast_sub hbelow, hscale, Nat.cast_mul, Nat.cast_ofNat]
    ring
  · push_cast
    rw [hscale]
    ring

theorem contains_ofBinary (r : ℝ) : (ofBinary m e).Contains r ↔
    if m % 2 = 0 then ((m : ℝ) - reach m e) * 2 ^ e ≤ r ∧ r ≤ ((m : ℝ) + 1 / 2) * 2 ^ e
    else ((m : ℝ) - reach m e) * 2 ^ e < r ∧ r < ((m : ℝ) + 1 / 2) * 2 ^ e := by
  obtain ⟨hunit, -, hlow, hhigh⟩ := ofBinary_spec hm e
  have hunit' : (0 : ℝ) < (ofBinary m e).unit := by exact_mod_cast hunit
  have hclosed : (ofBinary m e).closed = decide (m % 2 = 0) := rfl
  unfold Contains
  rw [hclosed, ← hlow, ← hhigh]
  simp only [decide_eq_true_eq, mul_le_mul_iff_left₀ hunit', mul_lt_mul_iff_left₀ hunit']

theorem bounds_of_contains {r : ℝ} (h : (ofBinary m e).Contains r) :
    ((m : ℝ) - reach m e) * 2 ^ e ≤ r ∧ r ≤ ((m : ℝ) + 1 / 2) * 2 ^ e ∧
    (r = ((m : ℝ) - reach m e) * 2 ^ e ∨ r = ((m : ℝ) + 1 / 2) * 2 ^ e → Even m) := by
  rw [contains_ofBinary hm] at h
  split_ifs at h with heven
  · exact ⟨h.1, h.2, fun _ => Nat.even_iff.mpr heven⟩
  · refine ⟨h.1.le, h.2.le, ?_⟩
    rintro (rfl | rfl)
    · exact absurd h.1 (lt_irrefl _)
    · exact absurd h.2 (lt_irrefl _)

/-- The numbers of the interval are rounded to the double. -/
theorem nearest_of_contains {e : ℤ} (hbits : m < 2 ^ 53) (he : -1074 ≤ e)
    (hnormal : 2 ^ 52 ≤ m ∨ e = -1074) {r : ℝ} (h : (ofBinary m e).Contains r) :
    nearest r = m * 2 ^ e := by
  obtain ⟨hlow, hhigh, heven⟩ := bounds_of_contains hm e h
  have hp : (0 : ℝ) < 2 ^ e := by positivity
  have hone : (1 : ℝ) ≤ m := by exact_mod_cast hm
  have hreach := reach_le m e
  have hr : 0 < r := (mul_pos (by linarith) hp).trans_le hlow
  have hhalf : ((m : ℝ) - 1 / 2) * 2 ^ e ≤ ((m : ℝ) - reach m e) * 2 ^ e :=
    mul_le_mul_of_nonneg_right (by linarith) hp.le
  by_cases hsame : e = -1074 ∨ 2 ^ (e + 52) ≤ r
  · have htop : r < 2 ^ (e + 53) := by
      rw [zpow_add₀ two_ne_zero, mul_comm]
      refine hhigh.trans_lt (mul_lt_mul_of_pos_right ?_ hp)
      have : ((m + 1 : ℕ) : ℝ) ≤ ((2 ^ 53 : ℕ) : ℝ) := by exact_mod_cast hbits
      push_cast at this
      norm_num at this ⊢
      linarith
    refine nearest_of_between he hsame hr htop (hhalf.trans hlow) hhigh ?_
    rintro (heq | heq)
    · exact heven (.inl (le_antisymm (heq.trans_le hhalf) hlow))
    · exact heven (.inr heq)
  · obtain ⟨hne, hbelow⟩ := not_or.mp hsame
    rw [not_le, zpow_add₀ two_ne_zero, mul_comm] at hbelow
    have hle : (m : ℝ) - 1 / 2 < 2 ^ (52 : ℤ) :=
      lt_of_mul_lt_mul_right (hhalf.trans_lt (hlow.trans_lt hbelow)) hp.le
    have hpower : m = 2 ^ 52 := by
      have hlt : (m : ℝ) < ((2 ^ 52 + 1 : ℕ) : ℝ) :=
        calc (m : ℝ) < 2 ^ (52 : ℤ) + 1 / 2 := by linarith
          _ ≤ ((2 ^ 52 + 1 : ℕ) : ℝ) := by norm_num
      have hlt' : m < 2 ^ 52 + 1 := by exact_mod_cast hlt
      omega
    have hquarter : reach m e = 1 / 4 := by rw [reach, if_pos ⟨hpower, by omega⟩, Nat.cast_one]
    rw [hquarter, hpower] at hlow
    rw [hpower]
    exact_mod_cast nearest_below_power (by omega) (by exact_mod_cast hlow) (by exact_mod_cast hbelow)

theorem contains_value : (ofBinary m e).Contains (m * 2 ^ e) := by
  have hp : (0 : ℝ) < 2 ^ e := by positivity
  have hlow : ((m : ℝ) - reach m e) * 2 ^ e < m * 2 ^ e :=
    mul_lt_mul_of_pos_right (by linarith [reach_pos m e]) hp
  have hhigh : (m : ℝ) * 2 ^ e < ((m : ℝ) + 1 / 2) * 2 ^ e :=
    mul_lt_mul_of_pos_right (by linarith) hp
  rw [contains_ofBinary hm]
  split_ifs
  · exact ⟨hlow.le, hhigh.le⟩
  · exact ⟨hlow, hhigh⟩

theorem pos_of_contains {e : ℤ} {d : ℕ} {power : ℤ} (h : (ofBinary m e).Contains (d * 10 ^ power)) :
    0 < d := by
  obtain ⟨hlow, -⟩ := bounds_of_contains hm e h
  rcases Nat.eq_zero_or_pos d with rfl | hd
  · have hone : (1 : ℝ) ≤ m := by exact_mod_cast hm
    have hpos : 0 < ((m : ℝ) - reach m e) * 2 ^ e :=
      mul_pos (by linarith [reach_le m e]) (by positivity)
    rw [Nat.cast_zero, zero_mul] at hlow
    linarith
  · exact hd

end

theorem pow_le_of_toDigits {n : ℕ} (hn : 0 < n) : 10 ^ ((Nat.toDigits 10 n).length - 1) ≤ n := by
  by_contra hlt
  rcases Nat.eq_zero_or_pos ((Nat.toDigits 10 n).length - 1) with h0 | hpos
  · rw [h0] at hlt
    omega
  · have := (Nat.length_toDigits_le_iff (by norm_num) hpos).mpr (not_le.mp hlt)
    omega

theorem lt_pow_toDigits (n : ℕ) : n < 10 ^ (Nat.toDigits 10 n).length :=
  (Nat.length_toDigits_le_iff (by norm_num) Nat.length_toDigits_pos).mp le_rfl

/-- The magnitude is no more than one power of ten above the value. -/
theorem pow_magnitude_le (hunit : 0 < i.unit) (hvalue : 0 < i.value) :
    (10 : ℝ) ^ (i.magnitude - 1) * i.unit ≤ i.value := by
  unfold magnitude
  split_ifs with h
  · have hpow := pow_le_of_toDigits (Nat.div_pos h hunit)
    have hlen := Nat.length_toDigits_pos (b := 10) (n := i.value / i.unit)
    generalize (Nat.toDigits 10 (i.value / i.unit)).length = l at *
    have hcast : ((l : ℤ) - 1) = ((l - 1 : ℕ) : ℤ) := by omega
    rw [hcast, zpow_natCast]
    have hle : 10 ^ (l - 1) * i.unit ≤ i.value :=
      (Nat.mul_le_mul_right _ hpow).trans (Nat.div_mul_le_self ..)
    exact_mod_cast hle
  · have hlt := lt_pow_toDigits ((i.unit - 1) / i.value)
    generalize (Nat.toDigits 10 ((i.unit - 1) / i.value)).length = l at *
    have hle : i.unit ≤ i.value * 10 ^ l := by
      have := (Nat.div_lt_iff_lt_mul hvalue).mp hlt
      rw [mul_comm] at this
      omega
    have hle' : (i.unit : ℝ) ≤ i.value * 10 ^ l := by exact_mod_cast hle
    rw [show 1 - (l : ℤ) - 1 = -l by ring, zpow_neg, zpow_natCast, inv_mul_le_iff₀ (by positivity)]
    linarith

/-- An interval that is wider than a step holds a multiple of it. -/
theorem exists_multiple {low high step : ℝ} (hlow : 0 ≤ low) (hstep : 0 < step)
    (hwide : step < high - low) : ∃ k : ℕ, low < k * step ∧ k * step < high := by
  refine ⟨⌊low / step⌋₊ + 1, ?_, ?_⟩
  · rw [← div_lt_iff₀ hstep]
    push_cast
    exact Nat.lt_floor_add_one _
  · have hfloor := Nat.floor_le (div_nonneg hlow hstep.le)
    rw [le_div_iff₀ hstep] at hfloor
    push_cast
    linarith

/-- Seventeen digits suffice. -/
theorem exists_contains {m : ℕ} (hm : 0 < m) {e : ℤ} (hbits : m < 2 ^ 53) :
    ∃ k : ℕ, (ofBinary m e).Contains (k * 10 ^ ((ofBinary m e).magnitude - 17)) := by
  obtain ⟨hunit, hvalue, -, -⟩ := ofBinary_spec hm e
  have hp : (0 : ℝ) < 2 ^ e := by positivity
  have hone : (1 : ℝ) ≤ m := by exact_mod_cast hm
  have hunit' : (0 : ℝ) < (ofBinary m e).unit := by exact_mod_cast hunit
  have hvalue' : 0 < (ofBinary m e).value := by
    have : (0 : ℝ) < (ofBinary m e).value := by
      rw [← hvalue]
      positivity
    exact_mod_cast this
  have hmag := pow_magnitude_le hunit hvalue'
  rw [← hvalue] at hmag
  have hmag' := le_of_mul_le_mul_right hmag hunit'
  generalize (ofBinary m e).magnitude = top at *
  have hstep : (10 : ℝ) ^ (top - 1) = 10 ^ 16 * 10 ^ (top - 17) := by
    rw [show top - 1 = 16 + (top - 17) by ring, zpow_add₀ (by norm_num)]
    norm_num
  have hlow : 0 ≤ ((m : ℝ) - reach m e) * 2 ^ e :=
    mul_nonneg (by linarith [reach_le m e]) hp.le
  have hwide : (10 : ℝ) ^ (top - 17) <
      ((m : ℝ) + 1 / 2) * 2 ^ e - ((m : ℝ) - reach m e) * 2 ^ e := by
    have hsteps : 10 ^ 16 * (10 : ℝ) ^ (top - 17) ≤ m * 2 ^ e := hstep ▸ hmag'
    unfold reach
    split_ifs with hpower
    · rw [hpower.1] at hsteps ⊢
      push_cast at hsteps ⊢
      norm_num at hsteps ⊢
      linarith
    · have hm' : (m : ℝ) < 10 ^ 16 := by
        have : m < 10 ^ 16 := hbits.trans (by norm_num)
        exact_mod_cast this
      have hlt : 10 ^ 16 * (10 : ℝ) ^ (top - 17) < 10 ^ 16 * 2 ^ e :=
        hsteps.trans_lt (mul_lt_mul_of_pos_right hm' hp)
      have := lt_of_mul_lt_mul_left hlt (by norm_num)
      push_cast
      linarith
  obtain ⟨k, hk, hk'⟩ := exists_multiple hlow (by positivity) hwide
  refine ⟨k, ?_⟩
  rw [contains_ofBinary hm]
  split_ifs
  · exact ⟨hk.le, hk'.le⟩
  · exact ⟨hk, hk'⟩

end Interval

theorem digits_spec {round : Binary.Rounding} (hround : Binary.Neighbouring round) {m : ℕ} {e : ℤ}
    (hm : 0 < m) (hbits : m < 2 ^ 53) (he : -1074 ≤ e) (hnormal : 2 ^ 52 ≤ m ∨ e = -1074) :
    0 < (digits round m e).1 ∧
    nearest ((digits round m e).1 * 10 ^ (digits round m e).2) = m * 2 ^ e := by
  obtain ⟨hunit, hvalue, -, -⟩ := Interval.ofBinary_spec hm e
  let find (n : ℕ) : Option (ℕ × ℤ) :=
    ((Interval.ofBinary m e).onGrid? round ((Interval.ofBinary m e).magnitude - n)).map
      fun d => (d, (Interval.ofBinary m e).magnitude - n)
  have hfound : ((List.range 18).findSome? find).isSome := by
    obtain ⟨k, hk⟩ := Interval.exists_contains hm (e := e) hbits
    rw [List.findSome?_isSome_iff]
    refine ⟨17, by simp, ?_⟩
    rw [Option.isSome_map]
    exact Interval.isSome_onGrid? round hunit hvalue (Interval.contains_value hm e) hk
  obtain ⟨hit, hhit⟩ := Option.isSome_iff_exists.mp hfound
  have hdigits : digits round m e = hit := by
    change ((List.range 18).findSome? find).getD (0, 0) = hit
    rw [hhit, Option.getD_some]
  obtain ⟨n, -, hn⟩ := List.exists_of_findSome?_eq_some hhit
  obtain ⟨d, hd, rfl⟩ := Option.map_eq_some_iff.mp hn
  have hcontains := Interval.contains_of_onGrid? hround hunit hd
  rw [hdigits]
  exact ⟨Interval.pos_of_contains hm hcontains,
    Interval.nearest_of_contains hm hbits he hnormal hcontains⟩

end Shortest

namespace Literal

theorem isRounded_magnitude (l : Literal) :
    IsRounded (Float.ofScientific l.digits (l.exponent < 0) l.exponent.natAbs)
      (l.digits * 10 ^ l.exponent) := by
  have h := isRounded_ofScientific l.digits (l.exponent < 0) l.exponent.natAbs
  have hexponent : (if decide (l.exponent < 0) = true then -(l.exponent.natAbs : ℤ)
      else l.exponent.natAbs) = l.exponent := by
    split_ifs with hneg <;> simp only [decide_eq_true_eq] at hneg <;> omega
  rwa [hexponent] at h

/-- The shortest decimal of a double, in any writing, is read as the double. -/
theorem toFloat_of_digits {x : Float} {negative : Bool} {m : ℕ} {e : ℤ}
    (hx : Binary.ofFloat x = .finite negative m e) (hm : 0 < m) {round : Binary.Rounding}
    (hround : Binary.Neighbouring round) {l : Literal} (hsign : l.negative = negative)
    (hl : (l.digits : ℝ) * 10 ^ l.exponent =
      (Shortest.digits round m e).1 * 10 ^ (Shortest.digits round m e).2) :
    l.toFloat = x := by
  obtain ⟨hfinite, hreal⟩ := of_ofFloat hx
  obtain ⟨hbits, he, hnormal⟩ := canonical_of_ofFloat hx hm
  obtain ⟨-, hnearest⟩ := Shortest.digits_spec hround hm hbits he hnormal
  have hrounded := l.isRounded_magnitude
  rw [hl] at hrounded
  have hvalue : (0 : ℝ) < m * 2 ^ e := by
    have : (0 : ℝ) < m := by exact_mod_cast hm
    positivity
  have hsigned := signedNearest_of_nonneg (x := ((Shortest.digits round m e).1 : ℝ) *
    10 ^ (Shortest.digits round m e).2) (by positivity)
  rw [hnearest] at hsigned
  unfold toFloat
  rw [hsign]
  cases negative with
  | false =>
    have hreal' : toReal x = m * 2 ^ e := hreal
    exact hrounded.eq_of_nearest hfinite (hreal'.trans_ne hvalue.ne') (hsigned.trans hreal'.symm)
  | true =>
    have hreal' : toReal (-x) = m * 2 ^ e := by
      rw [toReal_neg, hreal]
      exact neg_neg _
    have hz := hrounded.eq_of_nearest ((isFinite_neg x).trans hfinite)
      (hreal'.trans_ne hvalue.ne') (hsigned.trans hreal'.symm)
    dsimp only
    rw [if_pos rfl, hz, neg_neg_eq]

end Literal
end Toolpath
