import Mathlib.Algebra.Order.Floor.Div
import Toolpath.Proofs.Double.Denotation

/-! # Natural numbers read off doubles

Rounding and reading an integer are done in natural numbers, on mantissa and exponent. They are what
they are of the real value.
-/
namespace Toolpath.Double

theorem ceilDiv_eq_ceil (num : ℕ) {den : ℕ} (h : 0 < den) :
    Binary.ceilDiv num den = ⌈(num : ℝ) / den⌉₊ := by
  have hden : (0 : ℝ) < den := Nat.cast_pos.mpr h
  refine eq_of_forall_ge_iff fun k => ?_
  rw [Binary.ceilDiv, ← Nat.ceilDiv_eq_add_pred_div, ceilDiv_le_iff_le_mul h, Nat.ceil_le,
    div_le_iff₀ hden, mul_comm]
  exact_mod_cast Iff.rfl

theorem roundHalfUp_eq_round (num : ℕ) {den : ℕ} (h : 0 < den) :
    Binary.roundHalfUp num den = (round ((num : ℝ) / den)).toNat := by
  have hden : (den : ℝ) ≠ 0 := Nat.cast_ne_zero.mpr h.ne'
  have hhalf : (num : ℝ) / den + 1 / 2 = ((2 * num + den : ℕ) : ℝ) / (2 * den : ℕ) := by
    push_cast
    field_simp
  rw [round_eq, Int.floor_toNat, hhalf, Nat.floor_div_eq_div, Binary.roundHalfUp]

theorem ratio_eq (m : ℕ) (e : ℤ) :
    ((Binary.ratio m e).1 : ℝ) / (Binary.ratio m e).2 = m * 2 ^ e := by
  obtain ⟨hpos, hratio⟩ := ratio_spec m e
  rw [hratio, mul_div_assoc, div_self (by positivity), mul_one]

theorem ceil_of_isFinite {x : Float} (h : x.isFinite = true) :
    (Binary.ofFloat x).ceil = ⌈toReal x⌉₊ := by
  obtain ⟨negative, m, e, hx⟩ := exists_ofFloat_of_isFinite h
  rw [hx, (of_ofFloat hx).2]
  cases negative with
  | false =>
    change Binary.ceilDiv (Binary.ratio m e).1 (Binary.ratio m e).2 = ⌈(m : ℝ) * 2 ^ e⌉₊
    rw [ceilDiv_eq_ceil _ (ratio_spec m e).1, ratio_eq]
  | true =>
    change 0 = ⌈-((m : ℝ) * 2 ^ e)⌉₊
    rw [Nat.ceil_eq_zero.mpr (neg_nonpos.mpr (by positivity))]

theorem ceil_of_not_isFinite {x : Float} (h : ¬ x.isFinite = true) :
    (Binary.ofFloat x).ceil = 0 := by
  cases hx : Binary.ofFloat x with
  | finite negative m e => exact absurd (of_ofFloat hx).1 h
  | _ => rfl

/-- A double is a natural number just if its value is. -/
theorem nat?_eq_some_iff {x : Float} {n : ℕ} :
    (Binary.ofFloat x).nat? = some n ↔ x.isFinite = true ∧ toReal x = n := by
  refine ⟨toReal_of_nat?, ?_⟩
  rintro ⟨hfinite, hn⟩
  obtain ⟨negative, m, e, hx⟩ := exists_ofFloat_of_isFinite hfinite
  rw [(of_ofFloat hx).2] at hn
  have hpos := (ratio_spec m e).1
  have hsign : negative = false ∨ m = 0 := by
    cases negative with
    | false => exact .inl rfl
    | true =>
      right
      by_contra hm
      have hm' : (0 : ℝ) < m * 2 ^ e := by positivity
      have hn' : -((m : ℝ) * 2 ^ e) = n := hn
      linarith [(n.cast_nonneg : (0 : ℝ) ≤ n)]
  have hvalue : (m : ℝ) * 2 ^ e = n := by
    rcases hsign with rfl | rfl
    · exact hn
    · rw [Nat.cast_zero, zero_mul, signed_zero] at hn
      rw [Nat.cast_zero, zero_mul, hn]
  rw [← ratio_eq, div_eq_iff (by positivity)] at hvalue
  have hmul : (Binary.ratio m e).1 = n * (Binary.ratio m e).2 := by exact_mod_cast hvalue
  rw [hx]
  change (if (Binary.ratio m e).1 % (Binary.ratio m e).2 = 0 ∧ (negative = false ∨ m = 0) then
    some ((Binary.ratio m e).1 / (Binary.ratio m e).2) else none) = some n
  rw [hmul, Nat.mul_mod_left, Nat.mul_div_cancel _ hpos, if_pos ⟨rfl, hsign⟩]

end Toolpath.Double
