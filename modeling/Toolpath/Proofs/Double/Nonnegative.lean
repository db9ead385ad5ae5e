import Toolpath.Proofs.Double.Functions

/-! # Numbers that are not negative

Squares, sums of what is not negative and roots of it are numbers, also where they are infinite.
`0 ≤ x` says at once that `x` is a number and that it is not below zero.
-/
namespace Toolpath.Double
open Float.Model Float.Model.UnpackedFloat

theorem rounded_nonneg {r : ℝ} (h : 0 ≤ r) : 0 ≤ rounded r := by
  unfold rounded
  have hover := overflow_pos
  split_ifs with h1 h2
  · exact le_top
  · linarith
  · rw [signedNearest_of_nonneg h]
    exact EReal.coe_nonneg.mpr (nearest_nonneg h)

theorem zero_le_iff_value {x : Float} : 0 ≤ x ↔ x.isNaN = false ∧ 0 ≤ value x := by
  have hz : value 0 = 0 := (value_of_isFinite isFinite_zero).trans (congrArg _ toReal_zero)
  rw [le_iff, hz, and_iff_right (isNaN_of_isFinite isFinite_zero)]

theorem IsRounded.zero_le {z : Float} {r : ℝ} (h : IsRounded z r) (hr : 0 ≤ r) : 0 ≤ z :=
  zero_le_iff_value.mpr ⟨h.not_nan, h.value_eq ▸ rounded_nonneg hr⟩

/-- What is at least a positive double is positive when it is rounded, be it to infinity. -/
theorem IsRounded.pos {z : Float} {r b : ℝ} (h : IsRounded z r) (hb : IsGrid b) (h0 : 0 < b)
    (hr : b ≤ r) : 0 < z := by
  by_cases hz : z.isFinite = true
  · rw [lt_iff_toReal isFinite_zero hz, toReal_zero]
    exact h0.trans_le (h.ge_of_ge hz hb hr)
  · have hover : overflow ≤ r := by
      by_contra hlt
      have habs : |r| < overflow := by
        rw [abs_of_pos (h0.trans_le hr)]
        exact not_le.mp hlt
      exact hz (h.isFinite_iff.mpr habs)
    rw [lt_iff, h.value_eq, rounded, if_pos hover, value_of_isFinite isFinite_zero]
    exact ⟨rfl, h.not_nan, EReal.coe_lt_top _⟩

theorem cases_of_zero_le {x : Float} (h : 0 ≤ x) :
    (x.isFinite = true ∧ 0 ≤ toReal x) ∨ x.toModel.unpack = .infinity .positive := by
  obtain ⟨hn, hv⟩ := zero_le_iff_value.mp h
  rcases isFinite_or_infinity hn with hf | ⟨s, hs⟩
  · rw [value_of_isFinite hf] at hv
    exact .inl ⟨hf, EReal.coe_nonneg.mp hv⟩
  · cases s with
    | positive => exact .inr hs
    | negative =>
      unfold value at hv
      rw [hs] at hv
      exact absurd hv (not_le.mpr EReal.bot_lt_zero)

theorem zero_le_infinity : 0 ≤ Float.ofModel (.pack (.infinity .positive)) := by decide

section
variable {x y : Float}

theorem zero_le_mul_self (hx : x.isNaN = false) : 0 ≤ x * x := by
  rcases isFinite_or_infinity hx with hf | ⟨s, hs⟩
  · exact (isRounded_mul hf hf).zero_le (mul_self_nonneg _)
  · have hu : UnpackedFloat.mul .binary64 x.toModel.unpack x.toModel.unpack =
        .infinity .positive := by
      rw [hs]
      cases s <;> rfl
    change 0 ≤ Float.ofModel (.pack (UnpackedFloat.mul .binary64 _ _))
    rw [hu]
    exact zero_le_infinity

theorem zero_le_add (hx : 0 ≤ x) (hy : 0 ≤ y) : 0 ≤ x + y := by
  have hinf (h : UnpackedFloat.add .binary64 x.toModel.unpack y.toModel.unpack =
      .infinity .positive) : 0 ≤ x + y := by
    change 0 ≤ Float.ofModel (.pack (UnpackedFloat.add .binary64 _ _))
    rw [h]
    exact zero_le_infinity
  rcases cases_of_zero_le hx with ⟨hfx, hx⟩ | hux
  · rcases cases_of_zero_le hy with ⟨hfy, hy⟩ | huy
    · exact (isRounded_add hfx hfy).zero_le (add_nonneg hx hy)
    · apply hinf
      rw [huy]
      exact unpackedAdd_infinity hfx .positive
  · apply hinf
    rw [hux]
    rcases cases_of_zero_le hy with ⟨hfy, -⟩ | huy
    · exact unpackedInfinity_add hfy .positive
    · rw [huy]
      rfl

theorem zero_le_sqrt (hx : 0 ≤ x) : 0 ≤ x.sqrt := by
  rcases cases_of_zero_le hx with ⟨hf, h0⟩ | hu
  · exact (isRounded_sqrt hf h0).zero_le (Real.sqrt_nonneg _)
  · change 0 ≤ Float.ofModel (.pack (UnpackedFloat.sqrt .binary64 x.toModel.unpack))
    rw [hu]
    exact zero_le_infinity

end

theorem abs_cases (x : Float) : x.abs.isNaN = true ∨ 0 ≤ x.abs := by
  cases hn : x.abs.isNaN with
  | true => exact .inl rfl
  | false =>
    right
    refine zero_le_iff_value.mpr ⟨hn, ?_⟩
    have hv : value x.abs = valueOf x.toModel.unpack.abs := by
      unfold value
      rw [unpack_abs]
    rw [hv]
    cases x.toModel.unpack with
    | infinity s => exact le_top
    | notANumber => exact le_rfl
    | zero s => exact le_rfl
    | finite s m e hm =>
      change (0 : EReal) ≤ ((m * 2 ^ e : ℝ) : EReal)
      exact EReal.coe_nonneg.mpr (by positivity)

theorem zero_lt_sqrt {x : Float} (hx : 0 < x) : 0 < x.sqrt := by
  have hle : 0 ≤ x := (not_lt_iff_le (lt_iff.mp hx).2.1 rfl).mp (not_lt_of_lt hx)
  rcases cases_of_zero_le hle with ⟨hf, -⟩ | hu
  · rw [lt_iff_toReal isFinite_zero hf, toReal_zero] at hx
    have hleast : (2 : ℝ) ^ (-537 + -537 : ℤ) ≤ toReal x := (isGrid_toReal x).least_le hx
    have hgrid : IsGrid (2 ^ (-537 : ℤ)) := isGrid_zpow (by norm_num) (by norm_num)
    refine (isRounded_sqrt hf hx.le).pos hgrid (by positivity) (Real.le_sqrt_of_sq_le ?_)
    rwa [sq, ← zpow_add₀ two_ne_zero]
  · change 0 < Float.ofModel (.pack (UnpackedFloat.sqrt .binary64 x.toModel.unpack))
    rw [hu]
    decide

theorem isFinite_sqrt_iff {x : Float} (hx : 0 ≤ x) : x.sqrt.isFinite = true ↔ x.isFinite = true := by
  rcases cases_of_zero_le hx with ⟨hf, h0⟩ | hu
  · refine iff_of_true ?_ hf
    have hone : 1 < overflow := by simpa using isGrid_one.lt_overflow
    have hbound := (isGrid_toReal x).lt_overflow
    rw [abs_of_nonneg h0] at hbound
    rw [(isRounded_sqrt hf h0).isFinite_iff, abs_of_nonneg (Real.sqrt_nonneg _),
      Real.sqrt_lt' overflow_pos]
    nlinarith
  · have hx : ¬ x.isFinite = true := by
      change ¬ x.toModel.unpack.isFinite = true
      rw [hu]
      exact Bool.false_ne_true
    refine iff_of_false ?_ hx
    change ¬ (Float.ofModel (.pack (UnpackedFloat.sqrt .binary64 x.toModel.unpack))).isFinite = true
    rw [hu]
    decide

end Toolpath.Double
