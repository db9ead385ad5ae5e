import Toolpath.Proofs.Exact.Reals

/-! # Angles and sweeps over the reals

Wrapping an angle and bringing it to the side of a direction both add a full turn or take it off, so
the angle stays the same modulo full turns. The wrapped difference of two angles is the argument of
a quotient, and its size and sign tell the sweep in either direction.
-/
namespace Toolpath.Exact

open Real

theorem coe_sweep (turn : Turn) (delta : ℝ) : (sweep turn delta : Angle) = delta := by
  cases turn with
  | clockwise =>
    rw [sweep_clockwise]
    split
    · rw [Angle.coe_sub, Angle.coe_two_pi, sub_zero]
    · rfl
  | counterclockwise =>
    rw [sweep_counterclockwise]
    split
    · rw [Angle.coe_add, Angle.coe_two_pi, add_zero]
    · rfl

theorem coe_shortestSweep (delta : ℝ) : (shortestSweep delta : Angle) = delta := by
  rw [shortestSweep_eq]
  split_ifs
  · rw [Angle.coe_sub, Angle.coe_two_pi, sub_zero]
  · rw [Angle.coe_add, Angle.coe_two_pi, add_zero]
  · rfl

section
variable {delta : ℝ} (h : |delta| < 2 * π)
include h

theorem shortestSweep_mem : -π < shortestSweep delta ∧ shortestSweep delta ≤ π := by
  obtain ⟨hlower, hupper⟩ := abs_lt.mp h
  rw [shortestSweep_eq]
  split_ifs <;> constructor <;> linarith [pi_pos]

/-- Wrapping does not change the sweep. -/
theorem sweep_shortestSweep (turn : Turn) :
    sweep turn (shortestSweep delta) = sweep turn delta := by
  obtain ⟨hlower, hupper⟩ := abs_lt.mp h
  have hpi := pi_pos
  cases turn with
  | clockwise =>
    rw [sweep_clockwise, sweep_clockwise, shortestSweep_eq]
    split_ifs <;> linarith
  | counterclockwise =>
    rw [sweep_counterclockwise, sweep_counterclockwise, shortestSweep_eq]
    split_ifs <;> linarith

end

section
variable {u v : ℂ}

theorem abs_arg_sub_lt (u v : ℂ) : |Complex.arg v - Complex.arg u| < 2 * π := by
  rw [abs_lt]
  constructor <;>
    linarith [Complex.neg_pi_lt_arg u, Complex.neg_pi_lt_arg v, Complex.arg_le_pi u,
      Complex.arg_le_pi v]

theorem shortestSweep_arg_sub (hu : u ≠ 0) (hv : v ≠ 0) :
    shortestSweep (Complex.arg v - Complex.arg u) = Complex.arg (v / u) := by
  have hself := Angle.toReal_coe_eq_self_iff.mpr (shortestSweep_mem (abs_arg_sub_lt u v))
  rw [← hself, coe_shortestSweep, Angle.coe_sub, ← Complex.arg_div_coe_angle hv hu,
    Complex.arg_coe_angle_toReal_eq_arg]

theorem sweep_arg_sub (hu : u ≠ 0) (hv : v ≠ 0) (turn : Turn) :
    sweep turn (Complex.arg v - Complex.arg u) = sweep turn (Complex.arg (v / u)) := by
  rw [← shortestSweep_arg_sub hu hv, sweep_shortestSweep (abs_arg_sub_lt u v)]

/-- The chord under an angle about the centre. -/
theorem norm_sub_of_norm_eq (hu : u ≠ 0) (h : ‖v‖ = ‖u‖) :
    ‖v - u‖ = 2 * ‖u‖ * sin (|Complex.arg (v / u)| / 2) := by
  have hone : ‖v / u‖ = 1 := by
    rw [norm_div, h, div_self (norm_ne_zero_iff.mpr hu)]
  have hexp : Complex.exp (Complex.I * Complex.arg (v / u)) = v / u := by
    have hpolar := Complex.norm_mul_exp_arg_mul_I (v / u)
    rwa [hone, Complex.ofReal_one, one_mul, mul_comm] at hpolar
  have hsin : |sin (Complex.arg (v / u) / 2)| = sin (|Complex.arg (v / u)| / 2) := by
    have hhalf : |Complex.arg (v / u) / 2| = |Complex.arg (v / u)| / 2 := by
      rw [abs_div, abs_two]
    rw [← hhalf, Real.abs_sin_eq_sin_abs_of_abs_le_pi]
    rw [hhalf]
    linarith [Complex.abs_arg_le_pi (v / u), pi_pos]
  have hquotient : ‖v / u - 1‖ = 2 * sin (|Complex.arg (v / u)| / 2) := by
    rw [← hexp, Complex.norm_exp_I_mul_ofReal_sub_one, norm_mul, Real.norm_two, Real.norm_eq_abs,
      hexp, hsin]
  have hsplit : v - u = u * (v / u - 1) := by
    rw [mul_sub, mul_div_cancel₀ _ hu, mul_one]
  rw [hsplit, norm_mul, hquotient]
  ring

end

/-- The sweep along the shorter arc is as large as the angle, and along the other arc it is the rest
of the turn. -/
theorem abs_sweep {theta : ℝ} (h0 : theta ≠ 0) (hpi : |theta| ≤ π) (turn : Turn) :
    |sweep turn theta| =
      if (theta < 0 ↔ turn = .clockwise) then |theta| else 2 * π - |theta| := by
  have hturn := pi_pos
  rcases lt_or_gt_of_ne h0 with hneg | hpos
  · rw [abs_of_neg hneg] at hpi ⊢
    cases turn with
    | clockwise =>
      rw [if_pos (iff_of_true hneg rfl), sweep_clockwise, if_neg (not_le.mpr hneg), abs_of_neg hneg]
    | counterclockwise =>
      rw [if_neg (by simp [hneg]), sweep_counterclockwise, if_pos hneg.le,
        abs_of_pos (by linarith)]
      ring
  · rw [abs_of_pos hpos] at hpi ⊢
    have hnot : ¬ theta < 0 := not_lt.mpr hpos.le
    cases turn with
    | clockwise =>
      rw [if_neg (by simp [hnot]), sweep_clockwise, if_pos hpos.le, abs_of_neg (by linarith)]
      ring
    | counterclockwise =>
      rw [if_pos (by simp [hnot]), sweep_counterclockwise, if_neg (not_le.mpr hpos),
        abs_of_pos hpos]

end Toolpath.Exact
