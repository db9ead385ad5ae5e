import Toolpath.Arc.Resolve
import Toolpath.Number.Double
import Toolpath.Proofs.Double.Integers
import Toolpath.Proofs.Double.Sums

/-! # Numbers of points

There is one point for each step begun, so a longer sweep, a shorter step and a larger minimum give
no fewer points, as long as the number of steps is finite. A step can be so short that the number
overflows for a finite sweep; that sweep is then shown with the least number of points.
-/
namespace Toolpath
open Double

namespace Sampling

def degreesOf (sweep : Float) : Float := Scalar.degrees (Scalar.abs sweep)

def steps (s : Sampling Float) (sweep : Float) : Float := degreesOf sweep / s.degreesPerSample

/-- A step that settings may ask for: some way, and no more than a turn. -/
structure HasStep (s : Sampling Float) : Prop where
  pos : 0 < s.degreesPerSample
  le_turn : s.degreesPerSample ≤ 360

/-- Neither the degrees of a sweep nor their quotient by the step overflow. -/
structure InRange (s : Sampling Float) (sweep : Float) : Prop where
  degrees : |toReal sweep| * toReal Scalar.degreesPerRadian < overflow
  steps : toReal (degreesOf sweep) / toReal s.degreesPerSample < overflow

/-- One sampling asks for steps no longer, and for points no fewer than another. -/
structure Finer (t s : Sampling Float) : Prop where
  step : t.degreesPerSample ≤ s.degreesPerSample
  minimum : s.minimum ≤ t.minimum

theorem degreesPerRadian_pos : 0 < toReal Scalar.degreesPerRadian := by
  have h : (0 : Float) < Scalar.degreesPerRadian := by decide +kernel
  rwa [lt_iff_toReal isFinite_zero rfl, toReal_zero] at h

theorem degreesPerRadian_le : toReal Scalar.degreesPerRadian ≤ 64 := by
  have h : (Scalar.degreesPerRadian : Float) ≤ 64 := by decide +kernel
  have h64 : toReal 64 = (64 : ℕ) := (toReal_of_nat? (by decide +kernel)).2
  rwa [le_iff_toReal rfl rfl, h64] at h

theorem toReal_tau_le : toReal Scalar.tau ≤ 8 := by
  have h : (Scalar.tau : Float) ≤ 8 := by decide +kernel
  have h8 : toReal 8 = (8 : ℕ) := (toReal_of_nat? (by decide +kernel)).2
  rwa [le_iff_toReal rfl rfl, h8] at h

section
variable {s : Sampling Float} (h : s.HasStep)
include h

theorem HasStep.finite : s.degreesPerSample.isFinite = true := by
  have hle : 0 ≤ s.degreesPerSample :=
    (not_lt_iff_le (lt_iff.mp h.pos).2.1 rfl).mp (not_lt_of_lt h.pos)
  exact isFinite_of_between (z := 360) isFinite_zero rfl hle h.le_turn

theorem HasStep.toReal_pos : 0 < toReal s.degreesPerSample := by
  have hpos := h.pos
  rwa [lt_iff_toReal isFinite_zero h.finite, toReal_zero] at hpos

end

section
variable {sweep : Float} (hsweep : sweep.isFinite = true)
include hsweep

theorem isRounded_degreesOf :
    IsRounded (degreesOf sweep) (|toReal sweep| * toReal Scalar.degreesPerRadian) := by
  rw [← toReal_abs]
  exact isRounded_mul ((isFinite_abs sweep).trans hsweep) rfl

theorem isFinite_degreesOf_iff : (degreesOf sweep).isFinite = true ↔
    |toReal sweep| * toReal Scalar.degreesPerRadian < overflow := by
  rw [(isRounded_degreesOf hsweep).isFinite_iff,
    abs_of_nonneg (mul_nonneg (abs_nonneg _) degreesPerRadian_pos.le)]

theorem toReal_degreesOf_nonneg (h : (degreesOf sweep).isFinite = true) :
    0 ≤ toReal (degreesOf sweep) :=
  (isRounded_degreesOf hsweep).ge_of_ge h isGrid_zero
    (mul_nonneg (abs_nonneg _) degreesPerRadian_pos.le)

/-- The sweep of an arc is in range of every step but the very shortest. -/
theorem inRange_of_turn {s : Sampling Float} (hturn : sweep.abs ≤ Scalar.tau)
    (hstep : 2 ^ (-1014 : ℤ) ≤ toReal s.degreesPerSample) : s.InRange sweep := by
  have habs : |toReal sweep| ≤ 8 := by
    rw [le_iff_toReal ((isFinite_abs _).trans hsweep) rfl, toReal_abs] at hturn
    exact hturn.trans toReal_tau_le
  have hpow : (2 : ℝ) ^ (9 : ℤ) = 8 * 64 := by norm_num
  have hproduct : |toReal sweep| * toReal Scalar.degreesPerRadian ≤ 2 ^ (9 : ℤ) := by
    rw [hpow]
    exact mul_le_mul habs degreesPerRadian_le degreesPerRadian_pos.le (by norm_num)
  have hlt : |toReal sweep| * toReal Scalar.degreesPerRadian < overflow :=
    hproduct.trans_lt (zpow_lt_overflow (by norm_num))
  have hdegrees : toReal (degreesOf sweep) ≤ 2 ^ (9 : ℤ) :=
    (isRounded_degreesOf hsweep).le_of_le ((isFinite_degreesOf_iff hsweep).mpr hlt)
      (isGrid_zpow (by norm_num) (by norm_num)) hproduct
  refine ⟨hlt, ?_⟩
  calc toReal (degreesOf sweep) / toReal s.degreesPerSample
      ≤ 2 ^ (9 : ℤ) / 2 ^ (-1014 : ℤ) :=
        div_le_div₀ (by positivity) hdegrees (by positivity) hstep
    _ = 2 ^ (1023 : ℤ) := by rw [← zpow_sub₀ two_ne_zero]; norm_num
    _ < overflow := zpow_lt_overflow le_rfl

variable {s : Sampling Float} (hs : s.HasStep)
include hs

omit hsweep in
theorem isRounded_steps (h : (degreesOf sweep).isFinite = true) :
    IsRounded (s.steps sweep) (toReal (degreesOf sweep) / toReal s.degreesPerSample) :=
  isRounded_div h hs.finite hs.toReal_pos.ne'

theorem isFinite_steps_iff : (s.steps sweep).isFinite = true ↔ s.InRange sweep := by
  have hquotient (h : (degreesOf sweep).isFinite = true) : (s.steps sweep).isFinite = true ↔
      toReal (degreesOf sweep) / toReal s.degreesPerSample < overflow := by
    rw [(isRounded_steps hs h).isFinite_iff,
      abs_of_nonneg (div_nonneg (toReal_degreesOf_nonneg hsweep h) hs.toReal_pos.le)]
  constructor
  · intro h
    have hdegrees := isFinite_of_div h (isNaN_of_isFinite hs.finite)
    exact ⟨(isFinite_degreesOf_iff hsweep).mp hdegrees, (hquotient hdegrees).mp h⟩
  · intro h
    exact (hquotient ((isFinite_degreesOf_iff hsweep).mpr h.degrees)).mpr h.steps

theorem count_of_inRange (h : s.InRange sweep) :
    s.count sweep = max (min ⌈toReal (s.steps sweep)⌉₊ maxCount) s.minimum :=
  congrArg (max (min · maxCount) s.minimum)
    (ceil_of_isFinite ((isFinite_steps_iff hsweep hs).mpr h))

theorem count_of_not_inRange (h : ¬ s.InRange sweep) : s.count sweep = s.minimum := by
  have hceil : Scalar.ceil (s.steps sweep) = 0 :=
    ceil_of_not_isFinite (mt (isFinite_steps_iff hsweep hs).mp h)
  change max (min (Scalar.ceil (s.steps sweep)) maxCount) s.minimum = s.minimum
  rw [hceil, Nat.zero_min, Nat.zero_max]

end

section
variable {s t : Sampling Float} {sweep sweep' : Float} (hs : s.HasStep) (ht : t.HasStep)
  (finer : t.Finer s) (hsweep : sweep.isFinite = true) (hsweep' : sweep'.isFinite = true)
  (hle : sweep.abs ≤ sweep'.abs)
include hs ht finer hsweep hsweep' hle

/-- A finer sampling has no fewer steps, and if their number is finite, so is that of the other. -/
theorem InRange.coarser (h : t.InRange sweep') :
    s.InRange sweep ∧ toReal (s.steps sweep) ≤ toReal (t.steps sweep') := by
  have habs : |toReal sweep| ≤ |toReal sweep'| := by
    rwa [le_iff_toReal ((isFinite_abs _).trans hsweep) ((isFinite_abs _).trans hsweep'),
      toReal_abs, toReal_abs] at hle
  have hproduct : |toReal sweep| * toReal Scalar.degreesPerRadian ≤
      |toReal sweep'| * toReal Scalar.degreesPerRadian :=
    mul_le_mul_of_nonneg_right habs degreesPerRadian_pos.le
  have hfin' := (isFinite_degreesOf_iff hsweep').mpr h.degrees
  have hfin := (isFinite_degreesOf_iff hsweep).mpr (hproduct.trans_lt h.degrees)
  have hdegrees : toReal (degreesOf sweep) ≤ toReal (degreesOf sweep') :=
    (le_iff_toReal hfin hfin').mp
      ((isRounded_degreesOf hsweep).le (isRounded_degreesOf hsweep') hproduct)
  have hstep := (le_iff_toReal ht.finite hs.finite).mp finer.step
  have hquotient : toReal (degreesOf sweep) / toReal s.degreesPerSample ≤
      toReal (degreesOf sweep') / toReal t.degreesPerSample :=
    div_le_div₀ (toReal_degreesOf_nonneg hsweep' hfin') hdegrees ht.toReal_pos hstep
  have hrange : s.InRange sweep := ⟨hproduct.trans_lt h.degrees, hquotient.trans_lt h.steps⟩
  refine ⟨hrange, ?_⟩
  rw [← le_iff_toReal ((isFinite_steps_iff hsweep hs).mpr hrange)
    ((isFinite_steps_iff hsweep' ht).mpr h)]
  exact (isRounded_steps hs hfin).le (isRounded_steps ht hfin') hquotient

/-- A finer sampling of a sweep no shorter shows no fewer points, unless the number of its steps
overflows and its minimum is below what is shown of the other. -/
theorem count_le_iff :
    (s.count sweep ≤ t.count sweep' ↔ t.InRange sweep' ∨ s.count sweep ≤ t.minimum) ∧
    (¬ t.InRange sweep' → t.count sweep' = t.minimum) ∧
    (sweep'.abs ≤ Scalar.tau → 2 ^ (-1014 : ℤ) ≤ toReal t.degreesPerSample →
      s.count sweep ≤ t.count sweep') := by
  have hin (h : t.InRange sweep') : s.count sweep ≤ t.count sweep' := by
    obtain ⟨hrange, hsteps⟩ := h.coarser hs ht finer hsweep hsweep' hle
    rw [count_of_inRange hsweep hs hrange, count_of_inRange hsweep' ht h]
    exact max_le_max (min_le_min_right _ (Nat.ceil_mono hsteps)) finer.minimum
  refine ⟨⟨?_, ?_⟩, count_of_not_inRange hsweep' ht, ?_⟩
  · intro h
    refine or_iff_not_imp_left.mpr fun hout => ?_
    rwa [count_of_not_inRange hsweep' ht hout] at h
  · rintro (h | h)
    · exact hin h
    · exact h.trans (le_max_right _ _)
  · intro hturn hstep
    exact hin (inRange_of_turn hsweep' hturn hstep)

end

/-- At steps of `1e-306` degrees a full turn is shown with the six points of the minimum, and one
radian of it with as many as there can be. -/
theorem count_le_iff_overflow :
    (Sampling.of 1e-306 6 1e-9).HasStep ∧ (1 : Float).abs ≤ (Scalar.tau : Float).abs ∧
    (Sampling.of 1e-306 6 1e-9).count 1 = maxCount ∧
    ¬ (Sampling.of 1e-306 6 1e-9).InRange Scalar.tau ∧
    (Sampling.of 1e-306 6 1e-9).count Scalar.tau = 6 ∧
    ¬ (Sampling.of 1e-306 6 1e-9).count 1 ≤ (Sampling.of 1e-306 6 1e-9).count Scalar.tau := by
  have hstep : (Sampling.of 1e-306 6 1e-9).HasStep := ⟨by decide +kernel, by decide +kernel⟩
  have hfiner : (Sampling.of 1e-306 6 1e-9).Finer (Sampling.of (1e-306 : Float) 6 1e-9) :=
    ⟨by decide +kernel, le_rfl⟩
  have hle : (1 : Float).abs ≤ (Scalar.tau : Float).abs := by decide +kernel
  have hone : (Sampling.of 1e-306 6 1e-9).count (1 : Float) = maxCount := by decide +kernel
  have hout : ¬ (Sampling.of 1e-306 6 1e-9).InRange Scalar.tau := by
    rw [← isFinite_steps_iff rfl hstep]
    decide +kernel
  obtain ⟨hiff, hmin, -⟩ := count_le_iff hstep hstep hfiner rfl rfl hle
  refine ⟨hstep, hle, hone, hout, hmin hout, ?_⟩
  rw [hiff, hone]
  exact not_or.mpr ⟨hout, by decide⟩

end Sampling
end Toolpath
