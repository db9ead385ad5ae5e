import Toolpath.Proofs.Arc.Choice
import Toolpath.Proofs.Arc.Elementary
import Toolpath.Proofs.Arc.Resolution
import Toolpath.Proofs.Double.Decimal
import Toolpath.Proofs.Double.Squares
import Toolpath.Proofs.Machine.Steps

/-! # Radii that are too short

A radius that does not reach the middle of the chord is reported, and the centre is put there. Which
radius this is, is decided by the difference of two squares, and rounding does not change the
verdict. Only where both squares are infinite there is no difference, so that a short radius is not
reported and a long one puts the centre in the middle all the same.
-/
namespace Toolpath

open Double

namespace Center
variable {E : Elementary Float}

/-- How far from the middle of the chord the centre for a radius is put. -/
def height (radius halfChord : Float) : Float :=
  let discriminant := radius * radius - halfChord * halfChord
  Scalar.sqrt (if 0 < discriminant then discriminant else 0)

theorem height_eq_zero_iff (radius halfChord : Float) :
    height radius halfChord = 0 ↔ ¬ 0 < radius * radius - halfChord * halfChord := by
  unfold height
  dsimp only
  split
  next hpos =>
    have h := zero_lt_sqrt hpos
    refine iff_of_false ?_ (not_not.mpr hpos)
    intro hzero
    change (radius * radius - halfChord * halfChord).sqrt = 0 at hzero
    rw [hzero] at h
    exact absurd h (by decide)
  next hnot => exact iff_of_true (by decide) hnot

theorem ofRadius_eq_ok {turn : Turn} {start target : Float × Float} {r chord : Float}
    {c : Center Float} (h : ofRadius E turn start target r = .ok c)
    (hchord : chord = E.hypot (target.1 - start.1) (target.2 - start.2)) :
    epsilon < chord ∧
    (c.clamped = if r.abs * r.abs - chord / 2 * (chord / 2) < 0 then some ⟨r.abs, chord / 2⟩
      else none) ∧
    ((c.first, c.second) = (candidates start target chord (height r.abs (chord / 2))).1 ∨
      (c.first, c.second) = (candidates start target chord (height r.abs (chord / 2))).2) := by
  subst hchord
  obtain ⟨hlong, hplace, hclamped⟩ := ofRadius_eq_ok_iff.mp h
  refine ⟨hlong, hclamped, ?_⟩
  rcases pick_cases (choices E start target r) (takesFirst E turn start target r) with hpick | hpick
  · exact .inl (hplace.trans hpick)
  · exact .inr (hplace.trans hpick)

/-- Half of a chord that is long enough is not too small to be squared. -/
theorem halfChord_range {chord : Float} (h : epsilon < chord) :
    0 ≤ chord / 2 ∧ ((chord / 2).isFinite = true → 2 ^ (-510 : ℤ) ≤ toReal (chord / 2)) := by
  have heps : (epsilon : Float).isFinite = true := by decide +kernel
  have hzero : (0 : Float) ≤ epsilon := by decide +kernel
  have htwo : toReal 2 = 2 := by
    change ((4503599627370496 : ℕ) : ℝ) * 2 ^ (-51 : ℤ) = 2
    norm_num
  have hlow : (2 : ℝ) ^ (-100 : ℤ) ≤ toReal epsilon := by
    refine (isRounded_ofScientific 1 true 12).ge_of_ge heps (isGrid_zpow (by norm_num) (by norm_num)) ?_
    norm_num
  have hpos : 0 ≤ chord := by
    obtain ⟨-, hn, hv⟩ := lt_iff.mp h
    exact zero_le_iff_value.mpr ⟨hn, (zero_le_iff_value.mp hzero).2.trans hv.le⟩
  rcases cases_of_zero_le hpos with ⟨hf, h0⟩ | hu
  · have hr := isRounded_div hf (y := 2) rfl (htwo ▸ two_ne_zero)
    rw [htwo] at hr
    refine ⟨hr.zero_le (by positivity), fun hhalf => ?_⟩
    have hlt := (lt_iff_toReal heps hf).mp h
    have hge : (2 : ℝ) ^ (-101 : ℤ) ≤ toReal chord / 2 := by
      rw [show (-101 : ℤ) = -100 - 1 from rfl, zpow_sub_one₀ two_ne_zero, ← div_eq_mul_inv]
      exact div_le_div_of_nonneg_right (hlow.trans hlt.le) zero_le_two
    exact (zpow_le_zpow_right₀ one_le_two (by norm_num)).trans
      (hr.ge_of_ge hhalf (isGrid_zpow (by norm_num) (by norm_num)) hge)
  · have hhalf : chord / 2 = .ofModel (.pack (.infinity .positive)) := by
      change Float.ofModel (.pack (Float.Model.UnpackedFloat.div .binary64 _ _)) = _
      rw [hu]
      rfl
    rw [hhalf]
    exact ⟨zero_le_infinity, fun hfin => absurd hfin (by decide)⟩

end Center

namespace Arc
variable {E : Elementary Float}

def askedRadius (frame : Frame) (raw : Float) : Float := (frame.units.toMm raw).abs

def chord (E : Elementary Float) (start : Position Float) (words : AxisWords Float)
    (frame : Frame) : Float :=
  E.hypot ((frame.plane.project (frame.target start words)).1 - (frame.plane.project start).1)
    ((frame.plane.project (frame.target start words)).2.1 - (frame.plane.project start).2.1)

/-- The places of the centre at a height above the middle of the chord, on either side of it. -/
def places (E : Elementary Float) (start : Position Float) (words : AxisWords Float)
    (frame : Frame) (h : Float) : (Float × Float) × (Float × Float) :=
  Center.candidates ((frame.plane.project start).1, (frame.plane.project start).2.1)
    ((frame.plane.project (frame.target start words)).1,
      (frame.plane.project (frame.target start words)).2.1) (chord E start words frame) h

/-- A radius is reported just if it is shorter than half the chord and its square is finite. The
centre is in the middle of the chord unless the radius is longer than half the chord and the square
of that is finite. -/
theorem resolve_clamped {s : Sampling Float} {turn : Turn} {start : Position Float}
    {words : AxisWords Float} {frame : Frame} {fitted : Fitted Float} {raw : Float}
    (h : resolve E s turn start words frame = .ok fitted)
    (hoffsets : frame.plane.offsets words = (none, none)) (hr : words.r = some raw) :
    Machine.clampFindings fitted =
      (if askedRadius frame raw < chord E start words frame / 2 ∧
          (askedRadius frame raw * askedRadius frame raw).isFinite = true then
        [.radiusTooSmall (askedRadius frame raw) (chord E start words frame / 2)]
      else []) ∧
    let height := Center.height (askedRadius frame raw) (chord E start words frame / 2)
    (height = 0 ↔ ¬ (chord E start words frame / 2 < askedRadius frame raw ∧
        (chord E start words frame / 2 * (chord E start words frame / 2)).isFinite = true)) ∧
      (((frame.plane.project fitted.arc.center).1, (frame.plane.project fitted.arc.center).2.1) =
          (places E start words frame height).1 ∨
        ((frame.plane.project fitted.arc.center).1, (frame.plane.project fitted.arc.center).2.1) =
          (places E start words frame height).2) := by
  obtain ⟨c, hc, -, -, -, -, hfitted⟩ := resolve_eq_ok E s turn start h
  have hcenter : frame.plane.project fitted.arc.center =
      (c.first, c.second, (frame.plane.project start).2.2) := by
    rw [hfitted]
    exact Plane.project_unproject ..
  have hclamp : fitted.clamped = c.clamped := by rw [hfitted]
  rw [centerOf, hoffsets, hr] at hc
  have hchord : chord E start words frame = E.hypot _ _ := rfl
  have hradius : askedRadius frame raw = (frame.units.toMm raw).abs := rfl
  obtain ⟨hlong, hclamped, hplace⟩ := Center.ofRadius_eq_ok hc hchord
  obtain ⟨h0, hlow⟩ := Center.halfChord_range hlong
  obtain ⟨hneg, hpos⟩ := sub_mul_self_sign_iff (abs_cases (frame.units.toMm raw)) h0 hlow
  rw [← hradius] at hclamped hplace hneg hpos
  refine ⟨?_, ?_, ?_⟩
  · unfold Machine.clampFindings
    rw [hclamp, hclamped, if_congr hneg rfl rfl]
    split <;> rfl
  · exact (Center.height_eq_zero_iff _ _).trans (not_congr hpos)
  · rw [hcenter]
    exact hplace

/-- Radius and half the chord are both too large to be squared, and a radius shorter than half the
chord is not reported. -/
theorem resolve_clamped_large :
    ∃ fitted, resolve .onAxes (.of 10 6 1e-9) .clockwise .origin { x := some 1e160, r := some 1e155 }
        {} = .ok fitted ∧
      askedRadius {} 1e155 < chord .onAxes .origin { x := some 1e160, r := some 1e155 } {} / 2 ∧
      Machine.clampFindings fitted = [] := by
  have hok : (resolve .onAxes (.of 10 6 1e-9) .clockwise .origin
      { x := some 1e160, r := some 1e155 } {}).isOk = true := by decide +kernel
  have hinfinite : ¬ (askedRadius {} 1e155 * askedRadius {} 1e155).isFinite = true := by
    decide +kernel
  cases h : resolve .onAxes (.of 10 6 1e-9) .clockwise .origin
      { x := some 1e160, r := some 1e155 } {} with
  | error why =>
    rw [h] at hok
    cases hok
  | ok fitted =>
    refine ⟨fitted, rfl, by decide +kernel, ?_⟩
    exact (resolve_clamped h rfl rfl).1.trans (if_neg fun hshort => hinfinite hshort.2)

end Arc
end Toolpath
