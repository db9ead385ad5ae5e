import Toolpath.Proofs.Exact.Angles

/-! # Arcs given by their radius, over the reals

Both centres for a radius lie on the perpendicular bisector of the chord. How far from the chord such
a point lies, measured in half chords and positive to the left, tells its distance from both ends and
the angle under which it sees the chord. So it tells the sweep in either direction, and which of the
two centres is taken.
-/
namespace Toolpath

def Plane.LeftOf (p : Plane) (start target q : Position ℝ) : Prop :=
  0 < ((p.project target).1 - (p.project start).1) * ((p.project q).2.1 - (p.project start).2.1) -
    ((p.project target).2.1 - (p.project start).2.1) * ((p.project q).1 - (p.project start).1)

namespace Exact

open Real

/-- A point lies on the perpendicular bisector of two points, so many half chords to the left of the
middle. -/
structure OnBisector (z w : ℂ) (m : ℝ) (c : ℂ) : Prop where
  eq : c = z + (w - z) / 2 * ⟨1, m⟩

/-- The angle under which such a point sees the chord. -/
noncomputable def aperture (m : ℝ) : ℝ := Complex.arg ⟨m ^ 2 - 1, m + m⟩

theorem norm_mk {x : ℝ} (h : |x| = 1) (m : ℝ) : ‖(⟨x, m⟩ : ℂ)‖ = √(1 + m ^ 2) := by
  rw [Complex.norm_eq_sqrt_sq_add_sq, ← sq_abs x, h, one_pow]

namespace OnBisector
variable {z w c : ℂ} {m : ℝ} (hc : OnBisector z w m c)
include hc

theorem start_sub : z - c = (w - z) / 2 * ⟨-1, -m⟩ := by
  have hneg : (⟨-1, -m⟩ : ℂ) = -⟨1, m⟩ := rfl
  rw [hneg, hc.eq]
  ring

theorem target_sub : w - c = (w - z) / 2 * ⟨1, -m⟩ := by
  have htwo : (2 : ℂ) - ⟨1, m⟩ = ⟨1, -m⟩ := by
    apply Complex.ext <;> norm_num
  rw [← htwo, hc.eq]
  ring

theorem norm_start_sub : ‖z - c‖ = ‖w - z‖ / 2 * √(1 + m ^ 2) := by
  rw [hc.start_sub, norm_mul, norm_div, RCLike.norm_ofNat, norm_mk (x := -1) (by norm_num), neg_sq]

theorem norm_target_sub : ‖w - c‖ = ‖w - z‖ / 2 * √(1 + m ^ 2) := by
  rw [hc.target_sub, norm_mul, norm_div, RCLike.norm_ofNat, norm_mk (x := 1) abs_one, neg_sq]

/-- The side of the chord on which the point lies. -/
theorem cross_eq :
    (w.re - z.re) * (c.im - z.im) - (w.im - z.im) * (c.re - z.re) = ‖w - z‖ ^ 2 / 2 * m := by
  rw [Complex.sq_norm, Complex.normSq_apply, hc.eq]
  simp only [Complex.add_re, Complex.add_im, Complex.mul_re, Complex.mul_im, Complex.sub_re,
    Complex.sub_im, Complex.div_ofNat_re, Complex.div_ofNat_im]
  ring

section
variable (h : z ≠ w)
include h

theorem ends_sub_ne_zero : z - c ≠ 0 ∧ w - c ≠ 0 := by
  have hchord : 0 < ‖w - z‖ := norm_pos_iff.mpr (sub_ne_zero.mpr h.symm)
  rw [← norm_pos_iff, ← norm_pos_iff, hc.norm_start_sub, hc.norm_target_sub]
  exact ⟨by positivity, by positivity⟩

theorem arg_eq : Complex.arg ((w - c) / (z - c)) = aperture m := by
  have hchord : (w - z) / 2 ≠ 0 := div_ne_zero (sub_ne_zero.mpr h.symm) two_ne_zero
  have hpos : 0 < 1 + m ^ 2 := by positivity
  -- a positive factor leaves the angle alone, and this one clears the denominator
  have hsides : ((1 + m ^ 2 : ℝ) : ℂ) * ⟨1, -m⟩ = ⟨m ^ 2 - 1, m + m⟩ * ⟨-1, -m⟩ := by
    apply Complex.ext <;>
      simp only [Complex.mul_re, Complex.mul_im, Complex.ofReal_re, Complex.ofReal_im] <;> ring
  have hback : (⟨-1, -m⟩ : ℂ) ≠ 0 := fun h0 => by
    have hre := congrArg Complex.re h0
    norm_num at hre
  have hquotient : ((1 + m ^ 2 : ℝ) : ℂ) * ((w - c) / (z - c)) = ⟨m ^ 2 - 1, m + m⟩ := by
    rw [hc.start_sub, hc.target_sub, mul_div_mul_left _ _ hchord, mul_div_assoc', hsides,
      mul_div_cancel_right₀ _ hback]
  rw [← Complex.arg_real_mul _ hpos, hquotient, aperture]

end
end OnBisector

section
variable {m : ℝ}

theorem aperture_neg_iff : aperture m < 0 ↔ m < 0 :=
  Complex.arg_neg_iff.trans add_self_neg_iff

theorem aperture_zero : aperture 0 = π := by
  refine Complex.arg_eq_pi_iff.mpr ⟨?_, add_zero 0⟩
  norm_num

theorem aperture_ne_zero : aperture m ≠ 0 := fun h => by
  obtain ⟨hre, him⟩ := Complex.arg_eq_zero_iff.mp h
  dsimp only at hre him
  rw [add_self_eq_zero.mp him] at hre
  norm_num at hre

theorem abs_aperture_lt (h : m ≠ 0) : |aperture m| < π :=
  abs_lt.mpr ⟨Complex.neg_pi_lt_arg _,
    Complex.arg_lt_pi_iff.mpr (.inr fun h0 => h (add_self_eq_zero.mp h0))⟩

end

noncomputable def shift (r half : ℝ) : ℝ :=
  √(if 0 < |r| * |r| - half * half then |r| * |r| - half * half else 0) / half

section
variable {r half : ℝ} (h : 0 < half)
include h

theorem lt_square_iff : 0 < |r| * |r| - half * half ↔ half < |r| := by
  rw [sub_pos, mul_self_lt_mul_self_iff h.le (abs_nonneg r)]

theorem shift_eq_zero (hr : |r| ≤ half) : shift r half = 0 := by
  rw [shift, if_neg ((lt_square_iff h).not.mpr (not_lt.mpr hr)), sqrt_zero, zero_div]

theorem shift_pos (hr : half < |r|) : 0 < shift r half := by
  have hpos := (lt_square_iff h).mpr hr
  rw [shift, if_pos hpos]
  exact div_pos (sqrt_pos.mpr hpos) h

theorem half_mul_shift : half * √(1 + shift r half ^ 2) = max |r| half := by
  rcases le_or_gt |r| half with hr | hr
  · rw [max_eq_right hr, shift_eq_zero h hr, zero_pow two_ne_zero, add_zero, sqrt_one, mul_one]
  · have hpos := (lt_square_iff h).mpr hr
    have hsum : 1 + shift r half ^ 2 = (|r| / half) ^ 2 := by
      rw [shift, if_pos hpos, div_pow, sq_sqrt hpos.le]
      field_simp
      ring
    rw [max_eq_left hr.le, hsum, sqrt_sq (by positivity), mul_div_cancel₀ _ h.ne']

end

theorem ofNat_two : (@OfNat.ofNat ℝ 2 (@Scalar.instOfNat ℝ Scalar.real 2)) = 2 := Nat.cast_ofNat

section
variable (s t : ℝ × ℝ) (r : ℝ)

theorem chord_eq : @Center.chord ℝ Scalar.real .real s t = ‖complex t - complex s‖ :=
  (Complex.norm_eq_sqrt_sq_add_sq (complex t - complex s)).symm

/-- The candidates are as far from the chord, on either side. -/
theorem candidates_onBisector (chord height : ℝ) :
    OnBisector (complex s) (complex t) (height / (chord / 2))
      (complex (@Center.candidates ℝ Scalar.real s t chord height).1) ∧
    OnBisector (complex s) (complex t) (-(height / (chord / 2)))
      (complex (@Center.candidates ℝ Scalar.real s t chord height).2) := by
  unfold Center.candidates complex
  rw [ofNat_two]
  refine ⟨⟨?_⟩, ⟨?_⟩⟩ <;> apply Complex.ext <;>
    simp only [Complex.add_re, Complex.add_im, Complex.mul_re, Complex.mul_im, Complex.sub_re,
      Complex.sub_im, Complex.div_ofNat_re, Complex.div_ofNat_im] <;> ring

theorem choices_onBisector :
    OnBisector (complex s) (complex t) (shift r (‖complex t - complex s‖ / 2))
      (complex (@Center.choices ℝ Scalar.real .real s t r).1) ∧
    OnBisector (complex s) (complex t) (-shift r (‖complex t - complex s‖ / 2))
      (complex (@Center.choices ℝ Scalar.real .real s t r).2) := by
  unfold Center.choices Center.discriminant
  rw [ofNat_two, ofNat_zero, chord_eq]
  exact candidates_onBisector s t _ _

variable {s t r}

theorem shorterIsClockwise_eq {c : ℝ × ℝ} {m : ℝ} (h : complex s ≠ complex t)
    (hc : OnBisector (complex s) (complex t) m (complex c)) :
    @Center.shorterIsClockwise ℝ Scalar.real .real s t c = decide (m < 0) := by
  obtain ⟨hs, ht⟩ := hc.ends_sub_ne_zero h
  have hdecide : @Center.shorterIsClockwise ℝ Scalar.real .real s t c =
      decide (shortestSweep (Complex.arg (complex t - complex c) -
        Complex.arg (complex s - complex c)) < 0) := by
    unfold Center.shorterIsClockwise
    rw [ofNat_zero]
    rfl
  rw [hdecide, shortestSweep_arg_sub hs ht, hc.arg_eq h, decide_eq_decide]
  exact aperture_neg_iff

/-- Where the centres lie on either side of the chord, their shorter arcs turn to different sides, so
that direction and sign choose the side of the centre. -/
theorem neg_iff_of_ofRadius {turn : Turn} {c : Center ℝ} {m : ℝ} (hne : complex s ≠ complex t)
    (hr : ‖complex t - complex s‖ / 2 < |r|)
    (h : @Center.ofRadius ℝ Scalar.real .real turn s t r = .ok c)
    (hc : OnBisector (complex s) (complex t) m (complex c.place)) :
    m < 0 ↔ (turn = .clockwise ↔ 0 < r) := by
  have hlong : 0 < ‖complex t - complex s‖ := norm_pos_iff.mpr (sub_ne_zero.mpr hne.symm)
  have hshift := shift_pos (half_pos hlong) hr
  obtain ⟨hfirst, hsecond⟩ := choices_onBisector s t r
  have hopposed : @Center.Opposed ℝ Scalar.real .real s t
      (@Center.choices ℝ Scalar.real .real s t r) := by
    unfold Center.Opposed
    rw [shorterIsClockwise_eq hne hfirst, shorterIsClockwise_eq hne hsecond]
    simp [hshift, hshift.le]
  have hchoice := @Center.shorterIsClockwise_of_ofRadius ℝ Scalar.real .real turn s t r hopposed c h
  have hsign : decide (r < 0) = !decide (0 < r) := by
    have hr0 : r ≠ 0 := abs_pos.mp (lt_trans (half_pos hlong) hr)
    rw [← decide_not, decide_eq_decide, not_lt]
    exact ⟨le_of_lt, fun hle => lt_of_le_of_ne hle hr0⟩
  have hturn : (turn == .clockwise) = decide (turn = .clockwise) := rfl
  rw [shorterIsClockwise_eq hne hc, ofNat_zero, hsign, hturn, Bool.bne_not] at hchoice
  refine (decide_eq_true_iff.symm.trans (Eq.congr_left hchoice)).trans ?_
  simp

/-- How far a centre for a radius lies along the perpendicular bisector, in half chords. -/
structure IsShift (turn : Turn) (half r m : ℝ) : Prop where
  dist_eq : half * √(1 + m ^ 2) = max |r| half
  eq_zero : |r| ≤ half → m = 0
  ne_zero : half < |r| → m ≠ 0
  neg_iff : half < |r| → (m < 0 ↔ (turn = .clockwise ↔ 0 < r))

theorem ofRadius_onBisector {turn : Turn} {c : Center ℝ}
    (h : @Center.ofRadius ℝ Scalar.real .real turn s t r = .ok c) :
    1 / 10 ^ 12 < ‖complex t - complex s‖ ∧ ∃ m,
      OnBisector (complex s) (complex t) m (complex c.place) ∧
      IsShift turn (‖complex t - complex s‖ / 2) r m := by
  obtain ⟨hlong, hplace, -⟩ := (@Center.ofRadius_eq_ok_iff ℝ Scalar.real .real turn s t r c).mp h
  rw [chord_eq, epsilon_eq] at hlong
  have hpos : 0 < ‖complex t - complex s‖ := lt_trans (by positivity) hlong
  have hhalf : 0 < ‖complex t - complex s‖ / 2 := half_pos hpos
  have hne : complex s ≠ complex t := (sub_ne_zero.mp (norm_pos_iff.mp hpos)).symm
  obtain ⟨hfirst, hsecond⟩ := choices_onBisector s t r
  obtain ⟨m, hm, hside⟩ : ∃ m, OnBisector (complex s) (complex t) m (complex c.place) ∧
      (m = shift r (‖complex t - complex s‖ / 2) ∨
        m = -shift r (‖complex t - complex s‖ / 2)) := by
    rw [hplace]
    rcases Center.pick_cases (@Center.choices ℝ Scalar.real .real s t r)
      (@Center.takesFirst ℝ Scalar.real .real turn s t r) with hpick | hpick <;> rw [hpick]
    · exact ⟨_, hfirst, .inl rfl⟩
    · exact ⟨_, hsecond, .inr rfl⟩
  refine ⟨hlong, m, hm, ⟨?_, fun hr => ?_, fun hr => ?_, fun hr => ?_⟩⟩
  · have hdist := half_mul_shift (r := r) hhalf
    rcases hside with rfl | rfl
    · exact hdist
    · rwa [neg_sq]
  · rcases hside with rfl | rfl <;> simp [shift_eq_zero hhalf hr]
  · rcases hside with rfl | rfl <;> simp [(shift_pos hhalf hr).ne']
  · exact neg_iff_of_ofRadius hne hr h hm

/-- A radius has a centre if start and target are apart. -/
theorem exists_ofRadius {turn : Turn} (h : 1 / 10 ^ 12 < ‖complex t - complex s‖) :
    ∃ c, @Center.ofRadius ℝ Scalar.real .real turn s t r = .ok c := by
  rw [← chord_eq, ← epsilon_eq] at h
  refine ⟨_, (@Center.ofRadius_eq ℝ Scalar.real .real turn s t r).trans (if_pos h)⟩

end

structure OfRadius (r : ℝ) (a : Arc ℝ) : Prop where
  start_distance : a.plane.distance a.start a.center =
    max |r| (a.plane.distance a.start a.target / 2)
  target_distance : a.plane.distance a.target a.center =
    max |r| (a.plane.distance a.start a.target / 2)
  left_iff : a.plane.distance a.start a.target / 2 < |r| →
    (a.plane.LeftOf a.start a.target a.center ↔ (a.turn = .counterclockwise ↔ 0 < r))
  minor : a.plane.distance a.start a.target / 2 < |r| → 0 < r → |a.sweep| < π
  major : a.plane.distance a.start a.target / 2 < |r| → r < 0 → π < |a.sweep|
  half : |r| ≤ a.plane.distance a.start a.target / 2 → |a.sweep| = π
  chord_eq : a.plane.distance a.start a.target = 2 * a.radius * sin (|a.sweep| / 2)

section
variable {s : Sampling ℝ} {a : Arc ℝ} {r m : ℝ} (hfits : Fits s a)
  (hchord : 0 < a.plane.distance a.start a.target)
  (hcenter : OnBisector (complex (a.plane.planar a.start)) (complex (a.plane.planar a.target)) m
    (complex (a.plane.planar a.center)))
include hcenter

theorem distance_center :
    a.plane.distance a.start a.center =
      a.plane.distance a.start a.target / 2 * √(1 + m ^ 2) ∧
    a.plane.distance a.target a.center =
      a.plane.distance a.start a.target / 2 * √(1 + m ^ 2) := by
  simp only [← norm_complex_sub]
  rw [hcenter.norm_start_sub, hcenter.norm_target_sub, norm_sub_rev]
  exact ⟨rfl, rfl⟩

include hchord

theorem leftOf_iff : a.plane.LeftOf a.start a.target a.center ↔ 0 < m := by
  have hcross := hcenter.cross_eq
  rw [norm_sub_rev, norm_complex_sub] at hcross
  have hleft : a.plane.LeftOf a.start a.target a.center ↔
      0 < a.plane.distance a.start a.target ^ 2 / 2 * m := by
    rw [← hcross]
    rfl
  rw [hleft, mul_pos_iff_of_pos_left (by positivity)]

/-- The ends as seen from the centre. -/
theorem vector_ends : vector a a.start ≠ 0 ∧ vector a a.target ≠ 0 ∧
    Complex.arg (vector a a.target / vector a a.start) = aperture m := by
  have hne : complex (a.plane.planar a.start) ≠ complex (a.plane.planar a.target) := by
    rwa [← sub_ne_zero, ← norm_pos_iff, norm_complex_sub]
  obtain ⟨hstart, htarget⟩ := hcenter.ends_sub_ne_zero hne
  exact ⟨hstart, htarget, hcenter.arg_eq hne⟩

include hfits

theorem abs_sweep_eq : |a.sweep| =
    if (m < 0 ↔ a.turn = .clockwise) then |aperture m| else 2 * π - |aperture m| := by
  obtain ⟨hstart, htarget, harg⟩ := vector_ends hchord hcenter
  rw [hfits.sweep_eq, sweep_arg_sub hstart htarget, harg,
    abs_sweep aperture_ne_zero (Complex.abs_arg_le_pi _)]
  exact if_congr (iff_congr aperture_neg_iff .rfl) rfl rfl

theorem chord_eq_sin :
    a.plane.distance a.start a.target = 2 * a.radius * sin (|a.sweep| / 2) := by
  obtain ⟨hstart, htarget, harg⟩ := vector_ends hchord hcenter
  obtain ⟨hdist, hdist'⟩ := distance_center hcenter
  have hnorm : ‖vector a a.target‖ = ‖vector a a.start‖ := by
    rw [norm_vector, norm_vector, hdist, hdist']
  have hsub : vector a a.target - vector a a.start =
      complex (a.plane.planar a.target) - complex (a.plane.planar a.start) := by
    rw [vector_eq, vector_eq, sub_sub_sub_cancel_right]
  have hunder := norm_sub_of_norm_eq hstart hnorm
  rw [hsub, norm_sub_rev, norm_complex_sub, harg, ← hfits.radius_eq] at hunder
  rw [hunder, abs_sweep_eq hfits hchord hcenter]
  split
  · rfl
  · rw [sub_div, mul_div_cancel_left₀ _ two_ne_zero, sin_pi_sub]

theorem ofRadius_of_onBisector
    (hm : IsShift a.turn (a.plane.distance a.start a.target / 2) r m) : OfRadius r a where
  start_distance := (distance_center hcenter).1.trans hm.dist_eq
  target_distance := (distance_center hcenter).2.trans hm.dist_eq
  left_iff hr := by
    have hturn : a.turn = .counterclockwise ↔ ¬ a.turn = .clockwise := by cases a.turn <;> simp
    have hright : 0 < m ↔ ¬ m < 0 :=
      ⟨fun h => not_lt.mpr h.le, fun h => lt_of_le_of_ne (not_lt.mp h) (hm.ne_zero hr).symm⟩
    rw [leftOf_iff hchord hcenter, hright, hm.neg_iff hr, hturn, not_iff]
  minor hr h0 := by
    have hshorter : m < 0 ↔ a.turn = .clockwise := (hm.neg_iff hr).trans (iff_true_right h0)
    rw [abs_sweep_eq hfits hchord hcenter, if_pos hshorter]
    exact abs_aperture_lt (hm.ne_zero hr)
  major hr h0 := by
    have hlonger : ¬ (m < 0 ↔ a.turn = .clockwise) := by
      rw [hm.neg_iff hr, iff_false_right (not_lt.mpr h0.le)]
      exact not_iff_self
    rw [abs_sweep_eq hfits hchord hcenter, if_neg hlonger]
    linarith [abs_aperture_lt (hm.ne_zero hr)]
  half hr := by
    -- the centre is the middle of the chord, where either way around is half a turn
    rw [abs_sweep_eq hfits hchord hcenter, hm.eq_zero hr, aperture_zero, abs_of_pos pi_pos]
    split <;> ring
  chord_eq := chord_eq_sin hfits hchord hcenter

end

section
variable {s : Sampling ℝ} {turn : Turn} {start : Position ℝ} {words : AxisWords ℝ} {frame : Frame}
  {raw : ℝ} (hoffsets : frame.plane.offsets words = (none, none)) (hr : words.r = some raw)
include hoffsets hr

theorem centerOf_eq_ofRadius : @Arc.centerOf ℝ Scalar.real .real turn (frame.plane.planar start)
      (frame.plane.planar (target frame start words)) words frame =
    @Center.ofRadius ℝ Scalar.real .real turn (frame.plane.planar start)
      (frame.plane.planar (target frame start words)) (toMm frame.units raw) :=
  @Arc.centerOf_eq_ofRadius ℝ Scalar.real .real turn _ _ words frame raw hoffsets hr

/-- A radius gives an arc just if start and target are apart and the arc is not too small. -/
theorem exists_resolve_ofRadius : (∃ fitted, resolve s turn start words frame = .ok fitted) ↔
    1 / 10 ^ 12 < frame.plane.distance start (target frame start words) ∧
    1 / 10 ^ 12 < max |toMm frame.units raw|
      (frame.plane.distance start (target frame start words) / 2) := by
  have hradius {c : Center ℝ} (hc : @Center.ofRadius ℝ Scalar.real .real turn
      (frame.plane.planar start) (frame.plane.planar (target frame start words))
      (toMm frame.units raw) = .ok c) :
      1 / 10 ^ 12 < frame.plane.distance start (target frame start words) ∧
      ‖complex (frame.plane.planar start) - complex c.place‖ = max |toMm frame.units raw|
        (frame.plane.distance start (target frame start words) / 2) := by
    obtain ⟨hlong, m, hplace, hm⟩ := ofRadius_onBisector hc
    rw [norm_sub_rev, norm_complex_sub] at hlong hm
    refine ⟨hlong, ?_⟩
    rw [hplace.norm_start_sub, norm_sub_rev, norm_complex_sub, hm.dist_eq]
  rw [exists_resolve_iff, centerOf_eq_ofRadius hoffsets hr]
  constructor
  · rintro ⟨c, hc, hlong⟩
    obtain ⟨hchord, hdist⟩ := hradius hc
    exact ⟨hchord, hdist ▸ hlong⟩
  · rintro ⟨hchord, hlong⟩
    rw [← norm_complex_sub, norm_sub_rev] at hchord
    obtain ⟨c, hc⟩ := exists_ofRadius hchord
    exact ⟨c, hc, (hradius hc).2 ▸ hlong⟩

end

/-- A line with a radius resolves to an arc just if start and target are apart and the arc is not too
small. -/
theorem resolve_ofRadius {s : Sampling ℝ} {turn : Turn} {start : Position ℝ} {words : AxisWords ℝ}
    {frame : Frame} {raw : ℝ} (hoffsets : frame.plane.offsets words = (none, none))
    (hr : words.r = some raw) :
    ((∃ fitted, resolve s turn start words frame = .ok fitted) ↔
      1 / 10 ^ 12 < frame.plane.distance start (target frame start words) ∧
      1 / 10 ^ 12 < max |toMm frame.units raw|
        (frame.plane.distance start (target frame start words) / 2)) ∧
    ∀ fitted, resolve s turn start words frame = .ok fitted →
      fitted.arc.turn = turn ∧ fitted.arc.plane = frame.plane ∧ fitted.arc.start = start ∧
      fitted.arc.target = target frame start words ∧
      OfRadius (toMm frame.units raw) fitted.arc := by
  refine ⟨exists_resolve_ofRadius hoffsets hr, fun fitted h => ?_⟩
  obtain ⟨hfits, hturn, hplane, hstart, htarget⟩ := resolve_fits h
  refine ⟨hturn, hplane, hstart, htarget, ?_⟩
  obtain ⟨c, hc, hplace⟩ := resolve_center h
  rw [centerOf_eq_ofRadius hoffsets hr] at hc
  obtain ⟨hlong, m, hm, hshift⟩ := ofRadius_onBisector hc
  rw [norm_sub_rev, norm_complex_sub] at hlong hshift
  rw [← hplace] at hm
  rw [← htarget, ← hstart, ← hplane] at hm hshift hlong
  rw [← hturn] at hshift
  exact ofRadius_of_onBisector hfits (lt_trans (by positivity) hlong) hm hshift

/-- A chord of six and a negative radius of five. -/
theorem resolve_ofRadius_major : ∃ fitted,
    resolve ⟨10, 6, by decide, 0⟩ .clockwise ⟨0, 0, 0⟩ { x := some 6, r := some (-5) } {} =
      .ok fitted ∧
    fitted.arc.plane.distance fitted.arc.start fitted.arc.center = 5 ∧
    π < |fitted.arc.sweep| := by
  have hradius : toMm .millimeters (-5) = -5 := toMm_millimeters _
  have htarget : target {} ⟨0, 0, 0⟩ { x := some 6, r := some (-5) } = ⟨6, 0, 0⟩ := by
    change (⟨toMm .millimeters 6, 0, 0⟩ : Position ℝ) = _
    rw [toMm_millimeters]
  have hchord : Plane.distance .xy ⟨0, 0, 0⟩ ⟨6, 0, 0⟩ = 6 := by
    change √((0 - 6) ^ 2 + (0 - 0) ^ 2) = (6 : ℝ)
    rw [sqrt_eq_iff_mul_self_eq (by norm_num) (by norm_num)]
    norm_num
  have habs : |(-5 : ℝ)| = 5 := by norm_num
  obtain ⟨hiff, harc⟩ := @resolve_ofRadius ⟨10, 6, by decide, 0⟩ .clockwise ⟨0, 0, 0⟩
    { x := some 6, r := some (-5) } {} (-5) rfl rfl
  rw [htarget, hradius, hchord, habs] at hiff
  obtain ⟨fitted, h⟩ := hiff.mpr ⟨by norm_num, by norm_num⟩
  obtain ⟨-, hplane, hstart, hend, hshape⟩ := harc fitted h
  rw [hradius] at hshape
  have hlength : fitted.arc.plane.distance fitted.arc.start fitted.arc.target = 6 := by
    rw [hplane, hstart, hend, htarget, hchord]
  have hlong : fitted.arc.plane.distance fitted.arc.start fitted.arc.target / 2 < |(-5 : ℝ)| := by
    rw [hlength, habs]
    norm_num
  refine ⟨fitted, h, ?_, hshape.major hlong (by norm_num)⟩
  rw [hshape.start_distance, max_eq_left hlong.le, habs]

end Exact
end Toolpath
