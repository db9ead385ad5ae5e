import Mathlib
import Toolpath.Proofs.Arc.Choice
import Toolpath.Proofs.Arc.Resolution

/-! # The geometry over the reals

Positions, planes and arcs are written for every type of numbers. Here they are read over the reals,
with the true root, length, sine, cosine and angle, so that nothing is rounded and nothing overflows.
-/
namespace Toolpath

/-- The reals as the numbers of the geometry. This is no instance: a real has its operations already.
-/
@[reducible] noncomputable def Scalar.real : Scalar ℝ where
  decLt := inferInstance
  decLe := inferInstance
  ofNat n := n
  decimal digits places := digits / (10 ^ places : ℕ)
  pi := Real.pi
  tau := Real.pi + Real.pi
  degreesPerRadian := (180 : ℕ) / Real.pi
  abs x := |x|
  sqrt := Real.sqrt
  isFinite _ := true
  ceil x := ⌈x⌉₊

noncomputable def Elementary.real : Elementary ℝ where
  hypot x y := √(x ^ 2 + y ^ 2)
  sin := Real.sin
  cos := Real.cos
  atan2 y x := Complex.arg ⟨x, y⟩

noncomputable def Plane.distance (p : Plane) (q r : Position ℝ) : ℝ :=
  √(((p.project q).1 - (p.project r).1) ^ 2 + ((p.project q).2.1 - (p.project r).2.1) ^ 2)

def Plane.level {α : Type} (p : Plane) (q : Position α) : α := (p.project q).2.2

namespace Exact

noncomputable def resolve (s : Sampling ℝ) (turn : Turn) (start : Position ℝ) (words : AxisWords ℝ)
    (frame : Frame) : Except Refusal (Arc.Fitted ℝ) :=
  @Arc.resolve ℝ Scalar.real .real s turn start words frame

noncomputable def pointAt (a : Arc ℝ) (t : ℝ) : Position ℝ := @Arc.pointAt ℝ Scalar.real .real a t

noncomputable def points (a : Arc ℝ) : List (Position ℝ) :=
  @Samples.toList ℝ Scalar.real .real a.samples

noncomputable def sweep (turn : Turn) (delta : ℝ) : ℝ := @Turn.sweep ℝ Scalar.real turn delta

noncomputable def shortestSweep (delta : ℝ) : ℝ := @Toolpath.shortestSweep ℝ Scalar.real delta

noncomputable def distance (p q : Position ℝ) : ℝ := @Position.distanceTo ℝ Scalar.real p q

noncomputable def toMm (u : Units) (value : ℝ) : ℝ := @Units.toMm ℝ Scalar.real u value

noncomputable def target (frame : Frame) (start : Position ℝ) (words : AxisWords ℝ) : Position ℝ :=
  @Frame.target ℝ Scalar.real frame start words

theorem ofNat_zero : (@OfNat.ofNat ℝ 0 (@Scalar.instOfNat ℝ Scalar.real 0)) = 0 := Nat.cast_zero

theorem ofNat_one : (@OfNat.ofNat ℝ 1 (@Scalar.instOfNat ℝ Scalar.real 1)) = 1 := Nat.cast_one

theorem epsilon_eq : @Center.epsilon ℝ Scalar.real = 1 / 10 ^ 12 := by
  change ((1 : ℕ) : ℝ) / ((10 ^ 12 : ℕ) : ℝ) = 1 / 10 ^ 12
  norm_num

theorem toMm_millimeters (value : ℝ) : toMm .millimeters value = value := by
  change value * (1 : ℕ) = value
  rw [Nat.cast_one, mul_one]

theorem sweep_clockwise (delta : ℝ) :
    sweep .clockwise delta = if 0 ≤ delta then delta - 2 * Real.pi else delta := by
  unfold sweep Turn.sweep
  rw [ofNat_zero, two_mul]
  rfl

theorem sweep_counterclockwise (delta : ℝ) :
    sweep .counterclockwise delta = if delta ≤ 0 then delta + 2 * Real.pi else delta := by
  unfold sweep Turn.sweep
  rw [ofNat_zero, two_mul]
  rfl

theorem shortestSweep_eq (delta : ℝ) : shortestSweep delta =
    if Real.pi < delta then delta - 2 * Real.pi
    else if delta ≤ -Real.pi then delta + 2 * Real.pi else delta := by
  rw [two_mul]
  rfl

def vector (a : Arc ℝ) (p : Position ℝ) : ℂ :=
  ⟨(a.plane.project p).1 - (a.plane.project a.center).1,
    (a.plane.project p).2.1 - (a.plane.project a.center).2.1⟩

theorem norm_vector (a : Arc ℝ) (p : Position ℝ) : ‖vector a p‖ = a.plane.distance p a.center :=
  Complex.norm_eq_sqrt_sq_add_sq _

def complex (p : ℝ × ℝ) : ℂ := ⟨p.1, p.2⟩

theorem norm_complex_sub (p : Plane) (q r : Position ℝ) :
    ‖complex (p.planar q) - complex (p.planar r)‖ = p.distance q r :=
  Complex.norm_eq_sqrt_sq_add_sq _

theorem vector_eq (a : Arc ℝ) (p : Position ℝ) :
    vector a p = complex (a.plane.planar p) - complex (a.plane.planar a.center) := rfl

/-- The arc turns about the centre that the words ask for. -/
theorem resolve_center {s : Sampling ℝ} {turn : Turn} {start : Position ℝ} {words : AxisWords ℝ}
    {frame : Frame} {fitted : Arc.Fitted ℝ} (h : resolve s turn start words frame = .ok fitted) :
    ∃ c, @Arc.centerOf ℝ Scalar.real .real turn (frame.plane.planar start)
        (frame.plane.planar (target frame start words)) words frame = .ok c ∧
      frame.plane.planar fitted.arc.center = c.place := by
  obtain ⟨c, hc, -, -, -, -, rfl⟩ :=
    @Arc.resolve_eq_ok ℝ Scalar.real .real s turn start words frame fitted h
  refine ⟨c, hc, ?_⟩
  have hproject := frame.plane.project_unproject c.first c.second (frame.plane.project start).2.2
  exact congrArg (fun q : ℝ × ℝ × ℝ => (q.1, q.2.1)) hproject

/-- Nothing is out of range, so a line resolves to an arc just if it has a centre which is not at the
start. -/
theorem exists_resolve_iff {s : Sampling ℝ} {turn : Turn} {start : Position ℝ}
    {words : AxisWords ℝ} {frame : Frame} :
    (∃ fitted, resolve s turn start words frame = .ok fitted) ↔
    ∃ c, @Arc.centerOf ℝ Scalar.real .real turn (frame.plane.planar start)
        (frame.plane.planar (target frame start words)) words frame = .ok c ∧
      1 / 10 ^ 12 < ‖complex (frame.plane.planar start) - complex c.place‖ := by
  have hradius (c : Center ℝ) : @Arc.radiusAbout ℝ Scalar.real .real frame.plane start c =
      ‖complex (frame.plane.planar start) - complex c.place‖ :=
    (Complex.norm_eq_sqrt_sq_add_sq (complex (frame.plane.planar start) - complex c.place)).symm
  constructor
  · rintro ⟨fitted, h⟩
    obtain ⟨c, hc, -, -, -, hsmall, -⟩ :=
      @Arc.resolve_eq_ok ℝ Scalar.real .real s turn start words frame fitted h
    rw [hradius, epsilon_eq, not_le] at hsmall
    exact ⟨c, hc, hsmall⟩
  · rintro ⟨c, hc, hlong⟩
    rw [← hradius, ← epsilon_eq, ← not_le] at hlong
    have hfit := (@Arc.fit_eq_ok_iff ℝ Scalar.real .real s turn frame.plane start
      (target frame start words) c _).mpr ⟨rfl, rfl, rfl, hlong, rfl⟩
    have hresolve := @Arc.resolve_eq_bind ℝ Scalar.real .real s turn start words frame
    exact ⟨_, hresolve.trans ((congrArg (Except.bind · _) hc).trans hfit)⟩

structure Fits (s : Sampling ℝ) (a : Arc ℝ) : Prop where
  radius_eq : a.radius = ‖vector a a.start‖
  radius_pos : 0 < a.radius
  startAngle_eq : a.startAngle = Complex.arg (vector a a.start)
  sweep_eq : a.sweep =
    sweep a.turn (Complex.arg (vector a a.target) - Complex.arg (vector a a.start))
  closes_iff : a.closes = true ↔ s.tolerance < distance (pointAt a 1) a.target

theorem resolve_fits {s : Sampling ℝ} {turn : Turn} {start : Position ℝ} {words : AxisWords ℝ}
    {frame : Frame} {fitted : Arc.Fitted ℝ} (h : resolve s turn start words frame = .ok fitted) :
    Fits s fitted.arc ∧ fitted.arc.turn = turn ∧ fitted.arc.plane = frame.plane ∧
      fitted.arc.start = start ∧ fitted.arc.target = target frame start words := by
  obtain ⟨⟨-, hradius, -, hsmall, hangle, hsweep⟩, hturn, hplane, hstart, htarget, -⟩ :=
    @Arc.resolve_ok ℝ Scalar.real .real s turn start words frame fitted h
  have hcloses := @Arc.resolve_closes ℝ Scalar.real .real s turn start words frame fitted h
  rw [epsilon_eq, not_le] at hsmall
  rw [ofNat_one] at hcloses
  refine ⟨⟨?_, ?_, hangle, hsweep, ?_⟩, hturn, hplane, hstart, htarget⟩
  · rw [norm_vector]
    exact hradius
  · exact lt_trans (by positivity) hsmall
  · rw [hcloses]
    exact decide_eq_true_iff

end Exact
end Toolpath
