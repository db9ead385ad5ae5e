import Toolpath.Arc.Resolve

/-! # What a resolved arc satisfies

`WellFormed` collects what every arc has that a line resolves to, told by the fields of the arc
alone. The centre, however it was found, enters through the radius and the angles only.
-/
namespace Toolpath

def Plane.planar {α : Type} (p : Plane) (q : Position α) : α × α :=
  ((p.project q).1, (p.project q).2.1)

namespace Arc
variable {α : Type} [Scalar α] (E : Elementary α)

def offset (a : Arc α) (p : Position α) : α × α :=
  ((a.plane.project p).1 - (a.plane.project a.center).1,
    (a.plane.project p).2.1 - (a.plane.project a.center).2.1)

def angleOf (a : Arc α) (p : Position α) : α := E.atan2 (a.offset p).2 (a.offset p).1

def rawSweep (a : Arc α) : α := a.angleOf E a.target - a.angleOf E a.start

structure WellFormed (a : Arc α) : Prop where
  target_finite : a.target.isFinite = true
  radius_eq : a.radius = E.hypot (a.offset a.start).1 (a.offset a.start).2
  radius_finite : Scalar.isFinite a.radius = true
  not_small : ¬ a.radius ≤ Center.epsilon
  startAngle_eq : a.startAngle = a.angleOf E a.start
  sweep_eq : a.sweep = a.turn.sweep (a.rawSweep E)

variable (s : Sampling α) (turn : Turn) (plane : Plane) (start target : Position α)
  (first second radius : α)

theorem offset_about (p : Position α) :
    (about E s turn plane start target first second radius).offset p =
      ((plane.project p).1 - first, (plane.project p).2.1 - second) := by
  unfold offset
  cases plane <;> rfl

theorem sweep_about : (about E s turn plane start target first second radius).sweep =
    turn.sweep ((about E s turn plane start target first second radius).rawSweep E) := by
  unfold rawSweep angleOf
  rw [offset_about, offset_about]
  rfl

theorem close_wellFormed {a : Arc α} (h : a.WellFormed E) : (a.close E s).WellFormed E :=
  ⟨h.target_finite, h.radius_eq, h.radius_finite, h.not_small, h.startAngle_eq, h.sweep_eq⟩

variable {E s turn plane start first second radius} in
theorem about_wellFormed (ht : target.isFinite = true)
    (hr : radius = E.hypot ((plane.project start).1 - first) ((plane.project start).2.1 - second))
    (hf : Scalar.isFinite radius = true) (hs : ¬ radius ≤ Center.epsilon) :
    (about E s turn plane start target first second radius).WellFormed E where
  target_finite := ht
  radius_eq := by
    rw [offset_about]
    exact hr
  radius_finite := hf
  not_small := hs
  startAngle_eq := by
    unfold angleOf
    rw [offset_about]
    rfl
  sweep_eq := sweep_about ..

def radiusAbout (c : Center α) : α :=
  E.hypot ((plane.project start).1 - c.first) ((plane.project start).2.1 - c.second)

def fit (c : Center α) : Except Refusal (Fitted α) :=
  let radius := radiusAbout E plane start c
  if !(target.isFinite && Scalar.isFinite radius && Scalar.isFinite (radius * Scalar.tau)) then
    .error .coordinateOverflow
  else if radius ≤ Center.epsilon then .error .zeroRadius
  else .ok ⟨close E s (about E s turn plane start target c.first c.second radius), c.clamped⟩

theorem resolve_eq_bind (words : AxisWords α) (frame : Frame) :
    resolve E s turn start words frame =
      (centerOf E turn (frame.plane.planar start) (frame.plane.planar (frame.target start words))
        words frame).bind (fit E s turn frame.plane start (frame.target start words)) := by
  unfold resolve
  dsimp only [Plane.planar]
  split
  next why h =>
    rw [h]
    rfl
  next c h =>
    rw [h]
    rfl

theorem fit_eq_ok_iff {c : Center α} {fitted : Fitted α} :
    fit E s turn plane start target c = .ok fitted ↔
      target.isFinite = true ∧ Scalar.isFinite (radiusAbout E plane start c) = true ∧
      Scalar.isFinite (radiusAbout E plane start c * Scalar.tau) = true ∧
      ¬ radiusAbout E plane start c ≤ Center.epsilon ∧
      fitted = ⟨close E s (about E s turn plane start target c.first c.second
        (radiusAbout E plane start c)), c.clamped⟩ := by
  unfold fit
  dsimp only
  split
  next hnot =>
    refine iff_of_false (by simp) fun ⟨htarget, hradius, hround, _⟩ => ?_
    rw [htarget, hradius, hround] at hnot
    cases hnot
  next hfinite =>
  have hall : target.isFinite = true ∧ Scalar.isFinite (radiusAbout E plane start c) = true ∧
      Scalar.isFinite (radiusAbout E plane start c * Scalar.tau) = true := by
    simpa only [Bool.not_eq_true', Bool.not_eq_false, Bool.and_eq_true, and_assoc] using hfinite
  split
  next hsmall => exact iff_of_false (by simp) fun h => h.2.2.2.1 hsmall
  next hsmall =>
    rw [Except.ok.injEq, eq_comm]
    exact ⟨fun h => ⟨hall.1, hall.2.1, hall.2.2, hsmall, h⟩, fun h => h.2.2.2.2⟩

/-- A line that resolves to an arc asks for a centre and passes all checks. -/
theorem resolve_eq_ok {words : AxisWords α} {frame : Frame} {fitted : Fitted α}
    (h : resolve E s turn start words frame = .ok fitted) : ∃ c,
    centerOf E turn ((frame.plane.project start).1, (frame.plane.project start).2.1)
      ((frame.plane.project (frame.target start words)).1,
        (frame.plane.project (frame.target start words)).2.1) words frame = .ok c ∧
    (frame.target start words).isFinite = true ∧
    Scalar.isFinite (radiusAbout E frame.plane start c) = true ∧
    Scalar.isFinite (radiusAbout E frame.plane start c * Scalar.tau) = true ∧
    ¬ radiusAbout E frame.plane start c ≤ Center.epsilon ∧
    fitted = ⟨close E s (about E s turn frame.plane start (frame.target start words) c.first c.second
      (radiusAbout E frame.plane start c)), c.clamped⟩ := by
  rw [resolve_eq_bind] at h
  cases hc : centerOf E turn (frame.plane.planar start)
      (frame.plane.planar (frame.target start words)) words frame with
  | error why =>
    rw [hc] at h
    cases h
  | ok c =>
    rw [hc] at h
    exact ⟨c, hc, (fit_eq_ok_iff E s turn frame.plane start _).mp h⟩

/-- The centre comes from the radius if the plane has no offsets. -/
theorem centerOf_eq_ofRadius (start target : α × α) {words : AxisWords α} {frame : Frame} {raw : α}
    (hoffsets : frame.plane.offsets words = (none, none)) (hr : words.r = some raw) :
    centerOf E turn start target words frame =
      Center.ofRadius E turn start target (frame.units.toMm raw) := by
  rw [centerOf, hoffsets, hr]

variable {E s turn start} {words : AxisWords α} {frame : Frame} {fitted : Fitted α}
  (h : resolve E s turn start words frame = .ok fitted)
include h

theorem resolve_ok :
    fitted.arc.WellFormed E ∧ fitted.arc.turn = turn ∧ fitted.arc.plane = frame.plane ∧
    fitted.arc.start = start ∧ fitted.arc.target = frame.target start words ∧
    fitted.arc.count = s.count fitted.arc.sweep := by
  obtain ⟨c, -, htarget, hradius, -, hsmall, rfl⟩ := resolve_eq_ok E s turn start h
  exact ⟨close_wellFormed E s (about_wellFormed _ htarget rfl hradius hsmall),
    rfl, rfl, rfl, rfl, rfl⟩

/-- The target is shown by itself just if the end of the sweep misses it. -/
theorem resolve_closes : fitted.arc.closes =
    decide (s.tolerance < (fitted.arc.pointAt E 1).distanceTo fitted.arc.target) := by
  obtain ⟨c, -, -, -, -, -, rfl⟩ := resolve_eq_ok E s turn start h
  rfl

end Arc
end Toolpath
