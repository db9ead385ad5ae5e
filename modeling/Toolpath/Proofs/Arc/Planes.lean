import Toolpath.Proofs.Arc.Resolution

/-! # Arcs in the three planes

The planes differ by a cyclic permutation of the axes. Where start and words are permuted, so are
the arc and all points of its sweep, and its measures stay as they are. One thing is decided anew,
whether the target is shown by itself: the distance adds three squares in the order of the axes, and
a rounded sum depends on the order.
-/
namespace Toolpath

/-- Entries for the axes X, Y and Z of the first plane, moved to the axes that take their parts in
another plane. -/
def Plane.cycle {α : Type} (p : Plane) (v : α × α × α) : α × α × α :=
  match p with
  | xy => v
  | xz => (v.2.1, v.2.2, v.1)
  | yz => (v.2.2, v.1, v.2.1)

def Position.carry {α : Type} (p : Plane) (q : Position α) : Position α :=
  let v := p.cycle (q.x, q.y, q.z)
  ⟨v.1, v.2.1, v.2.2⟩

def AxisWords.carry {α : Type} (p : Plane) (w : AxisWords α) : AxisWords α :=
  let axes := p.cycle (w.x, w.y, w.z)
  let offsets := p.cycle (w.i, w.j, w.k)
  { x := axes.1, y := axes.2.1, z := axes.2.2
    i := offsets.1, j := offsets.2.1, k := offsets.2.2, r := w.r }

namespace Plane
variable {α : Type} (p : Plane)

@[simp] theorem project_carry (q : Position α) : p.project (q.carry p) = xy.project q := by
  cases p <;> rfl

theorem planar_carry (q : Position α) : p.planar (q.carry p) = xy.planar q := by
  unfold planar
  rw [project_carry]

theorem unproject_carry (a b l : α) : p.unproject a b l = (xy.unproject a b l).carry p := by
  cases p <;> rfl

@[simp] theorem offsets_carry (w : AxisWords α) : p.offsets (w.carry p) = xy.offsets w := by
  cases p <;> rfl

end Plane

section
variable {α : Type} [Scalar α]

@[simp] theorem Position.isFinite_carry (p : Plane) (q : Position α) :
    (q.carry p).isFinite = q.isFinite := by
  cases p
  case xy => rfl
  case xz =>
    change (_ && _ && _) = (_ && _ && _)
    rw [Bool.and_comm, Bool.and_assoc]
    rfl
  case yz =>
    change (_ && _ && _) = (_ && _ && _)
    rw [Bool.and_assoc, Bool.and_comm]
    rfl

theorem Frame.target_carry (p : Plane) (f : Frame) (q : Position α) (w : AxisWords α) :
    { f with plane := p }.target (q.carry p) (w.carry p) =
      ({ f with plane := .xy }.target q w).carry p := by
  cases p <;> rfl

namespace Arc
variable (E : Elementary α) (s : Sampling α) (p : Plane)

def carry (a : Arc α) : Arc α :=
  { a with start := a.start.carry p, target := a.target.carry p, center := a.center.carry p
           plane := p }

theorem pointAt_carry {a : Arc α} (h : a.plane = .xy) (t : α) :
    (a.carry p).pointAt E t = (a.pointAt E t).carry p := by
  unfold pointAt carry
  rw [h]
  dsimp only
  rw [Plane.project_carry, Plane.project_carry, Plane.project_carry, Plane.unproject_carry]

theorem about_carry (turn : Turn) (start target : Position α) (first second radius : α) :
    about E s turn p (start.carry p) (target.carry p) first second radius =
      (about E s turn .xy start target first second radius).carry p := by
  unfold about carry
  dsimp only
  rw [Plane.project_carry, Plane.project_carry, Plane.unproject_carry]

/-- The arc moved to another plane, where it is decided anew whether it shows its target. -/
def Fitted.carry (f : Fitted α) : Fitted α := ⟨close E s (f.arc.carry p), f.clamped⟩

theorem centerOf_carry (turn : Turn) (start target : α × α) (words : AxisWords α) (frame : Frame) :
    centerOf E turn start target (words.carry p) { frame with plane := p } =
      centerOf E turn start target words { frame with plane := .xy } := by
  unfold centerOf
  rw [Plane.offsets_carry]
  rfl

theorem fit_carry (turn : Turn) (start target : Position α) (c : Center α) :
    fit E s turn p (start.carry p) (target.carry p) c =
      (fit E s turn .xy start target c).map (Fitted.carry E s p) := by
  unfold fit radiusAbout
  rw [Plane.project_carry, Position.isFinite_carry]
  dsimp only
  split
  · rfl
  split
  · rfl
  rw [about_carry]
  rfl

theorem resolve_carry (turn : Turn) (start : Position α) (words : AxisWords α) (frame : Frame) :
    resolve E s turn (start.carry p) (words.carry p) { frame with plane := p } =
      (resolve E s turn start words { frame with plane := .xy }).map (Fitted.carry E s p) := by
  rw [resolve_eq_bind, resolve_eq_bind, Frame.target_carry]
  dsimp only
  rw [Plane.planar_carry, Plane.planar_carry, centerOf_carry]
  cases centerOf E turn (Plane.xy.planar start)
      (Plane.xy.planar ({ frame with plane := .xy }.target start words)) words
      { frame with plane := .xy } with
  | error why => rfl
  | ok c => exact fit_carry E s p turn start _ c

structure CarriedTo (a b : Arc α) : Prop where
  plane : b.plane = p
  turn : b.turn = a.turn
  radius : b.radius = a.radius
  sweep : b.sweep = a.sweep
  length : b.length = a.length
  count : b.count = a.count
  start : b.start = a.start.carry p
  target : b.target = a.target.carry p
  center : b.center = a.center.carry p
  pointAt (t : α) : b.pointAt E t = (a.pointAt E t).carry p

theorem carriedTo_carry {f : Fitted α} (h : f.arc.plane = .xy) :
    f.arc.CarriedTo E p (f.carry E s p).arc where
  plane := rfl
  turn := rfl
  radius := rfl
  sweep := rfl
  length := rfl
  count := rfl
  start := rfl
  target := rfl
  center := rfl
  pointAt := pointAt_carry E p h

/-- A line with its start and words moved to another plane resolves there just if it does in the
first plane, to the same arc moved, and otherwise both are refused for one reason. -/
theorem resolve_carriedTo (turn : Turn) (start : Position α) (words : AxisWords α)
    (frame : Frame) :
    match resolve E s turn start words { frame with plane := .xy },
      resolve E s turn (start.carry p) (words.carry p) { frame with plane := p } with
    | .ok f, .ok g => f.arc.CarriedTo E p g.arc ∧ g.clamped = f.clamped
    | .error why, .error why' => why' = why
    | _, _ => False := by
  rw [resolve_carry]
  cases h : resolve E s turn start words { frame with plane := .xy } with
  | error why => rfl
  | ok f =>
    obtain ⟨-, -, hplane, -⟩ := resolve_ok h
    exact ⟨carriedTo_carry E s p hplane, rfl⟩

end Arc
end
end Toolpath
