import Toolpath.Arc
import Toolpath.Arc.Center
import Toolpath.Modal

/-! # From words to arcs

The centre comes from the offsets of the plane if there is one, and from the radius otherwise. The
arc is then fitted through start and centre; start and target may lie at different distances from
it, and the radius is that of the start.
-/
namespace Toolpath

structure Sampling (α : Type) where
  degreesPerSample : α
  minimum : Nat
  one_le_minimum : 1 ≤ minimum
  /-- How far the end of the sweep may lie from the target that it stands for. -/
  tolerance : α

namespace Sampling
variable {α : Type} [Scalar α]

/-- A sampling that shows at least one point. -/
def of (degreesPerSample : α) (minimum : Nat) (tolerance : α) : Sampling α :=
  ⟨degreesPerSample, max minimum 1, Nat.le_max_right .., tolerance⟩

def maxCount : Nat := UInt64.size - 1

/-- The number of points for a sweep: one for each step begun, but no less than the minimum. -/
def count (s : Sampling α) (sweep : α) : Nat :=
  max (min (Scalar.ceil (Scalar.degrees (Scalar.abs sweep) / s.degreesPerSample)) maxCount)
    s.minimum

end Sampling

namespace Arc
variable {α : Type} [Scalar α] (E : Elementary α)

structure Fitted (α : Type) where
  arc : Arc α
  clamped : Option (ShortRadius α)

/-- The centre that the words ask for. An offset left out is none. -/
def centerOf (turn : Turn) (start target : α × α) (words : AxisWords α) (frame : Frame) :
    Except Refusal (Center α) :=
  match frame.plane.offsets words with
  | (none, none) => match words.r with
    | some raw => Center.ofRadius E turn start target (frame.units.toMm raw)
    | none => .error .missingArcCenter
  | (first, second) => .ok
    { first := start.1 + frame.units.toMm (first.getD 0)
      second := start.2 + frame.units.toMm (second.getD 0) }

def about (s : Sampling α) (turn : Turn) (plane : Plane) (start target : Position α)
    (first second radius : α) : Arc α :=
  let (sa, sb, level) := plane.project start
  let (ta, tb, _) := plane.project target
  let startAngle := Center.angle E (sa, sb) (first, second)
  let endAngle := Center.angle E (ta, tb) (first, second)
  let sweep := turn.sweep (endAngle - startAngle)
  { start, target, radius, sweep, turn, plane, startAngle
    center := plane.unproject first second level
    count := s.count sweep
    closes := false }

def close (s : Sampling α) (a : Arc α) : Arc α :=
  { a with closes := decide (s.tolerance < (a.pointAt E 1).distanceTo a.target) }

def resolve (s : Sampling α) (turn : Turn) (start : Position α) (words : AxisWords α)
    (frame : Frame) : Except Refusal (Fitted α) :=
  let target := frame.target start words
  let (sa, sb, _) := frame.plane.project start
  let (ta, tb, _) := frame.plane.project target
  match centerOf E turn (sa, sb) (ta, tb) words frame with
  | .error why => .error why
  | .ok c =>
    let radius := E.hypot (sa - c.first) (sb - c.second)
    if !(target.isFinite && Scalar.isFinite radius && Scalar.isFinite (radius * Scalar.tau)) then
      .error .coordinateOverflow
    else if radius ≤ Center.epsilon then .error .zeroRadius
    else
      let arc := about E s turn frame.plane start target c.first c.second radius
      .ok ⟨close E s arc, c.clamped⟩

end Arc
end Toolpath
