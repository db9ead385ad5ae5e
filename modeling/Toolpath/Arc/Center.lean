import Toolpath.Advisory
import Toolpath.Motion

/-! # The centre of an arc given by its radius

Two circles of one radius pass through start and target; their centres lie on either side of the
chord, on its perpendicular bisector. A positive radius asks for the one whose shorter arc turns the
right way, a negative radius for the other. A radius that does not reach the middle of the chord
puts the centre there.
-/
namespace Toolpath

/-- A radius that falls short of half the chord. -/
structure ShortRadius (α : Type) where
  radius : α
  halfChord : α
  deriving Repr

structure Center (α : Type) where
  first : α
  second : α
  clamped : Option (ShortRadius α) := none
  deriving Repr

namespace Center
variable {α : Type} [Scalar α] (E : Elementary α)

/-- Lengths up to this one count as none. -/
def epsilon : α := Scalar.decimal 1 12

def angle (point center : α × α) : α := E.atan2 (point.2 - center.2) (point.1 - center.1)

def shorterIsClockwise (start target center : α × α) : Bool :=
  shortestSweep (angle E target center - angle E start center) < 0

def candidates (start target : α × α) (chord h : α) : (α × α) × (α × α) :=
  let da := target.1 - start.1
  let db := target.2 - start.2
  let middle := (start.1 + da / 2, start.2 + db / 2)
  let normal := (-db / chord, da / chord)
  ((middle.1 + h * normal.1, middle.2 + h * normal.2),
    (middle.1 - h * normal.1, middle.2 - h * normal.2))

def ofRadius (turn : Turn) (start target : α × α) (r : α) : Except Refusal (Center α) :=
  let chord := E.hypot (target.1 - start.1) (target.2 - start.2)
  if epsilon < chord then
    let radius := Scalar.abs r
    let halfChord := chord / 2
    let discriminant := radius * radius - halfChord * halfChord
    let h := Scalar.sqrt (if 0 < discriminant then discriminant else 0)
    let (left, right) := candidates start target chord h
    let fits center := shorterIsClockwise E start target center == (turn == .clockwise)
    let leftFirst := fits left || !fits right
    let chosen := if leftFirst != decide (r < 0) then left else right
    .ok { first := chosen.1, second := chosen.2
          clamped := if discriminant < 0 then some ⟨radius, halfChord⟩ else none }
  else .error .zeroLengthChord

end Center
end Toolpath
