import Toolpath.Motion
import Toolpath.Plane

/-! # Arcs

An arc turns about its centre in a plane, from its start through the sweep, while the linear axis
moves evenly from start to target. Its length is the one in the plane. The samples are for display:
they end at the last point of the sweep, and the exact target follows where that point misses it.
-/
namespace Toolpath

structure Arc (α : Type) where
  start : Position α
  /-- The exact end, where the machine stands after the move. -/
  target : Position α
  /-- The centre, at the height of the start. -/
  center : Position α
  radius : α
  /-- The signed sweep in radians, negative for clockwise. -/
  sweep : α
  turn : Turn
  plane : Plane
  startAngle : α
  count : Nat
  /-- Whether the target is shown after the last point of the sweep. -/
  closes : Bool

namespace Arc
variable {α : Type} [Scalar α] (E : Elementary α)

def length (a : Arc α) : α := a.radius * Scalar.abs a.sweep

def sweepDegrees (a : Arc α) : α := Scalar.degrees a.sweep

def pointAt (a : Arc α) (t : α) : Position α :=
  let (first, second, _) := a.plane.project a.center
  let (_, _, low) := a.plane.project a.start
  let (_, _, high) := a.plane.project a.target
  let angle := a.startAngle + a.sweep * t
  a.plane.unproject (first + a.radius * E.cos angle) (second + a.radius * E.sin angle)
    (low + (high - low) * t)

end Arc

structure Samples (α : Type) where
  arc : Arc α
  next : Nat := 0

namespace Samples
variable {α : Type} [Scalar α] (E : Elementary α)

def total (s : Samples α) : Nat := s.arc.count + if s.arc.closes then 1 else 0

/-- The number of points shown: that of all points as a machine word holds it, which starts again at
zero behind the largest one. -/
def size (s : Samples α) : Nat := s.total % UInt64.size

def remaining (s : Samples α) : Nat := s.size - s.next

/-- The point shown as number `i`, counted from zero: the points of the sweep, evenly spaced and
ending with its end, and the target behind them. -/
def point (s : Samples α) (i : Nat) : Position α :=
  if i < s.arc.count then s.arc.pointAt E (Scalar.ofNat (i + 1) / Scalar.ofNat s.arc.count)
  else s.arc.target

def next? (s : Samples α) : Option (Position α × Samples α) :=
  if s.next < s.size then some (s.point E s.next, { s with next := s.next + 1 }) else none

def toList (s : Samples α) : List (Position α) :=
  (List.range' s.next s.remaining).map (s.point E)

@[simp] theorem length_toList (s : Samples α) : (s.toList E).length = s.remaining := by
  simp [toList]

theorem toList_eq_of_next? {s rest : Samples α} {p : Position α} (h : s.next? E = some (p, rest)) :
    s.toList E = p :: rest.toList E := by
  unfold next? at h
  split at h
  case isTrue hlt =>
    obtain ⟨rfl, rfl⟩ := Prod.mk.injEq .. ▸ Option.some.inj h
    have hr : s.remaining = (s.size - (s.next + 1)) + 1 := by
      unfold remaining
      omega
    rw [toList, hr, List.range'_succ]
    rfl
  case isFalse => cases h

end Samples

def Arc.samples {α : Type} (a : Arc α) : Samples α := ⟨a, 0⟩

end Toolpath
