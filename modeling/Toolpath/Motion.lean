import Toolpath.Number.Scalar

/-! # Kinds of motion

A line asks for a rapid move, a straight cut, or an arc in one of two directions of turning.
-/
namespace Toolpath

/-- The direction in which an arc turns, seen from the positive end of the plane's normal. -/
inductive Turn where
  | clockwise
  | counterclockwise
  deriving DecidableEq, Repr

inductive Motion where
  | rapid
  | linear
  | arc (turn : Turn)
  deriving DecidableEq, Repr

namespace Motion

def isArc : Motion → Bool
  | arc _ => true
  | _ => false

def turn? : Motion → Option Turn
  | arc t => some t
  | _ => none

def name : Motion → String
  | rapid => "Rapid"
  | linear => "Linear"
  | arc .clockwise => "ArcCW"
  | arc .counterclockwise => "ArcCCW"

def text : Motion → String
  | rapid => "Rapid (G0)"
  | linear => "Linear (G1)"
  | arc .clockwise => "Arc CW (G2)"
  | arc .counterclockwise => "Arc CCW (G3)"

end Motion

namespace Turn
variable {α : Type} [Scalar α]

def opposite : Turn → Turn
  | clockwise => counterclockwise
  | counterclockwise => clockwise

/-- The difference of two angles, brought to this direction's side: negative for clockwise and
positive for counterclockwise. No difference at all is a full turn. -/
def sweep (t : Turn) (delta : α) : α :=
  match t with
  | clockwise => if 0 ≤ delta then delta - Scalar.tau else delta
  | counterclockwise => if delta ≤ 0 then delta + Scalar.tau else delta

end Turn

/-- The difference of two angles, wrapped into the half-open range above `-pi`. -/
def shortestSweep {α : Type} [Scalar α] (delta : α) : α :=
  if Scalar.pi < delta then delta - Scalar.tau
  else if delta ≤ -Scalar.pi then delta + Scalar.tau
  else delta

end Toolpath
