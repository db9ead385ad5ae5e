import Toolpath.Number.Double
import Toolpath.Number.Fixed

/-! # Positions

A position holds the three machine coordinates in millimeters.
-/
namespace Toolpath

structure Position (α : Type) where
  x : α
  y : α
  z : α
  deriving BEq, DecidableEq, Repr

namespace Position

section
variable {α : Type} [Scalar α]

def origin : Position α := ⟨0, 0, 0⟩

def distanceTo (p q : Position α) : α :=
  let dx := p.x - q.x
  let dy := p.y - q.y
  let dz := p.z - q.z
  Scalar.sqrt (dx * dx + dy * dy + dz * dz)

def lerp (p q : Position α) (t : α) : Position α :=
  ⟨p.x + (q.x - p.x) * t, p.y + (q.y - p.y) * t, p.z + (q.z - p.z) * t⟩

def isFinite (p : Position α) : Bool :=
  Scalar.isFinite p.x && Scalar.isFinite p.y && Scalar.isFinite p.z

end

def text (p : Position Float) : String :=
  "X:" ++ Fixed.text 3 p.x ++ " Y:" ++ Fixed.text 3 p.y ++ " Z:" ++ Fixed.text 3 p.z

end Position
end Toolpath
