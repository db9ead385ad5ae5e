/-! # Scalars

Positions, planes and arcs are written once, for every type of numbers that offers the operations
of `Scalar`. A machine computes with doubles; a law of exact geometry is stated over the reals.
The functions that an arithmetic unit does not round correctly are kept apart in `Elementary`, so
that a statement can say which of their properties it uses.
-/
namespace Toolpath

class Scalar (α : Type) extends Add α, Sub α, Mul α, Div α, Neg α, LT α, LE α where
  decLt : DecidableLT α
  decLe : DecidableLE α
  ofNat : Nat → α
  /-- The number nearest to `digits / 10 ^ places`. -/
  decimal (digits places : Nat) : α
  pi : α
  tau : α
  degreesPerRadian : α
  abs : α → α
  sqrt : α → α
  isFinite : α → Bool
  /-- The least natural number that is not below the argument; zero if the argument is not finite.
  -/
  ceil : α → Nat

namespace Scalar
variable {α : Type} [Scalar α]

instance (priority := low) : DecidableLT α := Scalar.decLt
instance (priority := low) : DecidableLE α := Scalar.decLe
instance (priority := low) {n : Nat} : OfNat α n := ⟨Scalar.ofNat n⟩

def degrees (angle : α) : α := angle * degreesPerRadian

end Scalar

structure Elementary (α : Type) where
  hypot : α → α → α
  sin : α → α
  cos : α → α
  /-- The angle of the vector `(x, y)`, the ordinate given first. -/
  atan2 : α → α → α

end Toolpath
