import Toolpath.Number.Literal

/-! # Scaled significands

A decimal can be read with the arithmetic of doubles alone. Its digits make up a significand as long
as that fits into 64 bits; the significand is then multiplied with a power of ten, or divided by it.
Significand, power and outcome are each rounded to a double, so the outcome may miss the double that
is nearest to the decimal, and it may leave the range a little early.
-/
namespace Toolpath

structure Scaled where
  negative : Bool
  significand : Nat
  power : Int
  deriving DecidableEq, Repr

namespace Scaled

/-- Appends digits to a significand until it would leave 64 bits. Gives it with the digits that are
left over. -/
def append (significand : Nat) : List Char → Nat × List Char
  | [] => (significand, [])
  | d :: rest =>
    let next := 10 * significand + (d.toNat - '0'.toNat)
    if next < UInt64.size then append next rest else (significand, d :: rest)

/-- The number with the given sign, digits before and after the point, and power of ten. Whole
digits that are left over count as further powers of ten, fraction digits that are left over do not
count; behind whole digits left over, the significand still takes the fraction digits that fit. -/
def ofParts (negative : Bool) (whole fraction : List Char) (power : Int) : Scaled :=
  let (significand, excess) := append 0 whole
  let (significand, rest) := append significand fraction
  ⟨negative, significand, power + excess.length - (fraction.length - rest.length : Nat)⟩

def maxPower : Nat := 308

def tenTo (power : Nat) : Float := Float.ofScientific 1 false power

/-- Divides by a power of ten, in two steps if it is out of range. No significand outlasts two steps
of the largest power, so what is beyond them does not matter. -/
def divide (x : Float) (power : Nat) : Float :=
  if power ≤ maxPower then x / tenTo power
  else x / tenTo maxPower / tenTo (min (power - maxPower) maxPower)

def multiply? (x : Float) (power : Nat) : Option Float :=
  if x == 0 then some x
  else if power ≤ maxPower then some (x * tenTo power) |>.filter Float.isFinite
  else none

def toFloat? (s : Scaled) : Option Float :=
  let x := Float.ofNat s.significand
  let magnitude? :=
    if s.power < 0 then some (divide x s.power.natAbs) else multiply? x s.power.natAbs
  magnitude?.map fun magnitude => if s.negative then -magnitude else magnitude

end Scaled
end Toolpath
