/-! # Decimal literals

A literal is `± digits * 10 ^ exponent`, as it is written; the double nearest to it is another
matter. Digit strings are read from the left, the value so far times ten plus the next digit.
-/
namespace Toolpath

structure Literal where
  negative : Bool
  digits : Nat
  exponent : Int
  deriving DecidableEq, Repr

namespace Literal

def digitsValue (ds : List Char) : Nat :=
  ds.foldl (fun n d => 10 * n + (d.toNat - '0'.toNat)) 0

def ofParts (negative : Bool) (whole fraction : List Char) (power : Int) : Literal :=
  ⟨negative, digitsValue (whole ++ fraction), power - fraction.length⟩

/-- The double nearest to the literal; infinite where it is out of range. -/
def toFloat (l : Literal) : Float :=
  let magnitude := Float.ofScientific l.digits (l.exponent < 0) l.exponent.natAbs
  if l.negative then -magnitude else magnitude

def toRat (l : Literal) : Rat :=
  let magnitude := (l.digits : Rat) * (10 : Rat) ^ l.exponent
  if l.negative then -magnitude else magnitude

end Literal
end Toolpath
