/-! # What a double denotes

A double is not a number, an infinity, or exactly `± mantissa * 2 ^ exponent`. Rounding to integers
and to decimal digits is done on this view, in natural numbers, so that it is exact. The last part
reads a length off its square: `hypot` adds two squares exactly and rounds once, at the root.
-/
namespace Toolpath

open Float.Model (UnpackedFloat)

inductive Binary where
  | nan
  | infinity (negative : Bool)
  | finite (negative : Bool) (mantissa : Nat) (exponent : Int)
  deriving DecidableEq, Repr

namespace Binary

private def isNegative : UnpackedFloat.Sign → Bool
  | .negative => true
  | .positive => false

def ofFloat (x : Float) : Binary :=
  match x.toModel.unpack with
  | .notANumber => .nan
  | .infinity s => .infinity (isNegative s)
  | .zero s => .finite (isNegative s) 0 0
  | .finite s m e _ => .finite (isNegative s) m e

def ratio (mantissa : Nat) (exponent : Int) : Nat × Nat :=
  if 0 ≤ exponent then (mantissa <<< exponent.toNat, 1) else (mantissa, 1 <<< (-exponent).toNat)

abbrev Rounding := Nat → Nat → Nat

def ceilDiv (num den : Nat) : Nat := (num + den - 1) / den

def roundHalfUp (num den : Nat) : Nat := (2 * num + den) / (2 * den)

def roundHalfEven (num den : Nat) : Nat :=
  let below := num / den
  match compare (2 * (num % den)) den with
  | .lt => below
  | .eq => below + below % 2
  | .gt => below + 1

/-- The least natural number not below the value; zero for what is not finite. -/
def ceil : Binary → Nat
  | .finite false m e => let r := ratio m e; ceilDiv r.1 r.2
  | _ => 0

/-- The natural number that a value is, if it is one. Both zeros are. -/
def nat? : Binary → Option Nat
  | .finite negative m e =>
    let r := ratio m e
    if r.1 % r.2 = 0 ∧ (negative = false ∨ m = 0) then some (r.1 / r.2) else none
  | _ => none

/-- The root of the sum of two squares, correctly rounded. An infinite coordinate makes the length
infinite, whatever the other one is. -/
def hypot (x y : Float) : Float :=
  match x.toModel.unpack, y.toModel.unpack with
  | .infinity _, _ | _, .infinity _ => .ofModel (.pack (.infinity .positive))
  | .notANumber, _ | _, .notANumber => .ofModel (.pack .notANumber)
  | .zero _, _ => y.abs
  | _, .zero _ => x.abs
  | .finite _ m e _, .finite _ n f _ =>
    let low := min e f
    let a := m <<< (e - low).toNat
    let b := n <<< (f - low).toNat
    let root := UnpackedFloat.sqrtCore .binary64 (a * a + b * b) (2 * low)
    .ofModel (.pack (UnpackedFloat.roundWithAccuracy .binary64 .positive root.1 root.2.1 root.2.2))

end Binary
end Toolpath
