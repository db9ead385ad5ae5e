import Toolpath.Number.Binary

/-! # The shortest decimal that reads back

A decimal reads back as a double if it lies in the interval of the reals that round to it; the ends
belong to the interval iff the mantissa is even. `digits` tries the grids of multiples of ever
smaller powers of ten. On each it looks at the two neighbours of the value, since the interval, if
it holds a point of the grid, holds one of them. The first grid with a hit has the fewest digits; of
two hits the nearer is taken. Where both are equally near, the format decides: it gives the rounding
of a quotient, and that is where a half goes.
-/
namespace Toolpath.Shortest

/-- A positive double on the scale of quarters of its last place: the value is `value / unit`,
everything between `low / unit` and `high / unit` rounds to it, and the ends do iff `closed`. -/
structure Interval where
  low : Nat
  value : Nat
  high : Nat
  unit : Nat
  closed : Bool

namespace Interval

/-- The interval of `mantissa * 2 ^ exponent`. Below a power of two the doubles are twice as dense,
save below the least normal one. -/
def ofBinary (mantissa : Nat) (exponent : Int) : Interval :=
  let below := if mantissa = 1 <<< 52 ∧ -1074 < exponent then 1 else 2
  let scale := Binary.ratio 1 (exponent - 2)
  { low := (4 * mantissa - below) * scale.1
    value := 4 * mantissa * scale.1
    high := (4 * mantissa + 2) * scale.1
    unit := scale.2
    closed := mantissa % 2 = 0 }

def admits (i : Interval) (n : Nat) : Bool :=
  if i.closed then i.low ≤ n && n ≤ i.high else i.low < n && n < i.high

def scale (i : Interval) (factor : Nat) : Interval :=
  { i with low := i.low * factor, value := i.value * factor, high := i.high * factor }

/-- The multiple of `10 ^ power` that is nearest to the value among those that round to it. -/
def onGrid? (round : Binary.Rounding) (i : Interval) (power : Int) : Option Nat :=
  let (i, step) := if 0 ≤ power then (i, i.unit * Nat.pow 10 power.toNat)
    else (i.scale (Nat.pow 10 (-power).toNat), i.unit)
  let below := i.value / step
  let above := below + 1
  match i.admits (below * step), i.admits (above * step) with
  | true, true => some (round i.value step)
  | true, false => some below
  | false, true => some above
  | false, false => none

def magnitude (i : Interval) : Int :=
  if i.unit ≤ i.value then (Nat.toDigits 10 (i.value / i.unit)).length
  else 1 - ((Nat.toDigits 10 ((i.unit - 1) / i.value)).length : Int)

end Interval

/-- Digits and power of ten of the shortest decimal for `mantissa * 2 ^ exponent`, which is
positive. Seventeen digits always suffice. -/
def digits (round : Binary.Rounding) (mantissa : Nat) (exponent : Int) : Nat × Int :=
  let i := Interval.ofBinary mantissa exponent
  let top := i.magnitude
  let hit := (List.range 18).findSome? fun (n : Nat) =>
    (i.onGrid? round (top - n)).map fun d => (d, top - n)
  hit.getD (0, 0)

def text (round : Binary.Rounding) (layout : Nat → Int → String) (negative : Bool)
    (mantissa : Nat) (exponent : Int) : String :=
  let shown :=
    if mantissa = 0 then "0.0" else let d := digits round mantissa exponent; layout d.1 d.2
  if negative then "-" ++ shown else shown

def plain (digits : Nat) (power : Int) : String :=
  let ds := toString digits
  let point := (ds.length : Int) + power
  if point ≤ 0 then "0." ++ "".pushn '0' (-point).toNat ++ ds
  else if power < 0 then
    String.ofList (ds.toList.take point.toNat) ++ "." ++ String.ofList (ds.toList.drop point.toNat)
  else ds ++ "".pushn '0' power.toNat ++ ".0"

def scientific (digits : Nat) (power : Int) : String :=
  let ds := (toString digits).toList
  let shift := (ds.length : Int) - 1 + power
  let fraction := ds.drop 1
  String.ofList (ds.take 1) ++ (if fraction.isEmpty then "" else "." ++ String.ofList fraction) ++
    "e" ++ (if shift < 0 then "-" else "+") ++ toString shift.natAbs

end Toolpath.Shortest
