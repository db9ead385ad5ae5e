import Toolpath.Number.Literal

/-! # The parts of a written number

Behind its whole digits a number may have a fraction and an exponent. What counts as a run of digits
differs between formats, so its reader is a parameter; it gives the digits and the rest of the text.
-/
namespace Toolpath

abbrev DigitReader := List Char → Option (List Char × List Char)

/-- What follows the whole digits of a number: fraction digits and power of ten, where they are
written. -/
structure NumberTail where
  fraction : Option (List Char) := none
  power : Option Int := none

namespace NumberTail

def isWhole (t : NumberTail) : Bool := t.fraction.isNone && t.power.isNone

def literal (t : NumberTail) (negative : Bool) (whole : List Char) : Literal :=
  .ofParts negative whole (t.fraction.getD []) (t.power.getD 0)

end NumberTail

variable (digits? : DigitReader)

def fraction? (text : List Char) : Option (Option (List Char) × List Char) :=
  match text with
  | '.' :: rest => (digits? rest).map fun r => (some r.1, r.2)
  | _ => some (none, text)

def power? (text : List Char) : Option (Int × List Char) :=
  match text with
  | '-' :: rest => (digits? rest).map fun r => (-(Literal.digitsValue r.1 : Int), r.2)
  | '+' :: rest => (digits? rest).map fun r => ((Literal.digitsValue r.1 : Int), r.2)
  | _ => (digits? text).map fun r => ((Literal.digitsValue r.1 : Int), r.2)

def exponent? (text : List Char) : Option (Option Int × List Char) :=
  match text with
  | 'e' :: rest | 'E' :: rest => (power? digits? rest).map fun r => (some r.1, r.2)
  | _ => some (none, text)

def numberTail? (text : List Char) : Option (NumberTail × List Char) := do
  let (fraction, text) ← fraction? digits? text
  let (power, text) ← exponent? digits? text
  return (⟨fraction, power⟩, text)

end Toolpath
