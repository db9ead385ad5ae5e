import Toolpath.Number.Binary
import Toolpath.Number.Literal
import Toolpath.Word

/-! # The value of a word

Only ASCII digits make a number. `literal?` reads the text exactly; `number?` is the nearest double,
if it is finite, and `code?` the natural number that this double is, if it is one of 32 bits.
-/
namespace Toolpath.Word

def magnitude? (negative : Bool) (text : List Char) : Option Literal :=
  let whole := text.takeWhile Char.isDigit
  let fraction? := match text.dropWhile Char.isDigit with
    | [] => some []
    | '.' :: fraction => if fraction.all Char.isDigit then some fraction else none
    | _ => none
  match fraction? with
  | some fraction =>
    if whole.isEmpty && fraction.isEmpty then none
    else some (Literal.ofParts negative whole fraction 0)
  | none => none

def literal? (w : Word) : Option Literal :=
  match w.value with
  | '+' :: text => magnitude? false text
  | '-' :: text => magnitude? true text
  | text => magnitude? false text

def number? (w : Word) : Option Float :=
  (w.literal?.map Literal.toFloat).filter Float.isFinite

/-- The code of the word: a number that is a natural number below `2 ^ 32`. -/
def code? (w : Word) : Option Nat :=
  (w.number?.bind fun x => (Binary.ofFloat x).nat?).filter (· < UInt32.size)

end Toolpath.Word
