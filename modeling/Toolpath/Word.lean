import Toolpath.Text.Digit

/-! # Words

A word is an address letter and the number text that follows it, which may be missing. A line is
split into words by looking for the letters; each takes the longest number that follows it at once,
and what belongs to no word is passed over.
-/
namespace Toolpath

structure Word where
  letter : Char
  value : List Char
  deriving DecidableEq, Repr

def isAddress (c : Char) : Bool := 'A' ≤ c && c ≤ 'Z'

/-- A number at the head of a text: digits with a point and more digits if they follow, or a point
and at least one digit. Gives the number and the rest. -/
def unsignedNumber? (text : List Char) : Option (List Char × List Char) :=
  let whole := text.takeWhile isDecimal
  match whole, text.dropWhile isDecimal with
  | [], '.' :: rest =>
    match rest.takeWhile isDecimal with
    | [] => none
    | fraction => some ('.' :: fraction, rest.dropWhile isDecimal)
  | [], _ => none
  | whole, '.' :: rest =>
    some (whole ++ '.' :: rest.takeWhile isDecimal, rest.dropWhile isDecimal)
  | whole, rest => some (whole, rest)

def splitNumber (text : List Char) : List Char × List Char :=
  let signed (sign : Char) (text : List Char) :=
    (unsignedNumber? text).map fun number => (sign :: number.1, number.2)
  let number? := match text with
    | '+' :: rest => signed '+' rest
    | '-' :: rest => signed '-' rest
    | _ => unsignedNumber? text
  number?.getD ([], text)

namespace Word

def text (w : Word) : String := String.ofList (w.letter :: w.value)

def isFlag (w : Word) : Bool := w.value.isEmpty

/-- The words of a line. No number holds an address letter, so every letter begins a word and the
line can be searched on from just behind it. -/
def split : List Char → List Word
  | [] => []
  | c :: rest =>
    if isAddress c then ⟨c, (splitNumber rest).1⟩ :: split rest else split rest

end Word
end Toolpath
