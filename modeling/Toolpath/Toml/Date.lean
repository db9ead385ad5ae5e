import Toolpath.Number.Literal
import Toolpath.Toml.Lexeme

/-! # TOML dates and times

A day of the calendar, a time of day, or both with or without an offset. They are checked and passed
over; every reader gives the rest of the text.
-/
namespace Toolpath.Toml

def field? (width low high : Nat) (text : List Char) : Option (Nat × List Char) :=
  let ds := text.take width
  let n := Literal.digitsValue ds
  if ds.length = width ∧ ds.all Char.isDigit ∧ low ≤ n ∧ n ≤ high then some (n, text.drop width)
  else none

def isLeapYear (year : Nat) : Bool := year % 4 = 0 && (year % 100 ≠ 0 || year % 400 = 0)

def daysInMonth (year month : Nat) : Nat :=
  if month = 2 then if isLeapYear year then 29 else 28
  else if month ∈ [4, 6, 9, 11] then 30 else 31

def skipDay? (text : List Char) : Option (List Char) := do
  let (year, text) ← field? 4 0 9999 text
  let text ← behind? '-' text
  let (month, text) ← field? 2 1 12 text
  let text ← behind? '-' text
  let (_, text) ← field? 2 1 (daysInMonth year month) text
  some text

def skipTime? (text : List Char) : Option (List Char) := do
  let (_, text) ← field? 2 0 23 text
  let text ← behind? ':' text
  let (_, text) ← field? 2 0 59 text
  let text ← behind? ':' text
  let (_, text) ← field? 2 0 60 text
  match text with
  | '.' :: d :: rest => if d.isDigit then some (rest.dropWhile Char.isDigit) else some text
  | _ => some text

def skipOffset? (text : List Char) : Option (List Char) := do
  match text with
  | 'Z' :: rest | 'z' :: rest => some rest
  | c :: rest =>
    if c = '+' ∨ c = '-' then
      let (_, rest) ← field? 2 0 23 rest
      let rest ← behind? ':' rest
      let (_, rest) ← field? 2 0 59 rest
      some rest
    else none
  | [] => none

def skipDate? (text : List Char) : Option (List Char) :=
  match skipDay? text with
  | some rest =>
    let time? := match rest with
      | c :: more => if c = 'T' ∨ c = 't' ∨ c = ' ' then skipTime? more else none
      | [] => none
    match time? with
    | some behind => some ((skipOffset? behind).getD behind)
    | none => some rest
  | none => skipTime? text

end Toolpath.Toml
