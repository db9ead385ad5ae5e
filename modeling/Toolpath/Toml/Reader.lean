import Toolpath.Toml.Date
import Toolpath.Toml.Keys
import Toolpath.Toml.Lexeme
import Toolpath.Toml.Number

/-! # Reading TOML

A document is a sequence of lines: headers that open tables, keys with their values, and blank ones.
Arrays and tables within a value are checked and passed over; a table within a value obeys the rules
for keys by itself.
-/
namespace Toolpath.Toml

mutual

/-- A value. Only numbers are kept. -/
def value? (depth : Nat) : Nat → List Char → Option (Datum × List Char)
  | 0, _ => none
  | fuel + 1, text =>
    match text with
    | '[' :: rest =>
      if maxDepth ≤ depth then none
      else (skipItems? (depth + 1) fuel (skipLines false rest)).map fun rest => (.other, rest)
    | '{' :: rest =>
      if maxDepth ≤ depth then none
      else match skipSpace rest with
        | '}' :: rest => some (.other, rest)
        | rest => (skipPairs? (depth + 1) fuel {} rest).map fun rest => (.other, rest)
    | 't' :: 'r' :: 'u' :: 'e' :: rest => some (.other, rest)
    | 'f' :: 'a' :: 'l' :: 's' :: 'e' :: rest => some (.other, rest)
    | text =>
      match skipString? text with
      | some rest => some (.other, rest)
      | none => match skipDate? text with
        | some rest => some (.other, rest)
        | none => number? text

/-- Passes over the items of an array and the bracket. A comma may stand behind the last one. -/
def skipItems? (depth : Nat) : Nat → List Char → Option (List Char)
  | 0, _ => none
  | _ + 1, ']' :: rest => some rest
  | fuel + 1, text => do
    let (_, text) ← value? depth fuel text
    match skipLines false text with
    | ',' :: rest => skipItems? depth fuel (skipLines false rest)
    | ']' :: rest => some rest
    | _ => none

def skipPairs? (depth : Nat) : Nat → Definitions → List Char → Option (List Char)
  | 0, _, _ => none
  | fuel + 1, d, text => do
    let (keys, text) ← key? text
    let text ← behind? '=' text
    let (datum, text) ← value? depth fuel (skipSpace text)
    let d ← d.insert [] keys datum
    match skipSpace text with
    | ',' :: rest => skipPairs? depth fuel d rest
    | '}' :: rest => some rest
    | _ => none

end

/-- Fuel for reading any value of a text. An opening bracket takes two steps and a comma one, so
two steps for each character will do. -/
def fuel (text : List Char) : Nat := 2 * text.length + 2

def line? (d : Definitions) (table : Path) (text : List Char) :
    Option (Definitions × Path × List Char) := do
  match text with
  | '[' :: '[' :: text =>
    let (keys, text) ← key? text
    let text ← behind? ']' text
    let text ← behind? ']' text
    let (d, table) ← d.openElement keys
    some (d, table, ← lineEnd? text)
  | '[' :: text =>
    let (keys, text) ← key? text
    let text ← behind? ']' text
    let (d, table) ← d.openTable keys
    some (d, table, ← lineEnd? text)
  | text =>
    let (keys, text) ← key? text
    let text ← behind? '=' text
    let text := skipSpace text
    let (datum, text) ← value? 0 (fuel text) text
    let d ← d.insert table keys datum
    some (d, table, ← lineEnd? text)

def lines? : Nat → Definitions → Path → List Char → Option Definitions
  | 0, _, _, _ => none
  | fuel + 1, d, table, text =>
    match skipLines false text with
    | [] => some d
    | text => do
      let (d, table, text) ← line? d table text
      lines? fuel d table text

/-- What a document defines. A byte order mark may stand before it. -/
def document? (text : List Char) : Option Definitions :=
  let text := match text with
    | '\uFEFF' :: rest => rest
    | _ => text
  lines? (text.length + 1) {} [] text

end Toolpath.Toml
