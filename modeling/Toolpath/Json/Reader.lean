import Toolpath.Number.Parts
import Toolpath.Number.Scaled
import Toolpath.Settings.Datum
import Toolpath.Text.Escape

/-! # Reading JSON

The outermost members or items of a document are read; what is nested deeper is only checked against
the grammar. Reading is strict: no comments, no trailing commas, no leading zeros, and nothing but
spaces behind the document. Every reader takes a text and gives the rest behind what it has read.
-/
namespace Toolpath.Json

inductive Layer where
  | object (members : List (String × Datum))
  | array (items : List Datum)

def isSpace (c : Char) : Bool := c = ' ' || c = '\t' || c = '\n' || c = '\r'

def skipSpace (text : List Char) : List Char := text.dropWhile isSpace

def digits? (text : List Char) : Option (List Char × List Char) :=
  match text.takeWhile Char.isDigit with
  | [] => none
  | ds => some (ds, text.dropWhile Char.isDigit)

/-- A number. It is whole if it has neither point nor exponent and fits into 64 bits; any other one
is read as a scaled significand. -/
def number? (text : List Char) : Option (Datum × List Char) := do
  let (negative, text) := match text with
    | '-' :: rest => (true, rest)
    | _ => (false, text)
  let (whole, text) ← digits? text
  if whole.head? = some '0' ∧ whole ≠ ['0'] then none
  let (tail, text) ← numberTail? digits? text
  let size := Literal.digitsValue whole
  if tail.isWhole ∧ size < UInt64.size then some (.integer negative (UInt64.ofNat size), text)
  else
    let scaled := Scaled.ofParts negative whole (tail.fraction.getD []) (tail.power.getD 0)
    some (.number scaled.toFloat?, text)

def shortEscape? (c : Char) : Option Char := if c = '/' then some '/' else letterEscape? c

/-- The characters up to the closing quote. Controls must be escaped, and the halves of a surrogate
pair must stand together. -/
def quotedText? : List Char → Option (List Char × List Char)
  | [] => none
  | '"' :: rest => some ([], rest)
  | '\\' :: 'u' :: a :: b :: c :: d :: '\\' :: 'u' :: e :: f :: g :: h :: rest => do
    let high ← hexValue? [a, b, c, d]
    if 0xD800 ≤ high ∧ high < 0xDC00 then
      let low ← hexValue? [e, f, g, h]
      if 0xDC00 ≤ low ∧ low < 0xE000 then
        let code := 0x10000 + (high - 0xD800) * 0x400 + (low - 0xDC00)
        (quotedText? rest).map (before (Char.ofNat code))
      else none
    else
      let first ← scalar? high
      (quotedText? ('\\' :: 'u' :: e :: f :: g :: h :: rest)).map (before first)
  | '\\' :: 'u' :: a :: b :: c :: d :: rest => do
    let code ← hexValue? [a, b, c, d]
    let e ← scalar? code
    (quotedText? rest).map (before e)
  | '\\' :: c :: rest => do
    let e ← shortEscape? c
    (quotedText? rest).map (before e)
  | c :: rest => if c.toNat < 0x20 then none else (quotedText? rest).map (before c)

/-- Passes over the characters up to the closing quote. Any four hexadecimal digits will do. -/
def skipQuoted? : List Char → Option (List Char)
  | [] => none
  | '"' :: rest => some rest
  | '\\' :: 'u' :: a :: b :: c :: d :: rest => do
    let _ ← hexValue? [a, b, c, d]
    skipQuoted? rest
  | '\\' :: c :: rest => do
    let _ ← shortEscape? c
    skipQuoted? rest
  | c :: rest => if c.toNat < 0x20 then none else skipQuoted? rest

mutual

def skip? : Nat → List Char → Option (List Char)
  | 0, _ => none
  | fuel + 1, text =>
    match text with
    | 't' :: 'r' :: 'u' :: 'e' :: rest => some rest
    | 'f' :: 'a' :: 'l' :: 's' :: 'e' :: rest => some rest
    | 'n' :: 'u' :: 'l' :: 'l' :: rest => some rest
    | '"' :: rest => skipQuoted? rest
    | '[' :: rest =>
      match skipSpace rest with
      | ']' :: rest => some rest
      | rest => skipItems? fuel rest
    | '{' :: rest =>
      match skipSpace rest with
      | '}' :: rest => some rest
      | rest => skipMembers? fuel rest
    | _ => (number? text).map Prod.snd

def skipItems? : Nat → List Char → Option (List Char)
  | 0, _ => none
  | fuel + 1, text =>
    match (skip? fuel text).map skipSpace with
    | some (',' :: rest) => skipItems? fuel (skipSpace rest)
    | some (']' :: rest) => some rest
    | _ => none

def skipMembers? : Nat → List Char → Option (List Char)
  | 0, _ => none
  | fuel + 1, text =>
    match text with
    | '"' :: rest =>
      match (skipQuoted? rest).map skipSpace with
      | some (':' :: rest) =>
        match (skip? fuel (skipSpace rest)).map skipSpace with
        | some (',' :: rest) => skipMembers? fuel (skipSpace rest)
        | some ('}' :: rest) => some rest
        | _ => none
      | _ => none
    | _ => none

end

/-- Fuel for passing over any value of a text. An opening bracket takes two steps and a comma one,
so two steps for each character will do. -/
def fuel (text : List Char) : Nat := 2 * text.length + 2

def datum? (text : List Char) : Option (Datum × List Char) :=
  match number? text with
  | some r => some r
  | none => (skip? (fuel text) text).map fun rest => (.other, rest)

def items? : Nat → List Char → Option (List Datum × List Char)
  | 0, _ => none
  | fuel + 1, text => do
    let (item, text) ← datum? text
    match skipSpace text with
    | ',' :: rest => (items? fuel (skipSpace rest)).map fun r => (item :: r.1, r.2)
    | ']' :: rest => some ([item], rest)
    | _ => none

def members? : Nat → List Char → Option (List (String × Datum) × List Char)
  | 0, _ => none
  | fuel + 1, text => do
    let '"' :: text := text | none
    let (key, text) ← quotedText? text
    let ':' :: text := skipSpace text | none
    let (value, text) ← datum? (skipSpace text)
    let member := (String.ofList key, value)
    match skipSpace text with
    | ',' :: rest => (members? fuel (skipSpace rest)).map fun r => (member :: r.1, r.2)
    | '}' :: rest => some ([member], rest)
    | _ => none

def layer? (text : List Char) : Option Layer := do
  let (layer, rest) ← match skipSpace text with
    | '{' :: rest =>
      match skipSpace rest with
      | '}' :: rest => some (.object [], rest)
      | rest => (members? text.length rest).map fun r => (.object r.1, r.2)
    | '[' :: rest =>
      match skipSpace rest with
      | ']' :: rest => some (.array [], rest)
      | rest => (items? text.length rest).map fun r => (.array r.1, r.2)
    | _ => none
  if (skipSpace rest).isEmpty then some layer else none

end Toolpath.Json
