import Toolpath.Number.Parts
import Toolpath.Number.Shortest
import Toolpath.Settings.Datum
import Toolpath.Text.Escape

/-! # TOML numbers

A number is written with the shortest digits that read back, always without an exponent and with at
least one decimal; of two decimals equally near the larger is taken. Infinities and not-a-number
have names. Read are also exponents, single underscores between digits, and whole numbers in bases
of two, eight and sixteen.
-/
namespace Toolpath.Toml

def numberText (x : Float) : String :=
  match Binary.ofFloat x with
  | .nan => "nan"
  | .infinity negative => if negative then "-inf" else "inf"
  | .finite negative m e => Shortest.text Binary.roundHalfUp Shortest.plain negative m e

def digitTail (isDigit : Char → Bool) : List Char → List Char × List Char
  | [] => ([], [])
  | '_' :: d :: rest =>
    if isDigit d then before d (digitTail isDigit rest) else ([], '_' :: d :: rest)
  | d :: rest => if isDigit d then before d (digitTail isDigit rest) else ([], d :: rest)

def digits? (isDigit : Char → Bool) : List Char → Option (List Char × List Char)
  | [] => none
  | d :: rest => if isDigit d then some (before d (digitTail isDigit rest)) else none

/-- A whole number of 63 bits and a sign, which zero does not keep. -/
def integer? (negative : Bool) (size : Nat) : Option Datum :=
  if size < UInt64.size / 2 ∨ (negative ∧ size = UInt64.size / 2) then
    some (.integer (negative && size ≠ 0) (UInt64.ofNat size))
  else none

def based? (base : Nat) (text : List Char) : Option (Datum × List Char) := do
  let value (d : Char) : Option Nat := (hexDigit? d).filter (· < base)
  let (ds, rest) ← digits? (fun d => (value d).isSome) text
  let size ← ds.foldlM (fun n d => (value d).map (base * n + ·)) 0
  (integer? false size).map fun i => (i, rest)

/-- A decimal number behind its sign. With a point or an exponent it is the nearest double; it must
not be above the range, while below the range it is infinite. -/
def decimal? (negative : Bool) (text : List Char) : Option (Datum × List Char) := do
  let (whole, text) ← match text with
    | '0' :: rest => some (['0'], rest)
    | _ => digits? Char.isDigit text
  let (tail, text) ← numberTail? (digits? Char.isDigit) text
  if tail.isWhole then (integer? negative (Literal.digitsValue whole)).map fun i => (i, text)
  else
    let x := (tail.literal negative whole).toFloat
    if x.isFinite ∨ negative then some (.number (some x), text) else none

def signed? (negative : Bool) (text : List Char) : Option (Datum × List Char) :=
  match text with
  | 'i' :: 'n' :: 'f' :: rest =>
    some (.number (some (if negative then -1.0 / 0.0 else 1.0 / 0.0)), rest)
  | 'n' :: 'a' :: 'n' :: rest => some (.number (some (0.0 / 0.0)), rest)
  | _ => decimal? negative text

def number? (text : List Char) : Option (Datum × List Char) :=
  match text with
  | '+' :: rest => signed? false rest
  | '-' :: rest => signed? true rest
  | '0' :: 'x' :: rest => based? 16 rest
  | '0' :: 'o' :: rest => based? 8 rest
  | '0' :: 'b' :: rest => based? 2 rest
  | _ => signed? false text

end Toolpath.Toml
