import Toolpath.Number.Shortest

/-! # JSON values and their text

A value is written in one line, or over many with two spaces for each level. A number is written
with the shortest digits that tell it from all others, of two decimals equally near the even one:
plainly with at least one decimal where its size is between `0.00001` and `10 ^ 16`, and with an
exponent outside; what is not finite is written as `null`.
-/
namespace Toolpath

inductive Json where
  | null
  | bool (b : Bool)
  | natural (n : Nat)
  | number (x : Float)
  | string (s : String)
  | array (items : List Json)
  | object (fields : List (String × Json))

namespace Json

def decimalText (digits : Nat) (power : Int) : String :=
  let point := ((toString digits).length : Int) + power
  if -5 < point ∧ point ≤ 16 then Shortest.plain digits power else Shortest.scientific digits power

def numberText (x : Float) : String :=
  match Binary.ofFloat x with
  | .nan | .infinity _ => "null"
  | .finite negative m e => Shortest.text Binary.roundHalfEven decimalText negative m e

def escape (c : Char) : String :=
  match c with
  | '"' => "\\\""
  | '\\' => "\\\\"
  | '\n' => "\\n"
  | '\r' => "\\r"
  | '\t' => "\\t"
  | '\x08' => "\\b"
  | '\x0c' => "\\f"
  | c =>
    if c.toNat < 0x20 then
      "\\u00" ++ String.ofList [Nat.digitChar (c.toNat / 16), Nat.digitChar (c.toNat % 16)]
    else String.singleton c

def quoted (s : String) : String := "\"" ++ String.join (s.toList.map escape) ++ "\""

inductive Style where
  | compact
  | pretty
  deriving DecidableEq, Repr

def bracketed (style : Style) (depth : Nat) (left right : String) (parts : List String) : String :=
  if parts.isEmpty then left ++ right
  else match style with
    | .compact => left ++ ",".intercalate parts ++ right
    | .pretty =>
      let inner := "\n" ++ "".pushn ' ' (2 * depth + 2)
      left ++ inner ++ ("," ++ inner).intercalate parts ++ "\n" ++ "".pushn ' ' (2 * depth) ++ right

def colon : Style → String
  | .compact => ":"
  | .pretty => ": "

mutual

def write (style : Style) (depth : Nat) : Json → String
  | null => "null"
  | bool b => if b then "true" else "false"
  | natural n => toString n
  | number x => numberText x
  | string s => quoted s
  | array items => bracketed style depth "[" "]" (writeItems style (depth + 1) items)
  | object fields => bracketed style depth "\x7b" "\x7d" (writeFields style (depth + 1) fields)

def writeItems (style : Style) (depth : Nat) : List Json → List String
  | [] => []
  | item :: rest => write style depth item :: writeItems style depth rest

def writeFields (style : Style) (depth : Nat) : List (String × Json) → List String
  | [] => []
  | (key, value) :: rest =>
    (quoted key ++ colon style ++ write style depth value) :: writeFields style depth rest

end

def text (style : Style) (document : Json) : String := document.write style 0

end Json
end Toolpath
