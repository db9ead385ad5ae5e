import Toolpath.Text.Escape

/-! # TOML lexemes

Blanks, comments, strings and keys. Only the text of keys is kept; strings that are values are
passed over. Every reader takes a text and gives the rest behind what it has read.
-/
namespace Toolpath.Toml

/-! ## Blanks, comments and ends of lines -/

def isSpace (c : Char) : Bool := c = ' ' || c = '\t'

def skipSpace (text : List Char) : List Char := text.dropWhile isSpace

def behind? (c : Char) : List Char → Option (List Char)
  | d :: rest => if d = c then some rest else none
  | [] => none

/-- Whether a character may stand in comments and strings: a tab, or no control. -/
def isPlain (c : Char) : Bool := c = '\t' || (0x20 ≤ c.toNat && c.toNat ≠ 0x7F)

def newline? : List Char → Option (List Char)
  | '\n' :: rest => some rest
  | '\r' :: '\n' :: rest => some rest
  | _ => none

def lineEnd? (text : List Char) : Option (List Char) :=
  let rest := match skipSpace text with
    | '#' :: rest => rest.dropWhile isPlain
    | rest => rest
  match rest with
  | [] => some []
  | rest => newline? rest

def skipLines (inComment : Bool) : List Char → List Char
  | [] => []
  | '\r' :: '\n' :: rest => skipLines false rest
  | '\n' :: rest => skipLines false rest
  | c :: rest =>
    if inComment then if isPlain c then skipLines true rest else c :: rest
    else if isSpace c then skipLines false rest
    else if c = '#' then skipLines true rest
    else c :: rest

/-! ## Strings -/

def coded? (ds : List Char) : Option Char := (hexValue? ds).bind scalar?

def basicText? : List Char → Option (List Char × List Char)
  | [] => none
  | '"' :: rest => some ([], rest)
  | '\\' :: 'u' :: a :: b :: c :: d :: rest => do
    let e ← coded? [a, b, c, d]
    (basicText? rest).map (before e)
  | '\\' :: 'U' :: a :: b :: c :: d :: e :: f :: g :: h :: rest => do
    let e ← coded? [a, b, c, d, e, f, g, h]
    (basicText? rest).map (before e)
  | '\\' :: c :: rest => do
    let e ← letterEscape? c
    (basicText? rest).map (before e)
  | c :: rest => if isPlain c then (basicText? rest).map (before c) else none

def literalText? : List Char → Option (List Char × List Char)
  | [] => none
  | '\'' :: rest => some ([], rest)
  | c :: rest => if isPlain c then (literalText? rest).map (before c) else none

/-- The text behind a string of several lines. Three quotes end it, and one or two more of them
before the end belong to it. A backslash may also stand before the end of a line. -/
def skipBasicLines? : List Char → Option (List Char)
  | [] => none
  | '"' :: '"' :: '"' :: '"' :: '"' :: rest => some rest
  | '"' :: '"' :: '"' :: '"' :: rest => some rest
  | '"' :: '"' :: '"' :: rest => some rest
  | '\r' :: '\n' :: rest => skipBasicLines? rest
  | '\n' :: rest => skipBasicLines? rest
  | '\\' :: 'u' :: a :: b :: c :: d :: rest => do
    let _ ← coded? [a, b, c, d]
    skipBasicLines? rest
  | '\\' :: 'U' :: a :: b :: c :: d :: e :: f :: g :: h :: rest => do
    let _ ← coded? [a, b, c, d, e, f, g, h]
    skipBasicLines? rest
  | '\\' :: c :: rest =>
    if (letterEscape? c).isSome then skipBasicLines? rest
    else if (newline? (skipSpace (c :: rest))).isSome then skipBasicLines? (c :: rest)
    else none
  | c :: rest => if isPlain c then skipBasicLines? rest else none

def skipLiteralLines? : List Char → Option (List Char)
  | [] => none
  | '\'' :: '\'' :: '\'' :: '\'' :: '\'' :: rest => some rest
  | '\'' :: '\'' :: '\'' :: '\'' :: rest => some rest
  | '\'' :: '\'' :: '\'' :: rest => some rest
  | '\r' :: '\n' :: rest => skipLiteralLines? rest
  | '\n' :: rest => skipLiteralLines? rest
  | c :: rest => if isPlain c then skipLiteralLines? rest else none

def skipString? : List Char → Option (List Char)
  | '"' :: '"' :: '"' :: rest => skipBasicLines? rest
  | '\'' :: '\'' :: '\'' :: rest => skipLiteralLines? rest
  | '"' :: rest => (basicText? rest).map Prod.snd
  | '\'' :: rest => (literalText? rest).map Prod.snd
  | _ => none

/-! ## Keys -/

def isBare (c : Char) : Bool := c.isAlphanum || c = '_' || c = '-'

def keyPart? (text : List Char) : Option (String × List Char) :=
  match text with
  | '"' :: rest => (basicText? rest).map fun r => (String.ofList r.1, r.2)
  | '\'' :: rest => (literalText? rest).map fun r => (String.ofList r.1, r.2)
  | text =>
    match text.takeWhile isBare with
    | [] => none
    | part => some (String.ofList part, text.dropWhile isBare)

def keyParts? : Nat → List Char → Option (List String × List Char)
  | 0, _ => none
  | fuel + 1, text => do
    let (part, text) ← keyPart? (skipSpace text)
    match skipSpace text with
    | '.' :: rest => (keyParts? fuel rest).map fun r => (part :: r.1, r.2)
    | rest => some ([part], rest)

def maxDepth : Nat := 79

def key? (text : List Char) : Option (List String × List Char) := keyParts? maxDepth text

end Toolpath.Toml
