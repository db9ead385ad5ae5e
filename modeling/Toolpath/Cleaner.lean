import Toolpath.Text.Blank
import Toolpath.Text.Digit
import Toolpath.Text.UpperCase

/-! # Cleaning lines

A cleaner alters a line or drops it. A pipeline runs the enabled cleaners in their order and stops
at the first one that drops the line. The standard pipeline trims, raises the case, takes off one
line number and takes out the comments.
-/
namespace Toolpath

structure Cleaner where
  name : String
  description : String
  enabled : Bool := true
  clean : List Char → Option (List Char)

namespace Cleaner

def whitespace : Cleaner where
  name := "whitespace"
  description := "Removes leading and trailing whitespace and drops blank lines"
  clean := trim?

def case : Cleaner where
  name := "case"
  description := "Converts G-code words to uppercase"
  clean line := some (upper line)

/-- The line without a leading line number: `N` and at least one digit, with the blanks behind. -/
def stripLineNumber (line : List Char) : List Char :=
  match line with
  | c :: rest =>
    if (c = 'N' || c = 'n') && (rest.head?.any isDecimal) then
      (rest.dropWhile isDecimal).dropWhile isBlank
    else line
  | [] => []

def lineNumber : Cleaner where
  name := "line_number"
  description := "Removes a leading N-word line number"
  clean line := trim? (stripLineNumber line)

/-- What is left outside the comments when `depth` parentheses are open. A closed outermost group
leaves a space, so that the words beside it stay apart; a semicolon outside of all groups ends the
line; a closing parenthesis without a partner stays. -/
def outsideComments (depth : Nat) : List Char → List Char
  | [] => []
  | c :: rest =>
    if c = ';' ∧ depth = 0 then []
    else if c = '(' then outsideComments (depth + 1) rest
    else if c = ')' ∧ 0 < depth then
      if depth = 1 then ' ' :: outsideComments 0 rest else outsideComments (depth - 1) rest
    else if depth = 0 then c :: outsideComments 0 rest
    else outsideComments depth rest

def comment : Cleaner where
  name := "comment"
  description := "Removes G-code comments (parentheses and semicolon style)"
  clean line := trim? (outsideComments 0 line)

end Cleaner

abbrev Pipeline := List Cleaner

namespace Pipeline

def run : Pipeline → List Char → Option (List Char)
  | [], line => some line
  | c :: rest, line =>
    if c.enabled then (c.clean line).bind (run rest) else run rest line

def standard : Pipeline :=
  [Cleaner.whitespace, Cleaner.case, Cleaner.lineNumber, Cleaner.comment]

end Pipeline
end Toolpath
