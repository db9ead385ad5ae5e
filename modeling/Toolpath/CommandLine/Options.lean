import Toolpath.Number.Literal

/-! # Options

The arguments name one program file and may set options before or behind it. An option takes its
value behind an equals sign or from the next argument, which must then not look like an option
itself. Behind a lone double dash everything is a file name. No option is given twice.
-/
namespace Toolpath.CommandLine

structure Options where
  file : String
  config : Option String
  json : Bool
  recent : Nat
  logJson : Bool
  deriving DecidableEq, Repr

structure Given where
  file : Option String := none
  config : Option String := none
  json : Bool := false
  recent : Option Nat := none
  logJson : Bool := false

namespace Given

def setFile (g : Given) (name : String) : Option Given :=
  if g.file.isSome ∨ name = "" then none else some { g with file := some name }

def setConfig (g : Given) (path : String) : Option Given :=
  if g.config.isSome ∨ path = "" then none else some { g with config := some path }

/-- A count of 64 bits in decimal digits; a plus sign may stand before them. -/
def count? (text : String) : Option Nat :=
  let digits := match text.toList with
    | '+' :: rest => rest
    | rest => rest
  if digits.isEmpty ∨ !digits.all Char.isDigit then none
  else some (Literal.digitsValue digits) |>.filter (· < UInt64.size)

def setRecent (g : Given) (text : String) : Option Given :=
  if g.recent.isSome then none else (count? text).map fun n => { g with recent := some n }

def setValue (g : Given) (name value : String) : Option Given :=
  match name with
  | "--config" => g.setConfig value
  | "--recent" => g.setRecent value
  | _ => none

def setFlag (g : Given) (name : String) : Option Given :=
  match name with
  | "--json" => if g.json then none else some { g with json := true }
  | "--log-json" => if g.logJson then none else some { g with logJson := true }
  | _ => none

end Given

/-- Whether an argument looks like an option. A lone dash does not. -/
def isOption (argument : String) : Bool := argument.toList.head? = some '-' && argument ≠ "-"

def read (g : Given) : List String → Option Given
  | [] => some g
  | "--" :: files => files.foldlM Given.setFile g
  | argument :: rest =>
    if !isOption argument then (g.setFile argument).bind (read · rest)
    else if '=' ∈ argument.toList then
      let name := String.ofList (argument.toList.takeWhile (· ≠ '='))
      let value := String.ofList ((argument.toList.dropWhile (· ≠ '=')).drop 1)
      (g.setValue name value).bind (read · rest)
    else if argument = "--config" ∨ argument = "--recent" then
      match rest with
      | [] => none
      | value :: rest =>
        if isOption value then none else (g.setValue argument value).bind (read · rest)
    else (g.setFlag argument).bind (read · rest)

def Options.ofArguments? (arguments : List String) : Option Options := do
  let g ← read {} arguments
  let file ← g.file
  return { file, config := g.config, json := g.json, recent := g.recent.getD 10
           logJson := g.logJson }

end Toolpath.CommandLine
