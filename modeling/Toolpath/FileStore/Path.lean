import Toolpath.Text.Pieces

/-! # Paths of files

A path is a text with slashes between its steps. Empty steps and single dots lead nowhere.
-/
namespace Toolpath.FileStore

def isAbsolute (path : String) : Bool := path.toList.head? = some '/'

def steps (path : String) : List String := (pieces '/' path.toList).map String.ofList

def isIdle (step : String) : Bool := step = "" || step = "."

def names (path : String) : List String := (steps path).filter (!isIdle ·)

def fileName? (path : String) : Option String :=
  (names path).getLast?.filter (· ≠ "..")

/-- What follows the last dot of a name, unless that dot comes first or there is none. -/
def extensionOf? (name : String) : Option String :=
  let backwards := name.toList.reverse
  match backwards.dropWhile (· ≠ '.') with
  | _ :: _ :: _ => some (String.ofList (backwards.takeWhile (· ≠ '.')).reverse)
  | _ => none

def extension? (path : String) : Option String := (fileName? path).bind extensionOf?

end Toolpath.FileStore
