import Toolpath.Settings.Datum

/-! # What a TOML document defines

A document is kept flat: for every path, what is defined there. A path leads from the root by keys,
and into an array of tables by the number of an element. Nothing is defined twice. A table may be
implied by a longer header before its own header comes; a table that grew from a dotted key gets no
header, and one that has a header does not grow from dotted keys.
-/
namespace Toolpath.Toml

inductive Step where
  | key (name : String)
  | element (index : Nat)
  deriving DecidableEq, Repr

abbrev Path := List Step

inductive Origin where
  | header
  | implied
  | dotted
  deriving DecidableEq, Repr

inductive Entry where
  | value (datum : Datum)
  | table (origin : Origin)
  /-- An array of so many tables, of which the last one is open. -/
  | tables (size : Nat)

/-- What is defined so far, the latest first. -/
structure Definitions where
  entries : List (Path × Entry) := []

namespace Definitions

def find? (d : Definitions) (path : Path) : Option Entry := d.entries.lookup path

def set (d : Definitions) (path : Path) (e : Entry) : Definitions := ⟨(path, e) :: d.entries⟩

/-- Goes from a table down to another one, which is made where it does not exist. Nothing goes
through a value, and dotted keys do not go through a table with a header. -/
def descend (dotted : Bool) (d : Definitions) (path : Path) :
    List String → Option (Definitions × Path)
  | [] => some (d, path)
  | name :: rest =>
    let next := path ++ [.key name]
    match d.find? next with
    | none => (d.set next (.table (if dotted then .dotted else .implied))).descend dotted next rest
    | some (.value _) => none
    | some (.tables size) => d.descend dotted (next ++ [.element (size - 1)]) rest
    | some (.table origin) =>
      if dotted ∧ origin = .header then none else d.descend dotted next rest

/-- Defines the value of a key in a table; the tables of a dotted key are made with it. -/
def insert (d : Definitions) (table : Path) (keys : List String) (datum : Datum) :
    Option Definitions := do
  let (d, path) ← d.descend true table keys.dropLast
  unless keys.length ≤ 1 do
    let some (.table .dotted) := d.find? path | none
  let path := path ++ [.key (← keys.getLast?)]
  if (d.find? path).isSome then none else some (d.set path (.value datum))

def openTable (d : Definitions) (keys : List String) : Option (Definitions × Path) := do
  let (d, path) ← d.descend false [] keys.dropLast
  let path := path ++ [.key (← keys.getLast?)]
  match d.find? path with
  | none | some (.table .implied) => some (d.set path (.table .header), path)
  | _ => none

def openElement (d : Definitions) (keys : List String) : Option (Definitions × Path) := do
  let (d, path) ← d.descend false [] keys.dropLast
  let path := path ++ [.key (← keys.getLast?)]
  match d.find? path with
  | none => some (d.set path (.tables 1), path ++ [.element 0])
  | some (.tables size) => some (d.set path (.tables (size + 1)), path ++ [.element size])
  | _ => none

/-- The keys of the root and what they hold, the latest first. Tables hold nothing of interest. -/
def root (d : Definitions) : List (String × Datum) :=
  d.entries.filterMap fun
    | ([.key name], .value datum) => some (name, datum)
    | ([.key name], _) => some (name, .other)
    | _ => none

end Definitions
end Toolpath.Toml
