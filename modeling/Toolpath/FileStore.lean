import Toolpath.FileStore.Path

/-! # Files

A store tells what stands at every path, and in which directory a program runs. A path that begins
with a slash is walked from the root, any other one from that directory. It is walked step by step,
and every step but the last must lead into a directory; above the root there is only the root.
-/
namespace Toolpath

inductive FileError where
  | notFound
  | alreadyExists
  | notDirectory
  | isDirectory
  | invalidData
  | other (text : String)
  deriving DecidableEq, Repr

def FileError.message : FileError → String
  | notFound => "No such file or directory (os error 2)"
  | alreadyExists => "File exists (os error 17)"
  | notDirectory => "Not a directory (os error 20)"
  | isDirectory => "Is a directory (os error 21)"
  | invalidData => "stream did not contain valid UTF-8"
  | other text => text

namespace FileStore

inductive Entry where
  | directory
  | file (bytes : ByteArray)

end FileStore

structure FileStore where
  /-- What stands at a place, which is given by names from the root. -/
  entry? : List String → Option FileStore.Entry
  /-- The directory in which the program runs. -/
  directory : List String

namespace FileStore

def empty (directory : List String) : FileStore where
  entry? place := if place.isPrefixOf directory then some .directory else none
  directory

def set (fs : FileStore) (place : List String) (e : Entry) : FileStore :=
  { fs with entry? := fun other => if other = place then some e else fs.entry? other }

def start (fs : FileStore) (path : String) : List String :=
  if isAbsolute path then [] else fs.directory

/-- Walks on from a directory. A file ends the walk, and nothing may follow it. -/
def walk (fs : FileStore) (here : List String) : List String → Except FileError (List String)
  | [] => .ok here
  | step :: rest =>
    if isIdle step then fs.walk here rest
    else if step = ".." then fs.walk here.dropLast rest
    else
      let next := here ++ [step]
      match fs.entry? next with
      | none => .error .notFound
      | some .directory => fs.walk next rest
      | some (.file _) => if rest.isEmpty then .ok next else .error .notDirectory

def read (fs : FileStore) (path : String) : Except FileError ByteArray :=
  if path = "" then .error .notFound
  else match fs.walk (fs.start path) (steps path) with
    | .error e => .error e
    | .ok place => match fs.entry? place with
      | some (.file bytes) => .ok bytes
      | some .directory => .error .isDirectory
      | none => .error .notFound

def holds (fs : FileStore) (path : String) : Bool :=
  match fs.read path with
  | .ok _ | .error .isDirectory => true
  | _ => false

def makeDirectories (fs : FileStore) (here : List String) :
    List String → Except FileError Unit × FileStore
  | [] => (.ok (), fs)
  | ".." :: rest => fs.makeDirectories here.dropLast rest
  | name :: rest =>
    let next := here ++ [name]
    match fs.entry? next with
    | none => (fs.set next .directory).makeDirectories next rest
    | some .directory => fs.makeDirectories next rest
    | some (.file _) => (.error (if rest.isEmpty then .alreadyExists else .notDirectory), fs)

/-- The place where a path puts a file. The path must end with the name of the file, since one that
ends in a slash or in dots means a directory. -/
def target (fs : FileStore) (path : String) : Except FileError (List String) :=
  let backwards := (steps path).reverse
  match backwards.dropWhile (· = "") with
  | [] => .error (if path = "" then .notFound else .isDirectory)
  | name :: before => match fs.walk (fs.start path) before.reverse with
    | .error e => .error e
    | .ok here => match fs.entry? here with
      | some .directory =>
        let place := here ++ [name]
        match fs.entry? place with
        | some .directory => .error .isDirectory
        | _ =>
          if name = "." ∨ name = ".." ∨ backwards.head? = some "" then .error .isDirectory
          else .ok place
      | _ => .error .notDirectory

def write (fs : FileStore) (path : String) (bytes : ByteArray) :
    Except FileError Unit × FileStore :=
  match fs.makeDirectories (fs.start path) (names path).dropLast with
  | (.error e, fs) => (.error e, fs)
  | (.ok (), fs) => match fs.target path with
    | .error e => (.error e, fs)
    | .ok place => (.ok (), fs.set place (.file bytes))

def ofFiles (directory : List String) (files : List (String × ByteArray)) : FileStore :=
  files.foldl (fun fs file => (fs.write file.1 file.2).2) (empty directory)

end FileStore
end Toolpath
