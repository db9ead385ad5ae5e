import Toolpath.CommandLine.Options
import Toolpath.Evaluation.Document
import Toolpath.Evaluation.Summary
import Toolpath.Settings.Storage

/-! # The command line

A run resolves the settings, reads the program and prints its evaluation. A settings file named in
the arguments is never passed over in favour of the default one; without either the defaults hold.
Malformed programs are no failures, only files that cannot be read and settings that cannot be had.
-/
namespace Toolpath.CommandLine

structure Surroundings where
  read : String → Except FileError ByteArray
  /-- The path of the default settings, if something stands there. -/
  defaultConfig : Option String

def defaultConfigPath (configHome : String) : String :=
  (if configHome.toList.getLast? = some '/' then configHome else configHome ++ "/") ++
    "gcodetrace/config.toml"

/-- The surroundings where files are read as given and the user may have a directory for settings.
Default settings count if anything stands at their path. -/
def Surroundings.of (read : String → Except FileError ByteArray) (stands : String → Bool)
    (configHome : Option String) : Surroundings where
  read := read
  defaultConfig := (configHome.map defaultConfigPath).filter stands

structure Result where
  exit : Nat
  output : String := ""
  message : Option String := none
  deriving DecidableEq, Repr

def usageError : Result := { exit := 2 }

def failed (message : String) : Result := { exit := 1, message := some message }

/-- The settings of a run. They are checked once more, wherever they come from. -/
def settings (around : Surroundings) (o : Options) : Except String Settings := do
  let s ← match o.config.or around.defaultConfig with
    | some path => (Settings.load around.read path).mapError fun _ => "failed to load config " ++ path
    | none => .ok {}
  s.validate.mapError fun _ => "invalid interpreter config"
  return s

def program (around : Surroundings) (o : Options) : Except String String :=
  (Settings.readText around.read o.file).mapError fun _ => "failed to read G-code file " ++ o.file

def report (o : Options) (e : Evaluation) : String :=
  if o.json then e.document.text .pretty ++ "\n"
  else String.join ((e.summary o.file o.recent).map (· ++ "\n"))

def perform (E : Elementary Float) (around : Surroundings) (o : Options) : Result :=
  match settings around o with
  | .error message => failed message
  | .ok s => match program around o with
    | .error message => failed message
    | .ok text => { exit := 0, output := report o (evaluate E s text) }

def run (E : Elementary Float) (around : Surroundings) (arguments : List String) : Result :=
  match Options.ofArguments? arguments with
  | some o => perform E around o
  | none => usageError

end Toolpath.CommandLine
