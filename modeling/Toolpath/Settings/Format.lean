import Toolpath.Json.Reader
import Toolpath.Json.Value
import Toolpath.Settings
import Toolpath.Settings.Failure
import Toolpath.Toml.Number
import Toolpath.Toml.Reader

/-! # Formats of settings

Settings are written in JSON or in TOML, as the extension of the file says. A file may leave out any
of them, and the defaults stand in; it may hold other keys, which are passed over.
-/
namespace Toolpath

inductive Format where
  | json
  | toml
  deriving DecidableEq, Repr

namespace Format

def name : Format → String
  | json => "JSON"
  | toml => "TOML"

def ofPath (path : String) : Except ConfigError Format :=
  match FileStore.extension? path with
  | some "json" => .ok json
  | some "toml" => .ok toml
  | other => .error (.unsupportedFormat (other.getD ""))

end Format

namespace Settings

def set? (s : Settings) (setting : Setting) (d : Datum) : Option Settings :=
  match setting with
  | .defaultFeed => d.float?.map fun x => { s with defaultFeed := x }
  | .rapidFeed => d.float?.map fun x => { s with rapidFeed := x }
  | .degreesPerSample => d.float?.map fun x => { s with degreesPerSample := x }
  | .minSamples => d.count?.map fun n => { s with minSamples := n }
  | .endpointTolerance => d.float?.map fun x => { s with endpointTolerance := x }

/-- The defaults with data laid over them, no setting twice. -/
def overlay? (data : List (Setting × Datum)) : Option Settings :=
  if (data.map Prod.fst).Nodup then data.foldlM (fun s d => s.set? d.1 d.2) {} else none

def known (data : List (String × Datum)) : List (Setting × Datum) :=
  data.filterMap fun d => (Setting.ofKey? d.1).map fun setting => (setting, d.2)

/-- Settings from a JSON document: an object of them by key, or an array of them in order. -/
def ofJson? (text : List Char) : Option Settings :=
  match Json.layer? text with
  | none => none
  | some (.object members) => overlay? (known members)
  | some (.array items) =>
    if items.length ≤ Setting.all.length then overlay? (Setting.all.zip items) else none

def ofToml? (text : List Char) : Option Settings :=
  (Toml.document? text).bind fun d => overlay? (known d.root)

/-- Settings from a text, whether or not they are in range. A text that is no such document is
refused for one reason, whatever is wrong with it. -/
def parse (f : Format) (text : String) : Except ConfigError Settings :=
  let parsed := match f with
    | .json => ofJson? text.toList
    | .toml => ofToml? text.toList
  match parsed with
  | some s => .ok s
  | none => .error (.parse f.name "not a document of settings")

def member (s : Settings) (setting : Setting) : String × Json :=
  (setting.key, match setting with
    | .defaultFeed => .number s.defaultFeed
    | .rapidFeed => .number s.rapidFeed
    | .degreesPerSample => .number s.degreesPerSample
    | .minSamples => .natural s.minSamples.toNat
    | .endpointTolerance => .number s.endpointTolerance)

def document (s : Settings) : Json := .object (Setting.all.map s.member)

def tomlLine (s : Settings) (setting : Setting) : String :=
  setting.key ++ " = " ++ (match setting with
    | .defaultFeed => Toml.numberText s.defaultFeed
    | .rapidFeed => Toml.numberText s.rapidFeed
    | .degreesPerSample => Toml.numberText s.degreesPerSample
    | .minSamples => toString s.minSamples.toNat
    | .endpointTolerance => Toml.numberText s.endpointTolerance) ++ "\n"

def tomlText (s : Settings) : String := String.join (Setting.all.map s.tomlLine)

/-- The text of settings. The whole numbers of TOML have 63 bits and a sign. -/
def serialize (f : Format) (s : Settings) : Except ConfigError String :=
  match f with
  | .json => .ok (s.document.text .pretty)
  | .toml =>
    if s.minSamples.toNat < UInt64.size / 2 then .ok s.tomlText
    else .error (.serialize f.name "whole number out of range")

end Settings
end Toolpath
