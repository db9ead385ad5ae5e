import Toolpath.Settings.Format

/-! # Loading and saving settings

Only settings in range are loaded or saved. All that can be wrong with settings or format is found
before the first directory is made, so a save that fails for such a reason leaves the files alone.
-/
namespace Toolpath.Settings

def validate (s : Settings) : Except ConfigError Unit :=
  match s.violation? with
  | some setting => .error (.invalidValue setting.key setting.demand)
  | none => .ok ()

def readText (read : String → Except FileError ByteArray) (path : String) :
    Except FileError String := do
  match String.fromUTF8? (← read path) with
  | some text => .ok text
  | none => .error .invalidData

def load (read : String → Except FileError ByteArray) (path : String) :
    Except Failure Settings := do
  let format ← (Format.ofPath path).mapError .config
  let text ← (readText read path).mapError .file
  let s ← (parse format text).mapError .config
  s.validate.mapError .config
  return s

def render (s : Settings) (path : String) : Except ConfigError String := do
  s.validate
  serialize (← Format.ofPath path) s

def save (s : Settings) (path : String) (fs : FileStore) : Except Failure Unit × FileStore :=
  match s.render path with
  | .error e => (.error (.config e), fs)
  | .ok text =>
    let (result, fs) := fs.write path text.toUTF8
    (result.mapError .file, fs)

end Toolpath.Settings
