import Toolpath.FileStore

/-! # Failures

What can go wrong with settings: a value out of its range, a text that is not in the format, a value
that the format cannot hold, an unknown format, or a file that cannot be read or written.
-/
namespace Toolpath

inductive ConfigError where
  | invalidValue (field reason : String)
  | parse (format reason : String)
  | serialize (format reason : String)
  | unsupportedFormat (extension : String)
  deriving DecidableEq, Repr

def ConfigError.message : ConfigError → String
  | invalidValue field reason => "Invalid value for '" ++ field ++ "': " ++ reason
  | parse format reason => "Failed to parse " ++ format ++ " config: " ++ reason
  | serialize format reason => "Failed to serialize " ++ format ++ " config: " ++ reason
  | unsupportedFormat extension =>
    "Unsupported config format '" ++ extension ++ "' (expected .json or .toml)"

inductive Failure where
  | config (error : ConfigError)
  | file (error : FileError)
  | other (text : String)
  deriving DecidableEq, Repr

namespace Failure

def message : Failure → String
  | config e => e.message
  | file e => "I/O error: " ++ e.message
  | other text => text

def isConfig : Failure → Bool
  | config _ => true
  | _ => false

def isFile : Failure → Bool
  | file _ => true
  | _ => false

end Failure
end Toolpath
