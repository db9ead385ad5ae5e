import Toolpath.CommandLine
import Toolpath.Number.Double

/-! # The program

Takes arguments and environment, reads the files that the arguments lead to, and prints the result
of the run.
-/
namespace Toolpath.CommandLine

def configHome? : IO (Option String) := do
  match ← IO.getEnv "XDG_CONFIG_HOME" with
  | some path =>
    if path.startsWith "/" then return some path
  | none => pure ()
  return ((← IO.getEnv "HOME").filter (· ≠ "")).map (· ++ "/.config")

def readFile (path : String) : IO (Except FileError ByteArray) := do
  match ← (IO.FS.readBinFile path).toBaseIO with
  | .ok bytes => return .ok bytes
  | .error (.noFileOrDirectory ..) => return .error .notFound
  | .error e => return .error (.other (toString e))

/-- Whether anything stands at a path, links followed. -/
def standsAt (path : String) : IO Bool := do
  match ← (IO.FS.realPath path).toBaseIO with
  | .ok place => place.pathExists
  | .error _ => return false

end Toolpath.CommandLine

open Toolpath CommandLine

def main (arguments : List String) : IO UInt32 := do
  let configHome ← configHome?
  let defaultPath := configHome.map defaultConfigPath
  let wanted := match Options.ofArguments? arguments with
    | some o => [o.file] ++ o.config.toList ++ defaultPath.toList
    | none => []
  let files ← wanted.mapM fun path => return (path, ← readFile path)
  let read (path : String) := (files.lookup path).getD (.error .notFound)
  let standing ← defaultPath.toList.filterM standsAt
  let result := run .native (.of read (· ∈ standing) configHome) arguments
  (← IO.getStdout).putStr result.output
  match result.message with
  | some message => (← IO.getStderr).putStrLn ("Error: " ++ message)
  | none =>
    if result.exit ≠ 0 then
      (← IO.getStderr).putStrLn
        "Usage: toolpath [--config PATH] [--json] [--recent N] [--log-json] FILE"
  return result.exit.toUInt32
