import CaseAccess.CommandLine.Run
import CaseAccess.Http.Server
import CaseAccess.Text.Utf8
import Std.Time.DateTime.Timestamp

/-!
# The program

Reads the arguments, the environment and the settings file, and prints what the
command gives, or what went wrong.
-/

namespace CaseAccess.Program

/-- The entry that the text `name=value` gives. -/
def environmentEntry (text : List Char) : String × String :=
  (String.ofList (text.takeWhile (· ≠ '=')), String.ofList ((text.dropWhile (· ≠ '=')).drop 1))

/-- The variables of the process. -/
def processEnvironment : IO Environment := do
  let bytes ← IO.FS.readBinFile "/proc/self/environ"
  let text := Utf8.lossy bytes.toList
  let entries := (text.splitOn "\x00").map fun entry => environmentEntry entry.toList
  return fun name => entries.lookup name

/-- Whether the administrator runs the process: the second of its user ids is zero. -/
def runByAdministrator : IO Bool := do
  let status ← IO.FS.readFile "/proc/self/status"
  let line := (status.splitOn "\n").find? fun line => "Uid:".toList.isPrefixOf line.toList
  return ((line.getD "").splitOn "\t")[2]? = some "0"

def machine : IO Machine := do
  return ⟨← processEnvironment, ← runByAdministrator⟩

/-- The value, or the message as a failure. -/
def orFail {α : Type} : Except CommandError α → IO α
  | .ok a => pure a
  | .error e => throw (IO.userError e.message)

/-- Makes a directory that is not there yet. -/
def ensureDirectory (what dir : String) : IO Unit := do
  if dir = "" then return
  try IO.FS.createDirAll dir
  catch e => throw (IO.userError s!"ensure {what} directory: {dir}: {e}")

/-- The text of the settings file, if there is one. -/
def readSettings (path : String) : IO (Option String) := do
  try return some (← IO.FS.readFile path)
  catch
    | .noFileOrDirectory .. => return none
    | e => throw (IO.userError s!"read config file: {path}: {e}")

/-- The configuration of the machine; its directories are made if need be. -/
def configuration (options : DirectoryOptions) : IO ServerConfig := do
  let m ← machine
  let dirs ← orFail (m.directories options)
  ensureDirectory "config" dirs.config
  ensureDirectory "data" dirs.data
  orFail (loadConfig m dirs (← readSettings dirs.settings))

def run : Command → IO Unit
  | .config options => do IO.println (← configuration options).display
  | .serve options => do
      let c ← configuration options
      throw (IO.userError s!"no listener for {c.bind}")
  | .token options => do
      let now ← Std.Time.Timestamp.now
      IO.println (← orFail (options.token now.toSecondsSinceUnixEpoch.val))

end CaseAccess.Program

open CaseAccess in
def main (arguments : List String) : IO UInt32 := do
  match Command.parse arguments with
  | .error .help =>
      IO.println "Commands: config, serve, token"
      return 0
  | .error .version =>
      IO.println s!"zgw-authz {version}"
      return 0
  | .error e =>
      IO.eprintln s!"error: {e.message}"
      return 2
  | .ok command =>
      try
        Program.run command
        return 0
      catch e =>
        IO.eprintln s!"Error: {e}"
        return 1
