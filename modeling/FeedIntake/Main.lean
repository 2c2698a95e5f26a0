import FeedIntake.Cli.Program

/-!
The program on a real machine, as far as its files go; it has no connection to any network.
-/
namespace FeedIntake

/-- The bytes of a text, as it comes from the machine. -/
def ofArgument (s : String) : Bytes := Bytes.ofString s

def toPath (s : Bytes) : String := (String.fromUTF8? ⟨s.toArray⟩).getD ""

/-- What is found at a path of the machine. -/
def findFile (path : Bytes) : IO Cli.Found := do
  match ← (IO.FS.Handle.mk (toPath path) .read).toBaseIO with
  | .error _ => return .nothing
  | .ok handle =>
    match ← handle.readBinToEnd.toBaseIO with
    | .error _ => return .directory
    | .ok content => return .file content.data.toList

/-- True if a file of the machine has been written. -/
def writeFile (path content : Bytes) : IO Bool := do
  match ← (IO.FS.writeBinFile (toPath path) ⟨content.toArray⟩).toBaseIO with
  | .error _ => return false
  | .ok _ => return true

def readEnvironment : IO Environment := do
  let settings : List Setting := [.logLevel, .proxyUrl, .proxyToken, .proxyTokenFile, .timeout,
    .maxContentLength, .maxRedirects, .poolSize]
  let given ← settings.mapM fun setting => do
    let value ← IO.getEnv (toPath setting.name)
    return (setting, (value.map ofArgument).getD [])
  return fun setting => (given.lookup setting).getD []

end FeedIntake

open FeedIntake in
def main (arguments : List String) : IO UInt32 := do
  let host : Cli.Host IO := {
    environment := ← readEnvironment
    libraries := .plain
    read := findFile
    write := writeFile
    fetch := fun reader url options => return Cli.fetchOffline reader url options }
  let report ← Cli.run host (arguments.map ofArgument)
  (← IO.getStdout).write ⟨report.output.toArray⟩
  (← IO.getStderr).write ⟨report.errors.toArray⟩
  return report.code.toUInt32
