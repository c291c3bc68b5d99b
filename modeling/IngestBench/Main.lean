import IngestBench.CommandLine.Actions
import IngestBench.CommandLine.Arguments

/-! The program. It runs the commands on the machine that it is started on; it has no network, so that only dry
    runs and commands on files come to an end without a fault. -/

namespace IngestBench
namespace CommandLine

/-- The fault behind an error of the machine. -/
def FileFault.ofError : IO.Error → FileFault
  | .noFileOrDirectory _ _ _ => .missing
  | .alreadyExists _ _ _ => .taken
  | .inappropriateType _ 20 _ => .notDirectory
  | .inappropriateType _ _ _ => .directory
  | error => .described (toString error)

/-- Tries something that the machine may refuse. -/
def tried {α : Type} (work : IO α) : IO (Except FileFault α) := do
  match ← work.toBaseIO with
  | .ok value => return .ok value
  | .error error => return .error (.ofError error)

/-- What is left of a stream. -/
partial def readToEnd (stream : IO.FS.Stream) (read : ByteArray) : IO ByteArray := do
  let more ← stream.read 65536
  if more.isEmpty then return read
  readToEnd stream (read ++ more)

/-- The bytes of a file, or of the standard input for a hyphen. -/
def bytesOf (location : String) : IO ByteArray := do
  if location == "-" then readToEnd (← IO.getStdin) .empty else IO.FS.readBinFile location

/-- The text of a file. -/
def textOf (path : String) : IO (Except FileFault String) := do
  match ← tried (IO.FS.readBinFile path) with
  | .error fault => return .error fault
  | .ok bytes =>
    match String.fromUTF8? bytes with
    | some text => return .ok text
    | none => return .error .notUtf8

/-- The environment variables that settings can come from. -/
def readEnvironment : IO Config.Environment := do
  let values ← Config.Override.all.mapM fun o => do
    let name := Config.programName ++ "_" ++ o.name
    return (name, ← IO.getEnv name)
  return fun name => ((values.find? (·.1 == name)).map (·.2)).join

/-- The machine that the program is started on. -/
def thisHost (environment : Config.Environment) : Host IO Unit where
  processors := 4
  environment
  network := Web.noNetwork
  networkState := ()
  text := textOf
  lines location := do return (← tried (bytesOf location)).map fun bytes => .ofBytes bytes.toList
  contains path := do return (← tried (IO.FS.Handle.mk path .read)).isOk
  write path text := tried (IO.FS.writeFile path text)
  makeDirectories path := tried (IO.FS.createDirAll path)
  print := IO.print

/-- More steps than a load takes. -/
def fuel : Nat := 1000000000000

/-- Runs the program; the result is its exit code. -/
def run (arguments : List String) : IO UInt32 := do
  match Invocation.ofArguments arguments with
  | .error .help =>
    IO.print helpText
    return 0
  | .error .version =>
    IO.print versionText
    return 0
  | .error fault =>
    IO.eprintln ("error: " ++ fault.message)
    return 2
  | .ok invocation =>
    match ← (perform (thisHost (← readEnvironment)) fuel invocation).run with
    | .ok _ => return 0
    | .error fault =>
      IO.eprintln fault.describe
      return 1

end CommandLine
end IngestBench

def main (arguments : List String) : IO UInt32 := IngestBench.CommandLine.run arguments
