import IngestBench.Config.Environment
import IngestBench.Input
import IngestBench.Web.Exchange

/-! What commands need of the machine that they run on. -/

namespace IngestBench
namespace CommandLine

/-- Why a file cannot be used. -/
inductive FileFault
  | missing
  | taken
  | notDirectory
  | directory
  | notUtf8
  | described (text : String)
  deriving Repr, DecidableEq

/-- The wording of the fault. -/
def FileFault.message : FileFault → String
  | .missing => "No such file or directory (os error 2)"
  | .taken => "File exists (os error 17)"
  | .notDirectory => "Not a directory (os error 20)"
  | .directory => "Is a directory (os error 21)"
  | .notUtf8 => "stream did not contain valid UTF-8"
  | .described text => text

/-- A machine, with a network whose state is an `ω`. -/
structure Host (m : Type → Type) (ω : Type) where
  /-- The count of processors. -/
  processors : Nat
  environment : Config.Environment
  network : Web.Network ω
  networkState : ω
  /-- The text of a file. -/
  text : String → m (Except FileFault String)
  /-- The lines of a file, or of the standard input for a hyphen. -/
  lines : String → m (Except FileFault Input)
  /-- Whether there is a file or a directory. -/
  contains : String → m Bool
  /-- Puts a text in place of what a file held. -/
  write : String → String → m (Except FileFault Unit)
  /-- Makes a directory and those it is in, where they are missing. -/
  makeDirectories : String → m (Except FileFault Unit)
  print : String → m Unit

/-- The path of the directory that a path is in; nothing for one that is only a name. -/
def parent? (path : String) : Option String :=
  let inside := Text.dropEnd (· ≠ '/') (Text.dropEnd (· = '/') path.toList)
  if inside.isEmpty then none
  else
    let directory := Text.dropEnd (· = '/') inside
    some (if directory.isEmpty then "/" else String.ofList directory)

end CommandLine
end IngestBench
