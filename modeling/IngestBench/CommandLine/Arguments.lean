import IngestBench.CommandLine.Flags
import IngestBench.CommandLine.Grammar
import IngestBench.Span.Human

/-! The commands of the program, read from arguments. -/

namespace IngestBench
namespace CommandLine

/-! ### Values -/

def readText (text : String) : Except ValueFault String := .ok text

def readPath (text : String) : Except ValueFault String := if text.isEmpty then .error .empty else .ok text

def readWhole (text : String) : Except ValueFault Nat :=
  (Text.readNat Text.maxWord64 text.toList).mapError fun _ => .bad

def readSpan (text : String) : Except ValueFault Span :=
  (Span.ofHuman text).mapError fun
    | .overflow => .overflow
    | _ => .bad

/-- Texts between commas. An empty text is one of them. -/
def readTexts (text : String) : Except ValueFault (List String) := .ok (Text.split ',' text)

/-! ### Flags -/

/-- The flags that every command takes. -/
def commonFlags : List (Flag CommonFlags) := [
  .value "config" readPath fun v f => { f with document := some v },
  .value "log-level" readText fun v f => { f with logLevel := some v }]

def loadFlags : List (Flag LoadFlags) := [
  .value "target" readText fun v f => { f with target := some v },
  .repeatable "urls" readTexts fun v f => { f with urls := f.urls ++ v },
  .value "db-name" readText fun v f => { f with database := some v },
  .value "workers" readWhole fun v f => { f with workers := some v },
  .value "batch-size" readWhole fun v f => { f with batchSize := some v },
  .value "limit" readWhole fun v f => { f with limit := some v },
  .switch "hash-workers" fun f => { f with hashWorkers := true },
  .switch "no-load" fun f => { f with noLoad := true },
  .switch "no-create-db" fun f => { f with noCreateDatabase := true },
  .switch "abort-on-exist" fun f => { f with abortOnExist := true },
  .value "file" readText fun v f => { f with file := some v },
  .switch "simulate" fun f => { f with simulate := true },
  .value "reporting-period" readSpan fun v f => { f with reportingPeriod := some v },
  .value "max-run-time" readSpan fun v f => { f with maxRunTime := some v },
  .value "backoff" readSpan fun v f => { f with backoff := some v },
  .switch "json" fun f => { f with json := true }]

def generateFlags : List (Flag GenerateFlags) := [
  .value "target" readText fun v f => { f with target := some v },
  .value "output" readPath fun v f => { f with output := some v },
  .value "scale" readWhole fun v f => { f with scale := some v },
  .value "seed" readWhole fun v f => { f with seed := some v },
  .value "max-points" readWhole fun v f => { f with maxPoints := some v }]

/-- The path of a document that is to be checked. -/
def validateFlags : List (Flag (Option String)) := [.value "config-file" readPath fun v _ => some v]

/-- Where a document is to be written, and whether an older file may be in the way. -/
def sampleFlags : List (Flag (Option String × Bool)) := [
  .value "output" readPath fun v f => (some v, f.2),
  .switch "force" fun f => (f.1, true)]

/-! ### Commands -/

/-- What has been read of a command. -/
structure Filled (β : Type) where
  common : CommonFlags
  own : β

/-- The flags of a command and those that every command takes. -/
def flagsOf {β : Type} (own : List (Flag β)) : List (Flag (Filled β)) :=
  commonFlags.map (.inside Filled.common fun v r => { r with common := v }) ++
    own.map (.inside Filled.own fun v r => { r with own := v }) ++ [.help]

/-- Reads a command to which no other ones belong. -/
def readLeaf {β : Type} (own : List (Flag β)) (none : β) (arguments : List String) : Except UsageFault (Filled β) := do
  let (s, _) ← Level.read ⟨flagsOf own, []⟩ arguments (.start ⟨.none, none⟩)
  return (← s.settle).value

/-- Reads a command, given what may follow it. The flags are settled when what follows has been read. -/
def readBranch {α : Type} (flags : List (Flag CommonFlags)) (commands : List String) (arguments : List String)
    (follow : String → List String → Except UsageFault (CommonFlags × α))
    (alone : List String → CommonFlags → Except UsageFault (CommonFlags × α)) :
    Except UsageFault (CommonFlags × α) := do
  let (s, next) ← Level.read ⟨flags, commands⟩ arguments (.start .none)
  match next with
  | some (name, rest) =>
    let (inner, result) ← follow name rest
    return (inner.within (← s.settle).value, result)
  | none =>
    let s ← s.settle
    alone s.seen s.value

/-- The commands below a command that has been named. -/
def commandsBelow : List String → List String
  | [] => ["load", "generate", "targets", "config", "help"]
  | ["config"] => ["validate", "generate", "help"]
  | _ => []

/-- Asks for help on a command, given by its name and those of the commands that it belongs to. -/
def readHelp (path : List String) : List String → UsageFault
  | [] => .help
  | name :: rest => if (commandsBelow path).contains name then readHelp (path ++ [name]) rest else .unknownCommand name

def readLoad (arguments : List String) : Except UsageFault (CommonFlags × Command) := do
  let r ← readLeaf loadFlags .none arguments
  if r.own.file.isSome && r.own.simulate then throw (.conflict "file" "simulate")
  return (r.common, .load r.own)

def readGenerate (arguments : List String) : Except UsageFault (CommonFlags × Command) := do
  let r ← readLeaf generateFlags .none arguments
  return (r.common, .generate r.own)

def readTargets (arguments : List String) : Except UsageFault (CommonFlags × Command) := do
  let r ← readLeaf [] () arguments
  return (r.common, .targets)

def readValidate (arguments : List String) : Except UsageFault (CommonFlags × Command) := do
  let r ← readLeaf validateFlags none arguments
  match r.own with
  | some path => return (r.common, .validate path)
  | none => throw (.flagMissing "config-file")

def readSample (arguments : List String) : Except UsageFault (CommonFlags × Command) := do
  let r ← readLeaf sampleFlags (none, false) arguments
  return (r.common, .sample r.own.1 r.own.2)

/-- Reads the command that deals with settings; it needs one of the commands below it. -/
def readConfig (arguments : List String) : Except UsageFault (CommonFlags × Command) :=
  readBranch (commonFlags ++ [.help]) (commandsBelow ["config"]) arguments
    (fun name rest => match name with
      | "validate" => readValidate rest
      | "generate" => readSample rest
      | _ => .error (readHelp ["config"] rest))
    fun seen _ => .error (if seen.isEmpty then .nothingGiven else .commandMissing)

/-- Reads a command of the program by its name. -/
def readCommand (name : String) (arguments : List String) : Except UsageFault (CommonFlags × Command) :=
  match name with
  | "load" => readLoad arguments
  | "generate" => readGenerate arguments
  | "targets" => readTargets arguments
  | "config" => readConfig arguments
  | _ => .error (readHelp [] arguments)

/-- Reads the arguments of the program. -/
def Invocation.ofArguments (arguments : List String) : Except UsageFault Invocation := do
  let (common, command) ← readBranch (commonFlags ++ [.help, .version]) (commandsBelow []) arguments
    (fun name rest => (readCommand name rest).map fun (common, command) => (common, some command))
    fun _ common => .ok (common, none)
  return ⟨common, command⟩

end CommandLine
end IngestBench
