import IngestBench.CommandLine.Fault
import IngestBench.CommandLine.Flags
import IngestBench.CommandLine.Help
import IngestBench.Config.Sample
import IngestBench.Load
import IngestBench.Report.Summary

/-! What the commands do. They run on any machine: on one with files, and on one that is held in memory. -/

namespace IngestBench
namespace CommandLine

variable {m : Type → Type} [Monad m] {ω α : Type}

/-- What a command does: it may fail, and what it did before stays done. -/
abbrev Action (m : Type → Type) := ExceptT Fault m

/-- A result that is known, as an action. -/
def settled (result : Except Fault α) : Action m α := ExceptT.mk (pure result)

/-- Does something to a file. -/
def withFile (task : FileTask) (work : m (Except FileFault α)) : Action m α :=
  ExceptT.mk do return (← work).mapError (.file task)

/-! ### Settings -/

/-- The settings of a document, if one is given, and of the environment. -/
def settingsFrom (host : Host m ω) (origin : Origin) (path : Option String) : Action m Settings := do
  let document ← match path with
    | none => pure none
    | some path => ExceptT.mk do
      return ((← host.text path).map some).mapError fun fault => .settings origin (.unreadable fault.message)
  settled <| (Settings.load host.processors Config.programName host.environment document).mapError
    (.ofSettings origin)

/-- Settings with the level of the log that a flag asks for. -/
def withLogLevel (flag : Option String) (s : Settings) : Except Fault Settings :=
  match flag with
  | none => .ok s
  | some text =>
    match LogLevel.ofText? text with
    | some level => .ok { s with log.level := level }
    | none => .error (.logLevel text)

/-- Settings that were in order before the flags of a command changed them; they have passed all checks again. -/
def withFlags (flags : Settings → Settings) (s : Settings) : Except Fault Settings := do
  (flags s).check.mapError (.ofSettings .flags)
  return flags s

/-- The settings of a command. -/
def settingsFor (host : Host m ω) (common : CommonFlags) (flags : Settings → Settings) : Action m Settings := do
  let origin := match common.document with
    | some path => .document path
    | none => .environment
  let s ← settingsFrom host origin common.document
  settled do withFlags flags (← withLogLevel common.logLevel s)

/-- The target that settings name. -/
def targetOf (s : Settings) : Except Fault Target :=
  (Target.Registry.builtin.get s.target.name).mapError .target

/-! ### Commands -/

/-- The lines that points are read from. A directory can be opened, but not read. -/
def linesOf (host : Host m ω) (location : String) : m (Except Failure Input) := do
  return (← host.lines location).mapError fun
    | .directory => .io FileFault.directory.message
    | fault => Load.cannotOpen location fault.message

/-- Loads a target and reports on it. -/
def load (host : Host m ω) (fuel : Nat) (common : CommonFlags) (flags : LoadFlags) : Action m Unit := do
  let s ← settingsFor host common flags.apply
  let target ← settled (targetOf s)
  let lines ← match s.source.kind with
    | .file => liftM (linesOf host s.source.location)
    | .simulator => pure (.ok [])
  match target.load s ⟨fun _ => lines, host.network, host.networkState⟩ fuel with
  | none => throw .unfinished
  | some result =>
    let summary ← settled (result.mapError .ofBreakdown)
    liftM (host.print ((if flags.json then summary.machineText else summary.describe) ++ "\n"))

/-- The points that settings let simulate, as a text in the format of a target. -/
def simulatedText (s : Settings) (target : Target) : Except Fault String :=
  (do return (← (← Simulation.ofUseCase s.source.simulator).generate target.format).1).mapError .ofBreakdown

/-- Writes simulated points. A file is there, and empty, before the simulation begins. -/
def generate (host : Host m ω) (common : CommonFlags) (flags : GenerateFlags) : Action m Unit := do
  let s ← settingsFor host common flags.apply
  let target ← settled (targetOf s)
  match flags.output with
  | none => liftM (host.print (← settled (simulatedText s target)))
  | some path =>
    withFile (.create path) (host.write path "")
    withFile (.fill path) (host.write path (← settled (simulatedText s target)))

/-- A target in the list of targets. -/
def targetLine (target : Target) : String :=
  target.name ++ String.ofList (List.replicate (16 - target.name.length) ' ') ++ " " ++ target.description ++ "\n"

/-- Lists the targets. -/
def listTargets (host : Host m ω) : Action m Unit :=
  liftM (host.print (String.join (Target.Registry.builtin.map fun (_, target) => targetLine target)))

/-- Checks a document. -/
def validate (host : Host m ω) (path : String) : Action m Unit := do
  if !(← liftM (host.contains path)) then throw (.noDocument path)
  let _ ← settingsFrom host (.checked path) (some path)
  liftM (host.print "ok: configuration file is valid\n")

/-- Writes a document to start from. -/
def writeSample (host : Host m ω) (output : Option String) (force : Bool) : Action m Unit := do
  let sample := (Settings.standard host.processors).document
  match output with
  | none => liftM (host.print sample)
  | some path =>
    if (← liftM (host.contains path)) && !force then throw (.outputTaken path)
    match parent? path with
    | some directory => withFile .makeDirectory (host.makeDirectories directory)
    | none => pure ()
    withFile .writeSample (host.write path sample)
    liftM (host.print ("ok: configuration written to " ++ Text.quoted path ++ "\n"))

/-- Does what is asked for. A load is given up after `fuel` steps. -/
def perform (host : Host m ω) (fuel : Nat) (i : Invocation) : Action m Unit :=
  match i.command with
  | none => liftM (host.print (helpText ++ "\n"))
  | some (.load flags) => load host fuel i.common flags
  | some (.generate flags) => generate host i.common flags
  | some .targets => listTargets host
  | some (.validate path) => validate host path
  | some (.sample output force) => writeSample host output force

end CommandLine
end IngestBench
