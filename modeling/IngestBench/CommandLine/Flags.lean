import IngestBench.Config

/-! The flags of commands, and what they change in settings. A flag that is not given changes nothing. -/

namespace IngestBench
namespace CommandLine

/-- The flags that every command takes. -/
structure CommonFlags where
  /-- The path of a document with settings. -/
  document : Option String
  logLevel : Option String
  deriving Repr, DecidableEq

namespace CommonFlags

def none : CommonFlags := ⟨.none, .none⟩

/-- The flags of a command before those of the command that it belongs to. -/
def within (inner outer : CommonFlags) : CommonFlags where
  document := inner.document <|> outer.document
  logLevel := inner.logLevel <|> outer.logLevel

end CommonFlags

/-- The flags of a load. -/
structure LoadFlags where
  target : Option String
  urls : List String
  database : Option String
  workers : Option Nat
  batchSize : Option Nat
  limit : Option Nat
  hashWorkers : Bool
  noLoad : Bool
  noCreateDatabase : Bool
  abortOnExist : Bool
  file : Option String
  simulate : Bool
  reportingPeriod : Option Span
  maxRunTime : Option Span
  backoff : Option Span
  /-- Whether the summary is written for machines. -/
  json : Bool
  deriving Repr, DecidableEq

namespace LoadFlags

def none : LoadFlags where
  target := .none
  urls := []
  database := .none
  workers := .none
  batchSize := .none
  limit := .none
  hashWorkers := false
  noLoad := false
  noCreateDatabase := false
  abortOnExist := false
  file := .none
  simulate := false
  reportingPeriod := .none
  maxRunTime := .none
  backoff := .none
  json := false

def applyRun (f : LoadFlags) (s : RunSettings) : RunSettings :=
  { s with
    database := f.database.getD s.database
    workers := f.workers.getD s.workers
    batchSize := f.batchSize.getD s.batchSize
    limit := f.limit.getD s.limit
    reportingPeriod := f.reportingPeriod.getD s.reportingPeriod
    maxRunTime := f.maxRunTime <|> s.maxRunTime
    hashWorkers := s.hashWorkers || f.hashWorkers
    sending := s.sending && !f.noLoad
    createDatabase := s.createDatabase && !f.noCreateDatabase
    abortOnExist := s.abortOnExist || f.abortOnExist }

def applyTarget (f : LoadFlags) (s : TargetSettings) : TargetSettings :=
  { s with
    name := f.target.getD s.name
    urls := if f.urls.isEmpty then s.urls else f.urls
    backoff := f.backoff.getD s.backoff }

/-- A file and a simulation exclude each other. -/
def applySource (f : LoadFlags) (s : SourceSettings) : SourceSettings :=
  match f.file with
  | some path => { s with kind := .file, location := path }
  | .none => if f.simulate then { s with kind := .simulator } else s

/-- The settings with the flags in force. -/
def apply (f : LoadFlags) (s : Settings) : Settings :=
  { s with run := f.applyRun s.run, target := f.applyTarget s.target, source := f.applySource s.source }

end LoadFlags

/-- The flags of a command that writes simulated points. -/
structure GenerateFlags where
  target : Option String
  /-- The path of the file to write; the standard output without it. -/
  output : Option String
  scale : Option Nat
  seed : Option Nat
  maxPoints : Option Nat
  deriving Repr, DecidableEq

namespace GenerateFlags

def none : GenerateFlags := ⟨.none, .none, .none, .none, .none⟩

def applySimulator (f : GenerateFlags) (s : Simulation.Settings) : Simulation.Settings :=
  { s with
    scale := f.scale.getD s.scale
    seed := f.seed.getD s.seed
    maxPoints := f.maxPoints.getD s.maxPoints }

/-- The settings with the flags in force. The kind of source stays as it is: what is simulated need not be what a
    load would read. -/
def apply (f : GenerateFlags) (s : Settings) : Settings :=
  { s with
    target.name := f.target.getD s.target.name
    source.simulator := f.applySimulator s.source.simulator }

end GenerateFlags

/-- What is asked for. -/
inductive Command
  | load (flags : LoadFlags)
  | generate (flags : GenerateFlags)
  /-- Lists the targets. -/
  | targets
  /-- Checks a document with settings. -/
  | validate (path : String)
  /-- Writes a document to start from. -/
  | sample (output : Option String) (force : Bool)
  deriving Repr, DecidableEq

/-- A command with the flags that every command takes. Without a command there is only help. -/
structure Invocation where
  common : CommonFlags
  command : Option Command
  deriving Repr, DecidableEq

end CommandLine
end IngestBench
