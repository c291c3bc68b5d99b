import IngestBench.Config.Checks
import IngestBench.Logging
import IngestBench.Simulation

/-! The settings of the program: what to run, where the points come from, where they go, and what is logged. -/

namespace IngestBench

/-- How a run is carried out. -/
structure RunSettings where
  database : String
  batchSize : Nat
  workers : Nat
  partitions : Nat
  /-- The most points to read; zero for no limit. -/
  limit : Nat
  /-- Whether each worker has a queue of its own, so that a series stays with one worker. -/
  hashWorkers : Bool
  /-- Whether batches are sent, or only counted. -/
  sending : Bool
  createDatabase : Bool
  abortOnExist : Bool
  reportingPeriod : Span
  maxRunTime : Option Span
  /-- How long a graceful stop may take before it is forced. -/
  shutdownGrace : Span
  /-- The capacity of a queue; zero for one that suits the workers. -/
  queueCapacity : Nat
  deriving Repr, DecidableEq

namespace RunSettings

/-- The settings without a document; workers come in the number of processors. -/
def standard (processors : Nat) : RunSettings where
  database := "benchmark"
  batchSize := 10000
  workers := processors
  partitions := 1
  limit := 0
  hashWorkers := false
  sending := true
  createDatabase := true
  abortOnExist := false
  reportingPeriod := .ofSeconds 10
  maxRunTime := none
  shutdownGrace := .ofSeconds 30
  queueCapacity := 0

/-- The partitions of a run: with a queue for each worker, one for each. -/
def effectivePartitions (s : RunSettings) : Nat :=
  if s.hashWorkers then s.workers else Nat.max s.partitions 1

/-- The capacity of each queue. -/
def effectiveCapacity (s : RunSettings) : Nat :=
  if s.queueCapacity ≠ 0 then s.queueCapacity
  else if s.hashWorkers then 1
  else Nat.max s.workers 1

/-- The most points to read, if there is a limit. -/
def pointLimit (s : RunSettings) : Option Nat := if 0 < s.limit then some s.limit else none

def check (s : RunSettings) : Config.Check := do
  Config.Check.required "db_name" s.database
  Config.Check.positive "batch_size" s.batchSize
  Config.Check.positive "workers" s.workers
  Config.Check.positive "partitions" s.partitions
  match s.maxRunTime with
  | some time => Config.Check.nonzero "max_run_time" time
  | none => pure ()

end RunSettings

namespace Simulation

/-- The check of what is to be simulated. -/
def Settings.check (s : Settings) : Config.Check := do
  Config.Check.choice "use_case" s.useCase useCases
  Config.Check.positive "scale" s.scale
  Config.Check.nonzero "log_interval" s.interval
  if s.stop.upTo s.start then throw (.window s.start s.stop)

end Simulation

/-- Where the points of a run come from. -/
inductive SourceKind
  | file
  | simulator
  deriving Repr, DecidableEq, Inhabited

namespace SourceKind

def name : SourceKind → String
  | .file => "file"
  | .simulator => "simulator"

def ofName? (name : String) : Option SourceKind := [file, simulator].find? (·.name == name)

end SourceKind

/-- Where the points of a run come from; the settings of the other kind of source are kept. -/
structure SourceSettings where
  kind : SourceKind
  /-- The path of a file, or a hyphen for the standard input. -/
  location : String
  simulator : Simulation.Settings
  deriving Repr, DecidableEq

namespace SourceSettings

def standard : SourceSettings := ⟨.file, "-", .standard⟩

/-- Whether a file is read from the standard input. -/
def isStandardInput (s : SourceSettings) : Bool := s.location == "-"

/-- Only the source that is used is checked. -/
def check (s : SourceSettings) : Except Config.Fault Unit :=
  match s.kind with
  | .file => Config.inDomain "data_source.file" (Config.Check.required "location" s.location)
  | .simulator => Config.inDomain "data_source.simulator" s.simulator.check

end SourceSettings

/-- How many metrics may be sent in a second. -/
structure LimiterSettings (ν : Type) where
  enabled : Bool
  maxRate : ν
  bucketSize : Nat
  deriving Repr

namespace LimiterSettings

def standard : LimiterSettings Float := ⟨false, 100000.0, 10000⟩

/-- A limiter that is not used is not checked. -/
def check {ν : Type} [Quantity ν] (write : ν → String) (s : LimiterSettings ν) : Config.Check := do
  if s.enabled then
    Config.Check.positiveQuantity "max_rate" write s.maxRate
    Config.Check.positive "bucket_size" s.bucketSize

end LimiterSettings

/-- The store that is loaded. -/
structure TargetSettings where
  name : String
  urls : List String
  writePath : Option String
  /-- The pause before a batch is sent again. -/
  backoff : Span
  gzip : Bool
  consistency : String
  replication : Nat
  timeout : Span
  limiter : LimiterSettings Float
  deriving Repr

namespace TargetSettings

def standard : TargetSettings where
  name := "influx"
  urls := ["http://localhost:8086"]
  writePath := none
  backoff := .ofSeconds 1
  gzip := true
  consistency := "all"
  replication := 1
  timeout := .ofSeconds 30
  limiter := .standard

/-- How many replicas must have taken a write. -/
def consistencies : List String := ["one", "quorum", "any", "all"]

/-- The address for a worker; workers take the addresses in turn. -/
def urlFor? (s : TargetSettings) (worker : Nat) : Option String := s.urls[worker % s.urls.length]?

def check (s : TargetSettings) : Except Config.Fault Unit := do
  Config.inDomain "target" do
    Config.Check.required "name" s.name
    if s.urls.isEmpty then throw .noUrls
    s.urls.forM (Config.Check.url "urls")
    match s.writePath with
    | some path => if path.toList.head? ≠ some '/' then throw (.writePath path)
    | none => pure ()
    Config.Check.nonzero "backoff" s.backoff
    Config.Check.nonzero "timeout" s.timeout
    Config.Check.choice "consistency" s.consistency consistencies
    Config.Check.positive "replication_factor" s.replication
  Config.inDomain "target.limiter" (s.limiter.check Decimal.plain)

end TargetSettings

/-- What is logged, and how. -/
structure LogSettings where
  level : LogLevel
  format : LogFormat
  includeLocation : Bool
  deriving Repr, DecidableEq

def LogSettings.standard : LogSettings := ⟨.info, .text, false⟩

/-- All settings. -/
structure Settings where
  run : RunSettings
  source : SourceSettings
  target : TargetSettings
  log : LogSettings
  deriving Repr

namespace Settings

def standard (processors : Nat) : Settings := ⟨.standard processors, .standard, .standard, .standard⟩

/-- Checks each part in turn; the first flaw is reported. -/
def check (s : Settings) : Except Config.Fault Unit := do
  Config.inDomain "runner" s.run.check
  s.source.check
  s.target.check

end Settings
end IngestBench
