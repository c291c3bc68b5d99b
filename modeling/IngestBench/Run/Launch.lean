import IngestBench.Config
import IngestBench.Partition
import IngestBench.Run.State

/-! A run as its settings describe it. -/

namespace IngestBench
namespace Run

variable {σ π β ν : Type}

/-- The plan of a run, for points with keys that are read by `read`. -/
def planFor [Keyed π] (settings : RunSettings) (policy : RetryPolicy) (read : σ → Except Failure (Option π) × σ) :
    Plan σ π where
  scan := {
    read := read
    partition := Partition.of settings.effectivePartitions
    partitions := settings.effectivePartitions
    batchSize := settings.batchSize
    limit := settings.pointLimit }
  dedicated := settings.hashWorkers
  sending := settings.sending
  policy := policy

/-- Starts the timers of a run. -/
def startTimers (settings : RunSettings) (stopping : Stopping) (now : Time) : Stopping :=
  let stopping := stopping.escalateAfter settings.shutdownGrace now
  match settings.maxRunTime with
  | some length => stopping.stopAfter length now
  | none => stopping

/-- A run before its first step; a stop may already be in force. -/
def stateFor (settings : RunSettings) (stopping : Stopping) (bucket : Option (TokenBucket ν)) (source : σ) :
    State σ π β ν :=
  { State.start source settings.workers settings.effectiveCapacity settings.hashWorkers bucket with
    stopping := startTimers settings stopping 0 }

/-- Whether the database has to be prepared before the run. -/
def preparesDatabase (settings : RunSettings) : Bool := settings.sending && settings.createDatabase

end Run
end IngestBench
