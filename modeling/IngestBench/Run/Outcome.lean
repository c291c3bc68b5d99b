import IngestBench.Report.Summary
import IngestBench.Run.State

/-! What comes of a run: a summary, or the failure that comes first. A fault of the scan goes before the failures
    of workers, and of these the one that was noticed first counts. -/

namespace IngestBench
namespace Run

variable {σ π β ν : Type}

namespace State

/-- The result of a worker, once it has ended. -/
def resultOf (s : State σ π β ν) (i : Nat) : Option (Except Failure WorkerReport) := do
  match (← s.workers[i]?).phase with
  | .ended result => some result
  | _ => none

/-- The results of the workers whose end was noticed, in that order. -/
def results (s : State σ π β ν) : List (Except Failure WorkerReport) := s.joined.filterMap s.resultOf

end State

/-- The summary of a run in which nothing failed. -/
def summarize (workers : Nat) (counters : Counters) (elapsed : Span) (stats : ScanStats)
    (reports : List WorkerReport) : Summary where
  workers := workers
  rows := counters.rows
  metrics := counters.metrics
  batches := counters.batches
  pointsRead := stats.pointsRead
  elapsed := elapsed
  backoffs := Summary.sortBackoffs (reports.map (·.backoff))
  cancelled := stats.cancelled || reports.any (·.cancelled)

/-- The reports of all workers, or the first failure. -/
def collect : List (Except Failure WorkerReport) → Except Failure (List WorkerReport)
  | [] => .ok []
  | .ok report :: rest => (collect rest).map (report :: ·)
  | .error failure :: _ => .error failure

/-- What comes of a run; none while it goes on. -/
def outcome (s : State σ π β ν) : Option (Except Failure Summary) :=
  if s.isOver then
    s.scan.result?.map fun result => do
      let stats ← result
      let reports ← collect s.results
      return summarize s.workers.length s.counters (s.now.since 0) stats reports
  else none

end Run
end IngestBench
