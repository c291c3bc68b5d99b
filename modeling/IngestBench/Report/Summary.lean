import IngestBench.Backoff
import IngestBench.Decimal.Shortest
import IngestBench.Report.Rate
import IngestBench.Span.Human

/-! The summary at the end of a run, for people and for machines. -/

namespace IngestBench

/-- What a run did. -/
structure Summary where
  workers : Nat
  rows : Nat
  metrics : Nat
  batches : Nat
  pointsRead : Nat
  elapsed : Span
  /-- In the order of the workers. -/
  backoffs : List BackoffSummary
  cancelled : Bool
  deriving Repr, DecidableEq

namespace Summary

def rowsPerSecond (s : Summary) : Float := Report.rate s.rows s.elapsed

def metricsPerSecond (s : Summary) : Float := Report.rate s.metrics s.elapsed

/-- The back-off of all workers. -/
def totalBackoff (s : Summary) : Span :=
  ⟨s.backoffs.foldl (fun sum b => sum + b.total.nanos) 0⟩

/-- Puts the back-off of the workers in order. -/
def sortBackoffs (backoffs : List BackoffSummary) : List BackoffSummary :=
  backoffs.mergeSort fun a b => a.worker ≤ b.worker

/-- A line on how much was loaded. -/
def rateLine (s : Summary) (count : Nat) (noun : String) (rate : Float) : String :=
  "loaded " ++ Nat.repr count ++ " " ++ noun ++ " in " ++ (Report.places 3).write s.elapsed.toFloat ++
    "sec with " ++ Nat.repr s.workers ++ " workers (mean rate " ++ Report.amount rate ++ " " ++ noun ++ "/sec)"

/-- The summary for people. -/
def describe (s : Summary) : String :=
  let backoff := s.totalBackoff
  s.rateLine s.metrics "metrics" s.metricsPerSecond ++ "\n" ++
    s.rateLine s.rows "rows" s.rowsPerSecond ++
    (if backoff.isZero then "" else "\nspent " ++ Report.amount backoff.toFloat ++ "sec backing off") ++
    (if s.cancelled then "\nrun was cancelled before the source was exhausted" else "")

/-- One back-off in the form for machines. -/
def backoffText (b : BackoffSummary) : String :=
  "    \x7b\n      \"worker\": " ++ Nat.repr b.worker ++ ",\n      \"total\": \"" ++ b.total.human ++
    "\",\n      \"episodes\": " ++ Nat.repr b.episodes ++ "\n    \x7d"

/-- The summary for machines: one member a line, indented by two blanks. -/
def machineText (s : Summary) : String :=
  let number (x : Float) : String := Decimal.Layout.machine.write x
  let quoted (t : String) : String := "\"" ++ t ++ "\""
  let backoffs :=
    if s.backoffs.isEmpty then "[]" else "[\n" ++ ",\n".intercalate (s.backoffs.map backoffText) ++ "\n  ]"
  let members : List (String × String) :=
    [("workers", Nat.repr s.workers), ("rows", Nat.repr s.rows), ("metrics", Nat.repr s.metrics),
     ("batches", Nat.repr s.batches), ("points_read", Nat.repr s.pointsRead),
     ("elapsed", quoted s.elapsed.human), ("rows_per_sec", number s.rowsPerSecond),
     ("metrics_per_sec", number s.metricsPerSecond), ("total_backoff", quoted s.totalBackoff.human),
     ("worker_backoffs", backoffs), ("cancelled", if s.cancelled then "true" else "false")]
  "\x7b\n" ++ ",\n".intercalate (members.map fun (key, value) => "  \"" ++ key ++ "\": " ++ value) ++ "\n\x7d"

end Summary
end IngestBench
