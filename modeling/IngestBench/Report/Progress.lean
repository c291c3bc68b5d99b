import IngestBench.Counters
import IngestBench.Report.Rate

/-! Lines of progress during a run: rates since the last line and since the start. -/

namespace IngestBench

/-- One line of progress. -/
structure ProgressLine where
  elapsed : Span
  metrics : Nat
  rows : Nat
  periodMetricRate : Float
  overallMetricRate : Float
  periodRowRate : Float
  overallRowRate : Float
  backoff : Span
  backingOff : Nat

namespace ProgressLine

/-- The names of the columns. -/
def columns : String :=
  "time,per. metric/s,metric total,overall metric/s,per. row/s,row total,overall row/s,backoff"

/-- The text of a line. -/
def write (l : ProgressLine) : String :=
  ",".intercalate
    [(Report.places 0).write l.elapsed.toFloat, Report.amount l.periodMetricRate, Nat.repr l.metrics,
     Report.amount l.overallMetricRate, Report.amount l.periodRowRate, Nat.repr l.rows,
     Report.amount l.overallRowRate, Report.amount l.backoff.toFloat ++ "s"]

end ProgressLine

/-- What the last line of progress has shown. -/
structure Progress where
  start : Time
  lastAt : Time
  last : Snapshot

namespace Progress

def from' (start : Time) : Progress := ⟨start, start, ⟨Counters.zero, 0, Span.zero⟩⟩

/-- The next line, and what it leaves behind. -/
def tick (p : Progress) (snapshot : Snapshot) (now : Time) : ProgressLine × Progress :=
  let period := now.since p.lastAt
  let elapsed := now.since p.start
  let c := snapshot.counters
  let line : ProgressLine := {
    elapsed
    metrics := c.metrics
    rows := c.rows
    periodMetricRate := Report.rate (c.metrics - p.last.counters.metrics) period
    overallMetricRate := Report.rate c.metrics elapsed
    periodRowRate := Report.rate (c.rows - p.last.counters.rows) period
    overallRowRate := Report.rate c.rows elapsed
    backoff := snapshot.backoff
    backingOff := snapshot.backingOff }
  (line, { p with lastAt := now, last := snapshot })

end Progress
end IngestBench
