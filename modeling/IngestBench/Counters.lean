import IngestBench.Backoff
import IngestBench.Batch

/-! The counters of a run: what was accepted so far, and who is at work. Counters are 64-bit and start again at
    zero. -/

namespace IngestBench

/-- The counters that workers add to. -/
structure Counters where
  rows : Nat
  metrics : Nat
  batches : Nat
  activeWorkers : Nat
  deriving Repr, DecidableEq, Inhabited

namespace Counters

def zero : Counters := ⟨0, 0, 0, 0⟩

/-- A sum of 64 bits. -/
def wrap (n : Nat) : Nat := n % UInt64.size

/-- Counts an accepted batch. -/
def add (c : Counters) (counts : Counts) : Counters :=
  { c with
    rows := wrap (c.rows + counts.rows)
    metrics := wrap (c.metrics + counts.metrics)
    batches := wrap (c.batches + 1) }

def workerStarted (c : Counters) : Counters := { c with activeWorkers := wrap (c.activeWorkers + 1) }

def workerFinished (c : Counters) : Counters :=
  { c with activeWorkers := wrap (c.activeWorkers + (UInt64.size - 1)) }

end Counters

/-- Counters and back-off at one point in time. -/
structure Snapshot where
  counters : Counters
  backingOff : Nat
  backoff : Span
  deriving Repr, DecidableEq, Inhabited

/-- What counters and gauge show now. -/
def Counters.snapshot (c : Counters) (gauge : Backoff.Gauge) (now : Time) : Snapshot :=
  ⟨c, gauge.backingOff, gauge.total now⟩

end IngestBench
