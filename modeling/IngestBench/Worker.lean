import IngestBench.Batch
import IngestBench.Retry

/-! A worker: it connects to the store, sends one batch after the other, and takes its leave. The batches that were
    accepted are counted; the batch of a failed or cancelled attempt is not. -/

namespace IngestBench

/-! ### The way to the store -/

/-- The part of a worker that sends batches and sends them again. Its counts are natural numbers; sums of 64 bits are
    the same ones while the sends stay below `UInt64.size` (`Rehearsal.Solo.tally_of_served`). -/
structure Sender where
  worker : Nat
  /-- Whether stops are looked at; a sender that was not set up knows of none. -/
  heeding : Bool
  /-- Whether there is a connection that has to be closed. -/
  connected : Bool
  /-- The observer of back-off, while there is one. -/
  tracker : Option Backoff.Tracker
  /-- Attempts at batches that were accepted. -/
  sends : Nat
  /-- Pauses before batches that were accepted. -/
  backoffs : Nat
  deriving Repr, DecidableEq

namespace Sender

/-- A sender that was not set up. -/
def idle : Sender := ⟨0, false, false, none, 0, 0⟩

/-- Sets the sender up for a worker; the observer is a new one. -/
def setUp (s : Sender) (worker : Nat) : Sender :=
  { s with worker, heeding := true, tracker := some (.new worker) }

/-- The connection is open. -/
def opened (s : Sender) : Sender := { s with connected := true }

/-- The connection is closed, or was given up. -/
def parted (s : Sender) : Sender := { s with connected := false }

/-- The observer has ended. -/
def unobserved (s : Sender) : Sender := { s with tracker := none }

/-- Counts the attempts at a batch, if it was accepted. -/
def count (s : Sender) : Retry.Result → Sender
  | .accepted attempts =>
    { s with sends := s.sends + attempts, backoffs := s.backoffs + (attempts - 1) }
  | _ => s

/-- The summary of a sender without an observer. -/
def noBackoff (s : Sender) : BackoffSummary := ⟨s.worker, .zero, 0⟩

end Sender

/-! ### The life of a worker -/

/-- Why a worker takes no more batches. -/
inductive Ending
  /-- The queue was closed and is empty. -/
  | drained
  /-- A stop was forced. -/
  | stopped
  | failed (failure : Failure)
  deriving Repr, DecidableEq

/-- What a worker did. -/
structure WorkerReport where
  worker : Nat
  counts : Counts
  batches : Nat
  backoff : BackoffSummary
  /-- Whether a forced stop may have left batches undelivered. -/
  cancelled : Bool
  deriving Repr, DecidableEq, Inhabited

namespace Worker

/-- What a worker does next. -/
inductive Phase (β : Type)
  /-- Connects to the store. -/
  | joining
  /-- Looks for a forced stop before the next batch. -/
  | choosing
  /-- In line for the queue; the first in line takes the next batch. -/
  | waiting
  | sending (batch : β) (attempts : Retry.Phase)
  /-- In line for the queue, to close it. -/
  | leaving (ending : Ending)
  /-- Waits for the observer of back-off. -/
  | closing (ending : Ending)
  /-- Closes the connection. -/
  | parting (ending : Ending) (backoff : BackoffSummary)
  | ended (result : Except Failure WorkerReport)

end Worker

/-- A worker. -/
structure Worker (β : Type) where
  number : Nat
  sender : Sender
  phase : Worker.Phase β
  /-- What was accepted so far. -/
  counts : Counts
  batches : Nat

namespace Worker

variable {β : Type}

/-- A worker that has just begun. -/
def start (number : Nat) : Worker β := ⟨number, Sender.idle.setUp number, .joining, .zero, 0⟩

/-- Whether the worker has not ended. -/
def isActive (w : Worker β) : Bool :=
  match w.phase with
  | .ended _ => false
  | _ => true

/-- The failure of a worker names the worker. -/
def failWith (w : Worker β) (failure : Failure) : Worker β :=
  { w with phase := .ended (.error (failure.inWorker w.number)) }

/-- Counts a batch that was accepted. -/
def count (w : Worker β) (counts : Counts) : Worker β :=
  { w with counts := w.counts + counts, batches := w.batches + 1 }

/-- The report of a worker that did not fail. -/
def report (w : Worker β) (cancelled : Bool) (backoff : BackoffSummary) : WorkerReport :=
  ⟨w.number, w.counts, w.batches, backoff, cancelled⟩

/-- The result of a worker, once its connection is closed or could not be. A failure before that comes first. -/
def result (w : Worker β) (ending : Ending) (backoff : BackoffSummary) (closed : Except Failure Unit) :
    Except Failure WorkerReport :=
  match ending, closed with
  | .failed failure, _ => .error (failure.inWorker w.number)
  | _, .error failure => .error (failure.inWorker w.number)
  | ending, .ok _ => .ok (w.report (ending == .stopped) backoff)

/-- The end of a worker. -/
def finish (w : Worker β) (ending : Ending) (backoff : BackoffSummary) (closed : Except Failure Unit) : Worker β :=
  { w with sender := w.sender.parted, phase := .ended (w.result ending backoff closed) }

end Worker
end IngestBench
