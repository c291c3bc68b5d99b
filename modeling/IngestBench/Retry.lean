import IngestBench.Backoff
import IngestBench.Failure
import IngestBench.Limiter
import IngestBench.Stop

/-! Sending a batch again while the store pushes it back. Each attempt is charged to the limiter; after a
    push-back comes a pause of fixed length, which a forced stop cuts short. Any other failure ends the attempts
    at once. Attempts are counted by natural numbers; numbers of 32 bits are the same ones for as long as a batch has
    fewer than `UInt32.size - 1` answers (`Rehearsal.Solo.attempts_fit`). -/

namespace IngestBench

/-- How often, and after which pause, a batch is sent again. -/
structure RetryPolicy where
  delay : Span
  /-- The most attempts; none for no limit. -/
  maxAttempts : Option Nat
  deriving Repr, DecidableEq

namespace RetryPolicy

/-- A second between attempts, and no limit. -/
def standard : RetryPolicy := ⟨.ofSeconds 1, none⟩

/-- Whether there may be another attempt after so many. -/
def allowsMore (p : RetryPolicy) (attempts : Nat) : Bool := p.maxAttempts.all (attempts < ·)

end RetryPolicy

/-- Why the attempts ended without success. -/
inductive RetryFault
  /-- The last attempt that is allowed was pushed back. -/
  | exhausted (attempts : Nat) (last : Failure)
  | fatal (failure : Failure)
  /-- A forced stop came before the next attempt. -/
  | cancelled (attempts : Nat)
  deriving Repr, DecidableEq

namespace RetryFault

/-- The wording of the fault. -/
def message : RetryFault → String
  | .exhausted attempts last => s!"Maximum retry attempts ({attempts}) exceeded. Last error: " ++ last.message
  | .fatal failure => "Non-retryable error: " ++ failure.message
  | .cancelled attempts => s!"Cancelled after {attempts} attempts"

/-- The failure of the last attempt, if that is what ended the attempts. -/
def failure? : RetryFault → Option Failure
  | .exhausted _ last => some last
  | .fatal failure => some failure
  | .cancelled _ => none

def isCancelled : RetryFault → Bool
  | .cancelled _ => true
  | _ => false

/-- The fault as a failure of the run. -/
def toFailure : RetryFault → Failure
  | .exhausted attempts last => .gaveUp attempts last
  | .fatal failure => failure
  | .cancelled _ => .cancelled

end RetryFault

namespace Retry

/-- How the attempts ended. -/
inductive Result
  | accepted (attempts : Nat)
  | refused (fault : RetryFault)
  /-- The limiter's wait was no length of time. -/
  | overflow
  deriving Repr, DecidableEq

/-- Where the attempts stand. -/
inductive Phase
  /-- Before the limiter is charged for an attempt. -/
  | charging (attempt : Nat)
  /-- Waiting for the limiter. -/
  | throttled (attempt : Nat) (due : Time)
  /-- The store has the batch; its answer is awaited. -/
  | calling (attempt : Nat)
  /-- Pushed back, which is to be reported. -/
  | telling (attempt : Nat)
  /-- Before the pause. -/
  | pausing (attempt : Nat)
  | sleeping (attempt : Nat) (due : Time)
  /-- At the end, which is to be reported. -/
  | settling (result : Result)
  | settled (result : Result)
  deriving Repr, DecidableEq

/-- How many attempts a result tells of. -/
def Result.attempts? : Result → Option Nat
  | .accepted attempts | .refused (.exhausted attempts _) | .refused (.cancelled attempts) => some attempts
  | .refused (.fatal _) | .overflow => none

/-- The number of the attempt that a phase is about, or how many there were. -/
def Phase.attempts? : Phase → Option Nat
  | .charging attempt | .throttled attempt _ | .calling attempt | .telling attempt | .pausing attempt
  | .sleeping attempt _ => some attempt
  | .settling result | .settled result => result.attempts?

/-- Before the first attempt. -/
def Phase.first : Phase := .charging 1

/-- What the attempts share with the rest of a run. -/
structure Surroundings (ν : Type) where
  now : Time
  stop : Stop
  bucket : Option (TokenBucket ν)
  /-- Where to report; none if no one observes. -/
  tracker : Option Backoff.Tracker

namespace Surroundings

variable {ν : Type}

/-- Reports whether the worker backs off; none while there is no room for the report. -/
def tell (e : Surroundings ν) (backingOff : Bool) : Option (Surroundings ν) :=
  match e.tracker with
  | none => some e
  | some tracker => (tracker.tell backingOff e.now).map fun t => { e with tracker := some t }

end Surroundings

/-- Charges the limiter, if there is one, for an attempt. -/
def charge {ν : Type} [Quantity ν] (permits attempt : Nat) (e : Surroundings ν) : Phase × Surroundings ν :=
  match e.bucket with
  | none => (.calling attempt, e)
  | some bucket =>
    match bucket.reserve permits e.now with
    | none => (.settled .overflow, e)
    | some (wait, bucket) =>
      (if wait.isZero then .calling attempt else .throttled attempt (e.now + wait.nanos),
        { e with bucket := some bucket })

/-- The pause after an attempt; there is none once a stop is forced. -/
def pause (policy : RetryPolicy) (attempt : Nat) (now : Time) (stop : Stop) : Phase :=
  if stop.isForced then .settling (.refused (.cancelled attempt))
  else .sleeping attempt (now + policy.delay.nanos)

/-- The next move that waits for no one else; none if there is nothing to do now. -/
def advance {ν : Type} [Quantity ν] (policy : RetryPolicy) (permits : Nat) (phase : Phase) (e : Surroundings ν) :
    Option (Phase × Surroundings ν) :=
  match phase with
  | .charging attempt => some (charge permits attempt e)
  | .throttled attempt due => if due ≤ e.now then some (.calling attempt, e) else none
  | .calling _ => none
  | .telling attempt => (e.tell true).map fun e => (.pausing attempt, e)
  | .pausing attempt => some (pause policy attempt e.now e.stop, e)
  | .sleeping attempt due => if due ≤ e.now then some (.charging (attempt + 1), e) else none
  | .settling result => (e.tell false).map fun e => (.settled result, e)
  | .settled _ => none

/-- What an answer of the store means. -/
def judge (policy : RetryPolicy) (attempt : Nat) : Except Failure Unit → Phase
  | .ok _ => .settling (.accepted attempt)
  | .error failure =>
    if !failure.isRetryable then .settling (.refused (.fatal failure))
    else if policy.allowsMore attempt then .telling attempt
    else .settling (.refused (.exhausted attempt failure))

/-- The store answers. -/
def answer (policy : RetryPolicy) (phase : Phase) (reply : Except Failure Unit) : Option Phase :=
  match phase with
  | .calling attempt => some (judge policy attempt reply)
  | _ => none

/-- A forced stop ends the pause. -/
def interrupt (stop : Stop) : Phase → Option Phase
  | .sleeping attempt _ => if stop.isForced then some (.settling (.refused (.cancelled attempt))) else none
  | _ => none

/-- When the next move is due, if it waits for the clock. -/
def due? : Phase → Option Time
  | .throttled _ due | .sleeping _ due => some due
  | _ => none

end Retry
end IngestBench
