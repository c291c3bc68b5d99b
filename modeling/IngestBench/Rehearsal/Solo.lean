import IngestBench.Rehearsal.Script
import IngestBench.Worker

/-! A sender on its own, on a simulated clock: the clock stands still while there is something to do, and moves on
    to the next thing that is due. -/

namespace IngestBench
namespace Rehearsal

/-- A sender with all that it needs of a run. -/
structure Solo (ν : Type) where
  now : Time
  stopping : Stopping
  bucket : Option (TokenBucket ν)
  gauge : Backoff.Gauge
  sender : Sender

namespace Solo

variable {ν : Type}

/-- A sender that was not set up. -/
def idle (bucket : Option (TokenBucket ν)) : Solo ν := ⟨0, .none, bucket, .empty, .idle⟩

/-- Gives the sender a number; stops are looked at, and its back-off is observed, as asked. -/
def enlist (s : Solo ν) (worker : Nat) (heeding observed : Bool) : Solo ν :=
  let sender := s.sender.setUp worker
  { s with sender := { sender with heeding, tracker := if observed then sender.tracker else none } }

/-- The back-off until now. -/
def backoff (s : Solo ν) : BackoffSummary :=
  s.sender.tracker.elim s.sender.noBackoff fun t => t.observer.close s.now

/-- What the sender's attempts share with the rest. -/
def surroundings (s : Solo ν) : Retry.Surroundings ν :=
  ⟨s.now, if s.sender.heeding then s.stopping.level else none, s.bucket, s.sender.tracker⟩

/-- Takes over what the attempts have changed; a report is seen at once. -/
def absorb (s : Solo ν) (e : Retry.Surroundings ν) : Solo ν :=
  let s := { s with bucket := e.bucket }
  match e.tracker with
  | none => s
  | some tracker =>
    match tracker.see s.now s.gauge with
    | none => { s with sender := { s.sender with tracker := some tracker } }
    | some (tracker, gauge) => { s with gauge, sender := { s.sender with tracker := some tracker } }

/-- Moves the clock to a time, or to the next timer if that goes off before. `wake` is the time at which something
    that is due wakes up. -/
def tick (wake : Time → Time) (limit : Time) (s : Solo ν) : Solo ν :=
  match s.stopping.nextDue.map wake with
  | some due =>
    if due ≤ limit then
      let s := { s with now := max s.now due }
      { s with stopping := (s.stopping.fire s.now).getD s.stopping }
    else { s with now := max s.now limit }
  | none => { s with now := max s.now limit }

/-- Lets time pass, timers included. -/
def sleep (wake : Time → Time) (limit : Time) (s : Solo ν) : Solo ν :=
  let s := (List.range s.stopping.timers.length).foldl (fun s _ => s.tick wake limit) s
  { s with now := max s.now limit }

/-- Waits for a level of stop until a time; says whether it was reached. -/
def waitFor (wake : Time → Time) (level : StopLevel) (limit : Time) (s : Solo ν) : Bool × Solo ν :=
  let s := (List.range (s.stopping.timers.length + 1)).foldl
    (fun s _ => if s.stopping.level.reached level then s else s.tick wake limit) s
  (s.stopping.level.reached level, s)

/-! ### Attempts -/

/-- The attempts at one batch, in a store with state `τ`. -/
structure Trial (ν τ : Type) where
  solo : Solo ν
  store : τ
  phase : Retry.Phase
  /-- The answer that is on its way, with the time of its arrival. -/
  reply : Option (Time × Except Failure Unit)

/-- How a store takes an attempt: given its number and the time, the answer and how long it takes. -/
abbrev Call (τ : Type) := Nat → Time → τ → (Except Failure Unit × Span) × τ

namespace Trial

variable {τ : Type} [Quantity ν]

/-- The next thing that happens; none when the attempts are over. -/
def next (wake : Time → Time) (policy : RetryPolicy) (permits : Nat) (call : Call τ) (t : Trial ν τ) :
    Option (Trial ν τ) :=
  let e := t.solo.surroundings
  match Retry.interrupt e.stop t.phase with
  | some phase => some { t with phase }
  | none =>
    match Retry.advance policy permits t.phase e with
    | some (phase, e) => some { t with phase, solo := t.solo.absorb e }
    | none =>
      match t.phase, t.reply with
      | .calling attempt, none =>
        let ((answer, takes), store) := call attempt t.solo.now t.store
        some { t with store, reply := some (wake (t.solo.now + takes.nanos), answer) }
      | .calling attempt, some (due, answer) =>
        if due ≤ t.solo.now then some { t with phase := Retry.judge policy attempt answer, reply := none }
        else some { t with solo := t.solo.tick wake due }
      | phase, _ => (Retry.due? phase).map fun due => { t with solo := t.solo.tick wake (wake due) }

/-- Goes on until the attempts are over, for at most `fuel` steps. -/
def run (wake : Time → Time) (policy : RetryPolicy) (permits : Nat) (call : Call τ) :
    Nat → Trial ν τ → Trial ν τ
  | 0, t => t
  | fuel + 1, t =>
    match t.next wake policy permits call with
    | some t => run wake policy permits call fuel t
    | none => t

/-- The result of the attempts, once they are over. -/
def result? (t : Trial ν τ) : Option Retry.Result :=
  match t.phase with
  | .settled result => some result
  | _ => none

end Trial

/-- All attempts at one batch. None if they are not over after `fuel` steps. -/
def attempt {τ : Type} [Quantity ν] (wake : Time → Time) (policy : RetryPolicy) (permits : Nat) (call : Call τ)
    (fuel : Nat) (s : Solo ν) (store : τ) : Option (Retry.Result × Solo ν × τ) :=
  let t := Trial.run wake policy permits call fuel ⟨s, store, .first, none⟩
  t.result?.map fun result => (result, t.solo, t.store)

/-! ### The life of a sender -/

/-- Sets the sender up for a worker; `connect` is asked only if batches are sent. -/
def setUp {τ : Type} (worker : Nat) (connect : Option (τ → Except Failure Unit × τ)) (s : Solo ν) (store : τ) :
    Except Failure Unit × Solo ν × τ :=
  let s := { s with sender := s.sender.setUp worker }
  match connect with
  | none => (.ok (), s, store)
  | some connect =>
    match connect store with
    | (.ok _, store) => (.ok (), { s with sender := s.sender.opened }, store)
    | (.error failure, store) => (.error failure, s, store)

/-- What a batch comes to: its counts, once it was accepted. -/
def verdict (counts : Counts) : Retry.Result → Except Breakdown Counts
  | .accepted _ => .ok counts
  | .refused fault => .error (.failed fault.toFailure)
  | .overflow => .error .overflow

/-- Sends a batch until it is accepted or given up. If batches are only counted, nothing is sent. -/
def process {τ : Type} [Quantity ν] (wake : Time → Time) (policy : RetryPolicy) (sending : Bool) (counts : Counts)
    (call : Call τ) (fuel : Nat) (s : Solo ν) (store : τ) : Option (Except Breakdown Counts × Solo ν × τ) :=
  if sending then
    (s.attempt wake policy counts.metrics call fuel store).map fun (result, s, store) =>
      (verdict counts result, { s with sender := s.sender.count result }, store)
  else some (.ok counts, s, store)

/-- Closes the sender, and its connection if it has one. -/
def close {τ : Type} (disconnect : τ → Except Failure Unit × τ) (s : Solo ν) (store : τ) :
    Except Failure BackoffSummary × Solo ν × τ :=
  let backoff := s.backoff
  let gauge := s.sender.tracker.elim s.gauge fun t => t.observer.leave s.now s.gauge
  let connected := s.sender.connected
  let s := { s with gauge, sender := s.sender.unobserved.parted }
  if connected then
    let (result, store) := disconnect store
    (result.map fun _ => backoff, s, store)
  else (.ok backoff, s, store)

end Solo
end Rehearsal
end IngestBench
