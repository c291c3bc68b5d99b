import IngestBench.Rehearsal.Script
import IngestBench.Run.Launch
import IngestBench.Run.Outcome
import IngestBench.Run.Step

/-! A whole run on a simulated clock. Of all orders in which the steps of a run can happen, a rehearsal takes one:
    reports are seen first, then workers move in the order of their positions, then ends are noticed, answers arrive
    in the order of their requests, and timers go off; the scan moves when no one else can, and the clock only when
    nothing else happens. -/

namespace IngestBench

/-- A run with its store, and the answers that are on their way. -/
structure Rehearsal (σ π β ν τ : Type) where
  run : Run.State σ π β ν
  store : τ
  /-- The worker that waits, when its answer comes, and the answer. -/
  replies : List (Nat × Time × Except Failure Unit)

namespace Rehearsal

variable {σ π β ν τ : Type} [Batch β π] [Quantity ν]

/-- Lets an event happen. -/
def happen (plan : Run.Plan σ π) (r : Rehearsal σ π β ν τ) (event : Run.Event) : Option (Rehearsal σ π β ν τ) :=
  (Run.step plan r.run event).map fun run => { r with run }

/-- A worker sends its batch; an answer that takes no time comes at once. `wake` is the time at which something that
    is due wakes up. -/
def exchange (wake : Time → Time) (plan : Run.Plan σ π) (store : Store τ β) (r : Rehearsal σ π β ν τ) (i : Nat)
    (w : Worker β) (batch : β) : Option (Rehearsal σ π β ν τ) :=
  if r.replies.any (·.1 == i) then none
  else
    let ((answer, takes), store) := store.write w.number r.run.now batch r.store
    let r := { r with store }
    if takes.isZero then r.happen plan (.answered i answer)
    else some { r with replies := r.replies ++ [(i, wake (r.run.now + takes.nanos), answer)] }

/-- The first answer that is due arrives. -/
def deliver (plan : Run.Plan σ π) (r : Rehearsal σ π β ν τ) : Option (Rehearsal σ π β ν τ) := do
  let (i, _, answer) ← r.replies.find? (·.2.1 ≤ r.run.now)
  { r with replies := r.replies.filter (·.1 != i) }.happen plan (.answered i answer)

/-- The next move of a worker. -/
def moveWorker (wake : Time → Time) (plan : Run.Plan σ π) (store : Store τ β) (r : Rehearsal σ π β ν τ) (i : Nat) :
    Option (Rehearsal σ π β ν τ) := do
  let w ← r.run.workers[i]?
  match r.happen plan (.interrupt i) with
  | some r => some r
  | none =>
    match w.phase with
    | .joining =>
      if plan.sending then
        let (result, state) := store.connect w.number r.store
        { r with store := state }.happen plan (.connected i result)
      else r.happen plan (.advance i)
    | .parting _ _ =>
      if w.sender.connected then
        let (result, state) := store.disconnect w.number r.store
        { r with store := state }.happen plan (.disconnected i result)
      else r.happen plan (.advance i)
    | .sending batch (.calling _) => r.exchange wake plan store i w batch
    | _ => r.happen plan (.advance i)

/-- When a worker has something to do, if it waits for the clock. -/
def dueOf (w : Worker β) : Option Time :=
  match w.phase with
  | .sending _ attempts => Retry.due? attempts
  | _ => none

/-- When the next thing is due. -/
def nextDue (r : Rehearsal σ π β ν τ) : Option Time :=
  (r.run.workers.filterMap dueOf ++ r.replies.map (·.2.1) ++ r.run.stopping.nextDue.toList).min?

/-- The next thing that happens; none if nothing can. -/
def next (wake : Time → Time) (plan : Run.Plan σ π) (store : Store τ β) (r : Rehearsal σ π β ν τ) :
    Option (Rehearsal σ π β ν τ) :=
  let positions := List.range r.run.workers.length
  positions.findSome? (fun i => r.happen plan (.observe i))
    <|> positions.findSome? (fun i => r.moveWorker wake plan store i)
    <|> positions.findSome? (fun i => r.happen plan (.join i))
    <|> r.deliver plan
    <|> r.happen plan .timer
    <|> r.happen plan .scan
    <|> r.happen plan .joinScan
    <|> (r.nextDue.bind fun due => r.happen plan (.pass (wake due)))

/-- Goes on until the run is over or nothing can happen, for at most `fuel` steps. -/
def play (wake : Time → Time) (plan : Run.Plan σ π) (store : Store τ β) :
    Nat → Rehearsal σ π β ν τ → Rehearsal σ π β ν τ
  | 0, r => r
  | fuel + 1, r =>
    if r.run.isOver then r
    else match r.next wake plan store with
      | some r => play wake plan store fuel r
      | none => r

/-- A run as its settings describe it, on a clock that wakes sleepers at whole milliseconds. -/
def ofSettings [Keyed π] (settings : RunSettings) (policy : RetryPolicy) (stopping : Stopping)
    (bucket : Option (TokenBucket ν)) (read : σ → Except Failure (Option π) × σ) (source : σ) (store : Store τ β)
    (state : τ) (fuel : Nat) : Rehearsal σ π β ν τ :=
  play Time.roundUp (Run.planFor settings policy read) store fuel
    ⟨Run.stateFor settings stopping bucket source, state, []⟩

/-- One worker on a queue that was filled before. If more could come, the queue stays open. -/
def ofBatches (number : Nat) (batches : List β) (moreToCome dedicated sending : Bool) (policy : RetryPolicy)
    (stopping : Stopping) (bucket : Option (TokenBucket ν)) (store : Store τ β) (state : τ) (fuel : Nat) :
    Rehearsal Unit π β ν τ :=
  let room := batches.length + 1
  let start : Run.State Unit π β ν :=
    { (Run.State.start () 1 room dedicated bucket : Run.State Unit π β ν) with
      scan := Scan.exhausted ()
      channels := [⟨⟨batches, room, false, !moreToCome⟩, []⟩]
      workers := [Worker.start number]
      stopping }
  let plan : Run.Plan Unit π :=
    ⟨⟨fun _ => (.ok none, ()), fun _ => 0, 1, 1, none⟩, dedicated, sending, policy⟩
  play Time.roundUp plan store fuel ⟨start, state, []⟩

end Rehearsal
end IngestBench
