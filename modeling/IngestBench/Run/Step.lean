import IngestBench.Run.State

/-! The steps of a run. Every step is small: whatever happens between two of them happens in some order of steps,
    so that all interleavings of the scan, the workers, the observers and the requests to stop are sequences of
    steps. -/

namespace IngestBench
namespace Run

/-- What can happen next. -/
inductive Event
  /-- The clock moves on. -/
  | pass (time : Time)
  /-- Someone asks for a stop. -/
  | request (level : StopLevel)
  /-- A timer that is due asks for a stop. -/
  | timer
  /-- The scan makes its next move. -/
  | scan
  /-- The end of the scan is noticed. -/
  | joinScan
  /-- A worker makes the next move that needs no answer of the store. -/
  | advance (worker : Nat)
  /-- A forced stop ends the waiting of a worker. -/
  | interrupt (worker : Nat)
  | connected (worker : Nat) (result : Except Failure Unit)
  | answered (worker : Nat) (result : Except Failure Unit)
  | disconnected (worker : Nat) (result : Except Failure Unit)
  /-- The observer of a worker takes in a report, or ends. -/
  | observe (worker : Nat)
  /-- The end of a worker is noticed. -/
  | join (worker : Nat)

variable {σ π β ν : Type}

namespace State

/-! ### The scan -/

/-- Sets the scan; at its end no more batches come. -/
def setScan (s : State σ π β ν) (scan : Scan σ π β) : State σ π β ν :=
  let s := { s with scan }
  if scan.result?.isSome then s.updateQueues Queue.finish else s

/-- The scan makes its next move; a batch waits until there is room for it. -/
def scanStep [Batch β π] (plan : Plan σ π) (s : State σ π β ν) : Option (State σ π β ν) :=
  match s.scan.offered with
  | none =>
    (s.scan.advance plan.scan s.stopping.level.isStopping s.pool).map fun (scan, pool) =>
      { s with pool }.setScan scan
  | some (partition, batch) => do
    let i := Queue.route s.channels.length partition
    let channel ← s.channels[i]?
    match channel.queue.offer batch with
    | .accepted queue => some ((s.setChannel i { channel with queue }).setScan s.scan.sent)
    | .full => none
    | .refused => some (s.setScan s.scan.turnedAway)

/-- The end of the scan is noticed. A fault forces a stop, if there is anyone left to stop. -/
def joinScan (s : State σ π β ν) : Option (State σ π β ν) := do
  let result ← s.scan.result?
  if s.scanJoined then none
  else
    let s := { s with scanJoined := true }
    match result with
    | .ok _ => some s
    | .error _ =>
      if (List.range s.workers.length).all s.joined.contains then some s
      else some { s with stopping := s.stopping.raise .forced s.now }

/-! ### The workers -/

/-- Sets a worker that has ended. The last one at a queue leaves it with what is queued. -/
def retire (plan : Plan σ π) (s : State σ π β ν) (i : Nat) (w : Worker β) : State σ π β ν :=
  let s := s.setWorker i w
  if plan.dedicated || !s.workers.any Worker.isActive then
    s.updateChannel (channelIndex plan.dedicated i) fun c => { c with queue := c.queue.abandon }
  else s

/-- A worker takes no more batches, and goes to close its queue. -/
def leave (plan : Plan σ π) (s : State σ π β ν) (i : Nat) (w : Worker β) (ending : Ending) : State σ π β ν :=
  ({ s with counters := s.counters.workerFinished }.setWorker i { w with phase := .leaving ending }).updateChannel
    (channelIndex plan.dedicated i) (·.enter i)

/-- A worker is ready for its first batch. -/
def begin (s : State σ π β ν) (i : Nat) (w : Worker β) : State σ π β ν :=
  { s with counters := s.counters.workerStarted }.setWorker i { w with phase := .choosing }

/-- The attempts at a batch have ended. -/
def settle [Batch β π] (plan : Plan σ π) (s : State σ π β ν) (i : Nat) (w : Worker β) (batch : β) :
    Retry.Result → State σ π β ν
  | .accepted _ =>
    let counts := Batch.counts batch
    { s with counters := s.counters.add counts, pool := s.pool.put (Batch.reset batch) }.setWorker i
      { w.count counts with phase := .choosing }
  | .refused fault =>
    let failure := fault.toFailure
    s.leave plan i w (if failure.isCancelled then .stopped else .failed failure)
  | .overflow => s.retire plan i { w with phase := .ended (.error (.internal (.crashed "wait out of range"))) }

/-- A worker that is first in line looks for a batch. -/
def take (plan : Plan σ π) (s : State σ π β ν) (i : Nat) (w : Worker β) : Option (State σ π β ν) := do
  let c := channelIndex plan.dedicated i
  let channel ← s.channels[c]?
  if channel.isFirst i then
    match channel.queue.front with
    | .item batch queue =>
      let attempts : Retry.Phase := if plan.sending then .first else .settled (.accepted 0)
      some ((s.setChannel c ({ channel with queue }.leave i)).setWorker i { w with phase := .sending batch attempts })
    | .empty => none
    | .exhausted => some ((s.setChannel c (channel.leave i)).leave plan i w .drained)
  else none

/-- A worker that is first in line closes its queue. -/
def close (plan : Plan σ π) (s : State σ π β ν) (i : Nat) (w : Worker β) (ending : Ending) :
    Option (State σ π β ν) := do
  let c := channelIndex plan.dedicated i
  let channel ← s.channels[c]?
  if channel.isFirst i then
    some ((s.setChannel c ({ channel with queue := channel.queue.close }.leave i)).setWorker i
      { w with phase := .closing ending })
  else none

/-- The observer of a worker ends, and the worker knows its back-off. -/
def summarize (s : State σ π β ν) (i : Nat) (w : Worker β) (ending : Ending) : Option (State σ π β ν) :=
  match w.sender.tracker with
  | none => some (s.setWorker i { w with phase := .parting ending w.sender.noBackoff })
  | some tracker =>
    (tracker.finish s.now s.gauge).map fun (backoff, gauge) =>
      { s with gauge }.setWorker i { w with sender := w.sender.unobserved, phase := .parting ending backoff }

/-- A worker makes the next move that needs no answer of the store. A stop that comes between a look at the level
    and a look at the queue goes unnoticed until the batch is done with. -/
def advanceWorker [Batch β π] [Quantity ν] (plan : Plan σ π) (s : State σ π β ν) (i : Nat) (w : Worker β) :
    Option (State σ π β ν) :=
  match w.phase with
  | .joining => if plan.sending then none else some (s.begin i w)
  | .choosing =>
    if s.isForced then some (s.leave plan i w .stopped)
    else some ((s.setWorker i { w with phase := .waiting }).updateChannel
      (channelIndex plan.dedicated i) (·.enter i))
  | .waiting => s.take plan i w
  | .sending batch (.settled result) => some (s.settle plan i { w with sender := w.sender.count result } batch result)
  | .sending batch attempts =>
    (Retry.advance plan.policy (Batch.counts batch).metrics attempts (s.surroundings w)).map fun (attempts, e) =>
      { s with bucket := e.bucket }.setWorker i
        { w with sender := { w.sender with tracker := e.tracker }, phase := .sending batch attempts }
  | .leaving ending => s.close plan i w ending
  | .closing ending => s.summarize i w ending
  | .parting ending backoff =>
    if w.sender.connected then none else some (s.retire plan i (w.finish ending backoff (.ok ())))
  | .ended _ => none

/-- A forced stop ends the waiting of a worker. -/
def interruptWorker (plan : Plan σ π) (s : State σ π β ν) (i : Nat) (w : Worker β) : Option (State σ π β ν) :=
  match w.phase with
  | .waiting =>
    if s.isForced then
      some ((s.updateChannel (channelIndex plan.dedicated i) (·.leave i)).leave plan i w .stopped)
    else none
  | .sending batch attempts =>
    (Retry.interrupt s.stopping.level attempts).map fun attempts =>
      s.setWorker i { w with phase := .sending batch attempts }
  | _ => none

/-- The store lets a worker in, or not. -/
def connectWorker (plan : Plan σ π) (s : State σ π β ν) (i : Nat) (w : Worker β) (result : Except Failure Unit) :
    Option (State σ π β ν) :=
  match w.phase with
  | .joining =>
    if plan.sending then
      match result with
      | .ok _ => some (s.begin i { w with sender := w.sender.opened })
      | .error failure => some (s.retire plan i (w.failWith failure))
    else none
  | _ => none

/-- The store answers a worker. -/
def answerWorker (plan : Plan σ π) (s : State σ π β ν) (i : Nat) (w : Worker β) (result : Except Failure Unit) :
    Option (State σ π β ν) :=
  match w.phase with
  | .sending batch attempts =>
    (Retry.answer plan.policy attempts result).map fun attempts =>
      s.setWorker i { w with phase := .sending batch attempts }
  | _ => none

/-- The connection of a worker is closed. -/
def disconnectWorker (plan : Plan σ π) (s : State σ π β ν) (i : Nat) (w : Worker β) (result : Except Failure Unit) :
    Option (State σ π β ν) :=
  match w.phase with
  | .parting ending backoff =>
    if w.sender.connected then some (s.retire plan i (w.finish ending backoff result)) else none
  | _ => none

/-- The observer of a worker takes in a report. It ends by itself when the worker is gone. -/
def observeWorker (s : State σ π β ν) (i : Nat) (w : Worker β) : Option (State σ π β ν) := do
  let tracker ← w.sender.tracker
  match tracker.see s.now s.gauge with
  | some (tracker, gauge) =>
    some ({ s with gauge }.setWorker i { w with sender := { w.sender with tracker := some tracker } })
  | none =>
    if w.isActive then none
    else some ({ s with gauge := tracker.observer.leave s.now s.gauge }.setWorker i
      { w with sender := w.sender.unobserved })

/-- The end of a worker is noticed; a failure forces a stop. -/
def joinWorker (s : State σ π β ν) (i : Nat) (w : Worker β) : Option (State σ π β ν) :=
  match w.phase with
  | .ended result =>
    if s.joined.contains i then none
    else
      let s := { s with joined := s.joined ++ [i] }
      match result with
      | .ok _ => some s
      | .error _ => some { s with stopping := s.stopping.raise .forced s.now }
  | _ => none

end State

/-- A step of a run; none if the event cannot happen now. -/
def step [Batch β π] [Quantity ν] (plan : Plan σ π) (s : State σ π β ν) : Event → Option (State σ π β ν)
  | .pass time => if s.now ≤ time then some { s with now := time } else none
  | .request level => some { s with stopping := s.stopping.raise level s.now }
  | .timer => (s.stopping.fire s.now).map fun stopping => { s with stopping }
  | .scan => s.scanStep plan
  | .joinScan => s.joinScan
  | .advance i => do s.advanceWorker plan i (← s.workers[i]?)
  | .interrupt i => do s.interruptWorker plan i (← s.workers[i]?)
  | .connected i result => do s.connectWorker plan i (← s.workers[i]?) result
  | .answered i result => do s.answerWorker plan i (← s.workers[i]?) result
  | .disconnected i result => do s.disconnectWorker plan i (← s.workers[i]?) result
  | .observe i => do s.observeWorker i (← s.workers[i]?)
  | .join i => do s.joinWorker i (← s.workers[i]?)

/-- The states that a run can get into. -/
inductive Reachable [Batch β π] [Quantity ν] (plan : Plan σ π) (first : State σ π β ν) : State σ π β ν → Prop
  | start : Reachable plan first first
  | next {s t : State σ π β ν} {event : Event} : Reachable plan first s → step plan s event = some t →
      Reachable plan first t

end Run
end IngestBench
