import IngestBench.Proofs.AlikeRuns
import IngestBench.Run.Launch

/-! The course of a run: what is done in it, event by event. A run is followed along the events that happen, and what
    the scan and the workers do on the way is noted: which points are read, which batches are handed on, and what
    becomes of them. -/

namespace IngestBench

/-! ### Deeds -/

/-- What a worker does with batches. -/
inductive Task (β : Type)
  /-- Takes a batch out of its queue, to send it. -/
  | took (batch : β)
  /-- Hands a batch to the store. -/
  | attempted (batch : β)
  /-- The store has accepted a batch. -/
  | stored (batch : β)
  /-- Is done with a batch that was accepted, and counts it. -/
  | delivered (batch : β)
  | gaveUp (batch : β)
  /-- Found that nothing is left in its queue, and that nothing will come. -/
  | drained
  deriving DecidableEq

namespace Task

variable {β γ : Type}

def map (f : β → γ) : Task β → Task γ
  | .took b => .took (f b)
  | .attempted b => .attempted (f b)
  | .stored b => .stored (f b)
  | .delivered b => .delivered (f b)
  | .gaveUp b => .gaveUp (f b)
  | .drained => .drained

@[simp] def took? : Task β → Option β
  | .took b => some b
  | _ => none

@[simp] def attempted? : Task β → Option β
  | .attempted b => some b
  | _ => none

@[simp] def stored? : Task β → Option β
  | .stored b => some b
  | _ => none

@[simp] def delivered? : Task β → Option β
  | .delivered b => some b
  | _ => none

@[simp] def gaveUp? : Task β → Option β
  | .gaveUp b => some b
  | _ => none

end Task

/-- What a worker did with a batch when the attempts went from one phase to another. -/
def Retry.Phase.tasks {β : Type} (b : β) : Phase → Phase → List (Task β)
  | _, .calling _ => [.attempted b]
  | .calling _, .settling (.accepted _) => [.stored b]
  | _, _ => []

/-- What a worker did when it went from one phase to another. -/
def Worker.Phase.tasks {β : Type} : Phase β → Phase β → List (Task β)
  | .waiting, .sending b _ => [.took b]
  | .waiting, .leaving .drained => [.drained]
  | .sending b a, .sending _ a' => a.tasks b a'
  | .sending b _, .choosing => [.delivered b]
  | .sending b _, .leaving _ => [.gaveUp b]
  | .sending b _, .ended _ => [.gaveUp b]
  | _, _ => []

namespace Run

/-- What is done in a run. -/
inductive Deed (π β : Type)
  | read (point : π)
  /-- The scan hands a batch on. -/
  | sent (partition : Nat) (batch : β)
  | work (worker : Nat) (task : Task β)
  deriving DecidableEq

namespace Deed

variable {π β γ : Type}

def map (f : β → γ) : Deed π β → Deed π γ
  | .read p => .read p
  | .sent k b => .sent k (f b)
  | .work i task => .work i (task.map f)

def read? : Deed π β → Option π
  | .read p => some p
  | _ => none

def sent? : Deed π β → Option (Nat × β)
  | .sent k b => some (k, b)
  | _ => none

def work? : Deed π β → Option (Nat × Task β)
  | .work i task => some (i, task)
  | _ => none

end Deed

/-! ### What was done -/

/-- What was done in a run, in order. -/
abbrev Log (π β : Type) := List (Deed π β)

namespace Log

variable {π β γ : Type}

/-- The points that were read. -/
def points (log : Log π β) : List π := log.filterMap Deed.read?

/-- The batches that the scan handed on, with their partitions. -/
def sent (log : Log π β) : List (Nat × β) := log.filterMap Deed.sent?

/-- What workers did. -/
def works (log : Log π β) : List (Nat × Task β) := log.filterMap Deed.work?

/-- What one worker did. -/
def tasks (log : Log π β) (i : Nat) : List (Task β) := (log.works.filter (·.1 == i)).map (·.2)

/-- The batches that went to one of so many queues. -/
def sentTo (log : Log π β) (queues c : Nat) : List β :=
  (log.sent.filter fun x => Queue.route queues x.1 == c).map (·.2)

/-- The batches that were taken out of one of the queues. -/
def takenFrom (log : Log π β) (dedicated : Bool) (c : Nat) : List β :=
  (log.works.filter fun x => channelIndex dedicated x.1 == c).filterMap (·.2.took?)

/-- The batches that the store accepted from one of the workers. -/
def storedBy (log : Log π β) (i : Nat) : List β := (log.tasks i).filterMap Task.stored?

/-- The batches that the store accepted. -/
def stored (log : Log π β) : List β := log.works.filterMap (·.2.stored?)

/-- The batches that were accepted and counted. -/
def delivered (log : Log π β) : List β := log.works.filterMap (·.2.delivered?)

section
variable (log more : Log π β) (i : Nat)

@[simp] theorem points_append : points (log ++ more) = points log ++ points more := List.filterMap_append
@[simp] theorem sent_append : sent (log ++ more) = sent log ++ sent more := List.filterMap_append
@[simp] theorem works_append : works (log ++ more) = works log ++ works more := List.filterMap_append

@[simp] theorem tasks_append : tasks (log ++ more) i = tasks log i ++ tasks more i := by
  simp [tasks]

@[simp] theorem sentTo_append (queues c : Nat) :
    sentTo (log ++ more) queues c = sentTo log queues c ++ sentTo more queues c := by
  simp [sentTo]

@[simp] theorem takenFrom_append (dedicated : Bool) (c : Nat) :
    takenFrom (log ++ more) dedicated c = takenFrom log dedicated c ++ takenFrom more dedicated c := by
  simp [takenFrom]

@[simp] theorem delivered_append : delivered (log ++ more) = delivered log ++ delivered more := by
  simp [delivered]

end
end Log

variable {σ π β γ ν : Type}

/-! ### Following a run -/

/-- The phases that the workers are in. -/
def State.phases (s : State σ π β ν) : List (Worker.Phase β) := s.workers.map (·.phase)

/-- What a scan did when it went from one phase to another. -/
def scanDeeds : Scan.Phase π β → Scan.Phase π β → Log π β
  | .reading, .placing p => [.read p]
  | .sending k b _, .deciding => [.sent k b]
  | .sending k b _, .flushing _ => [.sent k b]
  | _, _ => []

/-- What a worker did between two states. -/
def workDeeds (i : Nat) (s t : State σ π β ν) : Log π β :=
  match s.phases[i]?, t.phases[i]? with
  | some p, some q => (p.tasks q).map (.work i)
  | _, _ => []

/-- What was done in a step. -/
def deedsOf (s t : State σ π β ν) : Event → Log π β
  | .scan => scanDeeds s.scan.phase t.scan.phase
  | .advance i | .interrupt i | .connected i _ | .answered i _ | .disconnected i _ => workDeeds i s t
  | _ => []

section
variable [Batch β π] [Quantity ν]

/-- The state after some events; none if one of them cannot happen. -/
def follow (plan : Plan σ π) : State σ π β ν → List Event → Option (State σ π β ν)
  | s, [] => some s
  | s, event :: events => (step plan s event).bind (follow plan · events)

/-- What is done while some events happen. -/
def deeds (plan : Plan σ π) : State σ π β ν → List Event → Log π β
  | _, [] => []
  | s, event :: events =>
    match step plan s event with
    | some t => deedsOf s t event ++ deeds plan t events
    | none => []

/-- A run before its first step, as its plan needs it; a stop may already be in force. -/
def first (plan : Plan σ π) (source : σ) (workers capacity : Nat) (bucket : Option (TokenBucket ν))
    (stopping : Stopping) : State σ π β ν :=
  { State.start source workers capacity plan.dedicated bucket with stopping }

/-- The course of a run, with the last step last. -/
inductive Course (plan : Plan σ π) (s : State σ π β ν) : List Event → Log π β → State σ π β ν → Prop
  | start : Course plan s [] [] s
  | next {events : List Event} {log : Log π β} {t u : State σ π β ν} {event : Event} :
    Course plan s events log t → step plan t event = some u →
      Course plan s (events ++ [event]) (log ++ deedsOf t u event) u

variable {plan : Plan σ π} {s t u : State σ π β ν} {events more : List Event} {log log' : Log π β}

theorem Course.trans (h : Course plan s events log t) (h' : Course plan t more log' u) :
    Course plan s (events ++ more) (log ++ log') u := by
  induction h' with
  | start => simpa using h
  | next _ hstep ih =>
    rw [← List.append_assoc, ← List.append_assoc]
    exact ih.next hstep

theorem follow_cons_eq_some {event : Event} (h : follow plan s (event :: events) = some t) :
    ∃ u, step plan s event = some u ∧ follow plan u events = some t := Option.bind_eq_some_iff.1 h

theorem deeds_cons {event : Event} (h : step plan s event = some u) :
    deeds plan s (event :: events) = deedsOf s u event ++ deeds plan u events := by
  simp only [deeds, h]

theorem course_of_follow (h : follow plan s events = some t) : Course plan s events (deeds plan s events) t := by
  induction events generalizing s with
  | nil =>
    cases h
    exact .start
  | cons event events ih =>
    obtain ⟨u, hstep, h⟩ := follow_cons_eq_some h
    rw [deeds_cons hstep]
    exact (Course.start.next hstep).trans (ih h)

theorem follow_append (s : State σ π β ν) (events more : List Event) :
    follow plan s (events ++ more) = (follow plan s events).bind (follow plan · more) := by
  induction events generalizing s with
  | nil => rfl
  | cons event events ih =>
    simp only [List.cons_append, follow, Option.bind_assoc]
    exact congrArg _ (funext ih)

theorem Course.follow_eq (h : Course plan s events log t) : follow plan s events = some t := by
  induction h with
  | start => rfl
  | next _ hstep ih =>
    rw [follow_append, ih]
    exact (Option.bind_fun_some _).trans hstep

theorem Reachable.exists_follow (h : Reachable plan s t) : ∃ events, follow plan s events = some t := by
  have course : ∃ events log, Course plan s events log t := by
    induction h with
    | start => exact ⟨_, _, .start⟩
    | next _ hstep ih =>
      obtain ⟨events, log, hcourse⟩ := ih
      exact ⟨_, _, hcourse.next hstep⟩
  obtain ⟨events, log, hcourse⟩ := course
  exact ⟨events, hcourse.follow_eq⟩

theorem Course.reachable (h : Course plan s events log t) : Reachable plan s t := by
  induction h with
  | start => exact .start
  | next _ hstep ih => exact ih.next hstep

end

theorem stateFor_eq [Keyed π] (settings : RunSettings) (policy : RetryPolicy)
    (read : σ → Except Failure (Option π) × σ) (stopping : Stopping) (bucket : Option (TokenBucket ν)) (source : σ) :
    (stateFor settings stopping bucket source : State σ π β ν) =
      first (planFor settings policy read) source settings.workers settings.effectiveCapacity bucket
        (startTimers settings stopping 0) := rfl

/-! ### Courses over batches that are alike -/

section
variable {f : β → γ}

theorem first_map (plan : Plan σ π) (source : σ) (workers capacity : Nat) (bucket : Option (TokenBucket ν))
    (stopping : Stopping) :
    (first plan source workers capacity bucket stopping : State σ π β ν).map f =
      first plan source workers capacity bucket stopping := by
  simp only [first, State.start, State.map, State.mk.injEq, true_and, and_true]
  refine ⟨rfl, ?_, ?_, rfl⟩
  · simp only [channelsFor, List.map_replicate]
    rfl
  · simp only [List.map_map]
    rfl

theorem tasks_map (p q : Worker.Phase β) : (p.map f).tasks (q.map f) = (p.tasks q).map (Task.map f) := by
  cases p with
  | waiting =>
    cases q with
    | leaving ending => cases ending <;> rfl
    | _ => rfl
  | sending b a =>
    cases q with
    | sending b' a' =>
      cases a' with
      | settling result => cases a <;> cases result <;> rfl
      | _ => cases a <;> rfl
    | _ => rfl
  | _ => cases q <;> rfl

theorem scanDeeds_map (p q : Scan.Phase π β) :
    scanDeeds (p.map f) (q.map f) = (scanDeeds p q).map (Deed.map f) := by
  cases p <;> cases q <;> rfl

theorem phases_map (s : State σ π β ν) : (s.map f).phases = s.phases.map (Worker.Phase.map f) := by
  simp only [State.phases, State.map, List.map_map]
  rfl

theorem deedsOf_map (s t : State σ π β ν) (event : Event) :
    deedsOf (s.map f) (t.map f) event = (deedsOf s t event).map (Deed.map f) := by
  have work : ∀ i, workDeeds i (s.map f) (t.map f) = (workDeeds i s t).map (Deed.map f) := by
    intro i
    simp only [workDeeds, phases_map, List.getElem?_map]
    cases s.phases[i]? with
    | none => rfl
    | some p =>
      cases t.phases[i]? with
      | none => rfl
      | some q =>
        simp only [Option.map_some, tasks_map, List.map_map]
        rfl
  cases event <;> first | rfl | exact work _ | exact scanDeeds_map _ _

variable [Batch β π] [Batch γ π] [Quantity ν]

theorem follow_map (hf : Batch.Alike f) (plan : Plan σ π) (s : State σ π β ν) (events : List Event) :
    follow plan (s.map f) events = (follow plan s events).map (State.map f) := by
  induction events generalizing s with
  | nil => rfl
  | cons event events ih =>
    simp only [follow, step_map hf]
    cases step plan s event with
    | none => rfl
    | some t => exact ih t

theorem deeds_map (hf : Batch.Alike f) (plan : Plan σ π) (s : State σ π β ν) (events : List Event) :
    deeds plan (s.map f) events = (deeds plan s events).map (Deed.map f) := by
  induction events generalizing s with
  | nil => rfl
  | cons event events ih =>
    simp only [deeds, step_map hf]
    cases step plan s event with
    | none => rfl
    | some t => simp only [Option.map_some, deedsOf_map, ih, List.map_append]

end
end Run
end IngestBench
