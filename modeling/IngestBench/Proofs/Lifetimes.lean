import IngestBench.Proofs.Conservation
import IngestBench.Proofs.Holdings
import Mathlib.Data.List.Basic

/-! The lives of workers. A worker is let in by the store, sends one batch after the other, stops, closes its queue,
    and takes its leave of the store; it does so whatever made it stop. The counter of those at work shows at every
    moment who was let in and has not stopped. -/

namespace IngestBench

variable {β : Type}

/-! ### Acts -/

/-- What a worker does to the store, to its queue, to the pool, and to the count of workers. -/
inductive Worker.Act (β : Type)
  /-- Asks to be let in, and is or is not. -/
  | init (ok : Bool)
  | process (batch : β)
  /-- Learns what became of the batch in hand. -/
  | processed (batch : β) (ok : Bool)
  /-- Gives a batch back. -/
  | recycle (batch : β)
  /-- Takes no more batches. -/
  | stop
  | closeQueue
  /-- Begins to take its leave. -/
  | close
  | closed
  | crash

namespace Worker

namespace Act

def succeeded? : Act β → Option β
  | .processed b true => some b
  | _ => none

def recycled? : Act β → Option β
  | .recycle b => some b
  | _ => none

def letsIn : Act β → Bool
  | .init true => true
  | _ => false

def stops : Act β → Bool
  | .stop => true
  | _ => false

end Act

/-- What a worker did when it went from one phase to another. -/
def Phase.acts : Phase β → Phase β → List (Act β)
  | .joining, .choosing => [.init true]
  | .joining, .ended _ => [.init false]
  | .choosing, .leaving _ => [.stop]
  | .waiting, .sending b _ => [.process b]
  | .waiting, .leaving _ => [.stop]
  | .sending b _, .choosing => [.processed b true, .recycle b]
  | .sending b _, .leaving _ => [.processed b false, .stop]
  | .sending _ _, .ended _ => [.crash]
  | .leaving _, .closing _ => [.closeQueue, .close]
  | .parting _ _, .ended _ => [.closed]
  | _, _ => []

theorem Phase.acts_self (p : Phase β) : p.acts p = [] := by cases p <;> rfl

/-! ### Lives -/

/-- Batches that are sent and given back, one after the other. -/
def served (bs : List β) : List (Act β) := bs.flatMap fun b => [.process b, .processed b true, .recycle b]

/-- All that a worker does until it stops. -/
inductive Stopped : List (Act β) → Prop
  | served (bs : List β) : Stopped (.init true :: served bs ++ [.stop])
  | failed (bs : List β) (b : β) : Stopped (.init true :: served bs ++ [.process b, .processed b false, .stop])

/-- All that a worker has done when it is in a phase. -/
inductive Life : List (Act β) → Phase β → Prop
  | joining : Life [] .joining
  | rejected (f : Failure) : Life [.init false] (.ended (.error f))
  | choosing (bs : List β) : Life (.init true :: served bs) .choosing
  | waiting (bs : List β) : Life (.init true :: served bs) .waiting
  | sending (bs : List β) (b : β) (attempts : Retry.Phase) :
    Life (.init true :: served bs ++ [.process b]) (.sending b attempts)
  | crashed (bs : List β) (b : β) (f : Failure) :
    Life (.init true :: served bs ++ [.process b, .crash]) (.ended (.error f))
  | leaving {l : List (Act β)} (ending : Ending) : Stopped l → Life l (.leaving ending)
  | closing {l : List (Act β)} (ending : Ending) : Stopped l → Life (l ++ [.closeQueue, .close]) (.closing ending)
  | parting {l : List (Act β)} (ending : Ending) (backoff : BackoffSummary) : Stopped l →
    Life (l ++ [.closeQueue, .close]) (.parting ending backoff)
  | ended {l : List (Act β)} (result : Except Failure WorkerReport) : Stopped l →
    Life (l ++ [.closeQueue, .close, .closed]) (.ended result)

theorem served_append (bs : List β) (b : β) :
    (served (bs ++ [b]) : List (Act β)) = served bs ++ [.process b, .processed b true, .recycle b] := by
  simp [served]

section
variable {sending forced : Bool} {fails : Failure → Prop} {i : Nat} {p q : Phase β} {c d : Run.Channel β}
  {l : List (Act β)}

/-- Every move goes on with the life of a worker. -/
theorem Life.move (hl : Life l p) (h : Move sending forced fails i p c q d) : Life (l ++ p.acts q) q := by
  cases h with
  | begin =>
    cases hl
    exact .choosing []
  | reject =>
    cases hl
    exact .rejected _
  | stop =>
    cases hl with
    | choosing bs => exact .leaving _ (.served bs)
  | wait =>
    cases hl with
    | choosing bs => simpa [Phase.acts] using Life.waiting bs
  | take =>
    cases hl with
    | waiting bs => exact .sending bs _ _
  | drain | interrupt =>
    cases hl with
    | waiting bs => exact .leaving _ (.served bs)
  | attempt =>
    cases hl with
    | sending bs => simpa [Phase.acts] using Life.sending bs _ _
  | @deliver _ b =>
    cases hl with
    | sending bs =>
      have hserved := Life.choosing (bs ++ [b])
      rw [served_append] at hserved
      simpa [Phase.acts] using hserved
  | @giveUp _ b fault =>
    cases hl with
    | sending bs =>
      have hstopped := Life.leaving (if fault.toFailure.isCancelled then .stopped else .failed fault.toFailure)
        (.failed bs b)
      simpa [Phase.acts] using hstopped
  | crash =>
    cases hl with
    | sending bs => simpa [Phase.acts] using Life.crashed bs _ _
  | close =>
    cases hl with
    | leaving _ hstopped => exact .closing _ hstopped
  | sum =>
    cases hl with
    | closing _ hstopped => simpa [Phase.acts] using Life.parting _ _ hstopped
  | part =>
    cases hl with
    | parting _ _ hstopped => simpa [Phase.acts] using Life.ended _ hstopped

end

/-! ### The order of acts -/

/-- A worker is let in first, and only once; it takes its leave once, after it has closed its queue, and does
    nothing after that; it gives back what was accepted, and nothing else. -/
structure Orderly (acts : List (Act β)) (p : Phase β) : Prop where
  begins : p = .joining ∧ acts = [] ∨
    ∃ ok rest, acts = .init ok :: rest ∧ (∀ ok', .init ok' ∉ rest) ∧ (ok = false → rest = [])
  /-- Nothing comes after the leave but its answer. -/
  leaves : ∀ before after, acts = before ++ .close :: after →
    .closeQueue ∈ before ∧ .close ∉ before ∧ ∀ x ∈ after, x = .closed
  /-- Who was let in has taken its leave in the end, whatever made it stop. -/
  left : ∀ result, p = .ended result → .init true ∈ acts → .crash ∉ acts → .close ∈ acts
  recycled : acts.filterMap Act.recycled? = acts.filterMap Act.succeeded?

/-- Whether an act comes between the way in and the way out. -/
def Act.inside : Act β → Bool
  | .process _ | .processed _ _ | .recycle _ | .stop | .crash => true
  | _ => false

section
variable {l : List (Act β)} {p : Phase β}

theorem inside_of_served {bs : List β} {x : Act β} (h : x ∈ served bs) : x.inside = true := by
  obtain ⟨b, -, hx⟩ := List.mem_flatMap.1 h
  rcases List.mem_cons.1 hx with rfl | hx
  · rfl
  · rcases List.mem_cons.1 hx with rfl | hx
    · rfl
    · cases List.mem_singleton.1 hx
      rfl

theorem recycled_served (bs : List β) : (served bs).filterMap Act.recycled? = bs := by
  induction bs with
  | nil => rfl
  | cons b bs ih => exact congrArg _ ih

theorem succeeded_served (bs : List β) : (served bs).filterMap Act.succeeded? = bs := by
  induction bs with
  | nil => rfl
  | cons b bs ih => exact congrArg _ ih

/-- What a worker does between the way in and the way out. -/
structure Inside (l : List (Act β)) : Prop where
  inside : ∀ x ∈ l, x.inside = true
  recycled : l.filterMap Act.recycled? = l.filterMap Act.succeeded?

theorem inside_append {bs : List β} {last : List (Act β)} (hinside : ∀ x ∈ last, x.inside = true)
    (hrecycled : last.filterMap Act.recycled? = last.filterMap Act.succeeded?) : Inside (served bs ++ last) where
  inside x hx := (List.mem_append.1 hx).elim inside_of_served (hinside x)
  recycled := by rw [List.filterMap_append, List.filterMap_append, recycled_served, succeeded_served, hrecycled]

theorem Stopped.inside (h : Stopped l) : ∃ mid, l = .init true :: mid ∧ Inside mid := by
  cases h with
  | served bs => exact ⟨_, rfl, inside_append (by simp [Act.inside]) rfl⟩
  | failed bs b => exact ⟨_, rfl, inside_append (by simp [Act.inside]) rfl⟩

/-- A life has a way in, what is inside, and a way out. -/
inductive Parts : List (Act β) → Phase β → Prop
  | none : Parts [] .joining
  | rejected {p : Phase β} : Parts [.init false] p
  | inside {mid : List (Act β)} {p : Phase β} : Inside mid → Parts (.init true :: mid) p
  | left {mid answers : List (Act β)} {p : Phase β} : Inside mid → (∀ x ∈ answers, x = .closed) →
    Parts (.init true :: (mid ++ .closeQueue :: .close :: answers)) p

theorem Stopped.parts (h : Stopped l) {answers : List (Act β)} (hanswers : ∀ x ∈ answers, x = .closed) :
    Parts (l ++ .closeQueue :: .close :: answers) p := by
  obtain ⟨mid, rfl, hmid⟩ := h.inside
  exact .left hmid hanswers

theorem Life.parts (h : Life l p) : Parts l p := by
  cases h with
  | joining => exact .none
  | rejected f => exact .rejected
  | choosing bs | waiting bs =>
    have hmid : Inside (served bs ++ [] : List (Act β)) := inside_append nofun rfl
    exact .inside (List.append_nil (served bs : List (Act β)) ▸ hmid)
  | sending bs b a => exact .inside (inside_append (by simp [Act.inside]) rfl)
  | crashed bs b f => exact .inside (inside_append (by simp [Act.inside]) rfl)
  | leaving ending hstopped =>
    obtain ⟨mid, rfl, hmid⟩ := hstopped.inside
    exact .inside hmid
  | closing ending hstopped => exact hstopped.parts nofun
  | parting ending backoff hstopped => exact hstopped.parts nofun
  | ended result hstopped => exact hstopped.parts (by simp)

theorem Inside.not_mem {mid : List (Act β)} (h : Inside mid) {x : Act β} (hx : x.inside = false) : x ∉ mid :=
  fun hmem => Bool.false_ne_true (hx.symm.trans (h.inside x hmem))

theorem Life.orderly (h : Life l p) : Orderly l p where
  begins := by
    cases h.parts with
    | none => exact .inl ⟨rfl, rfl⟩
    | rejected => exact .inr ⟨false, [], rfl, nofun, fun _ => rfl⟩
    | @inside mid _ hmid => exact .inr ⟨true, mid, rfl, fun ok => hmid.not_mem rfl, nofun⟩
    | @left mid answers _ hmid hanswers =>
      refine .inr ⟨true, _, rfl, fun ok hmem => ?_, nofun⟩
      rcases List.mem_append.1 hmem with hmem | hmem
      · exact hmid.not_mem rfl hmem
      · simp only [List.mem_cons, reduceCtorEq, false_or] at hmem
        cases hanswers _ hmem
  leaves before after heq := by
    have hmem : .close ∈ l := heq ▸ List.mem_append_right before List.mem_cons_self
    cases h.parts with
    | none => cases hmem
    | rejected => simp at hmem
    | inside hmid =>
      rcases List.mem_cons.1 hmem with hmem | hmem
      · cases hmem
      · exact absurd hmem (hmid.not_mem rfl)
    | @left mid answers _ hmid hanswers =>
      -- Nothing but what follows the closing of the queue is a leave.
      have hbefore : .close ∉ .init true :: (mid ++ [.closeQueue]) := by
        simpa using hmid.not_mem rfl
      have hafter : .close ∉ answers := fun hmem => nomatch hanswers _ hmem
      have hsplit : .init true :: (mid ++ [.closeQueue]) ++ .close :: answers = before ++ .close :: after := by
        simpa using heq
      obtain ⟨rfl, -, rfl⟩ := (List.append_cons_inj_of_notMem hbefore hafter).1 hsplit
      exact ⟨by simp, hbefore, hanswers⟩
  left result hp hin hcrash := by
    cases h with
    | rejected f => simp at hin
    | crashed bs b f => simp at hcrash
    | ended r hstopped => simp
    | _ => cases hp
  recycled := by
    cases h.parts with
    | none => rfl
    | rejected => rfl
    | inside hmid => exact hmid.recycled
    | @left mid answers _ hmid hanswers =>
      have hnone : ∀ f : Act β → Option β, f .closed = none → answers.filterMap f = [] := fun f hf =>
        List.filterMap_eq_nil_iff.2 fun x hx => hanswers x hx ▸ hf
      simp only [List.filterMap_cons, List.filterMap_append, Act.recycled?, Act.succeeded?, hmid.recycled]
      rw [hnone _ rfl, hnone _ rfl]

end

/-! ### At work -/

/-- Whether a worker was let in and has not stopped. -/
def atWork (acts : List (Act β)) : Bool := acts.any Act.letsIn && !acts.any Act.stops

section
variable {l : List (Act β)}

theorem atWork_served (bs : List β) (last : List (Act β)) :
    atWork (.init true :: served bs ++ last) = !last.any Act.stops := by
  have hserved : (served bs).any Act.stops = false := by
    simp [served, Act.stops]
  simp [atWork, Act.letsIn, Act.stops, hserved]

theorem Stopped.atWork (h : Stopped l) (more : List (Act β)) : atWork (l ++ more) = false := by
  have hstops : l.any Act.stops = true := by
    cases h <;> simp [Act.stops]
  simp [Worker.atWork, hstops]

/-- Whether a worker takes batches, or has one in hand. -/
def Phase.serves : Phase β → Bool
  | .choosing | .waiting | .sending _ _ => true
  | _ => false

def Phase.hasEnded : Phase β → Bool
  | .ended _ => true
  | _ => false

theorem Life.atWork_eq {p : Phase β} (h : Life l p) (hp : p.hasEnded = false) : Worker.atWork l = p.serves := by
  cases h with
  | joining => rfl
  | choosing bs | waiting bs =>
    have hserved := atWork_served bs []
    rwa [List.append_nil] at hserved
  | sending bs b a => exact atWork_served bs _
  | leaving ending hstopped =>
    have hnot := hstopped.atWork []
    rwa [List.append_nil] at hnot
  | closing ending hstopped => exact hstopped.atWork _
  | parting ending backoff hstopped => exact hstopped.atWork _
  | rejected f => cases hp
  | crashed bs b f => cases hp
  | ended result hstopped => cases hp

theorem Life.not_atWork {result : Except Failure WorkerReport} (h : Life l (.ended result)) (hcrash : .crash ∉ l) :
    Worker.atWork l = false := by
  cases h with
  | rejected f => rfl
  | crashed bs b f => simp at hcrash
  | ended result hstopped => exact hstopped.atWork _

end

end Worker

namespace Run

open Worker (Act Life Orderly)

variable {σ π ν : Type}

/-! ### Following lives -/

/-- What a worker did in a step. -/
def actsOf (i : Nat) (s t : State σ π β ν) : List (Act β) :=
  match s.phases[i]?, t.phases[i]? with
  | some p, some q => p.acts q
  | _, _ => []

/-- What a worker does while some events happen. -/
def life [Batch β π] [Quantity ν] (plan : Plan σ π) (i : Nat) : State σ π β ν → List Event → List (Act β)
  | _, [] => []
  | s, event :: events =>
    match step plan s event with
    | some t => actsOf i s t ++ life plan i t events
    | none => []

theorem actsOf_of_phases {s t : State σ π β ν} {i : Nat} (h : t.phases[i]? = s.phases[i]?) : actsOf i s t = [] := by
  simp only [actsOf, h]
  cases s.phases[i]? with
  | none => rfl
  | some p => exact p.acts_self

section
variable [Batch β π] [Quantity ν] {plan : Plan σ π} {s t u : State σ π β ν} {events : List Event} {event : Event}
  {log : Log π β} {i : Nat}

theorem life_append (h : follow plan s events = some t) (hstep : step plan t event = some u) :
    life plan i s (events ++ [event]) = life plan i s events ++ actsOf i t u := by
  induction events generalizing s with
  | nil =>
    cases h
    simp only [List.nil_append, life, hstep, List.append_nil]
  | cons e events ih =>
    obtain ⟨r, hr, h⟩ := follow_cons_eq_some h
    simp only [List.cons_append, life, hr, ih h, List.append_assoc]

theorem actsOf_of_ne (hstep : step plan s event = some t) (h : event.worker? ≠ some i) : actsOf i s t = [] := by
  cases turn_of_step hstep with
  | quiet _ hquiet _ => exact actsOf_of_phases (congrArg (·[i]?) hquiet.phases)
  | scan _ hscanned _ => exact actsOf_of_phases (congrArg (·[i]?) hscanned.phases)
  | worker j p q hworker hworked _ =>
    have hij : j ≠ i := fun hij => h (hij ▸ hworker)
    exact actsOf_of_phases (by rw [hworked.phases, List.getElem?_set_ne hij])

omit [Quantity ν] in
theorem actsOf_of_worked {p q : Worker.Phase β} (h : Worked plan event i p q s t) : actsOf i s t = p.acts q := by
  have hi : i < s.phases.length := (List.getElem?_eq_some_iff.1 h.phase).1
  have hq : t.phases[i]? = some q := by rw [h.phases, List.getElem?_set_self hi]
  simp only [actsOf, h.phase, hq]

/-- What every worker has done is its life up to the phase that it is in. -/
theorem lives_of_course {source : σ} {workers capacity : Nat} {bucket : Option (TokenBucket ν)} {stopping : Stopping}
    (h : Course plan (first plan source workers capacity bucket stopping) events log s) (i : Nat) (p : Worker.Phase β)
    (hp : s.phases[i]? = some p) :
    Life (life plan i (first plan source workers capacity bucket stopping) events) p := by
  induction h generalizing p with
  | start =>
    rw [phases_first] at hp
    cases List.eq_of_mem_replicate (List.mem_of_getElem? hp)
    exact .joining
  | @next events log t u event hcourse hstep ih =>
    rw [life_append hcourse.follow_eq hstep]
    by_cases hworker : event.worker? = some i
    · obtain ⟨p', q, hworked⟩ := worked_of_step hstep hworker
      have hi : i < t.phases.length := (List.getElem?_eq_some_iff.1 hworked.phase).1
      rw [hworked.phases, List.getElem?_set_self hi] at hp
      cases hp
      obtain ⟨d, hmove, -⟩ := hworked.move _ (List.getElem?_eq_getElem ((ledger_of_course hcourse).wired i hi))
      rw [actsOf_of_worked hworked]
      exact (ih p' hworked.phase).move hmove
    · rw [actsOf_of_ne hstep hworker, List.append_nil]
      refine ih p ?_
      cases turn_of_step hstep with
      | quiet _ hquiet _ => rwa [← hquiet.phases]
      | scan _ hscanned _ => rwa [← hscanned.phases]
      | worker j p' q hworker' hworked _ =>
        have hij : j ≠ i := fun hij => hworker (hij ▸ hworker')
        rwa [hworked.phases, List.getElem?_set_ne hij] at hp

end

/-! ### The count of workers -/

/-- What a worker that goes from one phase to another does to the count of those at work. -/
def manned : Worker.Phase β → Worker.Phase β → Nat → Nat
  | .joining, .choosing, n => Counters.wrap (n + 1)
  | _, .leaving _, n => Counters.wrap (n + (UInt64.size - 1))
  | _, _, n => n

/-- A worker has moved on, and is counted. -/
def Manned (i : Nat) (p : Worker.Phase β) (s t : State σ π β ν) : Prop :=
  ∃ q, t.phases = s.phases.set i q ∧ t.counters.activeWorkers = manned p q s.counters.activeWorkers

section
variable {plan : Plan σ π} {s t : State σ π β ν} {i : Nat} {w w' : Worker β} {p : Worker.Phase β}

theorem manned_leave {ending : Ending} (hworkers : t.workers = s.workers) (hcounters : t.counters = s.counters) :
    Manned i p s (t.leave plan i w ending) := by
  refine ⟨.leaving ending, ?_, ?_⟩
  · simp only [State.leave, State.phases, State.updateChannel, State.setWorker, List.map_set, hworkers]
  · rw [← hcounters]
    cases p <;> rfl

theorem manned_retire {result : Except Failure WorkerReport} (h : w'.phase = .ended result) :
    Manned i p s (s.retire plan i w') := by
  refine ⟨w'.phase, ?_, ?_⟩
  · rw [← State.setWorker_phases]
    simp only [State.retire]
    split <;> rfl
  · rw [h]
    simp only [State.retire]
    split <;> cases p <;> rfl

theorem manned_settle [Batch β π] {b : β} {attempts : Retry.Phase} {result : Retry.Result} :
    Manned i (.sending b attempts) s (s.settle plan i w b result) := by
  cases result with
  | accepted n => exact ⟨.choosing, State.setWorker_phases, rfl⟩
  | refused fault => exact manned_leave rfl rfl
  | overflow => exact manned_retire rfl

theorem manned_take (h : s.take plan i w = some t) : Manned i .waiting s t := by
  simp only [State.take, bind, Option.bind_eq_some_iff] at h
  obtain ⟨c, -, h⟩ := h
  split at h
  · split at h
    · cases h
      exact ⟨_, State.setWorker_phases, rfl⟩
    · cases h
    · cases h
      exact manned_leave rfl rfl
  · cases h

theorem manned_advance [Batch β π] [Quantity ν] (h : s.advanceWorker plan i w = some t) : Manned i w.phase s t := by
  obtain ⟨number, sender, phase, counts, batches⟩ := w
  cases phase with
  | joining =>
    simp only [State.advanceWorker] at h
    split at h
    · cases h
    · cases h
      exact ⟨.choosing, State.setWorker_phases, rfl⟩
  | choosing =>
    simp only [State.advanceWorker] at h
    split at h
    · cases h
      exact manned_leave rfl rfl
    · cases h
      exact ⟨.waiting, State.setWorker_phases, rfl⟩
  | waiting => exact manned_take h
  | sending b a =>
    cases a with
    | settled result =>
      cases h
      exact manned_settle
    | _ =>
      simp only [State.advanceWorker, Option.map_eq_some_iff] at h
      obtain ⟨x, -, rfl⟩ := h
      exact ⟨.sending b x.1, State.setWorker_phases, rfl⟩
  | leaving ending =>
    simp only [State.advanceWorker, State.close, bind, Option.bind_eq_some_iff] at h
    obtain ⟨c, -, h⟩ := h
    split at h
    · cases h
      exact ⟨.closing ending, State.setWorker_phases, rfl⟩
    · cases h
  | closing ending =>
    simp only [State.advanceWorker, State.summarize] at h
    split at h
    · cases h
      exact ⟨.parting ending _, State.setWorker_phases, rfl⟩
    · obtain ⟨x, -, rfl⟩ := Option.map_eq_some_iff.1 h
      exact ⟨.parting ending x.1, State.setWorker_phases, rfl⟩
  | parting ending backoff =>
    simp only [State.advanceWorker] at h
    split at h
    · cases h
    · cases h
      exact manned_retire rfl
  | ended r => cases h

theorem manned_interrupt (h : s.interruptWorker plan i w = some t) : Manned i w.phase s t := by
  obtain ⟨number, sender, phase, counts, batches⟩ := w
  cases phase with
  | waiting =>
    simp only [State.interruptWorker] at h
    split at h
    · cases h
      exact manned_leave rfl rfl
    · cases h
  | sending b a =>
    simp only [State.interruptWorker, Option.map_eq_some_iff] at h
    obtain ⟨a', -, rfl⟩ := h
    exact ⟨.sending b a', State.setWorker_phases, rfl⟩
  | _ => cases h

theorem manned_connect {result : Except Failure Unit} (h : s.connectWorker plan i w result = some t) :
    Manned i w.phase s t := by
  obtain ⟨number, sender, phase, counts, batches⟩ := w
  cases phase with
  | joining =>
    simp only [State.connectWorker] at h
    split at h
    · cases result with
      | ok u =>
        cases h
        exact ⟨.choosing, State.setWorker_phases, rfl⟩
      | error failure =>
        cases h
        exact manned_retire rfl
    · cases h
  | _ => cases h

theorem manned_answer {result : Except Failure Unit} (h : s.answerWorker plan i w result = some t) :
    Manned i w.phase s t := by
  obtain ⟨number, sender, phase, counts, batches⟩ := w
  cases phase with
  | sending b a =>
    simp only [State.answerWorker, Option.map_eq_some_iff] at h
    obtain ⟨a', -, rfl⟩ := h
    exact ⟨.sending b a', State.setWorker_phases, rfl⟩
  | _ => cases h

theorem manned_disconnect {result : Except Failure Unit} (h : s.disconnectWorker plan i w result = some t) :
    Manned i w.phase s t := by
  obtain ⟨number, sender, phase, counts, batches⟩ := w
  cases phase with
  | parting ending backoff =>
    simp only [State.disconnectWorker] at h
    split at h
    · cases h
      exact manned_retire rfl
    · cases h
  | _ => cases h

theorem manned_of_step [Batch β π] [Quantity ν] {event : Event} (hstep : step plan s event = some t)
    (hworker : event.worker? = some i) (hp : s.phases[i]? = some p) : Manned i p s t := by
  obtain ⟨w, hw, rfl⟩ := State.exists_worker hp
  cases event with
  | advance j | interrupt j | connected j result | answered j result | disconnected j result =>
    cases hworker
    obtain ⟨w', hw', h⟩ := Option.bind_eq_some_iff.1 hstep
    cases hw.symm.trans hw'
    first
      | exact manned_advance h
      | exact manned_interrupt h
      | exact manned_connect h
      | exact manned_answer h
      | exact manned_disconnect h
  | _ => cases hworker

end

theorem countP_update (f g : Nat → Bool) {n i : Nat} (hi : i < n) (h : ∀ j, j ≠ i → g j = f j) :
    (List.range n).countP g + (f i).toNat = (List.range n).countP f + (g i).toNat := by
  induction n with
  | zero => cases hi
  | succ n ih =>
    rw [List.range_succ, List.countP_append, List.countP_append, List.countP_singleton, List.countP_singleton]
    by_cases hin : i = n
    · subst hin
      have hsame : (List.range i).countP g = (List.range i).countP f :=
        List.countP_congr fun j hj => by rw [h j (List.mem_range.1 hj).ne]
      rw [hsame]
      cases f i <;> cases g i <;> simp
    · have hle := ih (by omega)
      rw [h n (Ne.symm hin)]
      omega

section
variable {sending forced : Bool} {fails : Failure → Prop} {i a a' : Nat} {p q : Worker.Phase β} {c d : Channel β}
  {l : List (Act β)}

theorem wrap_pred {n : Nat} (h : n < UInt64.size) : Counters.wrap (n + 1 + (UInt64.size - 1)) = n := by
  have heq : n + 1 + (UInt64.size - 1) = n + UInt64.size := by
    have hpos : 0 < UInt64.size := by decide
    omega
  rw [Counters.wrap, heq, Nat.add_mod_right, Nat.mod_eq_of_lt h]

/-- The count goes up by who is let in, and down by who stops. -/
theorem manned_eq (hl : Life l p) (h : Worker.Move sending forced fails i p c q d) (ha : a' < UInt64.size)
    (hcount : a' + (Worker.atWork l).toNat = a + (Worker.atWork (l ++ p.acts q)).toNat) : manned p q a = a' := by
  have hup (hp : Worker.atWork l = false) (hq : Worker.atWork (l ++ p.acts q) = true) :
      Counters.wrap (a + 1) = a' := by
    rw [hp, hq] at hcount
    have hcount : a' = a + 1 := hcount
    rw [← hcount, Counters.wrap, Nat.mod_eq_of_lt ha]
  have hdown (hp : Worker.atWork l = true) (hq : Worker.atWork (l ++ p.acts q) = false) :
      Counters.wrap (a + (UInt64.size - 1)) = a' := by
    rw [hp, hq] at hcount
    have hcount : a' + 1 = a := hcount
    rw [← hcount, wrap_pred ha]
  have hsame (h : Worker.atWork (l ++ p.acts q) = Worker.atWork l) : a = a' := by
    rw [h] at hcount
    omega
  have hbefore := hl.atWork_eq
  have hafter := (hl.move h).atWork_eq
  -- Where the move leads to an end, the phase no longer tells who was at work, and the life does.
  cases h with
  | begin => exact hup (hbefore rfl) (hafter rfl)
  | stop | drain | interrupt | giveUp => exact hdown (hbefore rfl) (hafter rfl)
  | take | deliver | attempt | wait | sum | close => exact hsame ((hafter rfl).trans (hbefore rfl).symm)
  | reject =>
    cases hl
    exact hsame rfl
  | crash =>
    cases hl with
    | sending bs =>
      refine hsame ?_
      rw [List.append_assoc, Worker.atWork_served, Worker.atWork_served]
      rfl
  | part =>
    cases hl with
    | parting _ _ hstopped =>
      refine hsame ?_
      rw [List.append_assoc, hstopped.atWork, hstopped.atWork]

end

section
variable [Batch β π] [Quantity ν] {plan : Plan σ π} {source : σ} {workers capacity : Nat}
  {bucket : Option (TokenBucket ν)} {stopping : Stopping} {events : List Event} {event : Event} {log : Log π β}
  {s t : State σ π β ν}

omit [Quantity ν] in
theorem Scanned.counters (h : Scanned plan s t) : t.counters = s.counters := by
  cases h with
  | moved _ _ _ _ ht | turnedAway _ _ _ _ _ _ ht | handed _ _ _ _ _ _ ht =>
    rw [ht]
    exact State.setScan_counters _

/-- There are as many phases as workers, and the counter counts those at work. -/
theorem activeWorkers_of_course (hworkers : max workers 1 < UInt64.size)
    (h : Course plan (first plan source workers capacity bucket stopping) events log s) :
    s.phases.length = max workers 1 ∧ s.counters.activeWorkers = (List.range (max workers 1)).countP fun i =>
      Worker.atWork (life plan i (first plan source workers capacity bucket stopping : State σ π β ν) events) := by
  induction h with
  | start =>
    refine ⟨by rw [phases_first, List.length_replicate], ?_⟩
    exact (List.countP_eq_zero.2 fun i _ => Bool.false_ne_true).symm
  | @next events log t u event hcourse hstep ih =>
    obtain ⟨hlength, hactive⟩ := ih
    have hnext := fun i => life_append (i := i) hcourse.follow_eq hstep
    simp only [hnext]
    have hquiet : (∀ i, actsOf i t u = []) → u.counters = t.counters → u.counters.activeWorkers =
        (List.range (max workers 1)).countP fun i => Worker.atWork (life plan i
          (first plan source workers capacity bucket stopping : State σ π β ν) events ++ actsOf i t u) :=
      fun hacts hcounters => by
        simp only [hacts, List.append_nil]
        rw [hcounters, hactive]
    cases turn_of_step hstep with
    | quiet hworker hquiet' _ =>
      rw [hquiet'.phases]
      exact ⟨hlength, hquiet (fun i => actsOf_of_phases (congrArg (·[i]?) hquiet'.phases)) hquiet'.counters⟩
    | scan hworker hscanned _ =>
      rw [hscanned.phases]
      exact ⟨hlength, hquiet (fun i => actsOf_of_phases (congrArg (·[i]?) hscanned.phases)) hscanned.counters⟩
    | worker i p q hworker hworked _ =>
      rw [hworked.phases, List.length_set]
      refine ⟨hlength, ?_⟩
      have hi : i < t.phases.length := (List.getElem?_eq_some_iff.1 hworked.phase).1
      obtain ⟨d, hmove, -⟩ := hworked.move _ (List.getElem?_eq_getElem ((ledger_of_course hcourse).wired i hi))
      obtain ⟨q', hphases, hcounted⟩ := manned_of_step hstep hworker hworked.phase
      have hq : q = q' := by
        have hsame := congrArg (·[i]?) (hworked.phases.symm.trans hphases)
        simpa [hi] using hsame
      subst hq
      rw [hcounted, hactive]
      refine manned_eq (lives_of_course hcourse i p hworked.phase) hmove ?_ ?_
      · exact (List.countP_le_length.trans_eq List.length_range).trans_lt hworkers
      · rw [← actsOf_of_worked hworked]
        refine countP_update
          (fun i => Worker.atWork (life plan i (first plan source workers capacity bucket stopping) events))
          (fun i =>
            Worker.atWork (life plan i (first plan source workers capacity bucket stopping) events ++ actsOf i t u))
          (hlength ▸ hi) fun j hj => ?_
        have hne : event.worker? ≠ some j := fun hworker' => hj (Option.some.inj (hworker'.symm.trans hworker))
        rw [actsOf_of_ne hstep hne, List.append_nil]

/-- What a worker does in a step follows from how the attempts at its batch ended, and shows in the pool and in its
    queue. -/
structure Shown (plan : Plan σ π) (i : Nat) (s t : State σ π β ν) : Prop where
  verdict : ∀ b ok, .processed b ok ∈ actsOf i s t → ∃ result,
    s.phases[i]? = some (.sending b (.settled result)) ∧ (ok = true ↔ ∃ attempts, result = .accepted attempts)
  pool : t.pool = ((actsOf i s t).filterMap Act.recycled?).foldl (fun pool b => pool.put (Batch.reset b)) s.pool
  queue : .closeQueue ∈ actsOf i s t →
    ∃ c, t.channels[channelIndex plan.dedicated i]? = some c ∧ c.queue.closed = true

omit [Batch β π] [Quantity ν] in
theorem recycled_acts (p q : Worker.Phase β) : (p.acts q).filterMap Act.recycled? = p.returns q := by
  cases p <;> cases q <;> rfl

omit [Quantity ν] in
theorem Worked.shown {i : Nat} {p q : Worker.Phase β} (h : Worked plan event i p q s t)
    (hwired : channelIndex plan.dedicated i < s.channels.length) : Shown plan i s t := by
  have hacts := actsOf_of_worked h
  obtain ⟨d, hmove, hchannels⟩ := h.move _ (List.getElem?_eq_getElem hwired)
  refine ⟨fun b ok hmem => ?_, ?_, fun hmem => ⟨d, by rw [hchannels, List.getElem?_set_self hwired], ?_⟩⟩
  · rw [hacts] at hmem
    cases hmove with
    | @deliver _ b' n =>
      obtain ⟨rfl, rfl⟩ : b = b' ∧ ok = true := by simpa [Worker.Phase.acts] using hmem
      exact ⟨_, h.phase, by simp⟩
    | @giveUp _ b' fault =>
      obtain ⟨rfl, rfl⟩ : b = b' ∧ ok = false := by simpa [Worker.Phase.acts] using hmem
      exact ⟨_, h.phase, by simp⟩
    | _ => simp [Worker.Phase.acts] at hmem
  · rw [hacts, recycled_acts]
    rcases pool_of_worked h with ⟨b, hreturns, hpool⟩ | ⟨hreturns, hpool⟩ <;>
      rw [hreturns, hpool] <;> rfl
  · rw [hacts] at hmem
    cases hmove with
    | close => rfl
    | _ => simp [Worker.Phase.acts] at hmem

theorem ended_of_outcome (h : Course plan (first plan source workers capacity bucket stopping) events log s)
    {result : Except Failure Summary} (hover : outcome s = some result) {i : Nat} (hi : i < s.phases.length) :
    ∃ r, s.phases[i]? = some (.ended r) := by
  unfold outcome at hover
  split at hover
  · next hall =>
    have hjoined := List.all_eq_true.1 (Bool.and_eq_true_iff.1 hall).2 i (List.mem_range.2 (State.length_phases ▸ hi))
    exact (ledger_of_course h).joined i (List.contains_iff_mem.1 hjoined)
  · cases hover

/-- Every worker lives its life in order, however the store answers, whenever a stop comes, and whoever goes first.
    The counter shows at every moment who was let in and has not stopped, and nobody once the run is over. -/
theorem lives_in_order (hworkers : workers < UInt64.size)
    (h : follow plan (first plan source workers capacity bucket stopping) events = some s) :
    let acts := fun i => life plan i (first plan source workers capacity bucket stopping : State σ π β ν) events
    (∀ i p, s.phases[i]? = some p → Orderly (acts i) p) ∧
      s.counters.activeWorkers = (List.range (max workers 1)).countP (fun i => Worker.atWork (acts i)) ∧
      (∀ result, outcome s = some result → (∀ i < max workers 1, ∃ r, s.phases[i]? = some (.ended r)) ∧
        ((∀ i, .crash ∉ acts i) → s.counters.activeWorkers = 0)) ∧
      (∀ event t i, step plan s event = some t → event.worker? = some i → Shown plan i s t) := by
  intro acts
  have hcourse := course_of_follow h
  have hmax : max workers 1 < UInt64.size := max_lt hworkers (by decide)
  obtain ⟨hlength, hactive⟩ := activeWorkers_of_course hmax hcourse
  refine ⟨fun i p hp => (lives_of_course hcourse i p hp).orderly, hactive, fun result hover => ?_,
    fun event t i hstep hworker => ?_⟩
  · have hended := fun i (hi : i < max workers 1) => ended_of_outcome hcourse hover (hlength ▸ hi)
    refine ⟨hended, fun hcrash => ?_⟩
    rw [hactive]
    refine List.countP_eq_zero.2 fun i hi => ?_
    obtain ⟨r, hr⟩ := hended i (List.mem_range.1 hi)
    rw [(lives_of_course hcourse i _ hr).not_atWork (hcrash i)]
    exact Bool.false_ne_true
  · obtain ⟨p, q, hworked⟩ := worked_of_step hstep hworker
    have hi : i < s.phases.length := (List.getElem?_eq_some_iff.1 hworked.phase).1
    exact hworked.shown ((ledger_of_course hcourse).wired i hi)

end

section
open Rehearsal

/-- A worker that sends two numbers, and is done. -/
theorem lives_in_order_two_numbers : 1 < UInt64.size ∧ ∃ s p, follow (singly false) smallStart accepting = some s ∧
    s.phases[0]? = some p ∧ Orderly (life (singly false) 0 smallStart accepting) p ∧
    life (singly false) 0 smallStart accepting = [.init true, .process ⟨[1]⟩, .processed ⟨[1]⟩ true, .recycle ⟨[1]⟩,
      .process ⟨[2]⟩, .processed ⟨[2]⟩ true, .recycle ⟨[2]⟩, .stop, .closeQueue, .close, .closed] := by
  have hrun : (follow (singly false) smallStart accepting).map (·.phases.length) = some 1 := rfl
  obtain ⟨s, hs, hlength⟩ := Option.map_eq_some_iff.1 hrun
  have hp := List.getElem?_eq_getElem (hlength ▸ Nat.one_pos)
  exact ⟨by decide, s, _, hs, hp, (lives_in_order (by decide) hs).1 0 _ hp, rfl⟩

end
end Run
end IngestBench
