import IngestBench.Proofs.Returning
import Mathlib.Logic.Relation

/-! Who waits for whom. A run never gets stuck: whoever has not finished can act, or waits for someone else, and the
    chains of those who wait have no cycles, so that each of them ends at someone who can act. -/

namespace IngestBench

variable {σ π β ν : Type}

@[simp] def Worker.Phase.isActive : Worker.Phase β → Bool
  | .ended _ => false
  | _ => true

theorem Worker.isActive_eq (w : Worker β) : w.isActive = w.phase.isActive := by
  obtain ⟨number, sender, phase, counts, batches⟩ := w
  cases phase <;> rfl

/-- Only three phases come right before the end. -/
theorem Worker.Move.last {sending forced : Bool} {fails : Failure → Prop} {i : Nat} {p : Worker.Phase β}
    {c d : Run.Channel β} {r : Except Failure WorkerReport}
    (h : Worker.Move sending forced fails i p c (.ended r) d) :
    p = .joining ∨ (∃ b, p = .sending b (.settled .overflow)) ∨ ∃ ending backoff, p = .parting ending backoff := by
  cases h with
  | reject _ => exact .inl rfl
  | crash _ => exact .inr (.inl ⟨_, rfl⟩)
  | part _ => exact .inr (.inr ⟨_, _, rfl⟩)

namespace Run

/-! ### Parties -/

/-- Those who act in a run. -/
inductive Party
  | scan
  | worker (i : Nat)
  /-- The observer of a worker's back-off. -/
  | observer (i : Nat)
  deriving DecidableEq

/-- Whether a party has not come to its end. -/
def Unfinished (s : State σ π β ν) : Party → Prop
  | .scan => s.scan.result? = none
  | .worker i => ∃ w, s.workers[i]? = some w ∧ w.isActive = true
  | .observer i => ∃ w tracker, s.workers[i]? = some w ∧ w.sender.tracker = some tracker

/-- What a party can do that waits for no other party. The store answers when it is asked, whatever it says, and the
    clock gets to every point in time. -/
inductive CanAct [Batch β π] [Quantity ν] (plan : Plan σ π) (s : State σ π β ν) : Party → Prop
  | scan : (step plan s .scan).isSome = true → CanAct plan s .scan
  | advance {i : Nat} : (step plan s (.advance i)).isSome = true → CanAct plan s (.worker i)
  | interrupt {i : Nat} : (step plan s (.interrupt i)).isSome = true → CanAct plan s (.worker i)
  | connect {i : Nat} : (∀ result, (step plan s (.connected i result)).isSome = true) → CanAct plan s (.worker i)
  | answer {i : Nat} : (∀ result, (step plan s (.answered i result)).isSome = true) → CanAct plan s (.worker i)
  | disconnect {i : Nat} : (∀ result, (step plan s (.disconnected i result)).isSome = true) →
      CanAct plan s (.worker i)
  /-- The limiter or a pause keeps the worker until a point in time. -/
  | wake {i : Nat} {w : Worker β} {b : β} {a : Retry.Phase} {due : Time} : s.workers[i]? = some w →
      w.phase = .sending b a → Retry.due? a = some due →
      (follow plan s [.pass (max s.now due), .advance i]).isSome = true → CanAct plan s (.worker i)
  | observe {i : Nat} : (step plan s (.observe i)).isSome = true → CanAct plan s (.observer i)

/-- Who cannot go on before another party does. -/
inductive WaitsFor [Batch β π] [Quantity ν] (plan : Plan σ π) (s : State σ π β ν) : Party → Party → Prop
  /-- Who stands in line waits for the first in line. -/
  | turn {i j : Nat} {c : Channel β} : s.channels[channelIndex plan.dedicated i]? = some c → i ∈ c.line →
      c.isFirst j = true → j ≠ i → WaitsFor plan s (.worker i) (.worker j)
  /-- The first in line waits for a batch. -/
  | batch {i : Nat} {c : Channel β} : s.phases[i]? = some .waiting →
      s.channels[channelIndex plan.dedicated i]? = some c → c.isFirst i = true → c.queue.front = .empty →
      WaitsFor plan s (.worker i) .scan
  /-- The scan waits until one of the workers at a full queue makes room. -/
  | room {k i : Nat} {b : β} {c : Channel β} {p : Worker.Phase β} : s.scan.offered = some (k, b) →
      s.channels[Queue.route s.channels.length k]? = some c → c.queue.offer b = .full → s.phases[i]? = some p →
      channelIndex plan.dedicated i = Queue.route s.channels.length k → p.isActive = true →
      WaitsFor plan s .scan (.worker i)
  /-- Reports that are still to be seen stand in the way of a new one, or of the sum. -/
  | report {i : Nat} {w : Worker β} {tracker : Backoff.Tracker} : s.workers[i]? = some w →
      w.phase.inLine = false → step plan s (.advance i) = none → w.sender.tracker = some tracker →
      tracker.reports ≠ [] → WaitsFor plan s (.worker i) (.observer i)
  /-- An observer that has seen all reports waits for the next one. -/
  | news {i : Nat} {w : Worker β} {tracker : Backoff.Tracker} : s.workers[i]? = some w → w.isActive = true →
      w.sender.tracker = some tracker → tracker.reports = [] → WaitsFor plan s (.observer i) (.worker i)

/-! ### Open queues -/

section
variable [Batch β π] [Quantity ν] {plan : Plan σ π} {event : Event} {events : List Event} {log : Log π β}
  {s t : State σ π β ν} {i : Nat}

/-- A queue that still takes batches has a worker that has not ended. -/
def Attended (plan : Plan σ π) (s : State σ π β ν) : Prop :=
  ∀ (k : Nat) (c : Channel β), s.channels[k]? = some c → 0 < c.queue.capacity ∧
    (c.queue.closed = false →
      ∃ i p, s.phases[i]? = some p ∧ channelIndex plan.dedicated i = k ∧ p.isActive = true)

theorem last_phase {r : Except Failure WorkerReport} {c : Channel β} (h : step plan s event = some t)
    (hi : event.worker? = some i) (hc : s.channels[channelIndex plan.dedicated i]? = some c)
    (hr : t.phases[i]? = some (.ended r)) : ∃ w, s.workers[i]? = some w ∧ (w.phase = .joining ∨
      (∃ b, w.phase = .sending b (.settled .overflow)) ∨ ∃ ending backoff, w.phase = .parting ending backoff) := by
  cases turn_of_step h with
  | quiet hnone _ _ | scan hnone _ _ =>
    rw [hi] at hnone
    cases hnone
  | worker j p q hj hworked _ =>
    cases hi.symm.trans hj
    obtain ⟨d, hmove, -⟩ := hworked.move c hc
    have hlt : i < s.phases.length := (List.getElem?_eq_some_iff.1 hworked.phase).1
    rw [hworked.phases, List.getElem?_set_self hlt] at hr
    cases hr
    obtain ⟨w, hw, rfl⟩ := Option.map_eq_some_iff.1 (List.getElem?_map ▸ hworked.phase)
    exact ⟨w, hw, hmove.last⟩

omit [Batch β π] [Quantity ν] in
theorem retire_phases (w : Worker β) : (s.retire plan i w).phases = s.phases.set i w.phase := by
  rw [← State.setWorker_phases]
  simp only [State.retire]
  split <;> rfl

/-- A worker that comes to its end retires. -/
theorem retired_of_step {r : Except Failure WorkerReport} {c : Channel β} (h : step plan s event = some t)
    (hi : event.worker? = some i) (hc : s.channels[channelIndex plan.dedicated i]? = some c)
    (hr : t.phases[i]? = some (.ended r)) : ∃ w : Worker β, w.phase = .ended r ∧ t = s.retire plan i w := by
  obtain ⟨w, hw, hlast⟩ := last_phase h hi hc hr
  have hlt : i < s.phases.length := (List.getElem?_eq_some_iff.1 (State.phases_getElem? hw)).1
  -- A worker that is let in goes on.
  have hbegin : ∀ w', t = s.begin i w' → t = s.retire plan i w' := by
    rintro w' rfl
    have hphases : (s.begin i w').phases = s.phases.set i .choosing := State.setWorker_phases
    rw [hphases, List.getElem?_set_self hlt] at hr
    cases hr
  have hretire : ∀ w', t = s.retire plan i w' → ∃ w : Worker β, w.phase = .ended r ∧ t = s.retire plan i w := by
    rintro w' rfl
    rw [retire_phases, List.getElem?_set_self hlt] at hr
    exact ⟨w', Option.some.inj hr, rfl⟩
  cases event with
  | advance j =>
    cases hi
    simp only [step, hw, bind, Option.bind, State.advanceWorker] at h
    rcases hlast with hp | ⟨b, hp⟩ | ⟨ending, backoff, hp⟩ <;> simp only [hp] at h
    · split at h
      · cases h
      · exact hretire _ (hbegin _ (Option.some.inj h).symm)
    · exact hretire _ (Option.some.inj h).symm
    · split at h
      · cases h
      · exact hretire _ (Option.some.inj h).symm
  | interrupt j =>
    cases hi
    simp only [step, hw, bind, Option.bind, State.interruptWorker] at h
    rcases hlast with hp | ⟨b, hp⟩ | ⟨ending, backoff, hp⟩ <;> simp only [hp] at h <;> cases h
  | connected j result =>
    cases hi
    simp only [step, hw, bind, Option.bind, State.connectWorker] at h
    rcases hlast with hp | ⟨b, hp⟩ | ⟨ending, backoff, hp⟩ <;> simp only [hp] at h
    · split at h
      · cases result with
        | ok u => exact hretire _ (hbegin _ (Option.some.inj h).symm)
        | error failure => exact hretire _ (Option.some.inj h).symm
      · cases h
    · cases h
    · cases h
  | answered j result =>
    cases hi
    simp only [step, hw, bind, Option.bind, State.answerWorker] at h
    rcases hlast with hp | ⟨b, hp⟩ | ⟨ending, backoff, hp⟩ <;> simp only [hp] at h <;> cases h
  | disconnected j result =>
    cases hi
    simp only [step, hw, bind, Option.bind, State.disconnectWorker] at h
    rcases hlast with hp | ⟨b, hp⟩ | ⟨ending, backoff, hp⟩ <;> simp only [hp] at h
    · cases h
    · cases h
    · split at h
      · exact hretire _ (Option.some.inj h).symm
      · cases h
  | _ => cases hi

omit [Batch β π] [Quantity ν] in
/-- The last worker at a queue closes it. -/
theorem attended_retire {w : Worker β} {c d : Channel β} (hc : s.channels[channelIndex plan.dedicated i]? = some c)
    (hd : (s.retire plan i w).channels[channelIndex plan.dedicated i]? = some d) (hclosed : d.queue.closed = false) :
    ∃ j p, (s.retire plan i w).phases[j]? = some p ∧ channelIndex plan.dedicated j = channelIndex plan.dedicated i ∧
      p.isActive = true := by
  by_cases hlast : (plan.dedicated || !(s.setWorker i w).workers.any Worker.isActive) = true
  · -- The queue is closed.
    have hset : (s.retire plan i w).channels =
        s.channels.set (channelIndex plan.dedicated i) { c with queue := c.queue.abandon } := by
      rw [State.retire, if_pos hlast]
      exact State.updateChannel_channels rfl hc _
    rw [hset, List.getElem?_set_self (List.getElem?_eq_some_iff.1 hc).1] at hd
    cases hd
    cases hclosed
  · rw [Bool.or_eq_true, not_or, Bool.not_eq_true, Bool.not_eq_true', Bool.not_eq_false] at hlast
    obtain ⟨v, hv, hactive⟩ := List.any_eq_true.1 hlast.2
    obtain ⟨j, hj⟩ := List.getElem?_of_mem hv
    refine ⟨j, v.phase, ?_, ?_, by rwa [← Worker.isActive_eq]⟩
    · rw [retire_phases, ← State.setWorker_phases]
      exact State.phases_getElem? hj
    · rw [hlast.1]
      rfl

/-- Every step keeps open queues attended. -/
theorem Attended.step (hs : Attended plan s)
    (hwired : ∀ i < s.phases.length, channelIndex plan.dedicated i < s.channels.length)
    (h : step plan s event = some t) : Attended plan t := by
  intro k d hd
  cases turn_of_step h with
  | quiet _ hquiet _ =>
    rw [hquiet.channels] at hd
    rw [hquiet.phases]
    exact hs k d hd
  | scan _ hscanned _ =>
    obtain ⟨c, hc, -, hclosed, hcapacity⟩ := hscanned.channel hd
    rw [hscanned.phases, hclosed, hcapacity]
    exact hs k c hc
  | worker i p q hi hworked _ =>
    have hlt : i < s.phases.length := (List.getElem?_eq_some_iff.1 hworked.phase).1
    obtain ⟨c, hc⟩ : ∃ c, s.channels[channelIndex plan.dedicated i]? = some c :=
      ⟨_, List.getElem?_eq_getElem (hwired i hlt)⟩
    obtain ⟨d', hmove, hchannels⟩ := hworked.move c hc
    have hq : t.phases[i]? = some q := by rw [hworked.phases, List.getElem?_set_self hlt]
    by_cases hk : channelIndex plan.dedicated i = k
    · subst hk
      have hcapacity := hmove.capacity
      have hd' : d' = d := by
        rw [hchannels, List.getElem?_set_self (hwired i hlt)] at hd
        exact Option.some.inj hd
      subst hd'
      refine ⟨hcapacity ▸ (hs _ c hc).1, fun hclosed => ?_⟩
      cases hactive : q.isActive with
      | true => exact ⟨i, q, hq, rfl, hactive⟩
      | false =>
        cases q with
        | ended r =>
          obtain ⟨w, -, rfl⟩ := retired_of_step h hi hc hq
          exact attended_retire hc hd hclosed
        | _ => cases hactive
    · rw [hchannels, List.getElem?_set_ne hk] at hd
      obtain ⟨hcapacity, hopen⟩ := hs k d hd
      refine ⟨hcapacity, fun hclosed => ?_⟩
      obtain ⟨j, r, hr, hj, hactive⟩ := hopen hclosed
      have hij : i ≠ j := fun hij => hk (hij ▸ hj)
      exact ⟨j, r, by rw [hworked.phases, List.getElem?_set_ne hij, hr], hj, hactive⟩

theorem attended_of_course {source : σ} {workers capacity : Nat} {bucket : Option (TokenBucket ν)}
    {stopping : Stopping} (h : Course plan (first plan source workers capacity bucket stopping) events log s) :
    Attended plan s := by
  induction h with
  | start =>
    have hl := ledger_first (β := β) plan source workers capacity bucket stopping
    intro k c hc
    have hk := (List.getElem?_eq_some_iff.1 hc).1
    rw [channels_first] at hc
    cases List.eq_of_mem_replicate (List.mem_of_getElem? hc)
    refine ⟨Nat.le_max_right _ _, fun _ => ?_⟩
    obtain ⟨i, hi, hik⟩ := hl.manned k hk
    rw [phases_first] at hi ⊢
    exact ⟨i, _, List.getElem?_eq_getElem hi, hik, by rw [List.getElem_replicate]; rfl⟩
  | next hcourse hstep ih => exact ih.step (ledger_of_course hcourse).wired hstep

/-! ### Those who can act -/

omit [Batch β π] [Quantity ν] in
/-- A report finds no room only when others wait to be seen. -/
theorem reports_of_tell {e : Retry.Surroundings ν} {backingOff : Bool} (h : e.tell backingOff = none) :
    ∃ tracker, e.tracker = some tracker ∧ tracker.reports ≠ [] := by
  refine by_contra fun hnone => ?_
  have htold := tell_isSome e (fun tracker ht => by_contra fun hne => hnone ⟨tracker, ht, hne⟩) backingOff
  rw [h] at htold
  cases htold

/-- Who waits for the clock can go on once it has moved. -/
theorem canAct_of_due {w : Worker β} {b : β} {a : Retry.Phase} {due : Time} (hw : s.workers[i]? = some w)
    (hp : w.phase = .sending b a) (hdue : Retry.due? a = some due) : CanAct plan s (.worker i) := by
  refine .wake hw hp hdue ?_
  obtain ⟨number, sender, phase, counts, batches⟩ := w
  cases hp
  cases a with
  | throttled n d | sleeping n d =>
    cases hdue
    simp [follow, step, hw, State.advanceWorker, Retry.advance, State.surroundings]
  | _ => cases hdue

/-- A worker that is not in line can act, unless its observer has to see a report first. -/
theorem canAct_or_reports {w : Worker β} (hw : s.workers[i]? = some w) (hactive : w.isActive = true)
    (hline : w.phase.inLine = false) : CanAct plan s (.worker i) ∨ (step plan s (.advance i) = none ∧
      ∃ tracker, w.sender.tracker = some tracker ∧ tracker.reports ≠ []) := by
  cases hstep : step plan s (.advance i) with
  | some t => exact .inl (.advance (by rw [hstep]; rfl))
  | none =>
    have hadvance : s.advanceWorker plan i w = none := by simpa only [step, hw, bind, Option.bind] using hstep
    obtain ⟨number, sender, phase, counts, batches⟩ := w
    cases phase with
    | ended r => cases hactive
    | waiting | leaving ending => cases hline
    | joining =>
      cases hsending : plan.sending with
      | true =>
        refine .inl (.connect fun result => ?_)
        cases result <;> simp [step, hw, State.connectWorker, hsending]
      | false => simp [State.advanceWorker, hsending] at hadvance
    | choosing =>
      simp only [State.advanceWorker] at hadvance
      split at hadvance <;> cases hadvance
    | closing ending =>
      simp only [State.advanceWorker, State.summarize] at hadvance
      cases htracker : sender.tracker with
      | none => simp [htracker] at hadvance
      | some tracker =>
        refine .inr ⟨rfl, tracker, rfl, fun hnil => ?_⟩
        simp [htracker, Backoff.Tracker.finish, hnil] at hadvance
    | parting ending backoff =>
      cases hconnected : sender.connected with
      | true => exact .inl (.disconnect fun result => by simp [step, hw, State.disconnectWorker, hconnected])
      | false => simp [State.advanceWorker, hconnected] at hadvance
    | sending b a =>
      cases a with
      | calling n => exact .inl (.answer fun result => by simp [step, hw, State.answerWorker, Retry.answer])
      | throttled n due | sleeping n due => exact .inl (canAct_of_due hw rfl rfl)
      | telling n | settling result =>
        simp only [State.advanceWorker, Retry.advance, Option.map_eq_none_iff] at hadvance
        exact .inr ⟨rfl, reports_of_tell hadvance⟩
      | charging n | pausing n | settled result => cases hadvance

omit [Quantity ν] in
/-- A scan that has nothing to hand on can go on until its end. -/
theorem advance_isSome {scan : Scan σ π β} (hoffered : scan.offered = none) (hresult : scan.result? = none)
    (stop : Bool) (pool : Pool β) : (scan.advance plan.scan stop pool).isSome = true := by
  obtain ⟨source, slots, stats, phase⟩ := scan
  cases phase with
  | sending k b last => cases hoffered
  | finished fault => cases fault <;> cases hresult
  | opening | deciding | reading | placing point | trading k | flushing k =>
    simp only [Scan.advance]
    repeat' split
    all_goals rfl

theorem scan_canAct_or_waits (hl : Ledger plan events log s) (hopen : Attended plan s)
    (hresult : s.scan.result? = none) :
    CanAct plan s .scan ∨ ∃ i, Unfinished s (.worker i) ∧ WaitsFor plan s .scan (.worker i) := by
  have hscan : (s.scanStep plan).isSome = true → CanAct plan s .scan := .scan
  cases hoffered : s.scan.offered with
  | none =>
    refine .inl (hscan ?_)
    simpa [State.scanStep, hoffered] using advance_isSome hoffered hresult _ s.pool
  | some x =>
    obtain ⟨k, b⟩ := x
    obtain ⟨c, hc⟩ : ∃ c, s.channels[Queue.route s.channels.length k]? = some c :=
      ⟨_, List.getElem?_eq_getElem (Nat.mod_lt _ hl.queues)⟩
    cases hoffer : c.queue.offer b with
    | accepted q => exact .inl (hscan (by simp [State.scanStep, hoffered, hc, hoffer]))
    | refused => exact .inl (hscan (by simp [State.scanStep, hoffered, hc, hoffer]))
    | full =>
      -- A queue that is full still takes batches, so that one of its workers has not ended.
      have hclosed : c.queue.closed = false := by
        simp only [Queue.offer] at hoffer
        split at hoffer
        · cases hoffer
        · next h => simpa using h
      obtain ⟨i, p, hp, hi, hactive⟩ := (hopen _ c hc).2 hclosed
      refine .inr ⟨i, ?_, .room hoffered hc hoffer hp hi hactive⟩
      obtain ⟨w, hw, rfl⟩ := Option.map_eq_some_iff.1 (List.getElem?_map ▸ hp)
      exact ⟨w, hw, by rwa [Worker.isActive_eq]⟩

omit [Batch β π] [Quantity ν] in
theorem unfinished_of_inLine {p : Worker.Phase β} (hp : s.phases[i]? = some p) (hline : p.inLine = true) :
    Unfinished s (.worker i) := by
  obtain ⟨w, hw, rfl⟩ := Option.map_eq_some_iff.1 (List.getElem?_map ▸ hp)
  refine ⟨w, hw, ?_⟩
  rw [Worker.isActive_eq]
  cases h : w.phase with
  | ended r =>
    rw [h] at hline
    cases hline
  | _ => rfl

/-- Who is first in line can act, unless it waits for the scan. -/
theorem first_canAct_or_waits {c : Channel β} {w : Worker β} (hl : Ledger plan events log s)
    (hw : s.workers[i]? = some w) (hline : w.phase.inLine = true)
    (hc : s.channels[channelIndex plan.dedicated i]? = some c) (hfirst : c.isFirst i = true) :
    CanAct plan s (.worker i) ∨ (Unfinished s .scan ∧ WaitsFor plan s (.worker i) .scan) := by
  have hphase : s.phases[i]? = some w.phase := State.phases_getElem? hw
  obtain ⟨number, sender, phase, counts, batches⟩ := w
  cases phase with
  | leaving ending =>
    exact .inl (.advance (by simp [step, hw, State.advanceWorker, State.close, hc, hfirst]))
  | waiting =>
    cases hfront : c.queue.front with
    | item b rest =>
      exact .inl (.advance (by simp [step, hw, State.advanceWorker, State.take, hc, hfirst, hfront]))
    | exhausted =>
      exact .inl (.advance (by simp [step, hw, State.advanceWorker, State.take, hc, hfirst, hfront]))
    | empty =>
      refine .inr ⟨?_, .batch hphase hc hfirst hfront⟩
      have hended : c.queue.ended = false := by
        simp only [Queue.front] at hfront
        split at hfront
        · cases hfront
        · split at hfront
          · cases hfront
          · next h => simpa using fun hended : c.queue.ended = true => h (by simp [hended])
      have hover : s.scan.result?.isSome = false := (hl.flow _ _ hc).ended.symm.trans hended
      exact Option.not_isSome_iff_eq_none.1 (by rw [hover]; exact Bool.false_ne_true)
  | _ => cases hline

theorem worker_canAct_or_waits {w : Worker β} (hl : Ledger plan events log s) (hlined : Lined plan s)
    (hw : s.workers[i]? = some w) (hactive : w.isActive = true) :
    CanAct plan s (.worker i) ∨ ∃ other, Unfinished s other ∧ WaitsFor plan s (.worker i) other := by
  cases hline : w.phase.inLine with
  | false =>
    refine (canAct_or_reports hw hactive hline).imp id fun ⟨hnone, tracker, htracker, hreports⟩ => ?_
    exact ⟨.observer i, ⟨w, tracker, hw, htracker⟩, .report hw hline hnone htracker hreports⟩
  | true =>
    have hphase : s.phases[i]? = some w.phase := State.phases_getElem? hw
    have hi : i < s.phases.length := (List.getElem?_eq_some_iff.1 hphase).1
    obtain ⟨c, hc⟩ : ∃ c, s.channels[channelIndex plan.dedicated i]? = some c :=
      ⟨_, List.getElem?_eq_getElem (hl.wired i hi)⟩
    have hmem : i ∈ c.line := (hlined _ c hc i).2 ⟨rfl, w.phase, hphase, hline⟩
    obtain ⟨j, rest, hcline⟩ := List.exists_cons_of_ne_nil (List.ne_nil_of_mem hmem)
    have hfirst : c.isFirst j = true := by simp [Channel.isFirst, hcline]
    by_cases hj : j = i
    · subst hj
      exact (first_canAct_or_waits hl hw hline hc hfirst).imp id fun h => ⟨.scan, h⟩
    · obtain ⟨-, p, hp, hpline⟩ := (hlined _ c hc j).1 (hcline ▸ List.mem_cons_self)
      exact .inr ⟨.worker j, unfinished_of_inLine hp hpline, .turn hc hmem hfirst hj⟩

theorem observer_canAct_or_waits {w : Worker β} {tracker : Backoff.Tracker} (hw : s.workers[i]? = some w)
    (htracker : w.sender.tracker = some tracker) :
    CanAct plan s (.observer i) ∨ (Unfinished s (.worker i) ∧ WaitsFor plan s (.observer i) (.worker i)) := by
  obtain ⟨observer, reports⟩ := tracker
  cases reports with
  | cons report rest =>
    exact .inl (.observe (by simp [step, hw, State.observeWorker, htracker, Backoff.Tracker.see]))
  | nil =>
    cases hactive : w.isActive with
    | true => exact .inr ⟨⟨w, hw, hactive⟩, .news hw hactive htracker rfl⟩
    | false =>
      exact .inl (.observe (by simp [step, hw, State.observeWorker, htracker, Backoff.Tracker.see, hactive]))

/-- Who has not finished can act, or waits for someone who has not finished either. -/
theorem canAct_or_waits {party : Party} (hl : Ledger plan events log s) (hlined : Lined plan s)
    (hopen : Attended plan s) (h : Unfinished s party) :
    CanAct plan s party ∨ ∃ other, Unfinished s other ∧ WaitsFor plan s party other := by
  cases party with
  | scan => exact (scan_canAct_or_waits hl hopen h).imp id fun ⟨i, h⟩ => ⟨.worker i, h⟩
  | worker i =>
    obtain ⟨w, hw, hactive⟩ := h
    exact worker_canAct_or_waits hl hlined hw hactive
  | observer i =>
    obtain ⟨w, tracker, hw, htracker⟩ := h
    exact (observer_canAct_or_waits hw htracker).imp id fun h => ⟨.worker i, h⟩

/-! ### No cycles -/

omit [Batch β π] [Quantity ν] in
/-- How far a worker is from a batch: who stands in line comes after who does not, the first in line before the
    others, and all of them wait longer when the queue is empty. -/
def distance (plan : Plan σ π) (s : State σ π β ν) (i : Nat) : Nat :=
  (s.channels[channelIndex plan.dedicated i]?).elim 0 fun c =>
    (if c.isFirst i then 1 else if i ∈ c.line then 2 else 0) + if c.queue.items.isEmpty then 4 else 0

omit [Batch β π] [Quantity ν] in
/-- The reports of a worker that its observer has not seen. -/
def unseen (s : State σ π β ν) (i : Nat) : List (Bool × Time) :=
  ((s.workers[i]?).bind (·.sender.tracker)).elim [] (·.reports)

/-- A rank for each party; who waits for another has the higher one. -/
def rank (plan : Plan σ π) (s : State σ π β ν) : Party → Nat
  | .scan => 4
  | .worker i => distance plan s i + 1
  | .observer i => if (unseen s i).isEmpty then 8 else 0

omit [Batch β π] [Quantity ν] in
theorem distance_le : distance plan s i ≤ 6 := by
  unfold distance
  cases s.channels[channelIndex plan.dedicated i]? with
  | none => exact Nat.zero_le _
  | some c =>
    simp only [Option.elim_some]
    repeat' split
    all_goals omega

theorem WaitsFor.rank_lt {party other : Party} (hlined : Lined plan s) (hopen : Attended plan s)
    (h : WaitsFor plan s party other) : rank plan s other < rank plan s party := by
  cases h with
  | @turn i j c hc hmem hfirst hne =>
    have hj : j ∈ c.line := List.mem_of_head? (by simpa [Channel.isFirst] using hfirst)
    have hsame : channelIndex plan.dedicated j = channelIndex plan.dedicated i := ((hlined _ c hc j).1 hj).1
    have hbehind : c.isFirst i = false := by
      simp only [Channel.isFirst, beq_iff_eq, Bool.eq_false_iff] at hfirst ⊢
      rw [hfirst]
      exact fun h => hne (Option.some.inj (by simpa using h))
    simp [rank, distance, hsame, hc, hfirst, hbehind, hmem]
  | batch hp hc hfirst hfront =>
    have hitems : ∀ q : Queue β, q.front = .empty → q.items = [] := fun q h => by
      obtain ⟨items, capacity, closed, ended⟩ := q
      cases items with
      | nil => rfl
      | cons b rest => cases h
    simp [rank, distance, hc, hfirst, hitems _ hfront]
  | @room k i b c p hoffered hc hoffer hp hi hactive =>
    have hfull : c.queue.items ≠ [] := fun hnil => by
      simp only [Queue.offer, hnil, List.length_nil, (hopen _ c hc).1, if_true] at hoffer
      split at hoffer <;> cases hoffer
    have hless : (if c.isFirst i then 1 else if i ∈ c.line then 2 else 0) ≤ 2 := by
      repeat' split
      all_goals omega
    simp [rank, distance, hi, hc, hfull]
    omega
  | report hw _ _ htracker hreports => simp [rank, unseen, hw, htracker, hreports]
  | @news i w tracker hw hactive htracker hreports =>
    have hle : distance plan s i ≤ 6 := distance_le
    simp [rank, unseen, hw, htracker, hreports]
    omega

/-- All chains of those who wait end at someone who can act. -/
theorem exists_canAct {party : Party} (hl : Ledger plan events log s) (hlined : Lined plan s)
    (hopen : Attended plan s) (h : Unfinished s party) :
    ∃ other, Relation.ReflTransGen (WaitsFor plan s) party other ∧ CanAct plan s other := by
  induction hrank : rank plan s party using Nat.strong_induction_on generalizing party with
  | _ n ih =>
    subst hrank
    rcases canAct_or_waits hl hlined hopen h with hact | ⟨other, hother, hwaits⟩
    · exact ⟨party, .refl, hact⟩
    · obtain ⟨last, hchain, hact⟩ := ih _ (hwaits.rank_lt hlined hopen) hother rfl
      exact ⟨last, hchain.head hwaits, hact⟩

/-- No one waits for itself, not even through others. -/
theorem not_waits_self (hlined : Lined plan s) (hopen : Attended plan s) (party : Party) :
    ¬Relation.TransGen (WaitsFor plan s) party party := by
  have hlt : ∀ other, Relation.TransGen (WaitsFor plan s) party other → rank plan s other < rank plan s party := by
    intro other h
    induction h with
    | single h => exact h.rank_lt hlined hopen
    | tail _ h ih => exact (h.rank_lt hlined hopen).trans ih
  exact fun h => Nat.lt_irrefl _ (hlt party h)

/-- A run does not get stuck. As long as the scan or a worker has not finished, someone can act; whoever has not
    finished can act, or waits, directly or through others, for someone who can; and there are no cycles. -/
theorem run_never_stuck {source : σ} {workers capacity : Nat} {bucket : Option (TokenBucket ν)}
    {stopping : Stopping} (h : Reachable plan (first plan source workers capacity bucket stopping) s) :
    (s.scan.result? = none ∨ (∃ w ∈ s.workers, w.isActive = true) → ∃ party, CanAct plan s party) ∧
      (∀ party, Unfinished s party →
        ∃ other, Relation.ReflTransGen (WaitsFor plan s) party other ∧ CanAct plan s other) ∧
      ∀ party, ¬Relation.TransGen (WaitsFor plan s) party party := by
  obtain ⟨events, hfollow⟩ := h.exists_follow
  have hcourse := course_of_follow hfollow
  have hl := ledger_of_course hcourse
  have hlined := lined_of_course hcourse
  have hopen := attended_of_course hcourse
  refine ⟨fun hgoing => ?_, fun party => exists_canAct hl hlined hopen, not_waits_self hlined hopen⟩
  have hunfinished : ∃ party, Unfinished s party := by
    rcases hgoing with hresult | ⟨w, hw, hactive⟩
    · exact ⟨.scan, hresult⟩
    · obtain ⟨i, hi⟩ := List.getElem?_of_mem hw
      exact ⟨.worker i, w, hi, hactive⟩
  obtain ⟨party, hparty⟩ := hunfinished
  obtain ⟨other, -, hact⟩ := exists_canAct hl hlined hopen hparty
  exact ⟨other, hact⟩

end

/-! ### A small run with two workers -/

section
open Rehearsal

/-- Two workers share a queue with room for one number. -/
def crowdedStart : State (Feed (Nat × Int)) (Nat × Int) Numbers Float :=
  first (singly false) twoNumbers 2 1 none .none

/-- One worker takes the first number and fails; it has to close the queue while the other waits in front of it. -/
def failingBehind : List Event :=
  [.connected 0 (.ok ()), .connected 1 (.ok ())] ++ List.replicate 7 .scan ++
    [.advance 1, .advance 1, .advance 1, .advance 0, .answered 1 (.error (.io "gone")), .advance 1, .advance 1]

/-- The failed worker waits for the other one, and so, in the end, for the scan. -/
theorem run_never_stuck_two_workers : ∃ s, follow (singly false) crowdedStart failingBehind = some s ∧
    s.phases[1]? = some (.leaving (.failed (.io "gone"))) ∧ WaitsFor (singly false) s (.worker 1) (.worker 0) ∧
    ∃ other, Relation.ReflTransGen (WaitsFor (singly false) s) (.worker 1) other ∧ CanAct (singly false) s other := by
  have hrun : (follow (singly false) crowdedStart failingBehind).map
      (fun s => (s.phases[1]?, s.channels.map (·.line))) =
        some (some (.leaving (.failed (.io "gone"))), [[0, 1]]) := rfl
  obtain ⟨s, hs, hstate⟩ := Option.map_eq_some_iff.1 hrun
  have hphase : s.phases[1]? = some (.leaving (.failed (.io "gone"))) := congrArg (·.1) hstate
  have hlines : s.channels.map (·.line) = [[0, 1]] := congrArg (·.2) hstate
  obtain ⟨c, hc, hline⟩ : ∃ c, s.channels[0]? = some c ∧ c.line = [0, 1] :=
    Option.map_eq_some_iff.1 (by rw [← List.getElem?_map, hlines]; rfl)
  obtain ⟨-, hchain, -⟩ := run_never_stuck (course_of_follow hs).reachable
  refine ⟨s, hs, hphase, ?_, hchain _ (unfinished_of_inLine hphase rfl)⟩
  exact .turn hc (by simp [hline]) (by simp [Channel.isFirst, hline]) nofun

end

end Run
end IngestBench
