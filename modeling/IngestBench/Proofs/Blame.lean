import IngestBench.Proofs.Conservation

/-! Who is to blame for a run that fails. A fault that the scan meets is what the run returns, whatever the workers do;
    if it meets none, the run returns the failure of the first worker whose failure was noticed, and this failure is
    one that the store gave the worker. -/

namespace IngestBench

variable {σ π β ν : Type}

/-! ### Faults of the scan -/

namespace Scan

variable [Batch β π] {plan : Plan σ π} {scan next : Scan σ π β} {fault : Failure} {stop : Bool} {pool pool' : Pool β}

/-- The fault that the next move of a scan meets: the source cannot be read, a point does not fit in a batch, or there
    is no such partition. -/
def faultAhead? (plan : Plan σ π) (scan : Scan σ π β) : Option Failure :=
  match scan.phase with
  | .reading =>
    match (plan.read scan.source).1 with
    | .error fault => some fault
    | .ok _ => none
  | .placing point =>
    if plan.partition point < plan.slotCount then
      match place point (plan.partition point) scan.slots with
      | .error fault => some fault
      | .ok _ => none
    else some (.internal (.partition (plan.partition point) plan.slotCount))
  | _ => none

/-- A scan ends with a fault if its last move meets this fault. -/
theorem result_eq_error_iff (h : scan.advance plan stop pool = some (next, pool')) :
    next.result? = some (.error fault) ↔ scan.faultAhead? plan = some fault := by
  obtain ⟨source, slots, stats, phase⟩ := scan
  cases phase with
  | reading =>
    simp only [advance, faultAhead?] at h ⊢
    split at h <;> cases h <;> rename_i hread <;> simp [hread, result?, finish]
  | placing point =>
    by_cases hpartition : plan.partition point < plan.slotCount
    · cases hplace : place point (plan.partition point) slots with
      | error fault' =>
        simp only [advance, faultAhead?, if_pos hpartition, hplace] at h ⊢
        cases h
        simp [result?, finish]
      | ok slots' =>
        simp only [advance, faultAhead?, if_pos hpartition, hplace] at h ⊢
        cases h
        by_cases hfull : plan.fullSize ≤ rowsAt slots' (plan.partition point) <;> simp [hfull, result?]
    · simp only [advance, faultAhead?, if_neg hpartition] at h ⊢
      cases h
      simp [result?, finish]
  | opening =>
    simp only [advance] at h
    split at h <;> cases h <;> simp [faultAhead?, result?]
  | deciding =>
    simp only [advance] at h
    split at h
    · cases h
      simp [faultAhead?, result?]
    · split at h <;> cases h <;> simp [faultAhead?, result?]
  | trading partition =>
    simp only [advance] at h
    split at h <;> cases h <;> simp [faultAhead?, result?]
  | flushing partition =>
    simp only [advance] at h
    split at h
    · cases h
      simp [faultAhead?, result?, finish]
    · split at h <;> cases h <;> simp [faultAhead?, result?]
  | sending partition batch flushing => cases h
  | finished fault' => cases h

end Scan

namespace Run

section
variable [Batch β π] {plan : Plan σ π} {s t : State σ π β ν} {fault : Failure}

theorem result_of_scanned (h : Scanned plan s t) : s.scan.result? = none := by
  cases h with
  | moved scan pool hoffered hadvance _ => exact result_of_advance hadvance
  | handed k b c hoffered _ _ _ | turnedAway k b c hoffered _ _ _ =>
    obtain ⟨-, -, hresult⟩ := offered_eq_some hoffered
    exact hresult

theorem faultAhead_of_offered {scan : Scan σ π β} {k : Nat} {b : β} (h : scan.offered = some (k, b)) :
    scan.faultAhead? plan.scan = none := by
  obtain ⟨last, hphase, -⟩ := offered_eq_some h
  rw [Scan.faultAhead?, hphase]

theorem result_eq_error_iff_of_scanned (h : Scanned plan s t) :
    t.scan.result? = some (.error fault) ↔ s.scan.faultAhead? plan.scan = some fault := by
  cases h with
  | moved scan pool hoffered hadvance ht =>
    rw [ht, State.setScan_scan]
    exact Scan.result_eq_error_iff hadvance
  | handed k b c hoffered _ _ ht =>
    obtain ⟨last, hphase, -⟩ := offered_eq_some hoffered
    rw [ht, State.setScan_scan, faultAhead_of_offered hoffered, Scan.sent, hphase]
    cases last <;> simp [Scan.result?]
  | turnedAway k b c hoffered _ _ ht =>
    rw [ht, State.setScan_scan, faultAhead_of_offered hoffered]
    simp [Scan.turnedAway, Scan.finish, Scan.result?]

end

section
variable [Batch β π] [Quantity ν] {plan : Plan σ π} {start s t : State σ π β ν} {events : List Event} {event : Event}
  {log : Log π β} {fault : Failure}

theorem scan_of_step (h : step plan s event = some t) (hscan : event ≠ .scan) : t.scan = s.scan := by
  cases hworker : event.worker? with
  | none => exact (quiet_of_step h hworker hscan).1.scan
  | some i =>
    obtain ⟨p, q, hworked⟩ := worked_of_step h hworker
    exact hworked.scan

/-- In some course of events, the scan meets a fault. -/
def Met (plan : Plan σ π) (start : State σ π β ν) (events : List Event) (fault : Failure) : Prop :=
  ∃ before after s, events = before ++ .scan :: after ∧ follow plan start before = some s ∧
    s.scan.faultAhead? plan.scan = some fault

theorem met_append_singleton : Met plan start (events ++ [event]) fault ↔ Met plan start events fault ∨
    event = .scan ∧ ∃ s, follow plan start events = some s ∧ s.scan.faultAhead? plan.scan = some fault := by
  constructor
  · rintro ⟨before, after, s, hevents, hs, hfault⟩
    rcases List.eq_nil_or_concat after with rfl | ⟨after, last, rfl⟩
    · obtain ⟨rfl, hlast⟩ := List.append_inj' hevents rfl
      obtain rfl := (List.cons.inj hlast).1
      exact .inr ⟨rfl, s, hs, hfault⟩
    · rw [List.concat_eq_append, ← List.cons_append, ← List.append_assoc] at hevents
      obtain ⟨rfl, -⟩ := List.append_inj' hevents rfl
      exact .inl ⟨before, after, s, rfl, hs, hfault⟩
  · rintro (⟨before, after, s, rfl, hs, hfault⟩ | ⟨rfl, s, hs, hfault⟩)
    · exact ⟨before, after ++ [event], s, by simp, hs, hfault⟩
    · exact ⟨events, [], s, rfl, hs, hfault⟩

/-- The scan has ended with a fault exactly if it met this fault. -/
theorem result_eq_error_iff_met (hstart : start.scan.result? = none) (h : Course plan start events log s) :
    s.scan.result? = some (.error fault) ↔ Met plan start events fault := by
  induction h with
  | start =>
    rw [hstart]
    refine iff_of_false (by rintro ⟨⟩) ?_
    rintro ⟨before, after, t, hevents, -⟩
    simp at hevents
  | @next events log t u event hcourse hstep ih =>
    rw [met_append_singleton, ← ih]
    by_cases hscan : event = .scan
    · subst hscan
      have hscanned : Scanned plan t u := scanned_of_scanStep hstep
      rw [result_eq_error_iff_of_scanned hscanned, result_of_scanned hscanned]
      constructor
      · intro hfault
        exact .inr ⟨rfl, t, hcourse.follow_eq, hfault⟩
      · rintro (⟨⟨⟩⟩ | ⟨-, t', ht', hfault⟩)
        rw [hcourse.follow_eq] at ht'
        cases ht'
        exact hfault
    · rw [scan_of_step hstep hscan]
      exact ⟨.inl, fun h => h.resolve_right fun h => hscan h.1⟩

end

/-! ### Failures of workers -/

/-- The store gave a worker a failure: it turned the worker away, refused a batch, asked for a pause once too often,
    or did not close the connection. -/
inductive Caused (events : List Event) (i : Nat) : Failure → Prop
  | rejected {cause : Failure} : .connected i (.error cause) ∈ events → Caused events i cause
  | refused {cause : Failure} : .answered i (.error cause) ∈ events → Caused events i cause
  | exhausted {attempts : Nat} : .answered i (.error .backpressure) ∈ events →
      Caused events i (.gaveUp attempts .backpressure)
  | unparted {cause : Failure} : .disconnected i (.error cause) ∈ events → Caused events i cause

theorem Caused.mono {events more : List Event} {i : Nat} {cause : Failure} (h : Caused events i cause)
    (hsub : ∀ event ∈ events, event ∈ more) : Caused more i cause := by
  cases h with
  | rejected h => exact .rejected (hsub _ h)
  | refused h => exact .refused (hsub _ h)
  | exhausted h => exact .exhausted (hsub _ h)
  | unparted h => exact .unparted (hsub _ h)

end Run

/-- A refusal has a cause, unless a forced stop is all there is to it. -/
def Retry.Phase.Explained (caused : Failure → Prop) : Phase → Prop
  | .settling (.refused fault) | .settled (.refused fault) => fault.isCancelled = true ∨ caused fault.toFailure
  | _ => True

theorem Retry.Move.explained {caused fails : Failure → Prop} {forced : Bool} {a a' : Retry.Phase}
    (h : Retry.Move forced fails a a') (ha : a.Explained caused) (hfails : ∀ f, fails f → caused f)
    (hgaveUp : fails .backpressure → ∀ n, caused (.gaveUp n .backpressure)) : a'.Explained caused := by
  cases h with
  | refuse hf => exact .inr (hfails _ hf)
  | @exhaust n f hf hretryable =>
    obtain rfl : f = .backpressure := by
      cases f with
      | backpressure => rfl
      | _ => cases hretryable
    exact .inr (hgaveUp hf n)
  | cancel | cutShort => exact .inl rfl
  | @settle result =>
    cases result with
    | refused fault => exact ha
    | _ => trivial
  | _ => trivial

/-- A failure that the worker takes along, or ends with, has a cause. -/
def Worker.Phase.Explained (caused : Failure → Prop) (i : Nat) : Phase β → Prop
  | .sending _ attempts => attempts.Explained caused
  | .leaving (.failed failure) | .closing (.failed failure) | .parting (.failed failure) _ => caused failure
  | .ended (.error failure) =>
    (∃ text, failure = .internal (.crashed text)) ∨ ∃ cause, caused cause ∧ failure = cause.inWorker i
  | _ => True

/-- A worker knows its number, has a connection only where batches are sent, and its failures have causes. -/
structure Worker.Sound (sending : Bool) (caused : Failure → Prop) (i : Nat) (w : Worker β) : Prop where
  number : w.number = i
  connected : w.sender.connected = true → sending = true
  phase : w.phase.Explained caused i

theorem Retry.Phase.Explained.mono {caused caused' : Failure → Prop} {a : Retry.Phase} (ha : a.Explained caused)
    (h : ∀ f, caused f → caused' f) : a.Explained caused' := by
  cases a with
  | settling result | settled result =>
    cases result with
    | refused fault => exact ha.imp_right (h _)
    | _ => trivial
  | _ => trivial

theorem Worker.Sound.mono {sending : Bool} {caused caused' : Failure → Prop} {i : Nat} {w : Worker β}
    (hw : w.Sound sending caused i) (h : ∀ f, caused f → caused' f) : w.Sound sending caused' i := by
  obtain ⟨number, sender, phase, counts, batches⟩ := w
  obtain ⟨hnumber, hconnected, hphase⟩ := hw
  refine ⟨hnumber, hconnected, ?_⟩
  cases phase with
  | sending b a => exact Retry.Phase.Explained.mono hphase h
  | leaving ending | closing ending | parting ending backoff =>
    cases ending with
    | failed failure => exact h _ hphase
    | _ => trivial
  | ended result =>
    cases result with
    | ok report => trivial
    | error failure => exact hphase.imp_right fun ⟨cause, hcause, heq⟩ => ⟨cause, h _ hcause, heq⟩
  | _ => trivial

namespace Run

/-- A worker is replaced by what becomes of it, while the end of the scan stays noticed or not. -/
structure Replaced (s t : State σ π β ν) (i : Nat) (w : Worker β) : Prop where
  workers : t.workers = s.workers.set i w
  scanJoined : t.scanJoined = s.scanJoined

section
variable {caused : Failure → Prop} {plan : Plan σ π} {s t : State σ π β ν} {i : Nat} {w : Worker β}

theorem replaced_retire (w : Worker β) : Replaced s (s.retire plan i w) i w := by
  simp only [State.retire]
  split <;> exact ⟨rfl, rfl⟩

theorem sound_finish {ending : Ending} {backoff : BackoffSummary} {closed : Except Failure Unit}
    (hw : w.Sound plan.sending caused i) (hphase : w.phase = .parting ending backoff)
    (hclosed : ∀ f, closed = .error f → caused f) : (w.finish ending backoff closed).Sound plan.sending caused i := by
  obtain ⟨hnumber, -, hexplained⟩ := hw
  rw [hphase] at hexplained
  refine ⟨hnumber, by rintro ⟨⟩, ?_⟩
  cases ending with
  | failed failure => exact .inr ⟨failure, hexplained, by rw [hnumber]⟩
  | drained | stopped =>
    cases closed with
    | ok u => trivial
    | error f => exact .inr ⟨f, hclosed f rfl, by rw [hnumber]⟩

theorem sound_settle [Batch β π] {b : β} {result : Retry.Result} (hnumber : w.number = i)
    (hconnected : w.sender.connected = true → plan.sending = true)
    (ha : (Retry.Phase.settled result).Explained caused) :
    ∃ w', Replaced s (s.settle plan i w b result) i w' ∧ w'.Sound plan.sending caused i := by
  cases result with
  | accepted n => exact ⟨_, ⟨rfl, rfl⟩, hnumber, hconnected, trivial⟩
  | overflow => exact ⟨_, replaced_retire _, hnumber, hconnected, .inl ⟨_, rfl⟩⟩
  | refused fault =>
    refine ⟨_, ⟨rfl, rfl⟩, hnumber, hconnected, ?_⟩
    by_cases hcancelled : fault.toFailure.isCancelled = true
    · simp only [hcancelled, if_true]
      trivial
    · simp only [hcancelled]
      rcases ha with hfault | hcaused
      · cases fault <;> first | exact absurd rfl hcancelled | cases hfault
      · exact hcaused

theorem sound_of_advance [Batch β π] [Quantity ν] (h : s.advanceWorker plan i w = some t)
    (hw : w.Sound plan.sending caused i) : ∃ w', Replaced s t i w' ∧ w'.Sound plan.sending caused i := by
  obtain ⟨number, sender, phase, counts, batches⟩ := w
  obtain ⟨hnumber, hconnected, hphase⟩ := hw
  cases phase with
  | joining =>
    simp only [State.advanceWorker] at h
    split at h
    · cases h
    · cases h
      exact ⟨_, ⟨rfl, rfl⟩, hnumber, hconnected, trivial⟩
  | choosing =>
    simp only [State.advanceWorker] at h
    split at h <;> cases h <;> exact ⟨_, ⟨rfl, rfl⟩, hnumber, hconnected, trivial⟩
  | waiting =>
    simp only [State.advanceWorker, State.take, bind, Option.bind_eq_some_iff] at h
    obtain ⟨c, -, h⟩ := h
    split at h
    · split at h
      · cases h
        refine ⟨_, ⟨rfl, rfl⟩, hnumber, hconnected, ?_⟩
        simp only [Worker.Phase.Explained]
        split <;> trivial
      · cases h
      · cases h
        exact ⟨_, ⟨rfl, rfl⟩, hnumber, hconnected, trivial⟩
    · cases h
  | sending b a =>
    cases a with
    | settled result =>
      cases h
      exact sound_settle hnumber (by cases result <;> exact hconnected) hphase
    | _ =>
      simp only [State.advanceWorker, Option.map_eq_some_iff] at h
      obtain ⟨⟨a', e⟩, hx, rfl⟩ := h
      have hmove : Retry.Move _ (fun _ => False) _ a' := Retry.move_of_advance hx
      exact ⟨_, ⟨rfl, rfl⟩, hnumber, hconnected, hmove.explained hphase (by rintro _ ⟨⟩) (by rintro ⟨⟩)⟩
  | leaving ending =>
    simp only [State.advanceWorker, State.close, bind, Option.bind_eq_some_iff] at h
    obtain ⟨c, -, h⟩ := h
    split at h
    · cases h
      refine ⟨_, ⟨rfl, rfl⟩, hnumber, hconnected, ?_⟩
      cases ending <;> exact hphase
    · cases h
  | closing ending =>
    simp only [State.advanceWorker, State.summarize] at h
    split at h
    · cases h
      refine ⟨_, ⟨rfl, rfl⟩, hnumber, hconnected, ?_⟩
      cases ending <;> exact hphase
    · simp only [Option.map_eq_some_iff] at h
      obtain ⟨x, -, rfl⟩ := h
      refine ⟨_, ⟨rfl, rfl⟩, hnumber, hconnected, ?_⟩
      cases ending <;> exact hphase
  | parting ending backoff =>
    simp only [State.advanceWorker] at h
    split at h
    · cases h
    · cases h
      exact ⟨_, replaced_retire _, sound_finish ⟨hnumber, hconnected, hphase⟩ rfl (by rintro _ ⟨⟩)⟩
  | ended r => cases h

theorem sound_of_interrupt (h : s.interruptWorker plan i w = some t) (hw : w.Sound plan.sending caused i) :
    ∃ w', Replaced s t i w' ∧ w'.Sound plan.sending caused i := by
  obtain ⟨number, sender, phase, counts, batches⟩ := w
  obtain ⟨hnumber, hconnected, hphase⟩ := hw
  cases phase with
  | waiting =>
    simp only [State.interruptWorker] at h
    split at h
    · cases h
      exact ⟨_, ⟨rfl, rfl⟩, hnumber, hconnected, trivial⟩
    · cases h
  | sending b a =>
    simp only [State.interruptWorker, Option.map_eq_some_iff] at h
    obtain ⟨a', ha, rfl⟩ := h
    have hmove : Retry.Move _ (fun _ => False) a a' := Retry.move_of_interrupt ha
    exact ⟨_, ⟨rfl, rfl⟩, hnumber, hconnected, hmove.explained hphase (by rintro _ ⟨⟩) (by rintro ⟨⟩)⟩
  | _ => cases h

theorem sound_of_connect {result : Except Failure Unit} (h : s.connectWorker plan i w result = some t)
    (hw : w.Sound plan.sending caused i) (hresult : ∀ f, result = .error f → caused f) :
    ∃ w', Replaced s t i w' ∧ w'.Sound plan.sending caused i := by
  obtain ⟨number, sender, phase, counts, batches⟩ := w
  obtain ⟨hnumber, hconnected, hphase⟩ := hw
  cases phase with
  | joining =>
    simp only [State.connectWorker] at h
    split at h
    · rename_i hsending
      cases result with
      | ok u =>
        cases h
        exact ⟨_, ⟨rfl, rfl⟩, hnumber, fun _ => hsending, trivial⟩
      | error f =>
        cases h
        exact ⟨_, replaced_retire _, hnumber, hconnected, .inr ⟨f, hresult f rfl, congrArg (Failure.inWorker · f) hnumber⟩⟩
    · cases h
  | _ => cases h

theorem sound_of_answer {result : Except Failure Unit} (h : s.answerWorker plan i w result = some t)
    (hw : w.Sound plan.sending caused i) (hresult : ∀ f, result = .error f → caused f)
    (hgaveUp : result = .error .backpressure → ∀ n, caused (.gaveUp n .backpressure)) :
    ∃ w', Replaced s t i w' ∧ w'.Sound plan.sending caused i := by
  obtain ⟨number, sender, phase, counts, batches⟩ := w
  obtain ⟨hnumber, hconnected, hphase⟩ := hw
  cases phase with
  | sending b a =>
    simp only [State.answerWorker, Option.map_eq_some_iff] at h
    obtain ⟨a', ha, rfl⟩ := h
    have hmove : Retry.Move false (fun f => result = .error f) a a' := Retry.move_of_answer ha
    exact ⟨_, ⟨rfl, rfl⟩, hnumber, hconnected, hmove.explained hphase hresult hgaveUp⟩
  | _ => cases h

theorem sound_of_disconnect {result : Except Failure Unit} (h : s.disconnectWorker plan i w result = some t)
    (hw : w.Sound plan.sending caused i) (hresult : ∀ f, result = .error f → caused f) :
    ∃ w', Replaced s t i w' ∧ w'.Sound plan.sending caused i := by
  obtain ⟨number, sender, phase, counts, batches⟩ := w
  cases phase with
  | parting ending backoff =>
    simp only [State.disconnectWorker] at h
    split at h
    · cases h
      exact ⟨_, replaced_retire _, sound_finish hw rfl hresult⟩
    · cases h
  | _ => cases h

end

/-! ### Runs -/

/-- All workers are sound, and no end of the scan is noticed before it ends. -/
structure Explained (sending : Bool) (events : List Event) (s : State σ π β ν) : Prop where
  workers : ∀ (i : Nat) (w : Worker β), s.workers[i]? = some w → w.Sound sending (Caused events i) i
  scan : s.scanJoined = true → s.scan.result?.isSome = true

section
variable [Batch β π] [Quantity ν] {plan : Plan σ π} {s t : State σ π β ν} {events : List Event} {event : Event}
  {log : Log π β} {source : σ} {workers capacity : Nat} {bucket : Option (TokenBucket ν)} {stopping : Stopping}

omit [Batch β π] [Quantity ν] in
theorem Explained.mono (hs : Explained plan.sending events s) (i : Nat) (w : Worker β) (hw : s.workers[i]? = some w) :
    w.Sound plan.sending (Caused (events ++ [event]) i) i :=
  (hs.workers i w hw).mono fun _ hcause => hcause.mono fun _ => List.mem_append_left _

omit [Batch β π] [Quantity ν] in
theorem Explained.replaced (hs : Explained plan.sending events s) {i : Nat} {w : Worker β} (h : Replaced s t i w)
    (hscan : t.scan = s.scan) (hw : w.Sound plan.sending (Caused (events ++ [event]) i) i) :
    Explained plan.sending (events ++ [event]) t where
  workers j v hv := by
    rw [h.workers] at hv
    by_cases hij : i = j
    · subst hij
      obtain ⟨hi, -⟩ := List.getElem?_eq_some_iff.1 hv
      rw [List.length_set] at hi
      rw [List.getElem?_set_self hi] at hv
      cases hv
      exact hw
    · rw [List.getElem?_set_ne hij] at hv
      exact hs.mono j v hv
  scan := by
    rw [h.scanJoined, hscan]
    exact hs.scan

theorem sound_of_worker {i : Nat} (h : step plan s event = some t) (hi : event.worker? = some i)
    (hs : Explained plan.sending events s) :
    ∃ w, Replaced s t i w ∧ w.Sound plan.sending (Caused (events ++ [event]) i) i := by
  have hlast : event ∈ events ++ [event] := List.mem_append_right _ List.mem_cons_self
  cases event with
  | advance j =>
    cases hi
    obtain ⟨w, hw, h⟩ := Option.bind_eq_some_iff.1 h
    exact sound_of_advance h (hs.mono i w hw)
  | interrupt j =>
    cases hi
    obtain ⟨w, hw, h⟩ := Option.bind_eq_some_iff.1 h
    exact sound_of_interrupt h (hs.mono i w hw)
  | connected j result =>
    cases hi
    obtain ⟨w, hw, h⟩ := Option.bind_eq_some_iff.1 h
    refine sound_of_connect h (hs.mono i w hw) ?_
    rintro f rfl
    exact .rejected hlast
  | answered j result =>
    cases hi
    obtain ⟨w, hw, h⟩ := Option.bind_eq_some_iff.1 h
    refine sound_of_answer h (hs.mono i w hw) ?_ ?_
    · rintro f rfl
      exact .refused hlast
    · rintro rfl n
      exact .exhausted hlast
  | disconnected j result =>
    cases hi
    obtain ⟨w, hw, h⟩ := Option.bind_eq_some_iff.1 h
    refine sound_of_disconnect h (hs.mono i w hw) ?_
    rintro f rfl
    exact .unparted hlast
  | _ => cases hi

/-- What the observer of a worker does, or anyone who is no worker, gives no worker a failure. -/
theorem explained_of_quiet (h : step plan s event = some t) (hworker : event.worker? = none)
    (hs : Explained plan.sending events s) : Explained plan.sending (events ++ [event]) t := by
  have hsame : t.workers = s.workers → t.scanJoined = s.scanJoined → t.scan = s.scan →
      Explained plan.sending (events ++ [event]) t := fun hworkers hjoined hscan =>
    ⟨fun i w hw => hs.mono i w (hworkers ▸ hw), fun h => hscan ▸ hs.scan (hjoined ▸ h)⟩
  cases event with
  | pass time =>
    simp only [step] at h
    split at h
    · cases h
      exact hsame rfl rfl rfl
    · cases h
  | request level =>
    cases h
    exact hsame rfl rfl rfl
  | timer =>
    simp only [step, Option.map_eq_some_iff] at h
    obtain ⟨stopping, -, rfl⟩ := h
    exact hsame rfl rfl rfl
  | scan =>
    have hscanned : Scanned plan s t := scanned_of_scanStep h
    refine ⟨fun i w hw => hs.mono i w (hscanned.kept.workers ▸ hw), fun h => ?_⟩
    -- a scan whose end was noticed makes no more moves
    have hresult := hs.scan (hscanned.kept.scanJoined ▸ h)
    rw [result_of_scanned hscanned] at hresult
    cases hresult
  | joinScan =>
    simp only [step, State.joinScan, bind, Option.bind_eq_some_iff] at h
    obtain ⟨result, hresult, h⟩ := h
    have hnoticed : t.workers = s.workers ∧ t.scan = s.scan := by
      split at h
      · cases h
      · split at h
        · cases h
          exact ⟨rfl, rfl⟩
        · split at h <;> cases h <;> exact ⟨rfl, rfl⟩
    refine ⟨fun i w hw => hs.mono i w (hnoticed.1 ▸ hw), fun _ => ?_⟩
    rw [hnoticed.2, hresult]
    rfl
  | observe i =>
    obtain ⟨w, hw, h⟩ := Option.bind_eq_some_iff.1 h
    simp only [State.observeWorker, bind, Option.bind_eq_some_iff] at h
    obtain ⟨tracker, -, h⟩ := h
    obtain ⟨hnumber, hconnected, hphase⟩ := hs.mono i w hw
    split at h
    · cases h
      exact hs.replaced ⟨rfl, rfl⟩ rfl ⟨hnumber, hconnected, hphase⟩
    · split at h
      · cases h
      · cases h
        exact hs.replaced ⟨rfl, rfl⟩ rfl ⟨hnumber, hconnected, hphase⟩
  | join i =>
    obtain ⟨w, hw, h⟩ := Option.bind_eq_some_iff.1 h
    simp only [State.joinWorker] at h
    split at h
    · split at h
      · cases h
      · split at h <;> cases h <;> exact hsame rfl rfl rfl
    · cases h
  | advance i | interrupt i | connected i result | answered i result | disconnected i result => cases hworker

theorem explained_of_course (h : Course plan (first plan source workers capacity bucket stopping) events log s) :
    Explained plan.sending events s := by
  induction h with
  | start =>
    refine ⟨fun i w hw => ?_, by rintro ⟨⟩⟩
    simp only [first, State.start, List.getElem?_map, Option.map_eq_some_iff] at hw
    obtain ⟨j, hj, rfl⟩ := hw
    obtain ⟨hi, hj⟩ := List.getElem?_eq_some_iff.1 hj
    rw [List.getElem_range] at hj
    exact ⟨hj.symm, by rintro ⟨⟩, trivial⟩
  | @next events log s t event _ hstep ih =>
    cases hworker : event.worker? with
    | none => exact explained_of_quiet hstep hworker ih
    | some i =>
      obtain ⟨w, hreplaced, hw⟩ := sound_of_worker hstep hworker ih
      obtain ⟨p, q, hworked⟩ := worked_of_step hstep hworker
      exact ih.replaced hreplaced hworked.scan hw

/-! ### What comes of a run -/

omit [Batch β π] [Quantity ν] in
theorem outcome_of_isOver {result : Except Failure ScanStats} (hover : s.isOver = true)
    (hresult : s.scan.result? = some result) : outcome s = some (result.bind fun stats =>
      (collect s.results).map fun reports =>
        summarize s.workers.length s.counters (s.now.since 0) stats reports) := by
  rw [outcome, if_pos hover, hresult]
  cases result with
  | error fault => rfl
  | ok stats => cases collect s.results <;> rfl

omit [Batch β π] [Quantity ν] in
/-- Results that are no reports throughout have a first failure among them. -/
theorem exists_first_failure {joined : List Nat} {failure : Failure} (hended : ∀ j ∈ joined, ∃ r, s.resultOf j = some r)
    (h : collect (joined.filterMap s.resultOf) = .error failure) :
    ∃ before i after, joined = before ++ i :: after ∧
      (∀ j ∈ before, ∃ report, s.resultOf j = some (.ok report)) ∧ s.resultOf i = some (.error failure) := by
  induction joined with
  | nil => cases h
  | cons j joined ih =>
    obtain ⟨r, hr⟩ := hended j List.mem_cons_self
    rw [List.filterMap_cons_some hr] at h
    cases r with
    | error failure' =>
      obtain rfl := Except.error.inj h
      exact ⟨[], j, joined, rfl, List.forall_mem_nil _, hr⟩
    | ok report =>
      rw [collect] at h
      cases hrest : collect (joined.filterMap s.resultOf) with
      | ok reports =>
        rw [hrest] at h
        cases h
      | error failure' =>
        rw [hrest] at h
        obtain rfl := Except.error.inj h
        obtain ⟨before, i, after, rfl, hbefore, hfailed⟩ :=
          ih (fun k hk => hended k (List.mem_cons_of_mem _ hk)) hrest
        refine ⟨j :: before, i, after, rfl, ?_, hfailed⟩
        exact List.forall_mem_cons.2 ⟨⟨report, hr⟩, hbefore⟩

omit [Batch β π] [Quantity ν] in
theorem Explained.cause (hs : Explained plan.sending events s) {i : Nat} {failure : Failure}
    (h : s.resultOf i = some (.error failure)) : (∃ text, failure = .internal (.crashed text)) ∨
      ∃ cause, Caused events i cause ∧ failure = cause.inWorker i := by
  obtain ⟨w, hw, hended⟩ := State.exists_worker (phase_of_resultOf h)
  have hphase := (hs.workers i w hw).phase
  rw [hended] at hphase
  exact hphase

/-- No failure is lost. When all have ended, a run comes to a summary exactly if neither the scan nor a worker has
    failed. The scan has failed exactly if it met a fault, and then the run returns this fault, whatever the workers
    have done. Otherwise it returns the failure of the first worker whose failure was noticed: one that the store gave
    this worker, with its stage, as a failure in this worker, unless the store has named a worker itself. -/
theorem outcome_blames (h : follow plan (first plan source workers capacity bucket stopping) events = some s)
    (hover : s.isOver = true) :
    ∃ result answer, s.scan.result? = some result ∧ outcome s = some answer ∧
      ((∃ summary, answer = .ok summary) ↔
        (∃ stats, result = .ok stats) ∧ ∀ i < s.workers.length, ∃ report, s.resultOf i = some (.ok report)) ∧
      (∀ fault, result = .error fault ↔
        Met plan (first plan source workers capacity bucket stopping : State σ π β ν) events fault) ∧
      (∀ fault, result = .error fault → answer = .error fault) ∧
      ∀ stats failure, result = .ok stats → answer = .error failure →
        ∃ before i after, s.joined = before ++ i :: after ∧
          (∀ j ∈ before, ∃ report, s.resultOf j = some (.ok report)) ∧ s.resultOf i = some (.error failure) ∧
          ((∃ text, failure = .internal (.crashed text)) ∨
            ∃ cause, Caused events i cause ∧ failure.stage = cause.stage ∧
              (failure = .worker i cause ∨ failure = cause ∧ ∃ n inner, cause = .worker n inner)) := by
  have hcourse := course_of_follow h
  have hl := ledger_of_course hcourse
  have hs := explained_of_course hcourse
  have hscanned : s.scanJoined = true := (Bool.and_eq_true_iff.1 hover).1
  obtain ⟨result, hresult⟩ := Option.isSome_iff_exists.1 (hs.scan hscanned)
  have hended : ∀ j ∈ s.joined, ∃ r, s.resultOf j = some r := fun j hj => (hl.joined j hj).imp fun _ => resultOf_eq
  have hmet : ∀ fault, result = .error fault ↔
      Met plan (first plan source workers capacity bucket stopping : State σ π β ν) events fault := by
    intro fault
    rw [← result_eq_error_iff_met rfl hcourse, hresult, Option.some.injEq]
  have houtcome := outcome_of_isOver hover hresult
  refine ⟨result, _, hresult, houtcome, ⟨?_, ?_⟩, hmet, ?_, ?_⟩
  · rintro ⟨summary, hsummary⟩
    rw [hsummary] at houtcome
    obtain ⟨stats, reports, hstats, -, hreports⟩ := hl.outcome_eq_ok houtcome
    rw [hresult, Option.some.injEq] at hstats
    refine ⟨⟨stats, hstats⟩, fun i hi => ?_⟩
    have hp := List.getElem?_eq_getElem (State.length_phases ▸ hi : i < s.phases.length)
    obtain ⟨report, -, heq⟩ := hreports i _ hp
    exact ⟨report, resultOf_eq (heq ▸ hp)⟩
  · rintro ⟨⟨stats, rfl⟩, hworkers⟩
    cases hcollect : collect s.results with
    | ok reports => exact ⟨summarize s.workers.length s.counters (s.now.since 0) stats reports, rfl⟩
    | error failure =>
      obtain ⟨before, i, after, -, -, hfailed⟩ := exists_first_failure hended hcollect
      have hi := (List.getElem?_eq_some_iff.1 (phase_of_resultOf hfailed)).1
      obtain ⟨report, hreport⟩ := hworkers i (State.length_phases ▸ hi)
      cases hfailed.symm.trans hreport
  · rintro fault rfl
    rfl
  · rintro stats failure rfl hanswer
    cases hcollect : collect s.results with
    | ok reports =>
      rw [hcollect] at hanswer
      cases hanswer
    | error failure' =>
      rw [hcollect] at hanswer
      obtain rfl := Except.error.inj hanswer
      obtain ⟨before, i, after, hjoined, hbefore, hfailed⟩ := exists_first_failure hended hcollect
      refine ⟨before, i, after, hjoined, hbefore, hfailed, (hs.cause hfailed).imp_right ?_⟩
      rintro ⟨cause, hcause, rfl⟩
      refine ⟨cause, hcause, Failure.stage_inWorker i cause, ?_⟩
      cases cause with
      | worker n inner => exact .inr ⟨rfl, n, inner, rfl⟩
      | _ => exact .inl rfl

end

/-! ### Small runs that fail -/

section
open Rehearsal

/-- A source that breaks behind its first number. -/
def brokenNumbers : Feed (Nat × Int) := ⟨[.point (0, 1), .fault (.parse (.columns 2))], none⟩

/-- One worker is to send what the source gives. -/
def brokenStart : State (Feed (Nat × Int)) (Nat × Int) Numbers Float :=
  first (singly false) brokenNumbers 1 4 none .none

/-- The store turns the worker away, and then the scan is over. -/
def rejecting (cause : Failure) : List Event :=
  .connected 0 (.error cause) :: .join 0 :: List.replicate 5 .scan ++ [.joinScan]

/-- The scan meets the fault, and then the store turns the worker away. -/
def failingTwice (cause : Failure) : List Event :=
  List.replicate 9 .scan ++ [.connected 0 (.error cause), .join 0, .joinScan]

/-- The scan has a fault and the worker a failure, and the run returns the fault. -/
theorem outcome_blames_scan : ∃ s, follow (singly false) brokenStart (failingTwice .cancelled) = some s ∧
    s.resultOf 0 = some (.error (.worker 0 .cancelled)) ∧
    Met (singly false) brokenStart (failingTwice .cancelled) (.parse (.columns 2)) ∧
    outcome s = some (.error (.parse (.columns 2))) := by
  have hrun : (follow (singly false) brokenStart (failingTwice .cancelled)).map
      (fun s => (s.isOver, s.resultOf 0, s.scan.result?)) =
    some (true, some (.error (.worker 0 .cancelled)), some (.error (.parse (.columns 2)))) := rfl
  obtain ⟨s, hs, hx⟩ := Option.map_eq_some_iff.1 hrun
  obtain ⟨hover, hx⟩ := Prod.mk.inj hx
  obtain ⟨hworker, hscan⟩ := Prod.mk.inj hx
  obtain ⟨result, answer, hresult, houtcome, -, hmet, hfault, -⟩ := outcome_blames hs hover
  rw [hscan, Option.some.injEq] at hresult
  have hanswer := hfault _ hresult.symm
  exact ⟨s, hs, hworker, (hmet _).1 hresult.symm, hanswer ▸ houtcome⟩

/-- A failure that names a worker already is returned as it is, though another worker has failed. -/
theorem named_failure_keeps_name : ∃ s stats,
    follow (singly false) smallStart (rejecting (.worker 7 (.send (.described "rejected")))) = some s ∧
    s.joined = [0] ∧ s.scan.result? = some (.ok stats) ∧
    outcome s = some (.error (.worker 7 (.send (.described "rejected")))) ∧
    ∀ cause, outcome s ≠ some (.error (.worker 0 cause)) := by
  have hrun : (follow (singly false) smallStart (rejecting (.worker 7 (.send (.described "rejected"))))).map
      (fun s => (s.joined, s.scan.result?, outcome s)) =
    some ([0], some (.ok ⟨0, 0, true, false, false⟩), some (.error (.worker 7 (.send (.described "rejected"))))) := rfl
  obtain ⟨s, hs, hx⟩ := Option.map_eq_some_iff.1 hrun
  obtain ⟨hjoined, hx⟩ := Prod.mk.inj hx
  obtain ⟨hscan, houtcome⟩ := Prod.mk.inj hx
  refine ⟨s, _, hs, hjoined, hscan, houtcome, ?_⟩
  rintro cause hcause
  rw [houtcome] at hcause
  cases hcause

end
end Run
end IngestBench
