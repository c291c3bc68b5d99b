import IngestBench.Proofs.ForcedStop
import IngestBench.Proofs.Tallies

/-! The way out: once a stop is forced, nothing keeps a worker from coming to its end. From each state there are events
    after which it has ended. -/

namespace IngestBench

variable {σ π β ν : Type}

/-- No report of a worker waits for its observer. -/
def Worker.Heard (w : Worker β) : Prop := ∀ tracker, w.sender.tracker = some tracker → tracker.reports = []

namespace Run

variable [Batch β π] [Quantity ν] {plan : Plan σ π} {s t u : State σ π β ν} {i : Nat} {w : Worker β}

/-! ### Observers -/

/-- An observer can take in all reports. -/
theorem exists_heard (hw : s.workers[i]? = some w) : ∃ events t w', follow plan s events = some t ∧
    t.workers[i]? = some w' ∧ w'.phase = w.phase ∧ w'.Heard := by
  cases htracker : w.sender.tracker with
  | none =>
    refine ⟨[], s, w, rfl, hw, rfl, fun tracker h => ?_⟩
    rw [htracker] at h
    cases h
  | some tracker =>
    obtain ⟨observer, reports⟩ := tracker
    induction reports generalizing s w observer with
    | nil =>
      refine ⟨[], s, w, rfl, hw, rfl, fun tracker h => ?_⟩
      rw [htracker] at h
      cases h
      rfl
    | cons report rest ih =>
      have hi : i < s.workers.length := (List.getElem?_eq_some_iff.1 hw).1
      have hseen : ∃ u w₁, step plan s (.observe i) = some u ∧ u.workers[i]? = some w₁ ∧ w₁.phase = w.phase ∧
          w₁.sender.tracker = some ⟨observer.observe report.1 report.2, rest⟩ := by
        have hstep : step plan s (.observe i) = some (State.setWorker
            { s with gauge := observer.report report.1 s.now s.gauge } i
            { w with sender := { w.sender with tracker := some ⟨observer.observe report.1 report.2, rest⟩ } }) := by
          simp only [step, hw, bind, Option.bind, State.observeWorker, htracker, Backoff.Tracker.see]
        exact ⟨_, _, hstep, List.getElem?_set_self hi, rfl, rfl⟩
      obtain ⟨u, w₁, hstep, hw₁, hphase₁, htracker₁⟩ := hseen
      obtain ⟨events, t, w', hfollow, hw', hphase, hheard⟩ := ih hw₁ _ htracker₁
      refine ⟨.observe i :: events, t, w', ?_, hw', hphase.trans hphase₁, hheard⟩
      rw [follow, hstep]
      exact hfollow

/-! ### Moves of one worker -/

omit [Quantity ν] in
theorem tell_isSome (e : Retry.Surroundings ν) (h : ∀ tracker, e.tracker = some tracker → tracker.reports = [])
    (backingOff : Bool) : (e.tell backingOff).isSome = true := by
  cases htracker : e.tracker with
  | none => simp [Retry.Surroundings.tell, htracker]
  | some tracker =>
    simp [Retry.Surroundings.tell, Backoff.Tracker.tell, htracker, h tracker htracker, Backoff.Tracker.capacity]

/-- A worker that is neither in line to leave nor at its end can move, once all that it waits for has come. -/
theorem exists_step (hw : s.workers[i]? = some w) (hforced : s.isForced = true) (hheard : w.Heard)
    (hdue : ∀ b n due, w.phase = .sending b (.throttled n due) → due ≤ s.now)
    (hleaving : ∀ ending, w.phase ≠ .leaving ending) (hended : ∀ r, w.phase ≠ .ended r) :
    ∃ event, event.worker? = some i ∧ (step plan s event).isSome = true := by
  obtain ⟨number, sender, phase, counts, batches⟩ := w
  have hadvance : (s.advanceWorker plan i ⟨number, sender, phase, counts, batches⟩).isSome = true →
      ∃ event, event.worker? = some i ∧ (step plan s event).isSome = true := fun h =>
    ⟨.advance i, rfl, by simpa only [step, hw, bind, Option.bind] using h⟩
  have hinterrupt : (s.interruptWorker plan i ⟨number, sender, phase, counts, batches⟩).isSome = true →
      ∃ event, event.worker? = some i ∧ (step plan s event).isSome = true := fun h =>
    ⟨.interrupt i, rfl, by simpa only [step, hw, bind, Option.bind] using h⟩
  cases phase with
  | ended r => exact absurd rfl (hended r)
  | leaving ending => exact absurd rfl (hleaving ending)
  | joining =>
    cases hsending : plan.sending with
    | true => exact ⟨.connected i (.ok ()), rfl, by simp [step, hw, State.connectWorker, hsending]⟩
    | false => exact hadvance (by simp [State.advanceWorker, hsending])
  | choosing => exact hadvance (by simp [State.advanceWorker, hforced])
  | waiting => exact hinterrupt (by simp [State.interruptWorker, hforced])
  | sending b a =>
    cases a with
    | charging n => exact hadvance rfl
    | throttled n due =>
      have hdue : due ≤ s.now := hdue b n due rfl
      exact hadvance (by simp [State.advanceWorker, Retry.advance, State.surroundings, hdue])
    | calling n => exact ⟨.answered i (.ok ()), rfl, by simp [step, hw, State.answerWorker, Retry.answer]⟩
    | telling n =>
      have htold := tell_isSome (s.surroundings ⟨number, sender, .sending b (.telling n), counts, batches⟩) hheard true
      exact hadvance (by simpa [State.advanceWorker, Retry.advance] using htold)
    | pausing n => exact hadvance rfl
    | sleeping n due =>
      have hlevel : s.stopping.level.isForced = true := hforced
      exact hinterrupt (by simp [State.interruptWorker, Retry.interrupt, hlevel])
    | settling result =>
      have htold := tell_isSome (s.surroundings ⟨number, sender, .sending b (.settling result), counts, batches⟩) hheard
        false
      exact hadvance (by simpa [State.advanceWorker, Retry.advance] using htold)
    | settled result => exact hadvance rfl
  | closing ending =>
    refine hadvance ?_
    simp only [State.advanceWorker, State.summarize]
    cases htracker : sender.tracker with
    | none => rfl
    | some tracker => simp [Backoff.Tracker.finish, hheard tracker htracker]
  | parting ending backoff =>
    cases hconnected : sender.connected with
    | true => exact ⟨.disconnected i (.ok ()), rfl, by simp [step, hw, State.disconnectWorker, hconnected]⟩
    | false => exact hadvance (by simp [State.advanceWorker, hconnected])

/-- Who is first in line can move. -/
theorem exists_step_of_isFirst {p : Worker.Phase β} {c : Channel β} (hp : s.phases[i]? = some p)
    (hline : p.inLine = true) (hc : s.channels[channelIndex plan.dedicated i]? = some c) (hfirst : c.isFirst i = true)
    (hforced : s.isForced = true) : ∃ event, event.worker? = some i ∧ (step plan s event).isSome = true := by
  obtain ⟨⟨number, sender, phase, counts, batches⟩, hw, rfl⟩ := State.exists_worker hp
  cases phase with
  | waiting => exact ⟨.interrupt i, rfl, by simp [step, hw, State.interruptWorker, hforced]⟩
  | leaving ending => exact ⟨.advance i, rfl, by simp [step, hw, State.advanceWorker, State.close, hc, hfirst]⟩
  | _ => cases hline

/-! ### The way to the end -/

theorem movesOf_pos {event : Event} {events : List Event} (h : event ∈ events) (hi : event.worker? = some i) :
    0 < movesOf i events := List.countP_pos_iff.2 ⟨event, h, by simp [hi]⟩

section
variable {source : σ} {workers capacity : Nat} {bucket : Option (TokenBucket ν)} {stopping : Stopping}
  {before : List Event} {done : Log π β}

/-- A worker that is neither in line to leave nor at its end comes to move. -/
theorem exists_move (hs : Course plan (first plan source workers capacity bucket stopping) before done s)
    (hforced : s.isForced = true) (hw : s.workers[i]? = some w) (hleaving : ∀ ending, w.phase ≠ .leaving ending)
    (hended : ∀ r, w.phase ≠ .ended r) : ∃ events t, follow plan s events = some t ∧ 0 < movesOf i events := by
  obtain ⟨events, u, w', hu, hw', hphase, hheard⟩ : ∃ events u w', follow plan s events = some u ∧
      u.workers[i]? = some w' ∧ w'.phase = w.phase ∧ w'.Heard := exists_heard hw
  have hforced' : u.isForced = true := (curbed_of_course hs hforced (course_of_follow hu)).1
  have hdue : ∃ due, ∀ b n d, w'.phase = .sending b (.throttled n d) → d ≤ due := by
    cases hsending : w'.phase with
    | sending b a =>
      cases a with
      | throttled n due => exact ⟨due, fun b' n' d h => by cases h; exact Nat.le_refl _⟩
      | _ => exact ⟨0, fun _ _ _ h => by cases h⟩
    | _ => exact ⟨0, fun _ _ _ h => by cases h⟩
  obtain ⟨due, hdue⟩ := hdue
  -- The limiter does not heed the stop: the clock has to move on.
  obtain ⟨v, hpass, hwv, hforcedv, hnow⟩ : ∃ v, step plan u (.pass (max u.now due)) = some v ∧
      v.workers[i]? = some w' ∧ v.isForced = true ∧ due ≤ v.now :=
    ⟨_, if_pos (Nat.le_max_left _ _), hw', hforced', Nat.le_max_right _ _⟩
  obtain ⟨event, hworker, hstep⟩ : ∃ event, event.worker? = some i ∧ (step plan v event).isSome = true :=
    exists_step hwv hforcedv hheard (fun b n d h => Nat.le_trans (hdue b n d h) hnow)
      (fun ending => hphase ▸ hleaving ending) (fun r => hphase ▸ hended r)
  obtain ⟨t, ht⟩ := Option.isSome_iff_exists.1 hstep
  refine ⟨events ++ [.pass (max u.now due), event], t, ?_, movesOf_pos (by simp) hworker⟩
  rw [follow_append, hu, Option.bind_some, follow, hpass, Option.bind_some, follow, ht]
  rfl

/-- A worker that is in line to leave comes to move: who stands before it can go to the end of the line, or leave. -/
theorem exists_move_of_leaving {ending : Ending} {c : Channel β} {front back : List Nat}
    (hs : Course plan (first plan source workers capacity bucket stopping) before done s) (hforced : s.isForced = true)
    (hp : s.phases[i]? = some (.leaving ending)) (hc : s.channels[channelIndex plan.dedicated i]? = some c)
    (hline : c.line = front ++ i :: back) : ∃ events t, follow plan s events = some t ∧ 0 < movesOf i events := by
  -- By induction on how many stand before the worker: the first one moves, and stands there no more.
  induction hn : front.length using Nat.strongRecOn generalizing s before done c front back with
  | ind n ih =>
    subst hn
    obtain ⟨j, rest, hj⟩ : ∃ j rest, c.line = j :: rest := by
      rw [hline]
      cases front with
      | nil => exact ⟨i, back, rfl⟩
      | cons j front => exact ⟨j, front ++ i :: back, rfl⟩
    have hfirst : c.isFirst j = true := by rw [Channel.isFirst, hj]; simp
    obtain ⟨hjk, p, hpj, hpline⟩ := (lined_of_course hs _ _ hc j).1 (hj ▸ List.mem_cons_self)
    obtain ⟨event, hworker, hstep⟩ := exists_step_of_isFirst hpj hpline (hjk.symm ▸ hc) hfirst hforced
    obtain ⟨t, ht⟩ := Option.isSome_iff_exists.1 hstep
    by_cases hij : j = i
    · subst hij
      exact ⟨[event], t, by rw [follow, ht]; rfl, movesOf_pos List.mem_cons_self hworker⟩
    · cases turn_of_step ht with
      | quiet hnone _ _ => rw [hworker] at hnone; cases hnone
      | scan hnone _ _ => rw [hworker] at hnone; cases hnone
      | worker j' p' q hsome hworked _ =>
        rw [hworker] at hsome
        cases hsome
        have hsame : p' = p := Option.some.inj (hworked.phase.symm.trans hpj)
        subst hsame
        obtain ⟨d, hmove, hchannels⟩ := hworked.move c (hjk.symm ▸ hc)
        obtain ⟨last, hd⟩ := line_of_move hmove hpline
        cases front with
        | nil =>
          rw [hline] at hj
          cases hj
          exact absurd rfl hij
        | cons j' front =>
          rw [hline] at hj
          cases hj
          have hphase : t.phases[i]? = some (.leaving ending) := by
            rw [hworked.phases, List.getElem?_set_ne hij]
            exact hp
          have hchannel : t.channels[channelIndex plan.dedicated i]? = some d := by
            rw [hchannels, hjk, List.getElem?_set_self (List.getElem?_eq_some_iff.1 hc).1]
          have hshorter : (front.filter (· != j)).length < (j :: front).length :=
            Nat.lt_succ_of_le (List.length_filter_le _ _)
          have hsplit : d.line = front.filter (· != j) ++ i :: (back.filter (· != j) ++ last) := by
            rw [hd, hline]
            simp [Ne.symm hij]
          obtain ⟨events, u, hu, hmoves⟩ := ih _ hshorter (hs.next ht) (hworked.isForced.trans hforced) hphase hchannel
            hsplit rfl
          refine ⟨event :: events, u, by rw [follow, ht]; exact hu, ?_⟩
          rw [movesOf, List.countP_cons]
          exact Nat.lt_of_lt_of_le hmoves (Nat.le_add_right _ _)

/-- Once a stop is forced, each worker can come to its end. -/
theorem exists_ended {p : Worker.Phase β}
    (hs : Course plan (first plan source workers capacity bucket stopping) before done s) (hforced : s.isForced = true)
    (hp : s.phases[i]? = some p) : ∃ events t r, follow plan s events = some t ∧ t.phases[i]? = some (.ended r) := by
  -- By induction on the moves that are left: the worker comes to move, and each move takes one of them.
  induction hn : p.movesLeft using Nat.strongRecOn generalizing s p before done with
  | ind n ih =>
    subst hn
    have hnext : (∃ r, p = .ended r) ∨ ∃ events t, follow plan s events = some t ∧ 0 < movesOf i events := by
      obtain ⟨w, hw, rfl⟩ := State.exists_worker hp
      cases hphase : w.phase with
      | ended r => exact .inl ⟨r, rfl⟩
      | leaving ending =>
        have hi : i < s.phases.length := (List.getElem?_eq_some_iff.1 hp).1
        have hc := List.getElem?_eq_getElem ((ledger_of_course hs).wired i hi)
        have hmem := (lined_of_course hs _ _ hc i).2 ⟨rfl, _, hp, by rw [hphase]; rfl⟩
        obtain ⟨front, back, hline⟩ := List.append_of_mem hmem
        exact .inr (exists_move_of_leaving hs hforced (hphase ▸ hp) hc hline)
      | _ => exact .inr (exists_move hs hforced hw (by simp [hphase]) (by simp [hphase]))
    rcases hnext with ⟨r, rfl⟩ | ⟨events, t, ht, hmoves⟩
    · exact ⟨[], s, r, rfl, hp⟩
    · obtain ⟨hforced', hall⟩ := curbed_of_course hs hforced (course_of_follow ht)
      obtain ⟨q, hq, hcurbed⟩ := hall i p hp
      have hlt : q.movesLeft < p.movesLeft := by
        have := hcurbed.moves
        omega
      obtain ⟨more, u, r, hu, hended⟩ := ih _ hlt (hs.trans (course_of_follow ht)) hforced' hq rfl
      exact ⟨events ++ more, u, r, by rw [follow_append, ht]; exact hu, hended⟩

/-! ### Forced stops -/

/-- Once a stop is forced, a worker calls the store at most once more, takes at most one more batch, and none but when
    it was waiting for one, and none after a call; it makes at most twelve moves, and it can come to its end. Counters
    show what was counted until the stop and the batches that are delivered from then on, to which a batch that is given
    up does not belong, and each worker counts for itself and reports what it has delivered. The report of a worker that
    did not fail says that it was cancelled, unless the worker found its queue closed and drained. -/
theorem forced_stop_bound {t : State σ π β ν} {before events : List Event} {p : Worker.Phase β}
    (hs : follow plan (first plan source workers capacity bucket stopping) before = some s) (hforced : s.isForced = true)
    (ht : follow plan s events = some t) (hp : s.phases[i]? = some p) :
    let earlier := deeds plan (first plan source workers capacity bucket stopping : State σ π β ν) before
    let log := deeds plan s events
    ((log.tasks i).filterMap Task.attempted?).length ≤ 1 ∧
    ((log.tasks i).filterMap Task.took?).length ≤ 1 ∧
    (p ≠ .waiting → (log.tasks i).filterMap Task.took? = []) ∧
    (∀ front b back, log.tasks i = front ++ .attempted b :: back → back.filterMap Task.took? = []) ∧
    movesOf i events ≤ 12 ∧
    ((log.tasks i).filterMap Task.delivered?).length + ((log.tasks i).filterMap Task.gaveUp?).length ≤ 1 ∧
    t.counters.rows = Counters.wrap (s.counters.rows + totalRows log.delivered) ∧
    t.counters.metrics = Counters.wrap (s.counters.metrics + totalMetrics log.delivered) ∧
    t.counters.batches = Counters.wrap (s.counters.batches + log.delivered.length) ∧
    (∀ w, t.workers[i]? = some w → Tally (earlier.tasks i ++ log.tasks i) w) ∧
    (∀ report, t.phases[i]? = some (.ended (.ok report)) → report.cancelled = true ∨
      (Task.drained ∈ earlier.tasks i ++ log.tasks i ∧ ∃ c, t.channels[channelIndex plan.dedicated i]? = some c ∧
        c.queue.items = [] ∧ (c.queue.closed || c.queue.ended) = true)) ∧
    ∃ more u r, follow plan t more = some u ∧ u.phases[i]? = some (.ended r) := by
  intro earlier log
  have hcourse := course_of_follow hs
  have hcourse' := hcourse.trans (course_of_follow ht)
  have hl : Ledger plan before earlier s := ledger_of_course hcourse
  have hl' : Ledger plan (before ++ events) (earlier ++ log) t := ledger_of_course hcourse'
  obtain ⟨hforced', hall⟩ := curbed_of_course hcourse hforced (course_of_follow ht)
  obtain ⟨q, hq, hcurbed⟩ := hall i p hp
  obtain ⟨hcallsLeft, htakesLeft, hbatchesLeft, hmovesLeft⟩ := p.left_le
  refine ⟨?_, ?_, fun hwaiting => ?_, fun front b back => hcurbed.no_take, ?_, ?_, ?_, ?_, ?_,
    fun w hw => ?_, fun report hreport => ?_, exists_ended hcourse' hforced' hq⟩
  · exact Nat.le_trans (Nat.le_of_add_right_le hcurbed.calls) hcallsLeft
  · exact Nat.le_trans (Nat.le_of_add_right_le hcurbed.takes) htakesLeft
  · have hnone : p.takesLeft = 0 := by cases p <;> first | rfl | exact absurd rfl hwaiting
    exact List.eq_nil_of_length_eq_zero (Nat.le_zero.1 (hnone ▸ Nat.le_of_add_right_le hcurbed.takes))
  · exact Nat.le_trans (Nat.le_of_add_right_le hcurbed.moves) hmovesLeft
  · exact Nat.le_trans (Nat.le_of_add_right_le hcurbed.batches) hbatchesLeft
  · rw [hl'.rows, hl.rows, wrap_wrap_add, Log.delivered_append, List.map_append, List.sum_append, totalRows]
  · rw [hl'.metrics, hl.metrics, wrap_wrap_add, Log.delivered_append, List.map_append, List.sum_append, totalMetrics]
  · rw [hl'.batches, hl.batches, wrap_wrap_add, Log.delivered_append, List.length_append]
  · rw [← Log.tasks_append]
    exact tally_of_course hcourse' hw
  · refine or_iff_not_imp_left.2 fun hcancelled => ?_
    have hstage : (Worker.Phase.ended (.ok report) : Worker.Phase β).stage = .drained := by
      simp only [Worker.Phase.stage, hcancelled]
      rfl
    have hi : i < t.phases.length := (List.getElem?_eq_some_iff.1 hreport).1
    have hc := List.getElem?_eq_getElem (hl'.wired i hi)
    refine ⟨?_, _, hc, (hl'.flow _ _ hc).drained ⟨i, _, hreport, rfl, hstage⟩⟩
    rw [← Log.tasks_append]
    exact (hl'.books i _ hreport).drained hstage

end

/-! ### A small run that is stopped -/

section
open Rehearsal

/-- The first number is on its way to the store when a stop is forced. -/
def forcing : List Event := scanned ++ [.advance 0, .advance 0, .advance 0, .request .forced]

/-- The store asks for a pause, and the worker gives the number up. -/
def givingUp : List Event :=
  [.answered 0 (.error .backpressure), .advance 0, .advance 0, .advance 0, .advance 0, .observe 0, .observe 0] ++ parting 0

/-- What the only worker reports, if it did not fail: whether it was cancelled. -/
def reported (s : State (Feed (Nat × Int)) (Nat × Int) Numbers Float) : Option Bool :=
  match s.phases[0]? with
  | some (Worker.Phase.ended (.ok report)) => some report.cancelled
  | _ => none

/-- A worker that was calling the store does not call it again, and reports that it was cancelled. -/
theorem forced_stop_bound_two_numbers : ∃ s t b, follow (singly false) smallStart forcing = some s ∧
    s.isForced = true ∧ s.phases[0]? = some (.sending b (.calling 1)) ∧ follow (singly false) s givingUp = some t ∧
    ((Log.tasks (deeds (singly false) s givingUp) 0).filterMap Task.attempted?).length ≤ 1 ∧
    (Log.tasks (deeds (singly false) s givingUp) 0).filterMap Task.took? = [] ∧ reported t = some true := by
  have hrun : (follow (singly false) smallStart forcing).map (fun s => (s.isForced, s.phases[0]?)) =
      some (true, some (.sending ⟨[1]⟩ (.calling 1))) := rfl
  obtain ⟨s, hs, hforced⟩ := Option.map_eq_some_iff.1 hrun
  have hphase : s.phases[0]? = some (.sending ⟨[1]⟩ (.calling 1)) := congrArg (·.2) hforced
  have hmore : ((follow (singly false) smallStart forcing).bind (follow (singly false) · givingUp)).bind reported =
      some true := rfl
  rw [hs] at hmore
  obtain ⟨t, ht, hreported⟩ := Option.bind_eq_some_iff.1 hmore
  obtain ⟨hcalls, -, htakes, -⟩ := forced_stop_bound hs (congrArg (·.1) hforced) ht hphase
  exact ⟨s, t, _, hs, congrArg (·.1) hforced, hphase, ht, hcalls, htakes nofun, hreported⟩

end
end Run
end IngestBench
