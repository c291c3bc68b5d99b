import IngestBench.Load
import IngestBench.Proofs.Blame

/-! Runs that no one asks to stop agree. A run that comes to a summary has read the points that its source has up to the
    limit, and has counted all of them; how many workers there were, how their queues were laid out, what happened in
    which order, and whether batches were sent at all, makes no difference. A run that only counts batches asks nothing
    of the store. -/

namespace IngestBench

variable {σ π β ν : Type}

/-! ### The points of a source -/

namespace Scan

/-- These are the points that a source has, up to the limit. -/
structure Whole (plan : Plan σ π) (source : σ) (points : List π) : Prop where
  below : ∀ n < points.length, plan.isLimit n = false
  ends : ∃ t, Reads plan.read source points t ∧
    (plan.isLimit points.length = true ∨ ∃ u, plan.read t = (.ok none, u))

variable {plan : Plan σ π} {source : σ} {points more : List π}

theorem Whole.length_le (h : Whole plan source points) (h' : Whole plan source more) :
    more.length ≤ points.length := by
  refine Nat.le_of_not_lt fun hlt => ?_
  obtain ⟨t, hreads, hlimit | ⟨u, hend⟩⟩ := h.ends
  · rw [h'.below _ hlt] at hlimit
    cases hlimit
  · obtain ⟨v, hmore, -⟩ := h'.ends
    obtain ⟨p, w, hp⟩ := hreads.exists_next hmore hlt
    rw [hend] at hp
    cases hp

theorem Whole.unique (h : Whole plan source points) (h' : Whole plan source more) : points = more := by
  obtain ⟨t, hreads, -⟩ := h.ends
  obtain ⟨u, hmore, -⟩ := h'.ends
  exact (hreads.unique hmore (Nat.le_antisymm (h'.length_le h) (h.length_le h'))).1

end Scan

/-- The store is asked: to let a worker in, to take a batch, or to let the worker go. -/
def Worker.asksStore (sending : Bool) (w : Worker β) : Bool :=
  match w.phase with
  | .joining => sending
  | .sending _ (.calling _) => true
  | .parting _ _ => w.sender.connected
  | _ => false

namespace Run

/-! ### Stops -/

/-- Someone asks for a stop. -/
def Event.asks : Event → Bool
  | .request _ | .timer => true
  | _ => false

/-- The scan or a worker has failed. -/
def Failing (s : State σ π β ν) : Prop :=
  (∃ (i : Nat) (f : Failure), s.phases[i]? = some (.ended (.error f))) ∨
    ∃ fault, s.scan.result? = some (.error fault)

/-- No stop is in force but for a failure, and a scan that was cancelled has seen one. -/
structure Calm (s : State σ π β ν) : Prop where
  level : s.stopping.level = none ∨ Failing s
  cancelled : s.scan.stats.cancelled = true → s.stopping.level.isStopping = true

section
variable {s t : State σ π β ν}

theorem Failing.congr (h : Failing s) (hphases : t.phases = s.phases) (hscan : t.scan = s.scan) : Failing t := by
  rw [Failing, hphases, hscan]
  exact h

theorem Calm.congr (hs : Calm s) (hphases : t.phases = s.phases) (hscan : t.scan = s.scan)
    (hstopping : t.stopping = s.stopping) : Calm t where
  level := by
    rw [hstopping]
    exact hs.level.imp_right (·.congr hphases hscan)
  cancelled := by
    rw [hscan, hstopping]
    exact hs.cancelled

/-- A failure that is noticed forces a stop. -/
theorem Calm.raise (h : Failing s) (hphases : t.phases = s.phases) (hscan : t.scan = s.scan) {now : Time}
    (hstopping : t.stopping = s.stopping.raise .forced now) : Calm t where
  level := .inr (h.congr hphases hscan)
  cancelled _ := by
    rw [hstopping, Stopping.raise, Stopping.enter]
    rcases s.stopping.level with _ | _ | _ <;> rfl

end

section
variable [Batch β π] {plan : Plan σ π} {s t : State σ π β ν} {event : Event}

theorem Calm.scanned (hs : Calm s) (h : Scanned plan s t) : Calm t := by
  refine ⟨?_, ?_⟩
  · rw [h.kept.stopping]
    refine hs.level.imp_right ?_
    rintro (⟨i, f, hf⟩ | ⟨fault, hfault⟩)
    · exact .inl ⟨i, f, h.phases ▸ hf⟩
    · rw [result_of_scanned h] at hfault
      cases hfault
  · rw [h.kept.stopping]
    intro hcancelled
    cases h with
    | moved scan pool _ hadvance ht =>
      rw [ht, State.setScan_scan] at hcancelled
      rcases Scan.advance_stats hadvance with hstats | hstats | ⟨hstop, -⟩ | hstats
      · exact hs.cancelled (by rwa [hstats] at hcancelled)
      · exact hs.cancelled (by rwa [hstats] at hcancelled)
      · exact hstop
      · exact hs.cancelled (by rwa [hstats] at hcancelled)
    | handed k b c hoffered _ _ ht =>
      obtain ⟨last, hphase, -⟩ := offered_eq_some hoffered
      rw [ht, State.setScan_scan, Scan.sent, hphase] at hcancelled
      exact hs.cancelled hcancelled
    | turnedAway k b c _ _ _ ht =>
      rw [ht, State.setScan_scan] at hcancelled
      exact hs.cancelled hcancelled

theorem Calm.worked {i : Nat} {p q : Worker.Phase β} {c : Channel β} (hs : Calm s)
    (hc : s.channels[channelIndex plan.dedicated i]? = some c) (h : Worked plan event i p q s t) : Calm t := by
  refine ⟨?_, ?_⟩
  · rw [h.stopping]
    refine hs.level.imp_right ?_
    rintro (⟨j, f, hf⟩ | ⟨fault, hfault⟩)
    · refine .inl ⟨j, f, ?_⟩
      by_cases hij : i = j
      · -- a worker that has ended makes no more moves
        subst hij
        cases hf.symm.trans h.phase
        obtain ⟨d, hmove, -⟩ := h.move c hc
        cases hmove
      · rw [h.phases, List.getElem?_set_ne hij]
        exact hf
    · exact .inr ⟨fault, h.scan ▸ hfault⟩
  · rw [h.stopping, h.scan]
    exact hs.cancelled

end

section
variable [Batch β π] [Quantity ν] {plan : Plan σ π} {s t : State σ π β ν} {event : Event} {events : List Event}
  {log : Log π β} {source : σ} {workers capacity : Nat} {bucket : Option (TokenBucket ν)} {stopping : Stopping}

theorem Calm.quiet (hs : Calm s) (h : step plan s event = some t) (hworker : event.worker? = none)
    (hscan : event ≠ .scan) (hasks : event.asks = false) : Calm t := by
  cases event with
  | pass time =>
    simp only [step] at h
    split at h
    · cases h
      exact hs.congr rfl rfl rfl
    · cases h
  | scan => exact absurd rfl hscan
  | joinScan =>
    simp only [step, State.joinScan, bind, Option.bind_eq_some_iff] at h
    obtain ⟨result, hresult, h⟩ := h
    split at h
    · cases h
    · cases result with
      | ok stats =>
        cases h
        exact hs.congr rfl rfl rfl
      | error fault =>
        simp only at h
        split at h
        · cases h
          exact hs.congr rfl rfl rfl
        · cases h
          exact .raise (.inr ⟨fault, hresult⟩) rfl rfl rfl
  | observe i =>
    obtain ⟨w, hw, hobserve⟩ := Option.bind_eq_some_iff.1 h
    have hquiet := quiet_of_observe hw hobserve
    refine hs.congr hquiet.phases hquiet.scan ?_
    simp only [State.observeWorker, bind, Option.bind_eq_some_iff] at hobserve
    obtain ⟨tracker, -, hobserve⟩ := hobserve
    split at hobserve
    · cases hobserve
      rfl
    · split at hobserve <;> cases hobserve
      rfl
  | join i =>
    obtain ⟨w, hw, h⟩ := Option.bind_eq_some_iff.1 h
    have hphase : s.phases[i]? = some w.phase := State.phases_getElem? hw
    simp only [State.joinWorker] at h
    split at h
    · rename_i result hended
      split at h
      · cases h
      · cases result with
        | ok report =>
          cases h
          exact hs.congr rfl rfl rfl
        | error f =>
          cases h
          have hfailing : Failing s := .inl ⟨i, f, hended ▸ hphase⟩
          exact .raise hfailing rfl rfl rfl
    · cases h
  | request level | timer => cases hasks
  | advance i | interrupt i | connected i result | answered i result | disconnected i result => cases hworker

theorem calm_of_course (hstopping : stopping.level = none)
    (h : Course plan (first plan source workers capacity bucket stopping) events log s)
    (hasks : ∀ event ∈ events, event.asks = false) : Calm s := by
  induction h with
  | start => exact ⟨.inl hstopping, by rintro ⟨⟩⟩
  | @next events log s t event hcourse hstep ih =>
    have hs := ih fun event hevent => hasks event (List.mem_append_left _ hevent)
    cases hworker : event.worker? with
    | some i =>
      obtain ⟨p, q, hworked⟩ := worked_of_step hstep hworker
      have hl : Ledger plan events log s := ledger_of_course hcourse
      have hi := (List.getElem?_eq_some_iff.1 hworked.phase).1
      exact hs.worked (List.getElem?_eq_getElem (hl.wired i hi)) hworked
    | none =>
      by_cases hscan : event = .scan
      · subst hscan
        exact hs.scanned (scanned_of_scanStep hstep)
      · exact hs.quiet hstep hworker hscan (hasks event (List.mem_append_right _ List.mem_cons_self))

/-! ### What an undisturbed run comes to -/

/-- A run of a plan over a source comes to this summary, while no one asks for a stop and the store never answers that
    it was cancelled. -/
def Undisturbed (β ν : Type) [Batch β π] [Quantity ν] (plan : Plan σ π) (source : σ) (summary : Summary) : Prop :=
  ∃ (workers capacity : Nat) (bucket : Option (TokenBucket ν)) (stopping : Stopping) (events : List Event)
    (s : State σ π β ν), stopping.level = none ∧ (∀ event ∈ events, event.asks = false) ∧ ¬SaidCancelled events ∧
      follow plan (first plan source workers capacity bucket stopping) events = some s ∧
      outcome s = some (.ok summary)

omit [Quantity ν] in
/-- A run that comes to a summary has no failure that could have stopped it. -/
theorem Calm.level_eq_none (hs : Calm s) (hl : Ledger plan events log s) {summary : Summary}
    (h : outcome s = some (.ok summary)) : s.stopping.level = none := by
  obtain ⟨stats, reports, hresult, -, hended⟩ := hl.outcome_eq_ok h
  rcases hs.level with hlevel | ⟨i, f, hf⟩ | ⟨fault, hfault⟩
  · exact hlevel
  · obtain ⟨report, -, hreport⟩ := hended i _ hf
    cases hreport
  · rw [hresult] at hfault
    cases hfault

omit [Batch β π] [Quantity ν] in
/-- A summary says that a run was cancelled if the scan or a worker was. -/
theorem cancelled_of_outcome {summary : Summary} (h : outcome s = some (.ok summary))
    (hcancelled : summary.cancelled = true) : s.scan.stats.cancelled = true ∨
      ∃ (i : Nat) (report : WorkerReport), s.phases[i]? = some (.ended (.ok report)) ∧ report.cancelled = true := by
  simp only [outcome] at h
  split at h
  · obtain ⟨result, hresult, h⟩ := Option.map_eq_some_iff.1 h
    cases result with
    | error fault => cases h
    | ok stats =>
      obtain rfl := Scan.stats_of_result hresult
      cases hreports : collect s.results with
      | error failure =>
        rw [hreports] at h
        cases h
      | ok reports =>
        rw [hreports] at h
        cases h
        rcases (Bool.or_eq_true_iff.1 hcancelled) with hscan | hany
        · exact .inl hscan
        · obtain ⟨report, hmem, hreport⟩ := List.any_eq_true.1 hany
          have hresult : .ok report ∈ s.results := by
            rw [collect_eq_ok hreports]
            exact List.mem_map_of_mem hmem
          obtain ⟨i, -, hi⟩ := List.mem_filterMap.1 hresult
          exact .inr ⟨i, report, phase_of_resultOf hi, hreport⟩
  · cases h

/-- An undisturbed run counts all points that its source has up to the limit, in the batches that they make. -/
theorem Undisturbed.summary_eq [Batch.CountsRows β] {metrics : π → Nat} [Batch.CountsMetrics β metrics]
    {summary : Summary} (h : Undisturbed β ν plan source summary) :
    ∃ points, Scan.Whole plan.scan source points ∧ summary.pointsRead = points.length ∧
      summary.rows = Counters.wrap points.length ∧ summary.metrics = Counters.wrap (points.map metrics).sum ∧
      summary.batches = Counters.wrap (Scan.allBatches plan.scan points).length ∧ summary.cancelled = false := by
  obtain ⟨workers, capacity, bucket, stopping, events, s, hstopping, hasks, hsaid, hfollow, hsummary⟩ := h
  have hl := ledger_of_course (course_of_follow hfollow)
  have hcalm := calm_of_course hstopping (course_of_follow hfollow) hasks
  have hlevel := hcalm.level_eq_none hl hsummary
  have hforced : s.isForced = false := by
    rw [State.isForced, hlevel]
    rfl
  have hscan : s.scan.stats.cancelled = false := by
    refine Bool.eq_false_iff.2 fun hcancelled => ?_
    have hstopping := hcalm.cancelled hcancelled
    rw [hlevel] at hstopping
    cases hstopping
  have hdrained := hl.all_drained hsummary (.inl ⟨hforced, hsaid⟩)
  obtain ⟨-, hread, hrows, hbatches, hmetrics, hall, hbelow, hcomplete⟩ :=
    summary_of_drained hfollow hsummary hdrained
  refine ⟨_, ⟨hbelow, ?_⟩, hread, hrows, hmetrics metrics inferInstance, hall ▸ hbatches, ?_⟩
  · obtain ⟨t, hreads, hend⟩ := hcomplete.reads
    refine ⟨t, hreads, ?_⟩
    cases hlimit : s.scan.stats.limitReached with
    | true => exact .inl ((hcomplete.limit hscan).symm.trans hlimit)
    | false => exact .inr (hend hscan hlimit)
  · refine Bool.eq_false_iff.2 fun hcancelled => ?_
    rcases cancelled_of_outcome hsummary hcancelled with hstop | ⟨i, report, hp, hreport⟩
    · rw [hscan] at hstop
      cases hstop
    · -- a worker that breaks off has been forced to, or was told that it was cancelled
      rcases hl.stops i _ hp hreport with hstop | hstop
      · rw [hforced] at hstop
        cases hstop
      · exact hsaid hstop

/-! ### Runs that only count -/

/-- The store answers. -/
def Event.answers : Event → Bool
  | .connected _ _ | .answered _ _ | .disconnected _ _ => true
  | _ => false

/-- The store answers only when it is asked. -/
theorem asksStore_of_step (h : step plan s event = some t) (hanswers : event.answers = true) :
    ∃ (i : Nat) (w : Worker β), s.workers[i]? = some w ∧ w.asksStore plan.sending = true := by
  cases event with
  | connected i result =>
    obtain ⟨w, hw, h⟩ := Option.bind_eq_some_iff.1 h
    refine ⟨i, w, hw, ?_⟩
    simp only [State.connectWorker] at h
    split at h
    · rename_i hphase
      split at h
      · rename_i hsending
        rw [Worker.asksStore, hphase]
        exact hsending
      · cases h
    · cases h
  | answered i result =>
    obtain ⟨w, hw, h⟩ := Option.bind_eq_some_iff.1 h
    refine ⟨i, w, hw, ?_⟩
    simp only [State.answerWorker] at h
    split at h
    · rename_i b a hphase
      obtain ⟨a', ha, -⟩ := Option.map_eq_some_iff.1 h
      rw [Worker.asksStore, hphase]
      cases a with
      | calling n => rfl
      | _ => cases ha
    · cases h
  | disconnected i result =>
    obtain ⟨w, hw, h⟩ := Option.bind_eq_some_iff.1 h
    refine ⟨i, w, hw, ?_⟩
    simp only [State.disconnectWorker] at h
    split at h
    · rename_i ending backoff hphase
      split at h
      · rename_i hconnected
        rw [Worker.asksStore, hphase]
        exact hconnected
      · cases h
    · cases h
  | _ => cases hanswers

/-- Where batches are only counted, no worker asks the store for anything. -/
theorem asksStore_eq_false (hsending : plan.sending = false)
    (h : Course plan (first plan source workers capacity bucket stopping) events log s) (i : Nat) (w : Worker β)
    (hw : s.workers[i]? = some w) : w.asksStore plan.sending = false := by
  have hbooks := (ledger_of_course h).books i _ (State.phases_getElem? hw)
  have hsound := (explained_of_course h).workers i w hw
  rw [hsending] at hsound hbooks ⊢
  rw [Worker.asksStore]
  split
  · rfl
  · rename_i b n hphase
    obtain ⟨m, hm⟩ := (hbooks.counted rfl).2 b _ hphase
    cases hm
  · exact Bool.eq_false_iff.2 fun hconnected => Bool.false_ne_true (hsound.connected hconnected)
  · rfl

theorem answers_eq_false (hsending : plan.sending = false)
    (h : Course plan (first plan source workers capacity bucket stopping) events log s) :
    ∀ event ∈ events, event.answers = false := by
  induction h with
  | start => exact List.forall_mem_nil _
  | @next events log s t event hcourse hstep ih =>
    intro e he
    rcases List.mem_append.1 he with he | he
    · exact ih e he
    · obtain rfl := List.mem_singleton.1 he
      refine Bool.eq_false_iff.2 fun hanswers => ?_
      obtain ⟨i, w, hw, hasks⟩ := asksStore_of_step hstep hanswers
      rw [asksStore_eq_false hsending hcourse i w hw] at hasks
      cases hasks

/-! ### Agreement -/

/-- Undisturbed runs over the same points agree, whatever else their plans and their courses are: both have read and
    counted the same, and none says that it was cancelled. And where batches are only counted, no run asks the store
    for anything in any of its states, and no database is prepared. -/
theorem runs_agree [Batch.CountsRows β] {metrics : π → Nat} [Batch.CountsMetrics β metrics] :
    (∀ (plan₁ plan₂ : Plan σ π) (source : σ) (summary₁ summary₂ : Summary), plan₁.scan = plan₂.scan →
      Undisturbed β ν plan₁ source summary₁ → Undisturbed β ν plan₂ source summary₂ →
      summary₁.pointsRead = summary₂.pointsRead ∧ summary₁.rows = summary₂.rows ∧
      summary₁.metrics = summary₂.metrics ∧ summary₁.batches = summary₂.batches ∧
      summary₁.cancelled = false ∧ summary₂.cancelled = false) ∧
    (∀ (plan : Plan σ π) (source : σ) (workers capacity : Nat) (bucket : Option (TokenBucket ν)) (stopping : Stopping)
      (events : List Event) (s : State σ π β ν), plan.sending = false →
      follow plan (first plan source workers capacity bucket stopping) events = some s →
      (∀ w ∈ s.workers, w.asksStore plan.sending = false) ∧ ∀ event ∈ events, event.answers = false) ∧
    ∀ {ω : Type} (t : Target) (settings : Settings) (network : Web.Network ω) (state : ω),
      settings.run.sending = false → Load.prepare t settings network state = (.ok (), state) := by
  refine ⟨?_, ?_, ?_⟩
  · intro plan₁ plan₂ source summary₁ summary₂ hscan h₁ h₂
    obtain ⟨points, hwhole, hread, hrows, hmetrics, hbatches, hcancelled⟩ := h₁.summary_eq
    obtain ⟨more, hwhole', hread', hrows', hmetrics', hbatches', hcancelled'⟩ := h₂.summary_eq
    rw [← hscan] at hwhole' hbatches'
    obtain rfl := hwhole.unique hwhole'
    exact ⟨hread.trans hread'.symm, hrows.trans hrows'.symm, hmetrics.trans hmetrics'.symm,
      hbatches.trans hbatches'.symm, hcancelled, hcancelled'⟩
  · intro plan source workers capacity bucket stopping events s hsending h
    refine ⟨?_, answers_eq_false hsending (course_of_follow h)⟩
    intro w hw
    obtain ⟨i, hi⟩ := List.mem_iff_getElem?.1 hw
    exact asksStore_eq_false hsending (course_of_follow h) i w hi
  · intro ω t settings network state hsending
    have hprepares : preparesDatabase settings.run = false := by rw [preparesDatabase, hsending, Bool.false_and]
    unfold Load.prepare
    split
    · rw [if_neg (by rw [hprepares]; exact Bool.false_ne_true)]
    · rfl

end

/-! ### Small runs -/

section
open Rehearsal

/-- The numbers are only counted, and each worker has a queue of its own. -/
def countedOnly : Plan (Feed (Nat × Int)) (Nat × Int) := { singly true with sending := false }

/-- Two workers count, with room for one batch in each queue. -/
def countingStart : State (Feed (Nat × Int)) (Nat × Int) Numbers Float := first countedOnly twoNumbers 2 1 none .none

/-- The first worker counts both numbers, one while the scan goes on, and the second finds its queue drained. -/
def counting : List Event :=
  [.advance 0, .advance 1] ++ List.replicate 8 .scan ++ List.replicate 3 (.advance 0) ++ List.replicate 8 .scan ++
    List.replicate 8 (.advance 0) ++ List.replicate 5 (.advance 1) ++ [.join 1, .join 0, .joinScan]

/-- The store says that it was cancelled. -/
def Event.saysCancelled : Event → Bool
  | .answered _ (.error f) => f.isCancelled
  | _ => false

theorem not_saidCancelled {events : List Event} (h : ∀ event ∈ events, event.saysCancelled = false) :
    ¬SaidCancelled events := by
  rintro ⟨i, f, hmem, hf⟩
  have hsays : f.isCancelled = false := h _ hmem
  rw [hf] at hsays
  cases hsays

/-- A run that sends both numbers and one that only counts them. -/
theorem runs_agree_two_numbers : ∃ s sent counted,
    follow countedOnly countingStart counting = some s ∧ outcome s = some (.ok counted) ∧
    Undisturbed Numbers Float (singly false) twoNumbers sent ∧
    Undisturbed Numbers Float countedOnly twoNumbers counted ∧ sent.rows = 2 ∧ sent.rows = counted.rows ∧
    (∀ event ∈ counting, event.answers = false) := by
  have hsending : (follow (singly false) smallStart accepting).bind figures = some (2, 2, 2, 2, false) := rfl
  have hcounting : (follow countedOnly countingStart counting).bind figures = some (2, 2, 2, 2, false) := rfl
  obtain ⟨s, hs, hfigures⟩ := Option.bind_eq_some_iff.1 hsending
  obtain ⟨t, ht, hfigures'⟩ := Option.bind_eq_some_iff.1 hcounting
  obtain ⟨sent, hsent, hx⟩ := exists_summary hfigures
  obtain ⟨counted, hcounted, -⟩ := exists_summary hfigures'
  have hundisturbed : Undisturbed Numbers Float (singly false) twoNumbers sent :=
    ⟨1, 4, none, .none, accepting, s, rfl, by decide, not_saidCancelled (by decide), hs, hsent⟩
  have hundisturbed' : Undisturbed Numbers Float countedOnly twoNumbers counted :=
    ⟨2, 1, none, .none, counting, t, rfl, by decide, not_saidCancelled (by decide), ht, hcounted⟩
  obtain ⟨-, hrows, -⟩ := runs_agree.1 (singly false) countedOnly twoNumbers sent counted rfl hundisturbed hundisturbed'
  obtain ⟨-, hanswers⟩ := runs_agree.2.1 countedOnly twoNumbers 2 1 none .none counting t rfl ht
  exact ⟨t, sent, counted, ht, hcounted, hundisturbed, hundisturbed', (congrArg (·.1) hx).symm, hrows, hanswers⟩

/-- Two runs in which no one asks for a stop; in the second the store answers that it was cancelled. -/
theorem cancelled_answer_breaks_agreement : ∃ s t sent lost,
    follow (singly false) smallStart accepting = some s ∧ outcome s = some (.ok sent) ∧
    follow (singly false) smallStart cancelling = some t ∧ outcome t = some (.ok lost) ∧
    (∀ event ∈ accepting ++ cancelling, event.asks = false) ∧
    sent.rows = 2 ∧ lost.rows = 0 ∧ lost.cancelled = true := by
  have haccepting : (follow (singly false) smallStart accepting).bind figures = some (2, 2, 2, 2, false) := rfl
  have hcancelling : (follow (singly false) smallStart cancelling).bind figures = some (0, 0, 0, 2, true) := rfl
  obtain ⟨s, hs, hfigures⟩ := Option.bind_eq_some_iff.1 haccepting
  obtain ⟨t, ht, hfigures'⟩ := Option.bind_eq_some_iff.1 hcancelling
  obtain ⟨sent, hsent, hx⟩ := exists_summary hfigures
  obtain ⟨lost, hlost, hy⟩ := exists_summary hfigures'
  exact ⟨s, t, sent, lost, hs, hsent, ht, hlost, by decide, (congrArg (·.1) hx).symm, (congrArg (·.1) hy).symm,
    (congrArg (·.2.2.2.2) hy).symm⟩

end
end Run
end IngestBench
