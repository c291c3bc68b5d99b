import IngestBench.Proofs.RunAccount
import IngestBench.Quantity
import IngestBench.Rehearsal.Feed
import Mathlib.Algebra.Order.BigOperators.Group.List
import Mathlib.Algebra.Order.Group.Nat
import Mathlib.Data.List.Flatten

/-! Conservation: each batch that the scan hands on is taken by one worker, once, and in order; the counters show the
    sums over the batches that were delivered; and a run that ends without a stop has delivered every point that was
    read. -/

namespace IngestBench
namespace Run

open Chunks

variable {σ π β γ ν : Type}

/-! ### Logs as a whole -/

namespace Log

variable {log : Log π β} {n : Nat}

/-- The batches that were taken. -/
def taken (log : Log π β) : List β := log.works.filterMap (·.2.took?)

/-- What all workers did, worker by worker. -/
theorem perm_flatMap_tasks (h : ∀ x ∈ log.works, x.1 < n) (f : Task β → Option γ) :
    (log.works.filterMap fun x => f x.2).Perm ((List.range n).flatMap fun i => (log.tasks i).filterMap f) := by
  refine ((perm_flatMap_filter Prod.fst n log.works h).filterMap _).trans (.of_eq ?_)
  rw [List.filterMap_flatMap]
  refine List.flatMap_congr fun i _ => ?_
  rw [tasks, List.filterMap_map]
  rfl

/-- What was taken, queue by queue. -/
theorem perm_flatMap_takenFrom (log : Log π β) {dedicated : Bool} (h : ∀ x ∈ log.works, channelIndex dedicated x.1 < n) :
    log.taken.Perm ((List.range n).flatMap fun k => log.takenFrom dedicated k) := by
  refine ((perm_flatMap_filter (fun x => channelIndex dedicated x.1) n log.works h).filterMap _).trans (.of_eq ?_)
  rw [List.filterMap_flatMap]
  rfl

/-- What was handed on, queue by queue. -/
theorem perm_flatMap_sentTo (log : Log π β) (hn : 0 < n) :
    (log.sent.map (·.2)).Perm ((List.range n).flatMap fun k => log.sentTo n k) := by
  have hroute : ∀ x ∈ log.sent, Queue.route n x.1 < n := fun x _ => Nat.mod_lt _ hn
  refine ((perm_flatMap_filter (fun x => Queue.route n x.1) n log.sent hroute).map _).trans (.of_eq ?_)
  rw [List.map_flatMap]
  rfl

end Log

/-! ### Results of workers -/

theorem collect_eq_ok {results : List (Except Failure WorkerReport)} {reports : List WorkerReport}
    (h : collect results = .ok reports) : results = reports.map .ok := by
  induction results generalizing reports with
  | nil =>
    cases h
    rfl
  | cons result results ih =>
    cases result with
    | error failure => cases h
    | ok report =>
      simp only [collect] at h
      cases hrest : collect results with
      | error failure =>
        rw [hrest] at h
        cases h
      | ok more =>
        rw [hrest] at h
        cases h
        rw [ih hrest, List.map_cons]

theorem resultOf_eq {s : State σ π β ν} {i : Nat} {r : Except Failure WorkerReport} (h : s.phases[i]? = some (.ended r)) :
    s.resultOf i = some r := by
  obtain ⟨w, hw, hphase⟩ := State.exists_worker h
  simp only [State.resultOf, hw, bind, Option.bind, hphase]

theorem phase_of_resultOf {s : State σ π β ν} {i : Nat} {r : Except Failure WorkerReport} (h : s.resultOf i = some r) :
    s.phases[i]? = some (.ended r) := by
  simp only [State.resultOf, bind, Option.bind_eq_some_iff] at h
  obtain ⟨w, hw, h⟩ := h
  split at h
  · rename_i result hended
    cases h
    rw [State.phases_getElem? hw, hended]
  · cases h

/-! ### Taken and delivered -/

/-- All workers have found their queues drained, and hold no batch. -/
def State.Drained (s : State σ π β ν) : Prop :=
  ∀ (i : Nat) (p : Worker.Phase β), s.phases[i]? = some p → p.stage = .drained ∧ p.inHand = []

section
variable [Batch β π] {plan : Plan σ π} {events : List Event} {log : Log π β} {s : State σ π β ν}

theorem Ledger.takenFrom_isPrefix (hl : Ledger plan events log s) (k : Nat) :
    log.takenFrom plan.dedicated k <+: log.sentTo s.channels.length k := by
  by_cases hk : k < s.channels.length
  · exact (hl.flow k _ (List.getElem?_eq_getElem hk)).taken_isPrefix
  · have hnil : log.takenFrom plan.dedicated k = [] := by
      have hnone : (log.works.filter fun x => channelIndex plan.dedicated x.1 == k) = [] := by
        refine List.filter_eq_nil_iff.2 fun x hx h => hk ?_
        have := hl.wired x.1 (hl.works x hx)
        rwa [beq_iff_eq.1 h] at this
      rw [Log.takenFrom, hnone]
      rfl
    rw [hnil]
    exact List.nil_prefix

/-- Each batch is taken at most once. -/
theorem Ledger.taken_subperm (hl : Ledger plan events log s) : log.taken.Subperm (log.sent.map (·.2)) := by
  have htaken := log.perm_flatMap_takenFrom fun x hx => hl.wired x.1 (hl.works x hx)
  have hsent := log.perm_flatMap_sentTo hl.queues
  have hsub := List.Sublist.flatMap_right (List.range s.channels.length) fun k _ => (hl.takenFrom_isPrefix k).sublist
  exact htaken.subperm.trans (hsub.subperm.trans hsent.symm.subperm)

/-- Each batch that was delivered was taken. -/
theorem Ledger.delivered_subperm (hl : Ledger plan events log s) : log.delivered.Subperm log.taken := by
  have htaken := Log.perm_flatMap_tasks hl.works Task.took?
  have hdelivered := Log.perm_flatMap_tasks hl.works Task.delivered?
  have hsub : ∀ i ∈ List.range s.phases.length,
      ((log.tasks i).filterMap Task.delivered?).Sublist ((log.tasks i).filterMap Task.took?) := fun i hi => by
    have hbooks := hl.books i _ (List.getElem?_eq_getElem (List.mem_range.1 hi))
    rw [hbooks.taken, List.append_assoc]
    exact List.sublist_append_left _ _
  exact hdelivered.subperm.trans ((List.Sublist.flatMap_right _ hsub).subperm.trans htaken.symm.subperm)

/-- When all workers have found their queues drained, all that was handed on was taken. -/
theorem Ledger.takenFrom_eq (hl : Ledger plan events log s)
    (hdrained : s.Drained) {k : Nat}
    (hk : k < s.channels.length) : log.takenFrom plan.dedicated k = log.sentTo s.channels.length k := by
  have hbroken : ¬At .broken plan.dedicated k s.phases := fun ⟨i, p, hp, _, hstage⟩ => by
    rw [(hdrained i p hp).1] at hstage
    cases hstage
  obtain ⟨i, hi, hik⟩ := hl.manned k hk
  have hp := List.getElem?_eq_getElem hi
  exact (hl.flow k _ (List.getElem?_eq_getElem hk)).taken_eq ⟨i, _, hp, hik, (hdrained i _ hp).1⟩ hbroken

/-- When all workers have found their queues drained, all that was handed on is delivered. -/
theorem Ledger.delivered_perm (hl : Ledger plan events log s)
    (hdrained : s.Drained) :
    log.delivered.Perm (log.sent.map (·.2)) := by
  have htaken : ∀ k ∈ List.range s.channels.length,
      log.takenFrom plan.dedicated k = log.sentTo s.channels.length k := fun k hk =>
    hl.takenFrom_eq hdrained (List.mem_range.1 hk)
  have hdelivered : ∀ i ∈ List.range s.phases.length,
      (log.tasks i).filterMap Task.delivered? = (log.tasks i).filterMap Task.took? := fun i hi => by
    have hp := List.getElem?_eq_getElem (List.mem_range.1 hi)
    obtain ⟨hstage, hhand⟩ := hdrained i _ hp
    have hbooks := hl.books i _ hp
    rw [hbooks.taken, hhand, hbooks.kept fun h => by rw [hstage] at h; cases h]
    simp
  have hworks := (Log.perm_flatMap_tasks hl.works Task.delivered?).trans
    (.trans (.of_eq (List.flatMap_congr hdelivered)) (Log.perm_flatMap_tasks hl.works Task.took?).symm)
  have hqueues := (log.perm_flatMap_takenFrom fun x hx => hl.wired x.1 (hl.works x hx)).trans
    (.trans (.of_eq (List.flatMap_congr htaken)) (log.perm_flatMap_sentTo hl.queues).symm)
  exact hworks.trans hqueues

theorem Ledger.queueClosed_eq_false (hl : Ledger plan events log s)
    (hdrained : s.Drained) :
    s.scan.stats.queueClosed = false := by
  refine Bool.eq_false_iff.2 fun hclosed => ?_
  obtain ⟨i, p, hp, hstage⟩ := hl.refused hclosed
  rw [(hdrained i p hp).1] at hstage
  cases hstage

/-! ### Runs that do not fail -/

/-- What a run that does not fail comes to. -/
theorem Ledger.outcome_eq_ok (hl : Ledger plan events log s) {summary : Summary}
    (h : outcome s = some (.ok summary)) : ∃ stats reports, s.scan.result? = some (.ok stats) ∧
      summary = summarize s.workers.length s.counters (s.now.since 0) stats reports ∧
      ∀ (i : Nat) (p : Worker.Phase β), s.phases[i]? = some p → ∃ report ∈ reports, p = .ended (.ok report) := by
  simp only [outcome] at h
  split at h
  · next hover =>
    obtain ⟨result, hresult, h⟩ := Option.map_eq_some_iff.1 h
    cases result with
    | error fault => cases h
    | ok stats =>
      cases hreports : collect s.results with
      | error failure =>
        rw [hreports] at h
        cases h
      | ok reports =>
        rw [hreports] at h
        cases h
        refine ⟨stats, reports, hresult, rfl, fun i p hp => ?_⟩
        have hi : i < s.workers.length := State.length_phases ▸ (List.getElem?_eq_some_iff.1 hp).1
        have hjoined : i ∈ s.joined := by
          simp only [State.isOver, Bool.and_eq_true, List.all_eq_true] at hover
          exact List.contains_iff_mem.1 (hover.2 i (List.mem_range.2 hi))
        obtain ⟨r, hr⟩ := hl.joined i hjoined
        cases hp.symm.trans hr
        have hmem : r ∈ s.results := List.mem_filterMap.2 ⟨i, hjoined, resultOf_eq hr⟩
        rw [collect_eq_ok hreports] at hmem
        obtain ⟨report, hreport, rfl⟩ := List.mem_map.1 hmem
        exact ⟨report, hreport, rfl⟩
  · cases h

/-- In a run that does not fail, and in which no one breaks off because of a stop, all workers find their queues
    drained. -/
theorem Ledger.all_drained (hl : Ledger plan events log s) {summary : Summary} (h : outcome s = some (.ok summary))
    (hstop : (s.isForced = false ∧ ¬SaidCancelled events) ∨ summary.cancelled = false) : s.Drained := by
  intro i p hp
  obtain ⟨stats, reports, -, rfl, hended⟩ := hl.outcome_eq_ok h
  obtain ⟨report, hmem, rfl⟩ := hended i p hp
  refine ⟨?_, rfl⟩
  -- A worker that has not failed, and was not cancelled, has found its queue drained.
  have hcancelled : report.cancelled = false := by
    rcases hstop with ⟨hforced, hsaid⟩ | hsummary
    · refine Bool.eq_false_iff.2 fun hcancelled => ?_
      rcases hl.stops i _ hp hcancelled with h | h
      · rw [hforced] at h
        cases h
      · exact hsaid h
    · simp only [summarize, Bool.or_eq_false_iff, List.any_eq_false] at hsummary
      exact Bool.eq_false_iff.2 (hsummary.2 report hmem)
  simp only [Worker.Phase.stage, hcancelled]
  rfl

end

/-! ### Sums -/

section
variable [Batch β π]

/-- How many points some batches hold. -/
def totalRows (batches : List β) : Nat := (batches.map fun b => (Batch.counts b).rows).sum

/-- How many values the points of some batches have. -/
def totalMetrics (batches : List β) : Nat := (batches.map fun b => (Batch.counts b).metrics).sum

theorem totalRows_le {a b : List β} (h : a.Subperm b) : totalRows a ≤ totalRows b := by
  obtain ⟨l, hperm, hsub⟩ := h
  rw [totalRows, ← (hperm.map _).sum_eq]
  exact (hsub.map _).sum_le_sum fun _ _ => Nat.zero_le _

theorem totalRows_perm {a b : List β} (h : a.Perm b) : totalRows a = totalRows b := (h.map _).sum_eq

theorem totalMetrics_perm {a b : List β} (h : a.Perm b) : totalMetrics a = totalMetrics b := (h.map _).sum_eq

theorem totalRows_sent [Batch.CountsRows β] (sent : List (Nat × Noted β)) :
    totalRows (sent.map fun x => x.2.batch) = ((Scan.contents sent).flatMap (·.2)).length := by
  induction sent with
  | nil => rfl
  | cons x sent ih =>
    simp only [totalRows, Scan.contents, List.map_cons, List.sum_cons, List.flatMap_cons, List.length_append] at ih ⊢
    rw [ih, x.2.holds.rows]

theorem totalMetrics_sent (metrics : π → Nat) [Batch.CountsMetrics β metrics] (sent : List (Nat × Noted β)) :
    totalMetrics (sent.map fun x => x.2.batch) = (((Scan.contents sent).flatMap (·.2)).map metrics).sum := by
  induction sent with
  | nil => rfl
  | cons x sent ih =>
    simp only [totalMetrics, Scan.contents, List.map_cons, List.sum_cons, List.flatMap_cons, List.map_append,
      List.sum_append] at ih ⊢
    rw [ih, x.2.holds.metrics]

end

/-! ### Conservation -/

/-- What was handed on holds no more points than were read. -/
theorem Accounted.length_sent_le [Batch β π] [Batch.CountsRows β] {plan : Plan σ π} {source : σ}
    {log : Log π (Noted β)} {s : State σ π (Noted β) ν} (h : Accounted plan source log s) :
    ((Scan.contents log.sent).flatMap (·.2)).length ≤ log.points.length := by
  obtain ⟨before, hbefore, hplace, hsent⟩ := h.account.sent_isPrefix
  have hall := perm_flatten (n := plan.scan.fullSize) Scan.fullSize_pos hplace
  calc ((Scan.contents log.sent).flatMap (·.2)).length
      ≤ ((Scan.allBatches plan.scan before).flatMap (·.2)).length := (hsent.sublist.flatMap _).length_le
    _ = before.length := hall.length_eq
    _ ≤ log.points.length := hbefore.length_le

section
variable [Batch β π] [Quantity ν] {plan : Plan σ π} {source : σ} {workers capacity : Nat}
  {bucket : Option (TokenBucket ν)} {stopping : Stopping} {events : List Event}

/-- What the summary of a run shows in which all workers found their queues drained: the scan has handed on all batches
    that the points make which were read, and all of them were delivered and counted. -/
theorem summary_of_drained [Batch.CountsRows β] {s : State σ π β ν} {summary : Summary}
    (h : follow plan (first plan source workers capacity bucket stopping) events = some s)
    (hsummary : outcome s = some (.ok summary)) (hdrained : s.Drained) :
    let log := deeds plan (first plan source workers capacity bucket stopping : State σ π β ν) events
    log.delivered.Perm (log.sent.map (·.2)) ∧ summary.pointsRead = log.points.length ∧
    summary.rows = Counters.wrap log.points.length ∧ summary.batches = Counters.wrap log.sent.length ∧
    (∀ metrics, Batch.CountsMetrics β metrics → summary.metrics = Counters.wrap (log.points.map metrics).sum) ∧
    log.sent.length = (Scan.allBatches plan.scan log.points).length ∧
    (∀ n < log.points.length, plan.scan.isLimit n = false) ∧
    Scan.Complete plan.scan (fun _ _ => True) source log.points s.scan.stats := by
  intro log
  -- The counters speak of batches, the account of points: the run with noted batches has both.
  obtain ⟨t, ht, hts, hdeeds⟩ := exists_noted h
  have hl : Ledger plan events log s := ledger_of_course (course_of_follow h)
  have hnoted := accounted_of_course (course_of_follow ht)
  have hpoints : log.points = Log.points _ := (congrArg Log.points hdeeds).trans (Log.points_plain _)
  have hsent : log.sent = _ := (congrArg Log.sent hdeeds).trans (Log.sent_plain _)
  generalize deeds plan (first plan source workers capacity bucket stopping : State σ π (Noted β) ν) events = noted at *
  have hbatches : log.sent.map (·.2) = noted.sent.map fun x => x.2.batch := by
    rw [hsent, List.map_map]
    rfl
  have hstats : s.scan.stats = t.scan.stats := by
    rw [← hts]
    rfl
  have hread : s.scan.stats.pointsRead = log.points.length := by
    rw [hstats, hpoints]
    exact hnoted.account.pointsRead
  have hperm := hl.delivered_perm hdrained
  obtain ⟨stats, reports, hresult, rfl, -⟩ := hl.outcome_eq_ok hsummary
  obtain rfl := Scan.stats_of_result hresult
  have hclosed := hl.queueClosed_eq_false hdrained
  have hresult : t.scan.result? = some (.ok s.scan.stats) := by
    rw [← hresult, ← hts]
    exact (Scan.result?_map t.scan).symm
  obtain ⟨hplace, hall, hcomplete⟩ := hnoted.account.sent_eq hresult hclosed
  have hcontents : ((Scan.contents noted.sent).flatMap (·.2)).Perm log.points := by
    rw [hall, hpoints]
    exact perm_flatten Scan.fullSize_pos hplace
  refine ⟨hperm, hread, ?_, ?_, fun metrics hmetrics => ?_, ?_, ?_, ?_⟩
  · show s.counters.rows = _
    rw [hl.rows, ← totalRows, totalRows_perm hperm, hbatches, totalRows_sent, hcontents.length_eq]
  · show s.counters.batches = _
    rw [hl.batches, hperm.length_eq, List.length_map]
  · show s.counters.metrics = _
    rw [hl.metrics, ← totalMetrics, totalMetrics_perm hperm, hbatches, totalMetrics_sent metrics,
      (hcontents.map metrics).sum_eq]
  · rw [hpoints, ← hall, Scan.contents, List.length_map, hsent, List.length_map]
  · rw [hpoints]
    exact fun n hn => (hnoted.account.went n hn).2
  · rw [hpoints]
    exact hcomplete

/-- Every batch that the scan hands on is taken by at most one worker, at most once, and in order; after every step,
    the counters show the sums over the batches that were delivered, which hold no more points than were read. A run
    that does not fail, in which no stop is forced and the store never answers that it was cancelled, or whose summary
    does not say that it was cancelled, has delivered and counted every point that was read. -/
theorem run_conserves [Batch.CountsRows β] {s : State σ π β ν}
    (h : follow plan (first plan source workers capacity bucket stopping) events = some s) :
    let log := deeds plan (first plan source workers capacity bucket stopping : State σ π β ν) events
    (∀ k, log.takenFrom plan.dedicated k <+: log.sentTo s.channels.length k) ∧
    log.taken.Subperm (log.sent.map (·.2)) ∧ log.delivered.Subperm log.taken ∧
    s.counters.rows = Counters.wrap (totalRows log.delivered) ∧
    s.counters.metrics = Counters.wrap (totalMetrics log.delivered) ∧
    s.counters.batches = Counters.wrap log.delivered.length ∧
    s.scan.stats.pointsRead = log.points.length ∧ totalRows log.delivered ≤ log.points.length ∧
    s.scan.stats.batchesSent = log.sent.length ∧ (∃ t, Scan.Reads plan.scan.read source log.points t) ∧
    ∀ summary, outcome s = some (.ok summary) →
      (s.isForced = false ∧ ¬SaidCancelled events) ∨ summary.cancelled = false →
      log.delivered.Perm (log.sent.map (·.2)) ∧ summary.pointsRead = log.points.length ∧
      summary.rows = Counters.wrap log.points.length ∧ summary.batches = Counters.wrap log.sent.length ∧
      ∀ metrics, Batch.CountsMetrics β metrics → summary.metrics = Counters.wrap (log.points.map metrics).sum := by
  intro log
  -- The counters speak of batches, the account of points: the run with noted batches has both.
  obtain ⟨t, ht, hts, hdeeds⟩ := exists_noted h
  have hl : Ledger plan events log s := ledger_of_course (course_of_follow h)
  have hnoted := accounted_of_course (course_of_follow ht)
  have hpoints : log.points = Log.points _ := (congrArg Log.points hdeeds).trans (Log.points_plain _)
  have hsent : log.sent = _ := (congrArg Log.sent hdeeds).trans (Log.sent_plain _)
  generalize deeds plan (first plan source workers capacity bucket stopping : State σ π (Noted β) ν) events = noted at *
  have hbatches : log.sent.map (·.2) = noted.sent.map fun x => x.2.batch := by
    rw [hsent, List.map_map]
    rfl
  have hstats : s.scan.stats = t.scan.stats := by
    rw [← hts]
    rfl
  have hlen : log.sent.length = noted.sent.length := by rw [hsent, List.length_map]
  have hread : s.scan.stats.pointsRead = log.points.length := by
    rw [hstats, hpoints]
    exact hnoted.account.pointsRead
  have hcount : s.scan.stats.batchesSent = log.sent.length := by
    rw [hstats, hlen, hnoted.account.batchesSent, Scan.contents, List.length_map]
  have hbound : totalRows log.delivered ≤ log.points.length := by
    calc totalRows log.delivered
        ≤ totalRows (log.sent.map (·.2)) := totalRows_le (hl.delivered_subperm.trans hl.taken_subperm)
      _ = ((Scan.contents noted.sent).flatMap (·.2)).length := by rw [hbatches, totalRows_sent]
      _ ≤ log.points.length := by
        rw [hpoints]
        exact hnoted.length_sent_le
  refine ⟨hl.takenFrom_isPrefix, hl.taken_subperm, hl.delivered_subperm, hl.rows, hl.metrics, hl.batches, hread, hbound,
    hcount, hpoints ▸ hnoted.account.reads, fun summary hsummary hstop => ?_⟩
  obtain ⟨hperm, hread, hrows, hbatches, hmetrics, -⟩ :=
    summary_of_drained h hsummary (hl.all_drained hsummary hstop)
  exact ⟨hperm, hread, hrows, hbatches, hmetrics⟩

end

/-! ### A small run -/

section
open Rehearsal

/-- Two numbers, read one after the other. -/
def twoNumbers : Feed (Nat × Int) := ⟨[.point (0, 1), .point (0, 2)], none⟩

/-- Each number is a full batch of the only partition. -/
def singly (dedicated : Bool) : Plan (Feed (Nat × Int)) (Nat × Int) where
  scan := { read := Feed.read, partition := Prod.fst, partitions := 1, batchSize := 1, limit := none }
  dedicated := dedicated
  sending := true
  policy := .standard

/-- One worker sends the numbers. -/
def smallStart : State (Feed (Nat × Int)) (Nat × Int) Numbers Float := first (singly false) twoNumbers 1 4 none .none

/-- The scan hands both numbers on while the worker connects. -/
def scanned : List Event := .connected 0 (.ok ()) :: List.replicate 16 .scan

/-- A worker takes a batch, and gets this answer for it. -/
def answering (i : Nat) (result : Except Failure Unit) : List Event :=
  [.advance i, .advance i, .advance i, .answered i result, .advance i, .observe i, .advance i]

/-- A worker finds its queue drained. -/
def draining (i : Nat) : List Event := [.advance i, .advance i]

/-- A worker closes its queue and its connection, and its end is noticed. -/
def parting (i : Nat) : List Event := [.advance i, .advance i, .disconnected i (.ok ()), .join i]

/-- Both numbers are accepted, and the queue is found drained. -/
def accepting : List Event :=
  scanned ++ answering 0 (.ok ()) ++ answering 0 (.ok ()) ++ draining 0 ++ parting 0 ++ [.joinScan]

/-- The store answers that it was cancelled. -/
def cancelling : List Event := scanned ++ answering 0 (.error .cancelled) ++ parting 0 ++ [.joinScan]

/-- Rows, metrics and batches of a summary, the points that were read, and whether it says that the run was
    cancelled. -/
def figures (s : State (Feed (Nat × Int)) (Nat × Int) Numbers Float) : Option (Nat × Nat × Nat × Nat × Bool) :=
  match outcome s with
  | some (.ok summary) => some (summary.rows, summary.metrics, summary.batches, summary.pointsRead, summary.cancelled)
  | _ => none

theorem exists_summary {s : State (Feed (Nat × Int)) (Nat × Int) Numbers Float} {x : Nat × Nat × Nat × Nat × Bool}
    (h : figures s = some x) : ∃ summary, outcome s = some (.ok summary) ∧
      x = (summary.rows, summary.metrics, summary.batches, summary.pointsRead, summary.cancelled) := by
  unfold figures at h
  split at h
  · next summary hsummary =>
    cases h
    exact ⟨summary, hsummary, rfl⟩
  · cases h

/-- A run that delivers both numbers. -/
theorem run_conserves_two_numbers : ∃ s summary, follow (singly false) smallStart accepting = some s ∧
    outcome s = some (.ok summary) ∧ summary.cancelled = false ∧
    summary.rows = Counters.wrap (Log.points (deeds (singly false) smallStart accepting)).length := by
  have hrun : (follow (singly false) smallStart accepting).bind figures = some (2, 2, 2, 2, false) := rfl
  obtain ⟨s, hs, hfigures⟩ := Option.bind_eq_some_iff.1 hrun
  obtain ⟨summary, hsummary, hx⟩ := exists_summary hfigures
  have hcancelled : summary.cancelled = false := (congrArg (·.2.2.2.2) hx).symm
  obtain ⟨-, -, -, -, -, -, -, -, -, -, hall⟩ := run_conserves hs
  obtain ⟨-, -, hrows, -⟩ := hall summary hsummary (.inr hcancelled)
  exact ⟨s, summary, hs, hsummary, hcancelled, hrows⟩

/-- A run in which no one asks for a stop, the store answers that it was cancelled, and both numbers are lost. -/
theorem cancelled_answer_loses_rows : ∃ s summary, follow (singly false) smallStart cancelling = some s ∧
    outcome s = some (.ok summary) ∧ s.isForced = false ∧ summary.rows = 0 ∧ summary.pointsRead = 2 := by
  have hrun : (follow (singly false) smallStart cancelling).bind
      (fun s => (figures s).map fun x => (s.isForced, x)) = some (false, 0, 0, 0, 2, true) := rfl
  obtain ⟨s, hs, hfigures⟩ := Option.bind_eq_some_iff.1 hrun
  obtain ⟨x, hx, hforced⟩ := Option.map_eq_some_iff.1 hfigures
  obtain ⟨summary, hsummary, rfl⟩ := exists_summary hx
  have hrows := congrArg (·.2.1) hforced
  have hread := congrArg (·.2.2.2.2.1) hforced
  exact ⟨s, summary, hs, hsummary, congrArg (·.1) hforced, hrows, hread⟩

end
end Run
end IngestBench
