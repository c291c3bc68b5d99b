import IngestBench.Proofs.Conservation

/-! What workers count for themselves. A worker counts the batches that it has delivered, and at its end it reports what
    it has counted. -/

namespace IngestBench
namespace Run

variable {σ π β ν : Type} [Batch β π]

/-- What a worker has counted after it has done so much. -/
structure Tally (tasks : List (Task β)) (w : Worker β) : Prop where
  rows : w.counts.rows = totalRows (tasks.filterMap Task.delivered?)
  metrics : w.counts.metrics = totalMetrics (tasks.filterMap Task.delivered?)
  batches : w.batches = (tasks.filterMap Task.delivered?).length
  report : ∀ report, w.phase = .ended (.ok report) → report.counts = w.counts ∧ report.batches = w.batches

section
variable {plan : Plan σ π} {event : Event} {events : List Event} {log : Log π β} {s t : State σ π β ν} {i : Nat}
  {w w' : Worker β} {p q : Worker.Phase β}

theorem reported_of_tallied {report : WorkerReport} (h : Tallied w w' p (.ended (.ok report))) :
    report.counts = w'.counts ∧ report.batches = w'.batches := by
  have hreport : w'.counts = w.counts ∧ w'.batches = w.batches ∧ report.counts = w.counts ∧ report.batches = w.batches := by
    cases p <;> exact h
  obtain ⟨hcounts, hbatches, hreport, hreported⟩ := hreport
  exact ⟨hreport.trans hcounts.symm, hreported.trans hbatches.symm⟩

/-- A worker counts a batch, or nothing. -/
theorem tallied_cases {sending forced : Bool} {fails : Failure → Prop} {c d : Channel β}
    (hmove : Worker.Move sending forced fails i p c q d) (h : Tallied w w' p q) :
    (∃ b, (p.tasks q).filterMap Task.delivered? = [b] ∧ w'.counts = w.counts + Batch.counts b ∧
      w'.batches = w.batches + 1) ∨
    ((p.tasks q).filterMap Task.delivered? = [] ∧ w'.counts = w.counts ∧ w'.batches = w.batches) := by
  cases hmove with
  | deliver => exact .inl ⟨_, rfl, h⟩
  | attempt h' =>
    refine .inr ⟨?_, h⟩
    cases h' <;> rfl
  | @part _ _ ending backoff v closed _ =>
    refine .inr ⟨rfl, ?_⟩
    cases hresult : v.result ending backoff closed with
    | ok report =>
      rw [hresult] at h
      exact ⟨h.1, h.2.1⟩
    | error failure =>
      rw [hresult] at h
      exact h
  | _ => exact .inr ⟨rfl, h⟩

theorem Tally.worked {tasks : List (Task β)} {sending forced : Bool} {fails : Failure → Prop} {c d : Channel β}
    (ht : Tally tasks w) (hmove : Worker.Move sending forced fails i p c q d) (h : Tallied w w' p q)
    (hq : w'.phase = q) : Tally (tasks ++ p.tasks q) w' := by
  have hreport : ∀ report, w'.phase = .ended (.ok report) → report.counts = w'.counts ∧ report.batches = w'.batches :=
    fun report hended => by
      rw [← hq, hended] at h
      exact reported_of_tallied h
  rcases tallied_cases hmove h with ⟨b, hdelivered, hcounts, hbatches⟩ | ⟨hdelivered, hcounts, hbatches⟩
  · refine ⟨?_, ?_, ?_, hreport⟩
    · rw [hcounts, List.filterMap_append, hdelivered, totalRows, List.map_append, List.sum_append, ← totalRows, ← ht.rows]
      rfl
    · rw [hcounts, List.filterMap_append, hdelivered, totalMetrics, List.map_append, List.sum_append, ← totalMetrics,
        ← ht.metrics]
      rfl
    · rw [hbatches, List.filterMap_append, hdelivered, List.length_append, ← ht.batches]
      rfl
  · refine ⟨?_, ?_, ?_, hreport⟩
    · rw [hcounts, List.filterMap_append, hdelivered, List.append_nil, ht.rows]
    · rw [hcounts, List.filterMap_append, hdelivered, List.append_nil, ht.metrics]
    · rw [hbatches, List.filterMap_append, hdelivered, List.append_nil, ht.batches]

theorem tally_of_course [Quantity ν] {source : σ} {workers capacity : Nat} {bucket : Option (TokenBucket ν)}
    {stopping : Stopping} (h : Course plan (first plan source workers capacity bucket stopping) events log s)
    (hw : s.workers[i]? = some w) : Tally (log.tasks i) w := by
  induction h generalizing i w with
  | start =>
    have hmem := List.mem_of_getElem? hw
    obtain ⟨n, -, rfl⟩ := List.mem_map.1 hmem
    exact ⟨rfl, rfl, rfl, nofun⟩
  | @next events log u v event hcourse hstep ih =>
    cases turn_of_step hstep with
    | quiet _ hquiet hdeeds =>
      rw [hdeeds, List.append_nil]
      have htally := congrArg (·[i]?) hquiet.tallies
      have hphase := congrArg (·[i]?) hquiet.phases
      simp only [State.phases, List.getElem?_map, hw, Option.map_some] at htally hphase
      obtain ⟨w₀, hw₀, hsame⟩ := Option.map_eq_some_iff.1 htally.symm
      rw [hw₀] at hphase
      obtain ⟨hrows, hmetrics, hbatches, hreport⟩ := ih hw₀
      obtain ⟨hcounts, hcount⟩ := Prod.mk.inj hsame
      rw [hcounts] at hrows hmetrics hreport
      rw [hcount] at hbatches hreport
      exact ⟨hrows, hmetrics, hbatches, fun report h => hreport report ((Option.some.inj hphase).symm.trans h)⟩
    | scan _ hscanned hdeeds =>
      rw [hdeeds, Log.tasks_append, tasks_of_works works_scanDeeds, List.append_nil]
      exact ih (hscanned.kept.workers ▸ hw)
    | worker j p q _ hworked hdeeds =>
      obtain ⟨w₀, w₁, hw₀, hworkers, htallied⟩ := hworked.tallied
      rw [hdeeds, ← worksOf, Log.tasks_append, tasks_worksOf]
      rw [hworkers] at hw
      by_cases hij : j = i
      · subst hij
        have hj : j < u.workers.length := (List.getElem?_eq_some_iff.1 hw₀).1
        rw [List.getElem?_set_self hj] at hw
        cases hw
        have hlt : j < u.phases.length := State.length_phases ▸ hj
        have hphase : w.phase = q := by
          have hv : v.workers[j]? = some w := by rw [hworkers, List.getElem?_set_self hj]
          have h := State.phases_getElem? hv
          rw [hworked.phases, List.getElem?_set_self hlt] at h
          exact (Option.some.inj h).symm
        obtain ⟨d, hmove, -⟩ := hworked.move _
          (List.getElem?_eq_getElem ((ledger_of_course hcourse).wired j hlt))
        rw [if_pos rfl]
        exact (ih hw₀).worked hmove htallied hphase
      · rw [List.getElem?_set_ne hij] at hw
        rw [if_neg hij, List.append_nil]
        exact ih hw

end
end Run
end IngestBench
