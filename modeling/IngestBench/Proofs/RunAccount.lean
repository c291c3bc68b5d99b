import IngestBench.Proofs.Account
import IngestBench.Proofs.Ledger

/-! The account of the scan all through a run: what was handed on so far is a first part of the batches that the points
    make that were read so far. -/

namespace IngestBench
namespace Run

variable {σ π β ν : Type}

/-! ### What the scan does in a step -/

section
variable [Batch β π] {plan : Scan.Plan σ π} {scan scan' : Scan σ π β} {pool pool' : Pool β} {stop : Bool}

theorem points_scanDeeds (h : scan.advance plan stop pool = some (scan', pool')) :
    (scanDeeds scan.phase scan'.phase).points = scan'.phase.incoming := by
  obtain ⟨source, slots, stats, phase⟩ := scan
  cases phase with
  | sending k b last => cases h
  | finished fault => cases h
  | opening =>
    simp only [Scan.advance] at h
    split at h <;> cases h <;> rfl
  | deciding =>
    simp only [Scan.advance] at h
    split at h
    · cases h
      rfl
    · split at h <;> cases h <;> rfl
  | reading =>
    simp only [Scan.advance] at h
    split at h <;> cases h <;> rfl
  | placing p =>
    simp only [Scan.advance] at h
    split at h
    · split at h
      · cases h
        rfl
      · cases h
        split <;> rfl
    · cases h
      rfl
  | trading k =>
    simp only [Scan.advance] at h
    split at h <;> cases h <;> rfl
  | flushing k =>
    simp only [Scan.advance] at h
    split at h
    · cases h
      rfl
    · split at h <;> cases h <;> rfl

theorem counted_pool {s t : State σ π β ν} {p q : Worker.Phase β} (h : Counted s t p q) :
    t.pool = s.pool ∨ ∃ b, t.pool = s.pool.put (Batch.reset b) := by
  unfold Counted at h
  split at h
  · next b _ => exact .inr ⟨b, h.2⟩
  · exact .inl h.2

end

/-! ### The account -/

section
variable [Batch β π] [Batch.CountsRows β] [Quantity ν] {plan : Plan σ π} {source : σ} {workers capacity : Nat}
  {bucket : Option (TokenBucket ν)} {stopping : Stopping} {events : List Event} {log : Log π (Noted β)}
  {s : State σ π (Noted β) ν}

/-- The account of the scan, and a clean pool. -/
structure Accounted (plan : Plan σ π) (source : σ) (log : Log π (Noted β)) (s : State σ π (Noted β) ν) : Prop where
  account : Scan.Account plan.scan (fun _ _ => True) source log.points (Scan.contents log.sent) s.scan
  clean : Scan.Clean s.pool

theorem accounted_of_course (h : Course plan (first plan source workers capacity bucket stopping) events log s) :
    Accounted plan source log s := by
  induction h with
  | start => exact ⟨Scan.account_start source, Scan.clean_empty _⟩
  | @next events log s t event _ hstep ih =>
    cases turn_of_step hstep with
    | quiet _ hquiet hdeeds =>
      rw [hdeeds, List.append_nil]
      refine ⟨?_, ?_⟩
      · rw [hquiet.scan]
        exact ih.account
      · rw [hquiet.pool]
        exact ih.clean
    | scan _ hscanned hdeeds =>
      rw [hdeeds]
      cases hscanned with
      | moved scan pool hoffered hadvance ht =>
        obtain ⟨haccount, hclean⟩ := ih.account.advance ih.clean (fun _ => trivial) hadvance
        rw [ht, State.setScan_scan]
        refine ⟨?_, ?_⟩
        · rw [Log.points_append, Log.sent_append, points_scanDeeds hadvance,
            sent_scanDeeds (offered_eq_none hoffered), List.append_nil, State.setScan_scan]
          exact haccount
        · rw [State.setScan_pool]
          exact hclean
      | handed k b c hoffered hc hclosed ht =>
        rw [ht, State.setScan_scan, scanDeeds_sent hoffered]
        refine ⟨?_, ?_⟩
        · have hpoints : Log.points (log ++ [.sent k b]) = log.points := by simp [Log.points, Deed.read?]
          have hsent : Log.sent (log ++ [.sent k b]) = log.sent ++ [(k, b)] := by simp [Log.sent, Deed.sent?]
          rw [hpoints, hsent, Scan.contents_append_singleton, State.setScan_scan]
          exact ih.account.handOn hoffered
        · rw [State.setScan_pool]
          exact ih.clean
      | turnedAway k b c hoffered hc hclosed ht =>
        rw [ht, State.setScan_scan, scanDeeds_turnedAway hoffered, List.append_nil]
        refine ⟨?_, ?_⟩
        · rw [State.setScan_scan]
          exact ih.account.turnedAway hoffered
        · rw [State.setScan_pool]
          exact ih.clean
    | worker i p q _ hworked hdeeds =>
      rw [hdeeds, ← worksOf]
      refine ⟨?_, ?_⟩
      · rw [Log.points_append, Log.sent_append, points_worksOf, sent_worksOf, List.append_nil, List.append_nil,
          hworked.scan]
        exact ih.account
      · rcases counted_pool hworked.counted with hpool | ⟨b, hpool⟩
        · rw [hpool]
          exact ih.clean
        · rw [hpool]
          exact ih.clean.put b

end

/-! ### Noted runs -/

section
variable [Batch β π] [Quantity ν] {plan : Plan σ π} {source : σ} {workers capacity : Nat}
  {bucket : Option (TokenBucket ν)} {stopping : Stopping} {events : List Event} {s : State σ π β ν}

/-- Forgets the points that are noted beside batches. -/
def Log.plain (log : Log π (Noted β)) : Log π β := log.map (Deed.map Noted.batch)

theorem Log.points_plain (log : Log π (Noted β)) : log.plain.points = log.points := by
  rw [Log.plain, Log.points, List.filterMap_map, Log.points]
  refine List.filterMap_congr fun deed _ => ?_
  cases deed <;> rfl

theorem Log.sent_plain (log : Log π (Noted β)) : log.plain.sent = log.sent.map fun x => (x.1, x.2.batch) := by
  rw [Log.plain, Log.sent, List.filterMap_map, Log.sent, List.map_filterMap]
  refine List.filterMap_congr fun deed _ => ?_
  cases deed <;> rfl

/-- Beside each run there is a run with noted batches in which the same is done. -/
theorem exists_noted (h : follow plan (first plan source workers capacity bucket stopping) events = some s) :
    ∃ t : State σ π (Noted β) ν, follow plan (first plan source workers capacity bucket stopping) events = some t ∧
      t.map Noted.batch = s ∧
      deeds plan (first plan source workers capacity bucket stopping : State σ π β ν) events =
        (deeds plan (first plan source workers capacity bucket stopping : State σ π (Noted β) ν) events).plain := by
  rw [← first_map (f := Noted.batch (β := β))] at h ⊢
  rw [follow_map Noted.alike] at h
  obtain ⟨t, ht, rfl⟩ := Option.map_eq_some_iff.1 h
  exact ⟨t, ht, rfl, deeds_map Noted.alike plan _ events⟩

end
end Run
end IngestBench
