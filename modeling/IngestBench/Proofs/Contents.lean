import IngestBench.Line
import IngestBench.Record
import IngestBench.Rehearsal.Numbers
import Mathlib.Algebra.GroupWithZero.Nat

/-! What batches hold. A run knows a batch by its counts only, so the laws here say how the counts follow from the
    points: each point is one row, and adds its own metrics. A noted batch carries the points that it took in, in
    order; forgetting them again is a map of batches that a run cannot tell from the batches themselves. -/

namespace IngestBench

/-! ### Laws of batches -/

namespace Batch

/-- A batch that is new, or was reset, is empty, and each point that it takes in is one more row. -/
class CountsRows (β : Type) {π : Type} [Batch β π] : Prop where
  rows_empty : (counts (empty : β)).rows = 0
  rows_reset : ∀ b : β, (counts (reset b)).rows = 0
  rows_append : ∀ {b b' : β} {p : π}, append b p = .ok b' → (counts b').rows = (counts b).rows + 1

/-- A batch that is new, or was reset, has no metrics, and each point that it takes in adds its own. -/
class CountsMetrics (β : Type) {π : Type} [Batch β π] (metrics : outParam (π → Nat)) : Prop where
  metrics_empty : (counts (empty : β)).metrics = 0
  metrics_reset : ∀ b : β, (counts (reset b)).metrics = 0
  metrics_append : ∀ {b b' : β} {p : π}, append b p = .ok b' →
    (counts b').metrics = (counts b).metrics + metrics p

/-- A batch that was empty, and then took in these points in this order. -/
inductive Holds {β π : Type} [Batch β π] : β → List π → Prop
  | empty : Holds empty []
  | reset (b : β) : Holds (reset b) []
  | append {b b' : β} {points : List π} {p : π} : Holds b points → append b p = .ok b' → Holds b' (points ++ [p])

section
variable {β π : Type} [Batch β π] {b : β} {points : List π}

theorem Holds.rows [CountsRows β] (h : Holds b points) : (counts b).rows = points.length := by
  induction h with
  | empty => exact CountsRows.rows_empty
  | reset b => exact CountsRows.rows_reset b
  | append _ happ ih => rw [CountsRows.rows_append happ, ih, List.length_append, List.length_singleton]

theorem Holds.metrics {metrics : π → Nat} [CountsMetrics β metrics] (h : Holds b points) :
    (counts b).metrics = (points.map metrics).sum := by
  induction h with
  | empty => exact CountsMetrics.metrics_empty
  | reset b => exact CountsMetrics.metrics_reset b
  | append _ happ ih =>
    rw [CountsMetrics.metrics_append happ, ih]
    simp

end

end Batch

/-! ### Lines, records and numbers -/

namespace LineBatch

theorem append_eq_ok {b b' : LineBatch} {line : Line} (h : b.append line = .ok b') :
    ∃ n, line.metrics = .ok n ∧ b' = ⟨b.body ++ line.text ++ "\n", b.rows + 1, b.metrics + n⟩ := by
  unfold append at h
  split at h
  · cases h
  · next n hn =>
    cases h
    exact ⟨n, hn, rfl⟩

instance : Batch.CountsRows LineBatch where
  rows_empty := rfl
  rows_reset _ := rfl
  rows_append h := by
    obtain ⟨n, -, rfl⟩ := append_eq_ok h
    rfl

instance : Batch.CountsMetrics LineBatch fun line => line.metrics.toOption.getD 0 where
  metrics_empty := rfl
  metrics_reset _ := rfl
  metrics_append {b b' p} h := by
    obtain ⟨n, hn, rfl⟩ := append_eq_ok h
    simp [Batch.counts, hn, Except.toOption]

end LineBatch

namespace RecordBatch

theorem append_eq_ok {b b' : RecordBatch} {r : Record} (h : b.append r = .ok b') :
    b' = {
      tables := b.tables.update r.measurement fun rows => (rows.getD #[]).push r.row
      rows := b.rows + 1
      metrics := b.metrics + r.row.valueCount } := by
  unfold append at h
  split at h
  · cases h
  · split at h
    · cases h
    · exact (Except.ok.inj h).symm

instance : Batch.CountsRows RecordBatch where
  rows_empty := rfl
  rows_reset _ := rfl
  rows_append h := by
    rw [append_eq_ok h]
    rfl

instance : Batch.CountsMetrics RecordBatch fun r => r.row.valueCount where
  metrics_empty := rfl
  metrics_reset _ := rfl
  metrics_append h := by
    rw [append_eq_ok h]
    rfl

end RecordBatch

namespace Rehearsal.Numbers

theorem append_eq_ok {b b' : Numbers} {p : Nat × Int} (h : Batch.append b p = .ok b') :
    b' = ⟨b.values ++ [p.2]⟩ := by
  simp only [Batch.append] at h
  split at h
  · cases h
  · cases h
    rfl

instance : Batch.CountsRows Numbers where
  rows_empty := rfl
  rows_reset _ := rfl
  rows_append h := by
    cases append_eq_ok h
    simp [Batch.counts]

instance : Batch.CountsMetrics Numbers fun _ => 1 where
  metrics_empty := rfl
  metrics_reset _ := rfl
  metrics_append h := by
    cases append_eq_ok h
    simp [Batch.counts]

end Rehearsal.Numbers

/-! ### Noted batches -/

/-- A batch with the points that it took in since it was last empty, in order. -/
structure Noted (β : Type) {π : Type} [Batch β π] where
  batch : β
  points : List π
  holds : Batch.Holds batch points

namespace Noted

variable {β π : Type} [Batch β π]

instance : Batch (Noted β) π where
  empty := ⟨Batch.empty, [], .empty⟩
  counts b := Batch.counts b.batch
  append b p :=
    match h : Batch.append b.batch p with
    | .ok batch => .ok ⟨batch, b.points ++ [p], b.holds.append h⟩
    | .error fault => .error fault
  reset b := ⟨Batch.reset b.batch, [], .reset b.batch⟩

theorem append_eq_ok {b b' : Noted β} {p : π} (h : Batch.append b p = .ok b') :
    Batch.append b.batch p = .ok b'.batch ∧ b'.points = b.points ++ [p] := by
  simp only [Batch.append] at h
  split at h
  · next batch hb =>
    cases h
    exact ⟨hb, rfl⟩
  · cases h

theorem append_eq_error {b : Noted β} {p : π} {fault : Failure} (h : Batch.append b p = .error fault) :
    Batch.append b.batch p = .error fault := by
  simp only [Batch.append] at h
  split at h
  · cases h
  · next fault' hfault =>
    cases h
    exact hfault

@[simp] theorem rows_eq [Batch.CountsRows β] (b : Noted β) : (Batch.counts b).rows = b.points.length := b.holds.rows

end Noted

/-! ### Maps of batches -/

/-- A map of batches that keeps all that a run can see of them. -/
structure Batch.Alike {β γ π : Type} [Batch β π] [Batch γ π] (f : β → γ) : Prop where
  empty : f Batch.empty = Batch.empty
  counts : ∀ b, Batch.counts (f b) = Batch.counts b
  append : ∀ b p, Batch.append (f b) p = (Batch.append b p).map f
  reset : ∀ b, f (Batch.reset b) = Batch.reset (f b)

/-- Forgetting the points of a noted batch changes nothing that a run can see. -/
theorem Noted.alike {β π : Type} [Batch β π] : Batch.Alike (Noted.batch (β := β)) where
  empty := rfl
  counts _ := rfl
  append b p := by
    show Batch.append b.batch p = _
    simp only [Batch.append]
    split <;> next h => exact h
  reset _ := rfl

end IngestBench
