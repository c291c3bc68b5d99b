import IngestBench.Proofs.LineReplay
import IngestBench.Proofs.Rendering

/-! Batches over any history of points and resets. A point is taken in by steps that change the batch in place, so that
    a step that fails would leave what the steps before it did; the counts and the contents stay in agreement because
    all that can fail comes before all that changes. -/

namespace IngestBench

/-! ### Taking in by steps -/

/-- A batch that takes points in by steps. What was changed before a step that fails stays changed, and yet the batch is
    what appending makes of it, and as it was where the point is refused. -/
class InPlace (β : Type) {π : outParam Type} [Batch β π] where
  take : π → ExceptT Failure (StateM β) Unit
  run_take : ∀ (p : π) (b : β), (take p).run.run b =
    match Batch.append b p with
    | .ok b' => (.ok (), b')
    | .error fault => (.error fault, b)

namespace LineBatch

/-- The columns are looked at first; then the counts grow, then the body, by the line and by its end. -/
def take (line : Line) : ExceptT Failure (StateM LineBatch) Unit :=
  match line.metrics with
  | .error fault => throw (.parse fault)
  | .ok n => do
    modify fun b => { b with metrics := b.metrics + n }
    modify fun b => { b with rows := b.rows + 1 }
    modify fun b => { b with body := b.body ++ line.text }
    modify fun b => { b with body := b.body ++ "\n" }

instance : InPlace LineBatch where
  take := take
  run_take line b := by
    simp only [Batch.append, append, take]
    cases line.metrics <;> rfl

end LineBatch

namespace RecordBatch

/-- The time is read and the values are counted first; then the counts grow, then the table of the measurement, which
    is made if there is none. -/
def take (r : Record) : ExceptT Failure (StateM RecordBatch) Unit := do
  match r.row.timestampAndValues with
  | .error fault => throw (.parse fault)
  | .ok _ =>
    let values := r.row.valueCount
    if values = 0 then throw (.parse (.emptyRow r.measurement))
    else
      modify fun b => { b with metrics := b.metrics + values }
      modify fun b => { b with rows := b.rows + 1 }
      modify fun b => { b with tables := b.tables.update r.measurement fun rows => (rows.getD #[]).push r.row }

instance : InPlace RecordBatch where
  take := take
  run_take r b := by
    simp only [Batch.append, append, take]
    cases r.row.timestampAndValues with
    | error fault => rfl
    | ok parts =>
      dsimp only
      split <;> rfl

end RecordBatch

/-! ### Histories -/

namespace Batch

/-- One use of a batch. -/
inductive Use (π : Type)
  | append (p : π)
  | reset

variable {β π : Type} [Batch β π] [InPlace β]

/-- What a batch is after a use, whatever it answered. -/
def Use.act : Use π → β → β
  | append p, b => ((InPlace.take p).run.run b).2
  | reset, b => Batch.reset b

/-- A new batch after these uses. -/
def used (uses : List (Use π)) : β := uses.foldl (fun b use => use.act b) empty

/-- The points that a batch should hold after a use, from those that it should hold before. -/
def Use.keep (accepts : π → Bool) : Use π → List π → List π
  | append p, points => if accepts p then points ++ [p] else points
  | reset, _ => []

/-- The points that were accepted since the last reset, in the order of their arrival. -/
def kept (accepts : π → Bool) (uses : List (Use π)) : List π :=
  uses.foldl (fun points use => use.keep accepts points) []

/-- What every use keeps of a batch and the points that it should hold is so after every history. -/
theorem used_induction {accepts : π → Bool} {P : β → List π → Prop} (hempty : P empty [])
    (hact : ∀ b points (use : Use π), P b points → P (use.act b) (use.keep accepts points)) (uses : List (Use π)) :
    P (used uses) (kept accepts uses) := by
  induction uses using List.reverseRecOn with
  | nil => exact hempty
  | append_singleton uses use ih =>
    rw [used, kept, List.foldl_append, List.foldl_append]
    exact hact _ _ use ih

/-- The answer of a batch to a point, and what the batch is then: with the point if it is accepted, and otherwise what it
    was before, in all it shows and all it keeps. -/
inductive Answers (accepts : π → Bool) (b : β) (p : π) : Prop
  | taken (b' : β) : accepts p = true → append b p = .ok b' → (InPlace.take p).run.run b = (.ok (), b') →
      Answers accepts b p
  | refused (fault : ParseFault) : accepts p = false → append b p = .error (.parse fault) →
      (InPlace.take p).run.run b = (.error (.parse fault), b) → Answers accepts b p

theorem Answers.of_append {accepts : π → Bool} {b : β} {p : π}
    (h : accepts p = true ∧ (∃ b', append b p = .ok b') ∨
      accepts p = false ∧ ∃ fault, append b p = .error (.parse fault)) : Answers accepts b p := by
  rcases h with ⟨haccepts, b', hb'⟩ | ⟨haccepts, fault, hfault⟩
  · exact .taken b' haccepts hb' (by rw [InPlace.run_take, hb'])
  · exact .refused fault haccepts hfault (by rw [InPlace.run_take, hfault])

/-- A use does what the answer says. -/
theorem Answers.act {accepts : π → Bool} {b : β} {p : π} (h : Answers accepts b p) :
    accepts p = true ∧ append b p = .ok ((Use.append p).act b) ∨ accepts p = false ∧ (Use.append p).act b = b := by
  rcases h with ⟨b', haccepts, happend, hrun⟩ | ⟨fault, haccepts, -, hrun⟩
  · exact .inl ⟨haccepts, by rw [Use.act, hrun, happend]⟩
  · exact .inr ⟨haccepts, by rw [Use.act, hrun]⟩

end Batch

/-! ### Counts of points that count for one at least -/

/-- Where each counts for one at least, there are no more of them than they count for together, and as many only if each
    counts for one. -/
theorem length_le_sum_map {α : Type} {count : α → Nat} {xs : List α} (h : ∀ x ∈ xs, 1 ≤ count x) :
    xs.length ≤ (xs.map count).sum ∧ (xs.length = (xs.map count).sum ↔ ∀ x ∈ xs, count x = 1) := by
  induction xs with
  | nil => simp
  | cons x xs ih =>
    obtain ⟨hx, hxs⟩ := List.forall_mem_cons.1 h
    obtain ⟨hle, heq⟩ := ih hxs
    rw [List.forall_mem_cons, ← heq, List.length_cons, List.map_cons, List.sum_cons]
    omega

/-! ### Lines -/

namespace LineBatch

open Batch (Use Holds Answers used kept)

variable {b : LineBatch} {lines : List Line}

/-- Whether a line can be taken in: it has three columns. -/
def accepts (line : Line) : Bool := decide (Line.hasThreeColumns line.text)

/-- The counts of a batch, and its body, say the same: the lines, as many as the rows, with as many parts in their second
    columns as there are metrics. -/
structure Agrees (b : LineBatch) (lines : List Line) : Prop where
  body : b.body = String.join (lines.map fun line => line.text ++ "\n")
  rows : b.rows = lines.length
  metrics : b.metrics = (lines.map fun line => Line.metricsOf line.text).sum
  le : b.rows ≤ b.metrics
  eq_iff : b.rows = b.metrics ↔ ∀ line ∈ lines, Line.metricsOf line.text = 1

theorem answers (b : LineBatch) (line : Line) : Answers accepts b line := by
  refine .of_append ?_
  by_cases hcolumns : Line.hasThreeColumns line.text
  · have hmetrics : line.metrics = .ok _ := Line.metrics_eq_ok hcolumns
    exact .inl ⟨decide_eq_true hcolumns, by simp [Batch.append, append, hmetrics]⟩
  · have hmetrics : line.metrics = .error _ := Line.metrics_eq_error hcolumns
    exact .inr ⟨decide_eq_false hcolumns, by simp [Batch.append, append, hmetrics]⟩

theorem holds_act (h : Holds b lines) (use : Use Line) : Holds (use.act b) (use.keep accepts lines) := by
  cases use with
  | reset => exact .reset b
  | append line =>
    rcases (answers b line).act with ⟨haccepts, happend⟩ | ⟨haccepts, hsame⟩
    · rw [Use.keep, if_pos haccepts]
      exact .append h happend
    · rw [Use.keep, haccepts, hsame]
      exact h

theorem agrees_of_holds (h : Holds b lines) : b.Agrees lines := by
  obtain ⟨hbody, hcolumns⟩ := body_of_holds h
  have hrows : b.rows = lines.length := h.rows
  have hmetrics : b.metrics = (lines.map fun line => Line.metricsOf line.text).sum := by
    refine h.metrics.trans (congrArg List.sum (List.map_congr_left fun line hline => ?_))
    rw [Line.metrics_eq_ok (hcolumns line hline)]
    rfl
  have hone : ∀ line ∈ lines, 1 ≤ Line.metricsOf line.text := fun _ _ => Nat.le_add_right 1 _
  obtain ⟨hle, heq⟩ := length_le_sum_map hone
  rw [← hrows, ← hmetrics] at hle heq
  exact ⟨hbody, hrows, hmetrics, hle, heq⟩

end LineBatch

/-! ### Records -/

namespace RecordBatch

open Batch (Use Holds Answers used kept)

variable {b : RecordBatch} {records : List Record}

/-- All rows that a batch shows, table by table. -/
def shownRows (b : RecordBatch) : List Row := b.pending.flatMap (·.2)

/-- The counts of a batch and its tables say the same: as many rows as it shows, and as many metrics as they have values.
    Each measurement with rows is shown once, in the order of the bytes of the names, and its rows in the order of their
    arrival. -/
structure Agrees (b : RecordBatch) (records : List Record) : Prop where
  rows : b.rows = b.shownRows.length
  metrics : b.metrics = (b.shownRows.map Row.valueCount).sum
  names : (b.pending.map (·.1)).Pairwise fun name other => name.toUTF8.data.toList < other.toUTF8.data.toList
  tables : ∀ name rows, (name, rows) ∈ b.pending ↔
    rows = (records.filter (·.measurement = name)).map (·.row) ∧ rows ≠ []
  le : b.rows ≤ b.metrics
  eq_iff : b.rows = b.metrics ↔ ∀ row ∈ b.shownRows, row.valueCount = 1

theorem answers (b : RecordBatch) (r : Record) : Answers fillable b r := .of_append (append_cases b r)

theorem Stores.act (hb : b.Stores records) (use : Use Record) : (use.act b).Stores (use.keep fillable records) := by
  cases use with
  | reset => exact hb.ordered.stores_reset
  | append r =>
    rcases (answers b r).act with ⟨haccepts, happend⟩ | ⟨haccepts, hsame⟩
    · rw [Use.keep, if_pos haccepts]
      exact hb.append happend
    · rw [Use.keep, haccepts, hsame]
      exact hb

theorem fillable_of_holds (h : Holds b records) : ∀ r ∈ records, fillable r = true := by
  induction h with
  | empty => simp
  | reset _ => simp
  | @append b _ records r _ happend ih =>
    intro other hother
    rcases List.mem_append.1 hother with hother | hother
    · exact ih other hother
    · obtain rfl := List.mem_singleton.1 hother
      rcases append_cases b other with ⟨haccepts, -⟩ | ⟨-, fault, hfault⟩
      · exact haccepts
      · cases hfault.symm.trans happend

theorem one_le_of_fillable {r : Record} (h : fillable r = true) : 1 ≤ r.row.valueCount := by
  rw [fillable, Bool.and_eq_true, bne_iff_ne] at h
  exact Nat.one_le_iff_ne_zero.2 h.2

/-- A batch shows all rows that it holds. -/
theorem Stores.shownRows_perm (hb : b.Stores records) : b.shownRows.Perm (records.map (·.row)) := by
  obtain ⟨names, hpending, hordered, hmem⟩ := hb.ordered.pending_eq
  simp only [hb.rowsAt_ne_nil] at hmem
  have hshown : b.shownRows = (names.flatMap fun name => records.filter (·.measurement = name)).map (·.row) := by
    rw [shownRows, hpending, List.flatMap_map, List.map_flatMap]
    exact List.flatMap_congr fun name _ => hb.rows name
  rw [hshown]
  exact (Exposition.flatMap_perm (hordered.imp String.ne_of_lt) fun r hr => (hmem _).2 ⟨r, hr, rfl⟩).map _

theorem Stores.agrees (hb : b.Stores records) : b.Agrees records := by
  have hcount : b.shownRows.length = records.length := by
    rw [hb.shownRows_perm.length_eq, List.length_map]
  have hrows : b.rows = b.shownRows.length := hb.held.rows.trans hcount.symm
  have hmetrics : b.metrics = (b.shownRows.map Row.valueCount).sum := by
    rw [(hb.shownRows_perm.map Row.valueCount).sum_nat, List.map_map]
    exact hb.held.metrics
  have hone : ∀ row ∈ b.shownRows, 1 ≤ row.valueCount := fun row hrow => by
    obtain ⟨r, hr, rfl⟩ := List.mem_map.1 (hb.shownRows_perm.mem_iff.1 hrow)
    exact one_le_of_fillable (fillable_of_holds hb.held r hr)
  obtain ⟨hle, heq⟩ := length_le_sum_map hone
  rw [← hrows, ← hmetrics] at hle heq
  refine ⟨hrows, hmetrics, ?_, ?_, hle, heq⟩
  · obtain ⟨names, hpending, hordered, -⟩ := hb.ordered.pending_eq
    rw [hpending, List.map_map]
    exact List.pairwise_map.2 (hordered.imp Text.bytes_lt)
  · intro name rows
    rw [hb.ordered.mem_pending, hb.rows, eq_comm]

end RecordBatch

/-! ### Every history -/

namespace Batch

/-- Whatever points a batch is given, and however often it is reset in between, its counts and its contents agree, and
    they are those of the points that were accepted since the last reset; and it answers a next point by taking it in as
    a whole, or by a fault of parsing that leaves the batch as it was. -/
theorem used_agrees :
    (∀ uses : List (Use Record),
      (used uses : RecordBatch).Agrees (kept RecordBatch.fillable uses) ∧
        ∀ r, Answers RecordBatch.fillable (used uses : RecordBatch) r) ∧
    ∀ uses : List (Use Line),
      (used uses : LineBatch).Agrees (kept LineBatch.accepts uses) ∧
        ∀ line, Answers LineBatch.accepts (used uses : LineBatch) line := by
  constructor
  · intro uses
    have hstores : (used uses : RecordBatch).Stores (kept RecordBatch.fillable uses) :=
      used_induction RecordBatch.stores_empty (fun _ _ use hb => hb.act use) uses
    exact ⟨hstores.agrees, RecordBatch.answers _⟩
  · intro uses
    have hholds : Holds (used uses : LineBatch) (kept LineBatch.accepts uses) :=
      used_induction (P := Holds) .empty (fun _ _ use hb => LineBatch.holds_act hb use) uses
    exact ⟨LineBatch.agrees_of_holds hholds, LineBatch.answers _⟩

example : (used [.append ⟨"mem", ⟨"", "1,2"⟩⟩, .reset, .append ⟨"cpu", ⟨"", "now,1"⟩⟩, .append ⟨"cpu", ⟨"", "1,2,3"⟩⟩] :
    RecordBatch) = ⟨[("cpu", #[⟨"", "1,2,3"⟩]), ("mem", #[])], 1, 2⟩ := rfl

end Batch
end IngestBench
