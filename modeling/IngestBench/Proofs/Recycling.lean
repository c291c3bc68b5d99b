import IngestBench.Exposition
import IngestBench.Line
import IngestBench.Proofs.Contents
import IngestBench.Proofs.HeaderRewrite
import Mathlib.Data.List.Basic
import Mathlib.Data.List.Induction

/-! Batches that are filled again. A batch of records keeps its tables when it is reset, so that a used batch is not
    the same as a new one; but tables without rows show nowhere, and a record finds its place among the others all the
    same. -/

namespace IngestBench

/-! ### Entries that do not count -/

namespace Sorted

variable {α : Type} {entries : Sorted α} {key : String} {f : Option α → α}

theorem update_below (h : ∀ e ∈ entries, key < e.1) : entries.update key f = (key, f none) :: entries := by
  cases entries with
  | nil => rfl
  | cons e rest =>
    obtain ⟨k, v⟩ := e
    have hlt : key < k := h (k, v) List.mem_cons_self
    have hne : k ≠ key := fun heq => String.lt_irrefl key (heq ▸ hlt)
    rw [update, if_neg hne, if_pos hlt]

/-- Where the old value at the key is one that does not count, it makes no difference to the new one. -/
theorem filter_update (counts : α → Bool) (h : entries.Pairwise fun a b => a.1 < b.1)
    (hnew : ∀ old, counts (f old) = true) (hold : ∀ v, counts v = false → f (some v) = f none) :
    (entries.update key f).filter (counts ·.2) = Sorted.update key f (entries.filter (counts ·.2)) := by
  induction entries with
  | nil => simp [update, hnew]
  | cons e rest ih =>
    obtain ⟨k, v⟩ := e
    obtain ⟨habove, hrest⟩ := List.pairwise_cons.1 h
    have hbelow (hle : key ≤ k) : ∀ e ∈ rest.filter (counts ·.2), key < e.1 := fun e he =>
      Std.lt_of_le_of_lt hle (habove e (List.mem_filter.1 he).1)
    rw [update]
    split
    · -- the value at the key is replaced, or put where it was passed over
      rename_i hk
      subst hk
      cases hv : counts v with
      | true => simp [hv, hnew, update]
      | false =>
        simp only [List.filter_cons, hnew, hv, hold v hv, if_true, Bool.false_eq_true, if_false]
        exact (update_below (hbelow (String.le_refl k))).symm
    · rename_i hne
      split
      · rename_i hlt
        rw [List.filter_cons_of_pos (by simpa using hnew none)]
        refine (update_below fun e he => ?_).symm
        rcases List.mem_cons.1 (List.mem_filter.1 he).1 with rfl | he
        · exact hlt
        · exact String.lt_trans hlt (habove e he)
      · rename_i hnot
        simp only [List.filter_cons, ih hrest]
        split
        · rw [update, if_neg hne, if_neg hnot]
        · rfl

end Sorted

/-! ### Use and use again -/

namespace Batch

variable {β π : Type} [Batch β π]

/-- Appends points, one after the other, and says what became of each. A point that is refused changes nothing. -/
def fill : List π → β → β × List (Except Failure Unit)
  | [], b => (b, [])
  | p :: points, b =>
    match append b p with
    | .ok b =>
      let (b, answers) := fill points b
      (b, .ok () :: answers)
    | .error fault =>
      let (b, answers) := fill points b
      (b, .error fault :: answers)

/-- A batch that was filled with these points and reset, round after round. -/
def recycled (rounds : List (List π)) : β := rounds.foldl (fun b points => reset (fill points b).1) empty

theorem recycled_concat (rounds : List (List π)) (points : List π) :
    (recycled (rounds ++ [points]) : β) = reset (fill points (recycled rounds)).1 :=
  List.foldl_append

/-- A batch that was used again was reset after its last use. -/
theorem recycled_cases (rounds : List (List π)) :
    (recycled rounds : β) = empty ∨ ∃ b, (recycled rounds : β) = reset b := by
  rcases List.eq_nil_or_concat' rounds with rfl | ⟨rounds, points, rfl⟩
  · exact .inl rfl
  · exact .inr ⟨_, recycled_concat rounds points⟩

/-- What every append and every reset keeps holds of each batch that was used again. -/
theorem recycled_induction {P : β → Prop} (hempty : P empty) (hreset : ∀ b, P b → P (reset b))
    (happend : ∀ b b' p, P b → append b p = .ok b' → P b') (rounds : List (List π)) : P (recycled rounds) := by
  have hfill : ∀ (points : List π) (b : β), P b → P (fill points b).1 := by
    intro points
    induction points with
    | nil => exact fun b hb => hb
    | cons p points ih =>
      intro b hb
      simp only [fill]
      split
      · next b' hb' => exact ih b' (happend b b' p hb hb')
      · exact ih b hb
  induction rounds using List.reverseRecOn with
  | nil => exact hempty
  | append_singleton rounds points ih =>
    rw [recycled_concat]
    exact hreset _ (hfill points _ ih)

end Batch

/-! ### Tables without rows -/

namespace RecordBatch

variable {b b' : RecordBatch} {r : Record} {points : List Record}

/-- The batch without the tables that have no rows. -/
def shown (b : RecordBatch) : RecordBatch := { b with tables := b.tables.filter fun table => !table.2.isEmpty }

/-- The tables are in the order of their names, each once. -/
def Ordered (b : RecordBatch) : Prop := b.tables.Pairwise fun a b => a.1 < b.1

theorem pending_shown (b : RecordBatch) : b.shown.pending = b.pending := by
  simp [shown, pending, List.filter_filter]

theorem shown_reset (b : RecordBatch) : b.reset.shown = empty := by
  simp [shown, reset, empty, List.filter_eq_nil_iff]

theorem Ordered.reset (h : b.Ordered) : b.reset.Ordered := List.pairwise_map.2 h

theorem Ordered.append (h : b.Ordered) (happend : b.append r = .ok b') : b'.Ordered := by
  rw [append_eq_ok happend]
  exact Sorted.update_ordered h

theorem ordered_recycled (rounds : List (List Record)) : (Batch.recycled rounds : RecordBatch).Ordered :=
  Batch.recycled_induction .nil (fun _ hb => hb.reset) (fun _ _ _ hb happend => hb.append happend) rounds

/-- Whether or not tables without rows are there, a record is taken in, or refused, in the same way. -/
theorem Ordered.append_shown (h : b.Ordered) (r : Record) : b.shown.append r = (b.append r).map shown := by
  unfold RecordBatch.append
  split
  · rfl
  · split
    · rfl
    · simp only [Except.map, shown]
      rw [Sorted.filter_update (fun rows => !rows.isEmpty) h]
      · intro old
        simp
      · intro rows hrows
        have hnone : rows = #[] := by simpa using hrows
        rw [hnone, Option.getD_some, Option.getD_none]

theorem Ordered.fill_shown (h : b.Ordered) (points : List Record) :
    Batch.fill points b.shown = ((Batch.fill points b).1.shown, (Batch.fill points b).2) := by
  induction points generalizing b with
  | nil => rfl
  | cons r points ih =>
    have happend : Batch.append b.shown r = (Batch.append b r).map shown := h.append_shown r
    simp only [Batch.fill, happend]
    cases hb : Batch.append b r with
    | ok b' => simp only [Except.map, ih (h.append hb)]
    | error fault => simp only [Except.map, ih h]

/-- A batch that was used and reset looks new, but for tables without rows. -/
theorem shown_recycled (rounds : List (List Record)) : (Batch.recycled rounds : RecordBatch).shown = empty := by
  obtain hnew | ⟨b, hreset⟩ := Batch.recycled_cases (β := RecordBatch) rounds
  · rw [hnew]
    rfl
  · rw [hreset]
    exact shown_reset b

/-- The text of a batch is read off the tables that have rows. -/
theorem render_congr {header : Header} (h : b.pending = b'.pending) :
    Exposition.render header b = Exposition.render header b' := by
  simp only [Exposition.render, Exposition.samples, h]

end RecordBatch

/-! ### Used batches and new ones -/

namespace Batch

/-- A batch that was used before, however often, cannot be told from a new one: it takes in and refuses the same points
    with the same answers, and then it has the same counts and the same contents, and gives the same text or fault under
    every header. -/
theorem recycled_like_new :
    (∀ (rounds : List (List Record)) (points : List Record),
      let used := fill points (recycled rounds : RecordBatch)
      let new := fill points (empty : RecordBatch)
      used.2 = new.2 ∧ counts used.1 = counts new.1 ∧ used.1.pending = new.1.pending ∧
        ∀ header, Exposition.render header used.1 = Exposition.render header new.1) ∧
    ∀ (rounds : List (List Line)) (points : List Line),
      let used := fill points (recycled rounds : LineBatch)
      let new := fill points (empty : LineBatch)
      used.2 = new.2 ∧ counts used.1 = counts new.1 ∧ used.1.body = new.1.body := by
  constructor
  · intro rounds points used new
    have hfill := (RecordBatch.ordered_recycled rounds).fill_shown points
    rw [RecordBatch.shown_recycled] at hfill
    have hnew : new = (used.1.shown, used.2) := hfill
    have hpending : used.1.pending = new.1.pending := by
      rw [hnew]
      exact (RecordBatch.pending_shown used.1).symm
    refine ⟨?_, ?_, hpending, fun header => RecordBatch.render_congr hpending⟩
    · rw [hnew]
    · rw [hnew]
      rfl
  · intro rounds points used new
    have hrecycled : (recycled rounds : LineBatch) = empty := by
      obtain hnew | ⟨b, hreset⟩ := recycled_cases (β := LineBatch) rounds
      · exact hnew
      · exact hreset
    have hsame : used = new := congrArg (fill points) hrecycled
    rw [hsame]
    exact ⟨rfl, rfl, rfl⟩

end Batch
end IngestBench
