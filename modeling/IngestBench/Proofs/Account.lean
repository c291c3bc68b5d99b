import IngestBench.Proofs.Chunks
import IngestBench.Proofs.Contents
import IngestBench.Scan

/-! The account of a scan: how the points that were read are spread over the batches that were handed on and those that
    are still being filled. It holds when a scan begins, and every move of the scan keeps it. -/

namespace IngestBench
namespace Scan

variable {σ π β : Type}

/-! ### Reading -/

/-- The points that a source gives first, and the source after them. -/
inductive Reads (read : σ → Except Failure (Option π) × σ) (source : σ) : List π → σ → Prop
  | start : Reads read source [] source
  | next {points : List π} {p : π} {t u : σ} : Reads read source points t → read t = (.ok (some p), u) →
      Reads read source (points ++ [p]) u

section
variable {read : σ → Except Failure (Option π) × σ} {source t u : σ} {points more : List π}

theorem Reads.unique (h : Reads read source points t) (h' : Reads read source more u)
    (hlen : points.length = more.length) : points = more ∧ t = u := by
  induction h generalizing more u with
  | start =>
    cases h' with
    | start => exact ⟨rfl, rfl⟩
    | next _ _ => simp at hlen
  | next _ hread ih =>
    cases h' with
    | start => simp at hlen
    | next h' hread' =>
      obtain ⟨rfl, rfl⟩ := ih h' (by simpa using hlen)
      rw [hread] at hread'
      cases hread'
      exact ⟨rfl, rfl⟩

theorem Reads.take (h : Reads read source points t) (n : Nat) : ∃ u, Reads read source (points.take n) u := by
  induction h with
  | start => exact ⟨source, by simpa using Reads.start⟩
  | @next ps p t u h hread ih =>
    by_cases hn : n ≤ ps.length
    · rwa [List.take_append_of_le_length hn]
    · refine ⟨u, ?_⟩
      rw [List.take_of_length_le (by simp; omega)]
      exact h.next hread

theorem Reads.of_isPrefix (h : Reads read source points t) (hmore : more <+: points) :
    ∃ u, Reads read source more u := by
  obtain ⟨u, hu⟩ := h.take more.length
  rw [← List.prefix_iff_eq_take.1 hmore] at hu
  exact ⟨u, hu⟩

/-- Where another reading goes on, the source has a point. -/
theorem Reads.exists_next (h : Reads read source points t) (h' : Reads read source more u)
    (hlt : points.length < more.length) : ∃ p v, read t = (.ok (some p), v) := by
  obtain ⟨v, hv⟩ := h'.take (points.length + 1)
  have hlen : (more.take (points.length + 1)).length = points.length + 1 := by
    rw [List.length_take]
    omega
  generalize more.take (points.length + 1) = qs at hv hlen
  cases hv with
  | start => simp at hlen
  | next hqs hq =>
    obtain ⟨-, rfl⟩ := h.unique hqs (by simpa using hlen.symm)
    exact ⟨_, _, hq⟩

end

/-! ### The account -/

open Chunks

/-- The contents of batches that were handed on. -/
def contents [Batch β π] (sent : List (Nat × Noted β)) : List (Nat × List π) := sent.map fun x => (x.1, x.2.points)

theorem contents_append_singleton [Batch β π] (sent : List (Nat × Noted β)) (k : Nat) (b : Noted β) :
    contents (sent ++ [(k, b)]) = contents sent ++ [(k, b.points)] := by
  simp [contents]

section
variable (plan : Plan σ π)

/-- The full batches that some points make. -/
def fullBatches (points : List π) : List (Nat × List π) := completed plan.partition plan.fullSize points

/-- The batches that hold what is left over for the partitions below `k`. -/
def restBatches (k : Nat) (points : List π) : List (Nat × List π) := partials plan.partition plan.fullSize k points

/-- All batches that some points make. -/
def allBatches (points : List π) : List (Nat × List π) :=
  fullBatches plan points ++ restBatches plan plan.slotCount points

/-- What is left over for a partition. -/
def rest (k : Nat) (points : List π) : List π := leftover plan.fullSize (lane plan.partition k points)

/-- What is left over for the partitions from `k` on. -/
def restsFrom (k : Nat) (points : List π) : List (List π) :=
  (List.range' k (plan.slotCount - k)).map fun j => rest plan j points

/-- Each point has a partition. -/
def Placeable (points : List π) : Prop := ∀ p ∈ points, plan.partition p < plan.slotCount

variable (looks : Nat → Bool → Prop) (source : σ) (points : List π) (sent : List (Nat × List π))

/-- The scan still reads. `looks` says what a look for a stop can have shown after so many points. -/
structure Reading (t : σ) (stats : ScanStats) : Prop where
  reads : Reads plan.read source points t
  cancelled : stats.cancelled = false
  limitReached : stats.limitReached = false
  queueClosed : stats.queueClosed = false

/-- The scan has read all that it will, and the statistics say why. -/
structure Complete (stats : ScanStats) : Prop where
  reads : ∃ t, Reads plan.read source points t ∧ (stats.cancelled = false → stats.limitReached = false →
    ∃ u, plan.read t = (.ok none, u))
  looked : looks points.length stats.cancelled
  limit : stats.cancelled = false → stats.limitReached = plan.isLimit points.length
  either : stats.cancelled = true → stats.limitReached = false

/-- The scan has failed, at the point after `before` or at reading it. -/
inductive Failed [Batch β π] (before : List π) (fault : Failure) : Prop
  | unread (t u : σ) : points = before → Reads plan.read source before t → plan.read t = (.error fault, u) →
      Failed before fault
  | misplaced (p : π) (t : σ) : points = before ++ [p] → Reads plan.read source points t →
      plan.slotCount ≤ plan.partition p →
      fault = .internal (.partition (plan.partition p) plan.slotCount) → Failed before fault
  | refused (p : π) (t : σ) (b : β) : points = before ++ [p] → Reads plan.read source points t →
      plan.partition p < plan.slotCount → Batch.Holds b (rest plan (plan.partition p) before) →
      Batch.append b p = .error fault → Failed before fault

/-- Where the points are, in each phase of the scan. -/
def Held [Batch β π] (t : σ) (slots : List (Noted β)) (stats : ScanStats) : Phase π (Noted β) → Prop
  | .opening => Reading plan source points t stats ∧ points = [] ∧ sent = [] ∧ slots.length ≤ plan.slotCount ∧
      ∀ b ∈ slots, b.points = []
  | .deciding => Reading plan source points t stats ∧ Placeable plan points ∧
      slots.map (·.points) = restsFrom plan 0 points ∧ sent = fullBatches plan points
  | .reading => Reading plan source points t stats ∧ Placeable plan points ∧
      slots.map (·.points) = restsFrom plan 0 points ∧ sent = fullBatches plan points ∧
      looks points.length false ∧ plan.isLimit points.length = false
  | .placing p => Reading plan source points t stats ∧ ∃ before, points = before ++ [p] ∧ Placeable plan before ∧
      slots.map (·.points) = restsFrom plan 0 before ∧ sent = fullBatches plan before
  | .trading k => Reading plan source points t stats ∧ ∃ before p, points = before ++ [p] ∧ Placeable plan points ∧
      plan.partition p = k ∧ (rest plan k before ++ [p]).length = plan.fullSize ∧
      slots.map (·.points) = (restsFrom plan 0 before).set k (rest plan k before ++ [p]) ∧
      sent = fullBatches plan before
  | .sending k b false => Reading plan source points t stats ∧ Placeable plan points ∧
      slots.map (·.points) = restsFrom plan 0 points ∧ sent ++ [(k, b.points)] = fullBatches plan points
  | .sending k b true => Complete plan looks source points stats ∧ stats.queueClosed = false ∧
      Placeable plan points ∧ k < plan.slotCount ∧ slots.map (·.points) = restsFrom plan (k + 1) points ∧
      b.points = rest plan k points ∧ b.points ≠ [] ∧ sent = fullBatches plan points ++ restBatches plan k points
  | .flushing k => Complete plan looks source points stats ∧ stats.queueClosed = false ∧ Placeable plan points ∧
      k ≤ plan.slotCount ∧ slots.map (·.points) = restsFrom plan k points ∧
      sent = fullBatches plan points ++ restBatches plan k points
  | .finished none => Placeable plan points ∧
      ((stats.queueClosed = false ∧ Complete plan looks source points stats ∧ sent = allBatches plan points) ∨
        (stats.queueClosed = true ∧ (∃ t, Reads plan.read source points t) ∧ sent <+: allBatches plan points))
  | .finished (some fault) => ∃ before, Placeable plan before ∧ looks before.length false ∧
      plan.isLimit before.length = false ∧ sent = fullBatches plan before ∧
      Failed (β := β) plan source points before fault

/-- The account of a scan that began at `source`, has read these points and has handed on batches of these contents. -/
structure Account [Batch β π] (s : Scan σ π (Noted β)) : Prop where
  pointsRead : s.stats.pointsRead = points.length
  batchesSent : s.stats.batchesSent = sent.length
  /-- There was no reason to stop before the last point. -/
  went : ∀ n < points.length, looks n false ∧ plan.isLimit n = false
  held : Held plan looks source points sent s.source s.slots s.stats s.phase

end

/-! ### Slots and what is left over -/

section
variable {plan : Plan σ π} {points : List π} {p : π} {k : Nat}

theorem fullSize_pos : 0 < plan.fullSize := by
  unfold Plan.fullSize
  omega

theorem placeable_append : Placeable plan (points ++ [p]) ↔ Placeable plan points ∧ plan.partition p < plan.slotCount := by
  simp [Placeable, or_imp, forall_and]

theorem length_restsFrom : (restsFrom plan k points).length = plan.slotCount - k := by simp [restsFrom]

theorem restsFrom_zero_getElem? (hk : k < plan.slotCount) : (restsFrom plan 0 points)[k]? = some (rest plan k points) := by
  simp [restsFrom, hk]

theorem restsFrom_eq_cons (hk : k < plan.slotCount) :
    restsFrom plan k points = rest plan k points :: restsFrom plan (k + 1) points := by
  have hlen : plan.slotCount - k = plan.slotCount - (k + 1) + 1 := by omega
  rw [restsFrom, hlen, List.range'_succ, List.map_cons, ← restsFrom]

theorem restsFrom_slotCount : restsFrom plan plan.slotCount points = [] := by simp [restsFrom]

/-- A point changes what is left over for its own partition only. -/
theorem restsFrom_append (points : List π) (p : π) : restsFrom plan 0 (points ++ [p]) =
    (restsFrom plan 0 points).set (plan.partition p) (rest plan (plan.partition p) (points ++ [p])) := by
  refine List.ext_getElem? fun j => ?_
  rw [List.getElem?_set, length_restsFrom]
  by_cases hj : j < plan.slotCount
  · rw [restsFrom_zero_getElem? hj, restsFrom_zero_getElem? hj]
    by_cases hp : plan.partition p = j
    · subst hp
      simp [hj]
    · simp only [hp, ↓reduceIte, rest, lane_append_of_ne hp]
  · have hnone : ∀ qs, (restsFrom plan 0 qs)[j]? = none := fun qs => by
      rw [List.getElem?_eq_none_iff, length_restsFrom]
      omega
    rw [hnone, hnone]
    split
    · rw [if_neg (by omega)]
    · rfl

/-- A point that does not fill the batch of its partition. -/
theorem append_of_lt (h : (rest plan (plan.partition p) points ++ [p]).length < plan.fullSize) :
    restsFrom plan 0 (points ++ [p]) =
        (restsFrom plan 0 points).set (plan.partition p) (rest plan (plan.partition p) points ++ [p]) ∧
      fullBatches plan (points ++ [p]) = fullBatches plan points := by
  have hlt : (rest plan (plan.partition p) points).length + 1 < plan.fullSize := by simpa using h
  refine ⟨?_, ?_⟩
  · rw [restsFrom_append, rest, lane_append_self, (append_singleton_of_lt hlt).2]
    rfl
  · rw [fullBatches, completed_append_singleton, completion]
    exact (congrArg _ (if_neg (Nat.ne_of_lt h))).trans (List.append_nil _)

/-- A point that fills the batch of its partition. -/
theorem append_of_eq (h : (rest plan (plan.partition p) points ++ [p]).length = plan.fullSize) :
    restsFrom plan 0 (points ++ [p]) = (restsFrom plan 0 points).set (plan.partition p) [] ∧
      fullBatches plan (points ++ [p]) =
        fullBatches plan points ++ [(plan.partition p, rest plan (plan.partition p) points ++ [p])] := by
  have heq : (rest plan (plan.partition p) points).length + 1 = plan.fullSize := by simpa using h
  refine ⟨?_, ?_⟩
  · rw [restsFrom_append, rest, lane_append_self, (append_singleton_of_eq heq).2]
  · rw [fullBatches, completed_append_singleton, completion]
    exact congrArg _ (if_pos h)

theorem length_rest_lt : (rest plan k points).length < plan.fullSize := length_leftover_lt fullSize_pos

theorem restBatches_succ : restBatches plan (k + 1) points =
    restBatches plan k points ++ [(k, rest plan k points)].filter fun x => !x.2.isEmpty := partials_succ k

theorem restBatches_isPrefix (hk : k ≤ plan.slotCount) :
    restBatches plan k points <+: restBatches plan plan.slotCount points := by
  -- By induction on how many partitions come after `k`.
  have key : ∀ n, restBatches plan k points <+: restBatches plan (k + n) points := by
    intro n
    induction n with
    | zero => exact List.prefix_refl _
    | succ n ih =>
      rw [← Nat.add_assoc, restBatches_succ]
      exact ih.trans (List.prefix_append _ _)
  have hle := key (plan.slotCount - k)
  rwa [Nat.add_sub_cancel' hk] at hle

end

section
variable [Batch β π] {p : π} {k : Nat} {slots slots' : List (Noted β)} {fault : Failure}

theorem place_eq_ok (h : place p k slots = .ok slots') {b : Noted β} (hb : slots[k]? = some b) :
    ∃ b', b'.points = b.points ++ [p] ∧ slots' = slots.set k b' := by
  induction slots generalizing k slots' with
  | nil => cases hb
  | cons c slots ih =>
    cases k with
    | zero =>
      cases hb
      simp only [place] at h
      cases happ : Batch.append b p with
      | ok b' =>
        rw [happ] at h
        cases h
        exact ⟨b', (Noted.append_eq_ok happ).2, rfl⟩
      | error fault =>
        rw [happ] at h
        cases h
    | succ k =>
      simp only [place] at h
      cases hplace : place p k slots with
      | ok rest =>
        rw [hplace] at h
        cases h
        obtain ⟨b', hb', rfl⟩ := ih hplace hb
        exact ⟨b', hb', rfl⟩
      | error fault =>
        rw [hplace] at h
        cases h

theorem place_eq_error (h : place p k slots = .error fault) :
    ∃ b, slots[k]? = some b ∧ Batch.append b p = .error fault := by
  induction slots generalizing k with
  | nil => cases k <;> cases h
  | cons c slots ih =>
    cases k with
    | zero =>
      simp only [place] at h
      cases happ : Batch.append c p with
      | ok b' =>
        rw [happ] at h
        cases h
      | error fault' =>
        rw [happ] at h
        cases h
        exact ⟨c, rfl, happ⟩
    | succ k =>
      simp only [place] at h
      cases hplace : place p k slots with
      | ok rest =>
        rw [hplace] at h
        cases h
      | error fault' =>
        rw [hplace] at h
        cases h
        exact ih hplace

end

/-! ### Pools -/

/-- Batches that can be filled again hold nothing. -/
def Clean [Batch β π] (pool : Pool (Noted β)) : Prop := ∀ b ∈ pool.idle, b.points = []

section
variable [Batch β π] {pool : Pool (Noted β)}

theorem clean_empty (room : Nat) : Clean (.empty room : Pool (Noted β)) := by
  intro b hb
  cases hb

theorem Clean.put (h : Clean pool) (b : Noted β) : Clean (pool.put (Batch.reset b)) := by
  unfold Pool.put
  split
  · intro c hc
    rcases List.mem_cons.1 hc with rfl | hc
    · rfl
    · exact h c hc
  · exact h

theorem Clean.get (h : Clean pool) :
    (pool.get fun _ => Batch.empty).1.points = [] ∧ Clean (pool.get fun _ => Batch.empty).2 := by
  unfold Pool.get
  split
  · next c idle hidle => exact ⟨h _ (hidle ▸ List.mem_cons_self), fun c hc => h c (hidle ▸ List.mem_cons_of_mem _ hc)⟩
  · exact ⟨rfl, h⟩

end

/-! ### Statistics -/

/-- A move of the scan counts a point, or says why no more points are read, or leaves the statistics as they are. -/
theorem advance_stats [Batch β π] {plan : Plan σ π} {stop : Bool} {s s' : Scan σ π β} {pool pool' : Pool β}
    (h : s.advance plan stop pool = some (s', pool')) :
    s'.stats = s.stats ∨ s'.stats = { s.stats with pointsRead := s.stats.pointsRead + 1 } ∨
      stop = true ∧ s'.stats = { s.stats with cancelled := true } ∨
      s'.stats = { s.stats with limitReached := true } := by
  obtain ⟨w, slots, stats, phase⟩ := s
  cases phase with
  | sending k b last => cases h
  | finished fault => cases h
  | placing p =>
    simp only [Scan.advance] at h
    split at h
    · split at h <;> cases h <;> exact .inl rfl
    · cases h
      exact .inl rfl
  | opening =>
    simp only [Scan.advance] at h
    split at h <;> cases h <;> exact .inl rfl
  | deciding =>
    simp only [Scan.advance] at h
    split at h
    · next hstop =>
      cases h
      exact .inr (.inr (.inl ⟨hstop, rfl⟩))
    · split at h <;> cases h
      · exact .inr (.inr (.inr rfl))
      · exact .inl rfl
  | reading =>
    simp only [Scan.advance] at h
    split at h <;> cases h
    · exact .inl rfl
    · exact .inl rfl
    · exact .inr (.inl rfl)
  | trading k =>
    simp only [Scan.advance] at h
    split at h <;> cases h <;> exact .inl rfl
  | flushing k =>
    simp only [Scan.advance] at h
    split at h
    · cases h
      exact .inl rfl
    · split at h <;> cases h <;> exact .inl rfl

theorem advance_queueClosed [Batch β π] {plan : Plan σ π} {stop : Bool} {s s' : Scan σ π β} {pool pool' : Pool β}
    (h : s.advance plan stop pool = some (s', pool')) :
    s'.stats.queueClosed = s.stats.queueClosed := by
  rcases advance_stats h with h | h | ⟨-, h⟩ | h <;> rw [h]

theorem sent_queueClosed (s : Scan σ π β) : s.sent.stats.queueClosed = s.stats.queueClosed := by
  obtain ⟨w, slots, stats, phase⟩ := s
  cases phase <;> rfl

/-! ### Moves -/

/-- The point that a scan has just read. -/
def Phase.incoming {π β : Type} : Phase π β → List π
  | .placing p => [p]
  | _ => []

section
variable [Batch β π] {plan : Plan σ π} {looks : Nat → Bool → Prop} {source : σ} {points : List π}
  {sent : List (Nat × List π)} {s s' : Scan σ π (Noted β)} {pool pool' : Pool (Noted β)} {stop : Bool}

theorem account_start (source : σ) : Account plan looks source [] [] (start source : Scan σ π (Noted β)) where
  pointsRead := rfl
  batchesSent := rfl
  went _ hn := absurd hn (Nat.not_lt_zero _)
  held := ⟨⟨.start, rfl, rfl, rfl⟩, rfl, rfl, Nat.zero_le _, fun _ hb => by cases hb⟩

theorem map_points_getElem? {slots : List (Noted β)} {contents : List (List π)} {k : Nat} {c : List π}
    (h : slots.map (·.points) = contents) (hk : contents[k]? = some c) : ∃ b, slots[k]? = some b ∧ b.points = c := by
  rw [← h, List.getElem?_map, Option.map_eq_some_iff] at hk
  exact hk

theorem Account.move {s : Scan σ π (Noted β)} (hs : Account plan looks source points sent s)
    (hread : s'.stats.pointsRead = s.stats.pointsRead) (hsent : s'.stats.batchesSent = s.stats.batchesSent)
    (hheld : Held plan looks source points sent s'.source s'.slots s'.stats s'.phase) :
    Account plan looks source points sent s' :=
  ⟨hread.trans hs.pointsRead, hsent.trans hs.batchesSent, hs.went, hheld⟩

variable {t : σ} {slots : List (Noted β)} {stats : ScanStats} {k : Nat} {p : π}

theorem Account.advance_opening (hs : Account plan looks source points sent ⟨t, slots, stats, .opening⟩)
    (hpool : Clean pool) (h : Scan.advance plan stop ⟨t, slots, stats, .opening⟩ pool = some (s', pool')) :
    Account plan looks source points sent s' ∧ Clean pool' ∧ s'.phase.incoming = [] := by
  obtain ⟨hreading, hpoints, hsent, hle, hslots⟩ := hs.held
  simp only [Scan.advance] at h
  split at h
  · next hlt =>
    cases h
    obtain ⟨hb, hclean⟩ := hpool.get
    refine ⟨hs.move rfl rfl ⟨hreading, hpoints, hsent, ?_, fun c hc => ?_⟩, hclean, rfl⟩
    · rw [List.length_append, List.length_singleton]
      exact hlt
    · rcases List.mem_append.1 hc with hc | hc
      · exact hslots c hc
      · rw [List.mem_singleton.1 hc]
        exact hb
  · next hge =>
    cases h
    subst hpoints hsent
    have hlen : slots.length = plan.slotCount := Nat.le_antisymm hle (Nat.le_of_not_lt hge)
    refine ⟨hs.move rfl rfl ⟨hreading, List.forall_mem_nil _, ?_, rfl⟩, hpool, rfl⟩
    refine List.ext_getElem? fun j => ?_
    show (slots.map _)[j]? = _
    rw [List.getElem?_map]
    by_cases hj : j < plan.slotCount
    · rw [restsFrom_zero_getElem? hj, List.getElem?_eq_getElem (hlen ▸ hj)]
      simp [hslots, rest]
    · rw [List.getElem?_eq_none (by omega), List.getElem?_eq_none (by rw [length_restsFrom]; omega)]
      rfl

theorem Account.advance_deciding (hs : Account plan looks source points sent ⟨t, slots, stats, .deciding⟩)
    (hlook : looks points.length stop)
    (h : Scan.advance plan stop ⟨t, slots, stats, .deciding⟩ pool = some (s', pool')) :
    Account plan looks source points sent s' ∧ pool' = pool ∧ s'.phase.incoming = [] := by
  obtain ⟨⟨hreads, hcancelled, hlimit, hclosed⟩, hplace, hslots, hfull⟩ := hs.held
  have hread : stats.pointsRead = points.length := hs.pointsRead
  have hfull' : sent = fullBatches plan points ++ restBatches plan 0 points := hfull.trans (List.append_nil _).symm
  cases stop with
  | true =>
    cases h
    exact ⟨hs.move rfl rfl ⟨⟨⟨t, hreads, nofun⟩, hlook, nofun, fun _ => hlimit⟩, hclosed, hplace, Nat.zero_le _, hslots,
      hfull'⟩, rfl, rfl⟩
  | false =>
    by_cases hmax : plan.isLimit points.length = true
    · simp only [Scan.advance, hread, hmax, Bool.false_eq_true, ↓reduceIte] at h
      cases h
      refine ⟨hs.move hread.symm rfl ⟨⟨⟨t, hreads, nofun⟩, ?_, fun _ => hmax.symm, fun hc => ?_⟩, hclosed, hplace,
        Nat.zero_le _, hslots, hfull'⟩, rfl, rfl⟩
      · rwa [hcancelled]
      · rw [hcancelled] at hc
        cases hc
    · simp only [Scan.advance, hread, hmax, Bool.false_eq_true, ↓reduceIte] at h
      cases h
      exact ⟨hs.move rfl rfl ⟨⟨hreads, hcancelled, hlimit, hclosed⟩, hplace, hslots, hfull, hlook, by simpa using hmax⟩,
        rfl, rfl⟩

theorem Account.advance_reading (hs : Account plan looks source points sent ⟨t, slots, stats, .reading⟩)
    (h : Scan.advance plan stop ⟨t, slots, stats, .reading⟩ pool = some (s', pool')) :
    Account plan looks source (points ++ s'.phase.incoming) sent s' ∧ pool' = pool := by
  obtain ⟨⟨hreads, hcancelled, hlimit, hclosed⟩, hplace, hslots, hfull, hlook, hmax⟩ := hs.held
  simp only [Scan.advance] at h
  split at h
  · next fault u hread =>
    cases h
    rw [show Phase.incoming _ = [] from rfl, List.append_nil]
    exact ⟨hs.move rfl rfl ⟨points, hplace, hlook, hmax, hfull, .unread t u rfl hreads hread⟩, rfl⟩
  · next u hread =>
    cases h
    rw [show Phase.incoming _ = [] from rfl, List.append_nil]
    refine ⟨hs.move rfl rfl ⟨⟨⟨t, hreads, fun _ _ => ⟨u, hread⟩⟩, ?_, fun _ => ?_, fun _ => hlimit⟩, hclosed, hplace,
      Nat.zero_le _, hslots, hfull.trans (List.append_nil _).symm⟩, rfl⟩
    · rwa [hcancelled]
    · rw [hlimit, hmax]
  · next p u hread =>
    cases h
    have hlen : (points ++ [p]).length = points.length + 1 := by simp
    refine ⟨⟨?_, hs.batchesSent, fun n hn => ?_, ⟨hreads.next hread, hcancelled, hlimit, hclosed⟩, points, rfl, hplace,
      hslots, hfull⟩, rfl⟩
    · show stats.pointsRead + 1 = _
      rw [hs.pointsRead, Phase.incoming, hlen]
    · rw [Phase.incoming, hlen] at hn
      rcases Nat.lt_or_eq_of_le (Nat.le_of_lt_succ hn) with hn | rfl
      · exact hs.went n hn
      · exact ⟨hlook, hmax⟩

theorem Account.advance_placing [Batch.CountsRows β]
    (hs : Account plan looks source points sent ⟨t, slots, stats, .placing p⟩)
    (h : Scan.advance plan stop ⟨t, slots, stats, .placing p⟩ pool = some (s', pool')) :
    Account plan looks source points sent s' ∧ pool' = pool ∧ s'.phase.incoming = [] := by
  obtain ⟨hreading, before, rfl, hplace, hslots, hfull⟩ := hs.held
  obtain ⟨hlook, hmax⟩ := hs.went before.length (by simp)
  simp only [Scan.advance] at h
  split at h
  · next hlt =>
    obtain ⟨b, hb, hpoints⟩ := map_points_getElem? hslots (restsFrom_zero_getElem? hlt)
    split at h
    · next fault hfault =>
      cases h
      obtain ⟨b', hb', happ⟩ := place_eq_error hfault
      cases hb.symm.trans hb'
      exact ⟨hs.move rfl rfl ⟨before, hplace, hlook, hmax, hfull,
        .refused p t b.batch rfl hreading.reads hlt (hpoints ▸ b.holds) (Noted.append_eq_error happ)⟩, rfl, rfl⟩
    · next slots' hok =>
      cases h
      obtain ⟨b', hb', rfl⟩ := place_eq_ok hok hb
      have hb' : b'.points = rest plan (plan.partition p) before ++ [p] := hpoints ▸ hb'
      have hk : plan.partition p < slots.length := (List.getElem?_eq_some_iff.1 hb).1
      -- Each point is a row, so the slot is full when as many points are left over.
      have hrows : rowsAt (slots.set (plan.partition p) b') (plan.partition p) = b'.points.length := by
        rw [rowsAt, List.getElem?_set_self hk]
        exact Noted.rows_eq b'
      have hnew : (slots.set (plan.partition p) b').map (·.points) =
          (restsFrom plan 0 before).set (plan.partition p) (rest plan (plan.partition p) before ++ [p]) := by
        rw [List.map_set, hslots, hb']
      have hle : (rest plan (plan.partition p) before ++ [p]).length ≤ plan.fullSize := by
        rw [List.length_append]
        exact length_rest_lt
      have hplace' : Placeable plan (before ++ [p]) := placeable_append.2 ⟨hplace, hlt⟩
      rw [hrows, hb']
      split
      · next hge =>
        exact ⟨hs.move rfl rfl ⟨hreading, before, p, rfl, hplace', rfl, Nat.le_antisymm hle hge, hnew, hfull⟩, rfl, rfl⟩
      · next hlt =>
        obtain ⟨hrests, hsame⟩ := append_of_lt (Nat.lt_of_not_le hlt)
        exact ⟨hs.move rfl rfl ⟨hreading, hplace', hnew.trans hrests.symm, hfull.trans hsame.symm⟩, rfl, rfl⟩
  · next hge =>
    cases h
    exact ⟨hs.move rfl rfl ⟨before, hplace, hlook, hmax, hfull,
      .misplaced p t rfl hreading.reads (Nat.le_of_not_lt hge) rfl⟩, rfl, rfl⟩

theorem Account.advance_trading (hs : Account plan looks source points sent ⟨t, slots, stats, .trading k⟩)
    (hpool : Clean pool) (h : Scan.advance plan stop ⟨t, slots, stats, .trading k⟩ pool = some (s', pool')) :
    Account plan looks source points sent s' ∧ Clean pool' ∧ s'.phase.incoming = [] := by
  obtain ⟨hreading, before, p, rfl, hplace, rfl, hlen, hslots, hfull⟩ := hs.held
  have hk : plan.partition p < (restsFrom plan 0 before).length := by
    rw [length_restsFrom]
    exact (placeable_append.1 hplace).2
  obtain ⟨b, hb, hpoints⟩ := map_points_getElem? hslots (List.getElem?_set_self hk)
  obtain ⟨hrests, hmore⟩ := append_of_eq hlen
  simp only [Scan.advance, hb] at h
  cases h
  obtain ⟨hnew, hclean⟩ := hpool.get
  refine ⟨hs.move rfl rfl ⟨hreading, hplace, ?_, ?_⟩, hclean, rfl⟩
  · rw [List.map_set, hslots, hnew, List.set_set, hrests]
  · rw [hfull, hpoints, hmore]

theorem Account.advance_flushing [Batch.CountsRows β]
    (hs : Account plan looks source points sent ⟨t, slots, stats, .flushing k⟩) (hpool : Clean pool)
    (h : Scan.advance plan stop ⟨t, slots, stats, .flushing k⟩ pool = some (s', pool')) :
    Account plan looks source points sent s' ∧ Clean pool' ∧ s'.phase.incoming = [] := by
  obtain ⟨hcomplete, hclosed, hplace, hk, hslots, hsent⟩ := hs.held
  rcases Nat.lt_or_eq_of_le hk with hk | rfl
  · rw [restsFrom_eq_cons hk] at hslots
    obtain ⟨b, more, rfl, hb, hmore⟩ := List.map_eq_cons_iff.1 hslots
    have hrows : (Batch.counts b).rows = (rest plan k points).length := by rw [Noted.rows_eq, hb]
    simp only [Scan.advance] at h
    split at h
    · next hzero =>
      cases h
      have hnil : rest plan k points = [] := List.length_eq_zero_iff.1 (hrows ▸ hzero)
      refine ⟨hs.move rfl rfl ⟨hcomplete, hclosed, hplace, hk, hmore, ?_⟩, hpool.put b, rfl⟩
      rw [restBatches_succ, hnil, hsent]
      simp
    · next hzero =>
      cases h
      refine ⟨hs.move rfl rfl ⟨hcomplete, hclosed, hplace, hk, hmore, hb, fun hnil => hzero ?_, hsent⟩, hpool, rfl⟩
      rw [Noted.rows_eq, hnil, List.length_nil]
  · rw [restsFrom_slotCount, List.map_eq_nil_iff] at hslots
    subst hslots
    cases h
    exact ⟨hs.move rfl rfl ⟨hplace, .inl ⟨hclosed, hcomplete, hsent⟩⟩, hpool, rfl⟩

/-- Each move of the scan keeps its account. -/
theorem Account.advance [Batch.CountsRows β] (hs : Account plan looks source points sent s) (hpool : Clean pool)
    (hlook : s.phase = .deciding → looks points.length stop) (h : s.advance plan stop pool = some (s', pool')) :
    Account plan looks source (points ++ s'.phase.incoming) sent s' ∧ Clean pool' := by
  obtain ⟨t, slots, stats, phase⟩ := s
  have same : ∀ {P : Prop}, Account plan looks source points sent s' ∧ P ∧ s'.phase.incoming = [] →
      Account plan looks source (points ++ s'.phase.incoming) sent s' ∧ P := fun ⟨hs', hp, hnil⟩ => by
    rw [hnil, List.append_nil]
    exact ⟨hs', hp⟩
  cases phase with
  | opening => exact same (hs.advance_opening hpool h)
  | deciding =>
    obtain ⟨hs', rfl⟩ := same (hs.advance_deciding (hlook rfl) h)
    exact ⟨hs', hpool⟩
  | reading =>
    obtain ⟨hs', rfl⟩ := hs.advance_reading h
    exact ⟨hs', hpool⟩
  | placing p =>
    obtain ⟨hs', rfl⟩ := same (hs.advance_placing h)
    exact ⟨hs', hpool⟩
  | trading k => exact same (hs.advance_trading hpool h)
  | flushing k => exact same (hs.advance_flushing hpool h)
  | sending k b last => cases h
  | finished fault => cases h

/-- A batch that was taken goes from the scan to the batches handed on. -/
theorem Account.handOn {b : Noted β} (hs : Account plan looks source points sent s) (h : s.offered = some (k, b)) :
    Account plan looks source points (sent ++ [(k, b.points)]) s.sent := by
  obtain ⟨t, slots, stats, phase⟩ := s
  obtain ⟨hread, hsent, hwent, hheld⟩ := hs
  have hcount : stats.batchesSent + 1 = (sent ++ [(k, b.points)]).length := by
    rw [List.length_append, List.length_singleton, ← hsent]
  cases phase with
  | sending k' b' last =>
    cases h
    cases last with
    | false =>
      obtain ⟨⟨hreads, hcancelled, hlimit, hclosed⟩, hplace, hslots, hfull⟩ := hheld
      exact ⟨hread, hcount, hwent, ⟨hreads, hcancelled, hlimit, hclosed⟩, hplace, hslots, hfull⟩
    | true =>
      obtain ⟨⟨hreads, hlooked, hlimit, heither⟩, hclosed, hplace, hk, hslots, hb, hne, hfull⟩ := hheld
      refine ⟨hread, hcount, hwent, ⟨hreads, hlooked, hlimit, heither⟩, hclosed, hplace, hk, hslots, ?_⟩
      -- What is left over was not empty, so it is one of the batches.
      rw [restBatches_succ, hfull, ← hb]
      simp [hne]
  | _ => cases h

/-- What was handed on when a batch is refused is a first part of all batches. -/
theorem Account.turnedAway {b : Noted β} (hs : Account plan looks source points sent s)
    (h : s.offered = some (k, b)) : Account plan looks source points sent s.turnedAway := by
  obtain ⟨t, slots, stats, phase⟩ := s
  obtain ⟨hread, hsent, hwent, hheld⟩ := hs
  cases phase with
  | sending k' b' last =>
    cases last with
    | false =>
      obtain ⟨hreading, hplace, hslots, hfull⟩ := hheld
      refine ⟨hread, hsent, hwent, hplace, .inr ⟨rfl, ⟨t, hreading.reads⟩, ?_⟩⟩
      refine (List.prefix_append sent [(k', b'.points)]).trans ?_
      rw [hfull]
      exact List.prefix_append _ _
    | true =>
      obtain ⟨hcomplete, hclosed, hplace, hk, hslots, hb, hne, hfull⟩ := hheld
      obtain ⟨t', ht', -⟩ := hcomplete.reads
      refine ⟨hread, hsent, hwent, hplace, .inr ⟨rfl, ⟨t', ht'⟩, ?_⟩⟩
      rw [hfull]
      exact (List.prefix_append_right_inj _).2 (restBatches_isPrefix (Nat.le_of_lt hk))
  | _ => cases h

/-! ### What the account says -/

omit [Batch β π] in
theorem stats_of_result {scan : Scan σ π β} {stats : ScanStats} (h : scan.result? = some (.ok stats)) :
    stats = scan.stats := by
  obtain ⟨t, slots, stats', phase⟩ := scan
  cases phase with
  | finished fault =>
    cases fault with
    | none =>
      cases h
      rfl
    | some fault => cases h
  | _ => cases h

/-- A scan fails at the last point, or after it. -/
theorem Failed.isPrefix {before : List π} {fault : Failure}
    (h : Failed (β := β) plan source points before fault) : before <+: points := by
  cases h with
  | unread t u heq _ _ => exact heq ▸ List.prefix_refl _
  | misplaced p t heq _ _ _ => exact heq ▸ List.prefix_append _ _
  | refused p t b heq _ _ _ _ => exact heq ▸ List.prefix_append _ _

theorem Failed.reads {before : List π} {fault : Failure} (h : Failed (β := β) plan source points before fault) :
    ∃ t, Reads plan.read source points t := by
  cases h with
  | unread t u heq ht _ => exact ⟨t, heq ▸ ht⟩
  | misplaced p t _ ht _ _ => exact ⟨t, ht⟩
  | refused p t b _ ht _ _ _ => exact ⟨t, ht⟩

/-- The points that were read are the first ones of the source. -/
theorem Account.reads (hs : Account plan looks source points sent s) : ∃ t, Reads plan.read source points t := by
  obtain ⟨t, slots, stats, phase⟩ := s
  have hheld := hs.held
  cases phase with
  | sending k b last =>
    cases last with
    | false => exact ⟨t, hheld.1.reads⟩
    | true => exact hheld.1.reads.imp fun _ h => h.1
  | flushing k => exact hheld.1.reads.imp fun _ h => h.1
  | finished fault =>
    cases fault with
    | none =>
      obtain ⟨-, ⟨-, hcomplete, -⟩ | ⟨-, hreads, -⟩⟩ := hheld
      · exact hcomplete.reads.imp fun _ h => h.1
      · exact hreads
    | some fault =>
      obtain ⟨before, -, -, -, -, hfailed⟩ := hheld
      exact hfailed.reads
  | _ => exact ⟨t, hheld.1.reads⟩

theorem fullBatches_prefix_allBatches (points : List π) : fullBatches plan points <+: allBatches plan points :=
  List.prefix_append _ _

/-- What was handed on is a first part of the batches that points make which were read first. -/
theorem Account.sent_isPrefix (hs : Account plan looks source points sent s) :
    ∃ before, before <+: points ∧ Placeable plan before ∧ sent <+: allBatches plan before := by
  obtain ⟨t, slots, stats, phase⟩ := s
  have hheld := hs.held
  cases phase with
  | opening =>
    obtain ⟨-, rfl, rfl, -, -⟩ := hheld
    exact ⟨[], List.nil_prefix, List.forall_mem_nil _, List.nil_prefix⟩
  | deciding =>
    obtain ⟨-, hplace, -, rfl⟩ := hheld
    exact ⟨points, List.prefix_refl _, hplace, fullBatches_prefix_allBatches points⟩
  | reading =>
    obtain ⟨-, hplace, -, rfl, -, -⟩ := hheld
    exact ⟨points, List.prefix_refl _, hplace, fullBatches_prefix_allBatches points⟩
  | placing p =>
    obtain ⟨-, before, rfl, hplace, -, rfl⟩ := hheld
    exact ⟨before, List.prefix_append _ _, hplace, fullBatches_prefix_allBatches before⟩
  | trading k =>
    obtain ⟨-, before, p, rfl, hplace, -, -, -, rfl⟩ := hheld
    exact ⟨before, List.prefix_append _ _, (placeable_append.1 hplace).1, fullBatches_prefix_allBatches before⟩
  | sending k b last =>
    cases last with
    | false =>
      obtain ⟨-, hplace, -, hfull⟩ := hheld
      refine ⟨points, List.prefix_refl _, hplace, (List.prefix_append sent [(k, b.points)]).trans ?_⟩
      rw [hfull]
      exact fullBatches_prefix_allBatches points
    | true =>
      obtain ⟨-, -, hplace, hk, -, -, -, rfl⟩ := hheld
      exact ⟨points, List.prefix_refl _, hplace,
        (List.prefix_append_right_inj _).2 (restBatches_isPrefix (Nat.le_of_lt hk))⟩
  | flushing k =>
    obtain ⟨-, -, hplace, hk, -, rfl⟩ := hheld
    exact ⟨points, List.prefix_refl _, hplace, (List.prefix_append_right_inj _).2 (restBatches_isPrefix hk)⟩
  | finished fault =>
    cases fault with
    | none =>
      obtain ⟨hplace, ⟨-, -, rfl⟩ | ⟨-, -, hprefix⟩⟩ := hheld
      · exact ⟨points, List.prefix_refl _, hplace, List.prefix_refl _⟩
      · exact ⟨points, List.prefix_refl _, hplace, hprefix⟩
    | some fault =>
      obtain ⟨before, hplace, -, -, rfl, hfailed⟩ := hheld
      exact ⟨before, hfailed.isPrefix, hplace, fullBatches_prefix_allBatches before⟩

/-- Unless batches were turned away, a scan that ends without a fault has handed on all that the points make. -/
theorem Account.sent_eq {stats : ScanStats} (hs : Account plan looks source points sent s)
    (hresult : s.result? = some (.ok stats)) (hclosed : stats.queueClosed = false) :
    Placeable plan points ∧ sent = allBatches plan points ∧ Complete plan looks source points stats := by
  obtain ⟨t, slots, stats', phase⟩ := s
  cases phase with
  | finished fault =>
    cases fault with
    | none =>
      cases hresult
      obtain ⟨hplace, ⟨-, hcomplete, hsent⟩ | ⟨hturned, -, -⟩⟩ := hs.held
      · exact ⟨hplace, hsent, hcomplete⟩
      · rw [hclosed] at hturned
        cases hturned
    | some fault => cases hresult
  | _ => cases hresult

end
end Scan
end IngestBench
