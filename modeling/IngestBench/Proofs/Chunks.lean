import Mathlib.Data.List.Basic
import Mathlib.Data.List.Induction

/-! Lists of points cut to batches. The points of each partition, in order, are cut to pieces of one length; what is
    left over makes a shorter piece. -/

namespace IngestBench
namespace Chunks

variable {π : Type}

/-! ### Pieces -/

/-- The whole pieces of length `n` at the front of a list, one after the other. -/
def wholes (n : Nat) (l : List π) : List (List π) :=
  (List.range (l.length / n)).map fun i => (l.drop (i * n)).take n

/-- What is left over after the whole pieces. -/
def leftover (n : Nat) (l : List π) : List π := l.drop (l.length / n * n)

/-- A list cut to pieces of length `n`. The last one may be shorter; none is empty. -/
def pieces (n : Nat) (l : List π) : List (List π) := wholes n l ++ [leftover n l].filter fun rest => !rest.isEmpty

variable {n : Nat} {l : List π} {p : π}

@[simp] theorem wholes_nil : wholes n ([] : List π) = [] := by simp [wholes]

@[simp] theorem leftover_nil : leftover n ([] : List π) = [] := by simp [leftover]

theorem length_leftover : (leftover n l).length = l.length % n := by
  rw [leftover, List.length_drop, Nat.mod_eq_sub_div_mul]

theorem length_leftover_lt (hn : 0 < n) : (leftover n l).length < n := length_leftover ▸ Nat.mod_lt _ hn

theorem wholes_append_of_div_eq {m : List π} (h : (l ++ m).length / n = l.length / n) :
    wholes n (l ++ m) = wholes n l ∧ leftover n (l ++ m) = leftover n l ++ m := by
  have hle : l.length / n * n ≤ l.length := Nat.div_mul_le_self _ _
  refine ⟨?_, by rw [leftover, h, List.drop_append_of_le_length hle, leftover]⟩
  rw [wholes, h]
  refine List.map_congr_left fun i hi => ?_
  have hi : (i + 1) * n ≤ l.length := Nat.le_trans (Nat.mul_le_mul_right n (List.mem_range.1 hi)) hle
  rw [Nat.succ_mul] at hi
  rw [List.drop_append_of_le_length (by omega), List.take_append_of_le_length (by rw [List.length_drop]; omega)]

theorem append_singleton_of_lt (h : (leftover n l).length + 1 < n) :
    wholes n (l ++ [p]) = wholes n l ∧ leftover n (l ++ [p]) = leftover n l ++ [p] := by
  refine wholes_append_of_div_eq ?_
  rw [length_leftover] at h
  rw [List.length_append, List.length_singleton]
  have hdiv := Nat.div_add_mod l.length n
  refine Nat.div_eq_of_lt_le ?_ ?_
  · rw [Nat.mul_comm]
    omega
  · rw [Nat.succ_mul, Nat.mul_comm]
    omega

theorem append_singleton_of_eq (h : (leftover n l).length + 1 = n) :
    wholes n (l ++ [p]) = wholes n l ++ [leftover n l ++ [p]] ∧ leftover n (l ++ [p]) = [] := by
  have hn : 0 < n := by omega
  rw [length_leftover] at h
  have hdiv := Nat.div_add_mod l.length n
  have hlen : (l ++ [p]).length = (l.length / n + 1) * n := by
    rw [List.length_append, List.length_singleton, Nat.succ_mul, Nat.mul_comm]
    omega
  have hquot : (l ++ [p]).length / n = l.length / n + 1 := by rw [hlen, Nat.mul_div_cancel _ hn]
  have hle : l.length / n * n ≤ l.length := Nat.div_mul_le_self _ _
  refine ⟨?_, by rw [leftover, hquot, ← hlen, List.drop_length]⟩
  rw [wholes, hquot, List.range_succ, List.map_append]
  congr 1
  · refine List.map_congr_left fun i hi => ?_
    have hi : (i + 1) * n ≤ l.length := Nat.le_trans (Nat.mul_le_mul_right n (List.mem_range.1 hi)) hle
    rw [Nat.succ_mul] at hi
    rw [List.drop_append_of_le_length (by omega), List.take_append_of_le_length (by rw [List.length_drop]; omega)]
  · rw [List.map_singleton, List.drop_append_of_le_length hle, ← leftover, List.take_of_length_le]
    rw [List.length_append, List.length_singleton, length_leftover]
    omega

theorem flatten_wholes (hn : 0 < n) (l : List π) : (wholes n l).flatten ++ leftover n l = l := by
  induction l using List.reverseRecOn with
  | nil => simp
  | append_singleton l p ih =>
    rcases Nat.lt_or_eq_of_le (length_leftover_lt (l := l) hn) with h | h
    · obtain ⟨hw, hl⟩ := append_singleton_of_lt (p := p) h
      rw [hw, hl, ← List.append_assoc, ih]
    · obtain ⟨hw, hl⟩ := append_singleton_of_eq (p := p) h
      rw [hw, hl, List.flatten_append, List.flatten_singleton, List.append_nil, ← List.append_assoc, ih]

theorem flatten_pieces (hn : 0 < n) (l : List π) : (pieces n l).flatten = l := by
  have hw := flatten_wholes hn l
  rw [pieces, List.flatten_append]
  cases h : leftover n l with
  | nil => simpa [h] using hw
  | cons q rest => simpa [h] using hw

/-! ### Batches in the order of the points that complete them -/

variable (partition : π → Nat)

/-- The points of a partition. -/
def lane (k : Nat) (points : List π) : List π := points.filter (partition · == k)

/-- The batch that a point completes, after the points before it. -/
def completion (n : Nat) (before : List π) (p : π) : List (Nat × List π) :=
  let batch := leftover n (lane partition (partition p) before) ++ [p]
  if batch.length = n then [(partition p, batch)] else []

/-- The full batches, with their partitions, in the order of the points that complete them. -/
def completedAfter (n : Nat) : List π → List π → List (Nat × List π)
  | _, [] => []
  | before, p :: points => completion partition n before p ++ completedAfter n (before ++ [p]) points

def completed (n : Nat) (points : List π) : List (Nat × List π) := completedAfter partition n [] points

/-- What is left over for the partitions below `k`, in the order of the partitions. -/
def partials (n k : Nat) (points : List π) : List (Nat × List π) :=
  ((List.range k).map fun j => (j, leftover n (lane partition j points))).filter fun x => !x.2.isEmpty

/-- The batches of one partition. -/
def batchesOf (k : Nat) (batches : List (Nat × List π)) : List (List π) := (batches.filter (·.1 == k)).map (·.2)

variable {partition} {k : Nat} {points : List π}

@[simp] theorem lane_nil : lane partition k [] = [] := rfl

theorem lane_append_self : lane partition (partition p) (points ++ [p]) = lane partition (partition p) points ++ [p] := by
  simp [lane]

theorem lane_append_of_ne (h : partition p ≠ k) : lane partition k (points ++ [p]) = lane partition k points := by
  simp [lane, h]

theorem batchesOf_append (a b : List (Nat × List π)) : batchesOf k (a ++ b) = batchesOf k a ++ batchesOf k b := by
  simp [batchesOf]

theorem completed_append_singleton :
    completed partition n (points ++ [p]) = completed partition n points ++ completion partition n points p := by
  have key : ∀ (ps before : List π), completedAfter partition n before (ps ++ [p]) =
      completedAfter partition n before ps ++ completion partition n (before ++ ps) p := by
    intro ps
    induction ps with
    | nil => intro before; simp [completedAfter]
    | cons q ps ih => intro before; simp [completedAfter, ih]
  exact key points []

theorem mem_completed {x : Nat × List π} (h : x ∈ completed partition n points) : ∃ q ∈ points, partition q = x.1 := by
  induction points using List.reverseRecOn with
  | nil => cases h
  | append_singleton ps p ih =>
    rw [completed_append_singleton, List.mem_append] at h
    rcases h with h | h
    · obtain ⟨q, hq, hx⟩ := ih h
      exact ⟨q, List.mem_append_left _ hq, hx⟩
    · simp only [completion] at h
      split at h
      · cases List.mem_singleton.1 h
        exact ⟨p, by simp, rfl⟩
      · cases h

/-- The full batches of a partition are the whole pieces of its points. -/
theorem batchesOf_completed (hn : 0 < n) (points : List π) :
    batchesOf k (completed partition n points) = wholes n (lane partition k points) := by
  induction points using List.reverseRecOn with
  | nil => simp [completed, completedAfter, batchesOf]
  | append_singleton ps p ih =>
    rw [completed_append_singleton, batchesOf_append, ih]
    by_cases hk : partition p = k
    · subst hk
      have hlt := length_leftover_lt (l := lane partition (partition p) ps) hn
      rw [lane_append_self]
      rcases Nat.lt_or_eq_of_le hlt with h | h
      · rw [(append_singleton_of_lt (p := p) h).1]
        have hne : ¬(leftover n (lane partition (partition p) ps)).length + 1 = n := by omega
        simp [completion, batchesOf, hne]
      · rw [(append_singleton_of_eq (p := p) h).1]
        have hlen : (leftover n (lane partition (partition p) ps) ++ [p]).length = n := by simpa using h
        rw [completion, if_pos hlen]
        simp [batchesOf]
    · rw [lane_append_of_ne hk]
      have hnone : batchesOf k (completion partition n ps p) = [] := by
        simp only [completion]
        split <;> simp [batchesOf, hk]
      rw [hnone, List.append_nil]

theorem partials_succ (j : Nat) : partials partition n (j + 1) points =
    partials partition n j points ++ [(j, leftover n (lane partition j points))].filter fun x => !x.2.isEmpty := by
  simp [partials, List.range_succ]

theorem batchesOf_partials {m : Nat} : batchesOf k (partials partition n m points) =
    if k < m then [leftover n (lane partition k points)].filter fun rest => !rest.isEmpty else [] := by
  induction m with
  | zero => simp [partials, batchesOf]
  | succ m ih =>
    rw [partials_succ, batchesOf_append, ih]
    by_cases hk : k = m
    · subst hk
      cases leftover n (lane partition k points) <;> simp [batchesOf]
    · have hnone : batchesOf k ([(m, leftover n (lane partition m points))].filter fun x => !x.2.isEmpty) = [] := by
        cases leftover n (lane partition m points) <;> simp [batchesOf, Ne.symm hk]
      rw [hnone, List.append_nil]
      have hiff : k < m + 1 ↔ k < m := by omega
      simp only [hiff]

/-- With what is left over for each partition, the batches of a partition are the pieces of its points. -/
theorem batchesOf_completed_append_partials {m : Nat} (hn : 0 < n) (hk : k < m) (points : List π) :
    batchesOf k (completed partition n points ++ partials partition n m points) = pieces n (lane partition k points) := by
  rw [batchesOf_append, batchesOf_completed hn, batchesOf_partials, if_pos hk, pieces]

theorem flatten_batchesOf {m : Nat} (hn : 0 < n) (hk : k < m) (points : List π) :
    (batchesOf k (completed partition n points ++ partials partition n m points)).flatten = lane partition k points := by
  rw [batchesOf_completed_append_partials hn hk, flatten_pieces hn]

theorem mem_partials {m : Nat} {x : Nat × List π} (h : x ∈ partials partition n m points) : x.1 < m := by
  obtain ⟨j, hj, rfl⟩ := List.mem_map.1 (List.mem_filter.1 h).1
  exact List.mem_range.1 hj

/-! ### All batches together -/

theorem perm_flatMap_filter {α : Type} (key : α → Nat) (m : Nat) (l : List α) (h : ∀ a ∈ l, key a < m) :
    l.Perm ((List.range m).flatMap fun k => l.filter (key · == k)) := by
  induction m generalizing l with
  | zero =>
    cases l with
    | nil => exact .refl _
    | cons a l => exact absurd (h a List.mem_cons_self) (Nat.not_lt_zero _)
  | succ m ih =>
    rw [List.range_succ, List.flatMap_append, List.flatMap_singleton]
    have hbelow := ih (l.filter fun a => !(key a == m)) fun a ha => by
      obtain ⟨ha, hne⟩ := List.mem_filter.1 ha
      have := h a ha
      have : key a ≠ m := by simpa using hne
      omega
    have hsame : ((List.range m).flatMap fun k => (l.filter fun a => !(key a == m)).filter (key · == k)) =
        (List.range m).flatMap fun k => l.filter (key · == k) := by
      refine List.flatMap_congr fun k hk => ?_
      rw [List.filter_filter]
      refine List.filter_congr fun a _ => ?_
      have : k < m := List.mem_range.1 hk
      by_cases hak : key a = k
      · have hne : k ≠ m := by omega
        simp [hak, hne]
      · simp [hak]
    rw [hsame] at hbelow
    exact (List.filter_append_perm (key · == m) l).symm.trans (List.perm_append_comm.trans (hbelow.append_right _))

theorem lt_of_mem {m : Nat} (h : ∀ p ∈ points, partition p < m) {x : Nat × List π}
    (hx : x ∈ completed partition n points ++ partials partition n m points) : x.1 < m := by
  rcases List.mem_append.1 hx with hx | hx
  · obtain ⟨q, hq, hqx⟩ := mem_completed hx
    exact hqx ▸ h q hq
  · exact mem_partials hx

/-- A batch holds points of its own partition. -/
theorem partition_of_mem {m : Nat} (hn : 0 < n) (h : ∀ p ∈ points, partition p < m) {x : Nat × List π}
    (hx : x ∈ completed partition n points ++ partials partition n m points) (hp : p ∈ x.2) : partition p = x.1 := by
  have hmem : x.2 ∈ batchesOf x.1 (completed partition n points ++ partials partition n m points) :=
    List.mem_map_of_mem (List.mem_filter.2 ⟨hx, beq_self_eq_true _⟩)
  have hlane : p ∈ lane partition x.1 points := by
    rw [← flatten_batchesOf hn (lt_of_mem h hx)]
    exact List.mem_flatten_of_mem hmem hp
  exact beq_iff_eq.1 (List.mem_filter.1 hlane).2

/-- Full batches and what is left over hold each point once. -/
theorem perm_flatten {m : Nat} (hn : 0 < n) (h : ∀ p ∈ points, partition p < m) :
    ((completed partition n points ++ partials partition n m points).flatMap (·.2)).Perm points := by
  have hkeys : ∀ x ∈ completed partition n points ++ partials partition n m points, x.1 < m := fun x hx =>
    lt_of_mem h hx
  have hbatches := perm_flatMap_filter Prod.fst m _ hkeys
  have hpoints := perm_flatMap_filter partition m points h
  refine ((hbatches.flatMap_right (·.2)).trans ?_).trans hpoints.symm
  rw [List.flatMap_assoc]
  refine List.Perm.of_eq (List.flatMap_congr fun k hk => ?_)
  rw [List.flatMap_def]
  exact flatten_batchesOf hn (List.mem_range.1 hk) points

end Chunks
end IngestBench
