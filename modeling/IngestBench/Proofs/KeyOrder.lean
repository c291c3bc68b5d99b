import IngestBench.Proofs.Conservation

/-! Order by key. Where each worker has a queue of its own, all batches with points of one key go to one worker, and the
    store accepts the points of the key in the order of the source, with no gap and none of them twice. -/

namespace IngestBench

variable {σ π β ν : Type}

/-! ### Batches with points of one kind -/

namespace Chunks

variable {partition : π → Nat} {k : Nat} {wanted : π → Bool}

/-- Batches that are left out hold no point that belongs to a partition whose batches are kept. -/
theorem filter_flatMap (hwanted : ∀ p, wanted p = true → partition p = k) (chosen : Nat → Bool)
    (hk : chosen k = true) (batches : List (Nat × List π)) (hhome : ∀ x ∈ batches, ∀ p ∈ x.2, partition p = x.1) :
    ((batches.filter (chosen ·.1)).flatMap (·.2)).filter wanted = (batches.flatMap (·.2)).filter wanted := by
  induction batches with
  | nil => rfl
  | cons x batches ih =>
    have ih := ih fun y hy => hhome y (List.mem_cons_of_mem _ hy)
    rw [List.filter_cons, List.flatMap_cons, List.filter_append, ← ih]
    by_cases hx : chosen x.1 = true
    · rw [if_pos hx, List.flatMap_cons, List.filter_append]
    · have hnone : x.2.filter wanted = [] := List.filter_eq_nil_iff.2 fun p hp hw => by
        rw [← hhome x List.mem_cons_self p hp, hwanted p hw] at hx
        exact hx hk
      rw [if_neg hx, hnone, List.nil_append]

theorem flatten_batchesOf_eq (batches : List (Nat × List π)) :
    (batchesOf k batches).flatten = (batches.filter (·.1 == k)).flatMap (·.2) := (List.flatMap_def ..).symm

end Chunks

/-! ### Keys and partitions -/

/-- The points with a key. -/
def keyed [Keyed π] (key : List UInt8) (points : List π) : List π := points.filter (Keyed.key · == key)

/-- All points with a key belong to one partition. -/
theorem Partition.exists_of_key [Keyed π] (partitions : Nat) (key : List UInt8) :
    ∃ k < effective partitions, ∀ p : π, Keyed.key p = key → Partition.of partitions p = k := by
  refine ⟨if 1 < partitions then hashed partitions key else 0, ?_, fun p hp => by rw [Partition.of, hp]⟩
  split
  · exact hashed_lt _ _
  · unfold effective
    omega

theorem keyed_isPrefix [Keyed π] (key : List UInt8) {a b : List π} (h : a <+: b) : keyed key a <+: keyed key b := h.filter _

/-! ### Workers -/

theorem Worker.Phase.accepted_isPrefix (p : Worker.Phase β) : p.accepted <+: p.inHand := by
  cases p with
  | sending b a =>
    cases a with
    | settling result => cases result <;> first | exact List.prefix_refl _ | exact List.nil_prefix
    | settled result => cases result <;> first | exact List.prefix_refl _ | exact List.nil_prefix
    | _ => exact List.nil_prefix
  | _ => exact List.nil_prefix

/-- The store accepts batches of a worker in the order in which they were taken. -/
theorem Books.stored_isPrefix {sending : Bool} {tasks : List (Task β)} {p : Worker.Phase β} (h : Books sending tasks p) :
    tasks.filterMap Task.stored? <+: tasks.filterMap Task.took? := by
  cases sending with
  | false =>
    rw [(h.counted rfl).1]
    exact List.nil_prefix
  | true =>
    rw [h.stored rfl, h.taken, List.append_assoc]
    exact (List.prefix_append_right_inj _).2 (p.accepted_isPrefix.trans (List.prefix_append _ _))

namespace Run

theorem Log.takenFrom_dedicated (log : Log π β) (i : Nat) :
    log.takenFrom true i = (log.tasks i).filterMap Task.took? := by
  rw [takenFrom, tasks, List.filterMap_map]
  rfl

section
variable [Batch β π] {plan : Plan σ π} {events : List Event} {log : Log π β} {s : State σ π β ν}

/-- The store accepts batches of a worker in the order in which they were handed on to its queue. -/
theorem Ledger.storedBy_isPrefix (hl : Ledger plan events log s) (hdedicated : plan.dedicated = true) (i : Nat) :
    log.storedBy i <+: log.sentTo s.channels.length i := by
  have htaken := hl.takenFrom_isPrefix i
  rw [hdedicated, Log.takenFrom_dedicated] at htaken
  refine List.IsPrefix.trans ?_ htaken
  by_cases hi : i < s.phases.length
  · exact (hl.books i _ (List.getElem?_eq_getElem hi)).stored_isPrefix
  · have hnone : log.tasks i = [] := by
      rw [Log.tasks, List.map_eq_nil_iff]
      exact List.filter_eq_nil_iff.2 fun x hx h => hi (beq_iff_eq.1 h ▸ hl.works x hx)
    rw [Log.storedBy, hnone]
    exact List.nil_prefix

/-- When all workers have found their queues drained, the store has accepted all that was handed on to a queue. -/
theorem Ledger.storedBy_eq (hl : Ledger plan events log s) (hdedicated : plan.dedicated = true)
    (hsending : plan.sending = true)
    (hdrained : s.Drained) {i : Nat}
    (hi : i < s.channels.length) : log.storedBy i = log.sentTo s.channels.length i := by
  have htaken := hl.takenFrom_eq hdrained hi
  rw [hdedicated, Log.takenFrom_dedicated] at htaken
  obtain ⟨j, hj, hji⟩ := hl.manned i hi
  rw [hdedicated] at hji
  obtain rfl : j = i := hji
  have hp := List.getElem?_eq_getElem hj
  obtain ⟨hstage, hhand⟩ := hdrained j _ hp
  have hbooks := hl.books j _ hp
  have haccepted := List.prefix_nil.1 (hhand ▸ Worker.Phase.accepted_isPrefix s.phases[j])
  have hgaveUp := hbooks.kept fun h => by
    rw [hstage] at h
    cases h
  rw [← htaken, Log.storedBy, hbooks.stored hsending, hbooks.taken, haccepted, hhand, hgaveUp]
  simp

end

/-! ### Points with a key -/

section
variable [Batch β π]

/-- The points of some batches. -/
def pointsOf (batches : List (Noted β)) : List π := batches.flatMap (·.points)

theorem pointsOf_isPrefix {a b : List (Noted β)} (h : a <+: b) : pointsOf a <+: pointsOf b := by
  obtain ⟨more, rfl⟩ := h
  simp only [pointsOf, List.flatMap_append]
  exact List.prefix_append _ _

theorem pointsOf_sentTo (log : Log π (Noted β)) (queues c : Nat) : pointsOf (log.sentTo queues c) =
    ((Scan.contents log.sent).filter fun x => Queue.route queues x.1 == c).flatMap (·.2) := by
  simp [pointsOf, Log.sentTo, Scan.contents, List.flatMap_map, List.filter_map, Function.comp_def]

variable [Keyed π] {key : List UInt8} {k : Nat}

/-- Where only one worker has batches with points of a key, the order of the others does not matter. -/
theorem keyed_stored {log : Log π (Noted β)} {w : Nat}
    (h : ∀ i, ∀ b ∈ log.storedBy i, i ≠ w → keyed key b.points = []) :
    keyed key (pointsOf log.stored) = keyed key (pointsOf (log.storedBy w)) := by
  have hworks : ∀ x ∈ log.works, ∀ b, x.2.stored? = some b → x.1 ≠ w → keyed key b.points = [] := fun x hx b hb =>
    h x.1 b (List.mem_filterMap.2 ⟨x.2, List.mem_map_of_mem (List.mem_filter.2 ⟨hx, beq_self_eq_true _⟩), hb⟩)
  -- By induction on what the workers did, in the order in which they did it.
  rw [Log.stored, Log.storedBy, Log.tasks]
  generalize log.works = works at hworks
  induction works with
  | nil => rfl
  | cons x works ih =>
    have ih := ih fun y hy => hworks y (List.mem_cons_of_mem _ hy)
    obtain ⟨i, task⟩ := x
    cases task with
    | stored b =>
      by_cases hi : i = w
      · simpa [keyed, pointsOf, List.filterMap_cons, hi] using ih
      · have hnone : b.points.filter (Keyed.key · == key) = [] := hworks _ List.mem_cons_self b rfl hi
        simpa [keyed, pointsOf, List.filterMap_cons, hi, hnone] using ih
    | _ =>
      by_cases hi : i = w
      · simpa [keyed, pointsOf, List.filterMap_cons, hi] using ih
      · simpa [keyed, pointsOf, List.filterMap_cons, hi] using ih

/-- All batches that some points make hold the points of a key in order. -/
theorem keyed_allBatches {plan : Scan.Plan σ π} {points : List π} (hplace : Scan.Placeable plan points)
    (hk : k < plan.slotCount) (hkey : ∀ p, Keyed.key p = key → plan.partition p = k) :
    keyed key ((Scan.allBatches plan points).flatMap (·.2)) = keyed key points := by
  have hwanted : ∀ p, (Keyed.key p == key) = true → plan.partition p = k := fun p hp => hkey p (beq_iff_eq.1 hp)
  have hhome : ∀ x ∈ Scan.allBatches plan points, ∀ p ∈ x.2, plan.partition p = x.1 := fun x hx p hp =>
    Chunks.partition_of_mem Scan.fullSize_pos hplace hx hp
  calc keyed key ((Scan.allBatches plan points).flatMap (·.2))
      = keyed key (Chunks.batchesOf k (Scan.allBatches plan points)).flatten := by
        rw [Chunks.flatten_batchesOf_eq]
        exact (Chunks.filter_flatMap hwanted (· == k) (beq_self_eq_true k) _ hhome).symm
    _ = keyed key (Chunks.lane plan.partition k points) :=
        congrArg _ (Chunks.flatten_batchesOf Scan.fullSize_pos hk points)
    _ = keyed key points := by
        rw [keyed, Chunks.lane, List.filter_filter, keyed]
        refine List.filter_congr fun p _ => ?_
        by_cases hp : Keyed.key p = key
        · simp [hp, hkey p hp]
        · simp [hp]

variable {plan : Plan σ π} {source : σ} {log : Log π (Noted β)} {s : State σ π (Noted β) ν}

omit [Keyed π] in
/-- A batch holds points of the partition that it was handed on for. -/
theorem Accounted.home (h : Accounted plan source log s) :
    ∀ x ∈ Scan.contents log.sent, ∀ p ∈ x.2, plan.scan.partition p = x.1 := fun x hx p hp => by
  obtain ⟨before, -, hplace, hsent⟩ := h.account.sent_isPrefix
  exact Chunks.partition_of_mem Scan.fullSize_pos hplace (hsent.subset hx) hp

/-- What went to the queue of a key's partition holds all points of the key that were handed on. -/
theorem Accounted.keyed_sentTo (h : Accounted plan source log s) (queues : Nat)
    (hkey : ∀ p, Keyed.key p = key → plan.scan.partition p = k) :
    keyed key (pointsOf (log.sentTo queues (Queue.route queues k))) =
      keyed key ((Scan.contents log.sent).flatMap (·.2)) := by
  rw [pointsOf_sentTo]
  exact Chunks.filter_flatMap (fun p hp => hkey p (beq_iff_eq.1 hp))
    (fun j => Queue.route queues j == Queue.route queues k) (beq_self_eq_true _) _ h.home

theorem Accounted.keyed_sent_isPrefix (h : Accounted plan source log s) (hk : k < plan.scan.slotCount)
    (hkey : ∀ p, Keyed.key p = key → plan.scan.partition p = k) :
    keyed key ((Scan.contents log.sent).flatMap (·.2)) <+: keyed key log.points := by
  obtain ⟨before, hbefore, hplace, more, hmore⟩ := h.account.sent_isPrefix
  refine List.IsPrefix.trans ?_ (keyed_isPrefix key hbefore)
  rw [← keyed_allBatches hplace hk hkey, ← hmore, List.flatMap_append]
  exact keyed_isPrefix key (List.prefix_append _ _)

/-- A batch with a point of a key goes to the queue of the key's partition. -/
theorem Accounted.queue_of_key (h : Accounted plan source log s)
    (hkey : ∀ p, Keyed.key p = key → plan.scan.partition p = k) {queues c : Nat} {b : Noted β}
    (hb : b ∈ log.sentTo queues c) {p : π} (hp : p ∈ b.points) (hpkey : Keyed.key p = key) :
    c = Queue.route queues k := by
  obtain ⟨x, hx, rfl⟩ := List.mem_map.1 hb
  obtain ⟨hx, hroute⟩ := List.mem_filter.1 hx
  have hmem : (x.1, x.2.points) ∈ Scan.contents log.sent := List.mem_map_of_mem hx
  have hhome := h.home _ hmem p hp
  rw [← beq_iff_eq.1 hroute, ← hkey p hpkey, hhome]

end

/-! ### Order by key -/

/-- A limit that was reached is the count of the points that were read. -/
theorem Accounted.limit_eq [Batch β π] {plan : Plan σ π} {source : σ} {log : Log π (Noted β)}
    {s : State σ π (Noted β) ν} (h : Accounted plan source log s) (hlimit : plan.scan.isLimit log.points.length = true) :
    plan.scan.limit = some log.points.length := by
  have hwent := fun n hn => (h.account.went n hn).2
  simp only [Scan.Plan.isLimit] at hlimit hwent
  cases hl : plan.scan.limit with
  | none =>
    rw [hl] at hlimit
    cases hlimit
  | some limit =>
    simp only [hl, Option.any_some, decide_eq_true_eq, decide_eq_false_iff_not] at hlimit hwent
    have hle : ¬limit < log.points.length := fun hlt => hwent limit hlt (Nat.le_refl _)
    exact congrArg some (by omega)

section
variable [Batch β π] [Batch.CountsRows β] [Keyed π] [Quantity ν] {settings : RunSettings} {policy : RetryPolicy}
  {read : σ → Except Failure (Option π) × σ} {source : σ} {stopping : Stopping} {bucket : Option (TokenBucket ν)}
  {events : List Event}

/-- Where each worker has a queue of its own, all batches with points of a key are taken by one worker, and the points
    of the key that the store has accepted, in the order in which it accepted them, are a first part of those that were
    read. A run that does not fail, in which no stop is forced and the store never answers that it was cancelled, or
    whose summary does not say that it was cancelled, has stored all points of the key that were read; in the second
    case these are all that the source has, up to the limit. -/
theorem run_keeps_key_order {s : State σ π β ν} (hhash : settings.hashWorkers = true)
    (h : follow (planFor settings policy read) (stateFor settings stopping bucket source) events = some s)
    (key : List UInt8) :
    let plan : Plan σ π := planFor settings policy read
    let log := deeds plan (stateFor settings stopping bucket source : State σ π (Noted β) ν) events
    deeds plan (stateFor settings stopping bucket source : State σ π β ν) events = log.plain ∧
    (∃ t, Scan.Reads read source log.points t) ∧
    (∃ w, ∀ i b p, Task.took b ∈ log.tasks i → p ∈ b.points → Keyed.key p = key → i = w) ∧
    keyed key (pointsOf log.stored) <+: keyed key log.points ∧
    ∀ summary, outcome s = some (.ok summary) → settings.sending = true →
      (s.isForced = false ∧ ¬SaidCancelled events) ∨ summary.cancelled = false →
      keyed key (pointsOf log.stored) = keyed key log.points ∧
      (summary.cancelled = false → settings.pointLimit = some log.points.length ∨
        ∃ t u, Scan.Reads read source log.points t ∧ read t = (.ok none, u)) := by
  intro plan log
  rw [stateFor_eq settings policy read] at h
  obtain ⟨t, ht, hts, hdeeds⟩ := exists_noted h
  have hl : Ledger plan events log t := ledger_of_course (course_of_follow ht)
  have ha : Accounted plan source log t := accounted_of_course (course_of_follow ht)
  have hdedicated : plan.dedicated = true := hhash
  obtain ⟨k, hk, hkey⟩ := Partition.exists_of_key (π := π) settings.effectivePartitions key
  have hk : k < plan.scan.slotCount := hk
  have hkey : ∀ p, Keyed.key p = key → plan.scan.partition p = k := hkey
  -- The partition of the key goes to one queue, so no other worker stores a point of the key.
  have hstored : keyed key (pointsOf log.stored) =
      keyed key (pointsOf (log.storedBy (Queue.route t.channels.length k))) := by
    refine keyed_stored fun i b hb hi => List.filter_eq_nil_iff.2 fun p hp hpkey => hi ?_
    exact ha.queue_of_key hkey ((hl.storedBy_isPrefix hdedicated i).subset hb) hp (beq_iff_eq.1 hpkey)
  refine ⟨hdeeds, ha.account.reads, ⟨Queue.route t.channels.length k, fun i b p hb hp hpkey => ?_⟩, ?_,
    fun summary hsummary hsending hstop => ?_⟩
  · have htaken := hl.takenFrom_isPrefix i
    rw [hdedicated, Log.takenFrom_dedicated] at htaken
    exact ha.queue_of_key hkey (htaken.subset (List.mem_filterMap.2 ⟨_, hb, rfl⟩)) hp hpkey
  · rw [hstored]
    refine (keyed_isPrefix key (pointsOf_isPrefix (hl.storedBy_isPrefix hdedicated _))).trans ?_
    rw [ha.keyed_sentTo _ hkey]
    exact ha.keyed_sent_isPrefix hk hkey
  · rw [← hts, outcome_map] at hsummary
    rw [← hts] at hstop
    have hdrained := hl.all_drained hsummary hstop
    obtain ⟨stats, reports, hresult, rfl, -⟩ := hl.outcome_eq_ok hsummary
    obtain rfl := Scan.stats_of_result hresult
    have hqueue : Queue.route t.channels.length k < t.channels.length := Nat.mod_lt _ hl.queues
    obtain ⟨hplace, hall, hcomplete⟩ := ha.account.sent_eq hresult (hl.queueClosed_eq_false hdrained)
    refine ⟨?_, fun hcancelled => ?_⟩
    · rw [hstored, hl.storedBy_eq hdedicated hsending hdrained hqueue, ha.keyed_sentTo _ hkey, hall]
      exact keyed_allBatches hplace hk hkey
    · have hcancelled : t.scan.stats.cancelled = false := (Bool.or_eq_false_iff.1 hcancelled).1
      obtain ⟨u, hreads, hend⟩ := hcomplete.reads
      cases hlimit : t.scan.stats.limitReached with
      | true => exact .inl (ha.limit_eq ((hcomplete.limit hcancelled).symm.trans hlimit))
      | false =>
        obtain ⟨v, hv⟩ := hend hcancelled hlimit
        exact .inr ⟨u, v, hreads, hv⟩

end

/-! ### A small run with two queues -/

section
open Rehearsal

/-- The key of a number is its first part. -/
instance : Keyed (Nat × Int) := ⟨fun p => [p.1.toUInt8]⟩

/-- Two numbers with one key, and one with another between them. -/
def threeNumbers : Feed (Nat × Int) := ⟨[.point (0, 1), .point (1, 2), .point (0, 3)], none⟩

/-- Two workers, each with a queue of its own. -/
def twoQueues : RunSettings := { RunSettings.standard 2 with batchSize := 1, hashWorkers := true, queueCapacity := 4 }

def pairPlan : Plan (Feed (Nat × Int)) (Nat × Int) := planFor twoQueues .standard Feed.read

def pairStart : State (Feed (Nat × Int)) (Nat × Int) Numbers Float := stateFor twoQueues .none none threeNumbers

/-- The scan hands all numbers on while the workers connect. -/
def pairScanned : List Event := .connected 0 (.ok ()) :: .connected 1 (.ok ()) :: List.replicate 23 .scan

/-- All numbers are accepted. -/
def pairAccepting : List Event :=
  pairScanned ++ answering 1 (.ok ()) ++ answering 0 (.ok ()) ++ answering 1 (.ok ()) ++ draining 0 ++ draining 1 ++
    parting 0 ++ parting 1 ++ [.joinScan]

/-- The store answers the second worker that it was cancelled. -/
def pairCancelling : List Event :=
  pairScanned ++ answering 1 (.error .cancelled) ++ answering 0 (.ok ()) ++ draining 0 ++ parting 0 ++ parting 1 ++
    [.joinScan]

/-- What is done in a run of the two workers, with the numbers noted beside the batches. -/
def pairLog (events : List Event) : Log (Nat × Int) (Noted Numbers) :=
  deeds pairPlan (stateFor twoQueues .none none threeNumbers : State _ _ _ Float) events

/-- A run that stores all numbers of a key in order. -/
theorem run_keeps_key_order_three_numbers : ∃ s summary, follow pairPlan pairStart pairAccepting = some s ∧
    outcome s = some (.ok summary) ∧ summary.cancelled = false ∧
    keyed [0] (pointsOf (pairLog pairAccepting).stored) = keyed [0] (pairLog pairAccepting).points := by
  have hrun : (follow pairPlan pairStart pairAccepting).bind figures = some (3, 3, 3, 3, false) := rfl
  obtain ⟨s, hs, hfigures⟩ := Option.bind_eq_some_iff.1 hrun
  obtain ⟨summary, hsummary, hx⟩ := exists_summary hfigures
  have hcancelled : summary.cancelled = false := (congrArg (·.2.2.2.2) hx).symm
  have hs' : follow (planFor twoQueues .standard Feed.read) (stateFor twoQueues .none none threeNumbers) pairAccepting =
      some s := hs
  obtain ⟨-, -, -, -, hall⟩ := run_keeps_key_order rfl hs' [0]
  exact ⟨s, summary, hs, hsummary, hcancelled, (hall summary hsummary rfl (.inr hcancelled)).1⟩

/-- A run in which no one asks for a stop, the store answers that it was cancelled, and no number of a key is stored. -/
theorem cancelled_answer_loses_key : ∃ s summary, follow pairPlan pairStart pairCancelling = some s ∧
    outcome s = some (.ok summary) ∧ s.isForced = false ∧
    keyed [0] (pointsOf (pairLog pairCancelling).stored) = [] ∧
    keyed [0] (pairLog pairCancelling).points = [(0, 1), (0, 3)] := by
  have hrun : (follow pairPlan pairStart pairCancelling).bind
      (fun s => (figures s).map fun x => (s.isForced, x)) = some (false, 1, 1, 1, 3, true) := rfl
  obtain ⟨s, hs, hfigures⟩ := Option.bind_eq_some_iff.1 hrun
  obtain ⟨x, hx, hforced⟩ := Option.map_eq_some_iff.1 hfigures
  obtain ⟨summary, hsummary, rfl⟩ := exists_summary hx
  exact ⟨s, summary, hs, hsummary, congrArg (·.1) hforced, rfl, rfl⟩

end
end Run
end IngestBench
