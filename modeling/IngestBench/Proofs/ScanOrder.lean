import IngestBench.Proofs.Account
import IngestBench.Proofs.Alike
import IngestBench.Rehearsal.Feed

/-! What a scan hands on when every batch is taken: the full batches in the order of the points that complete them,
    then what is left over, in the order of the partitions. -/

namespace IngestBench
namespace Scan

open Chunks

variable {σ π β : Type}

/-! ### The end of a scan -/

/-- How many moves a scan makes at most before it ends, with so many points still to come. -/
def movesLeft (plan : Plan σ π) (coming : Nat) (s : Scan σ π β) : Nat :=
  let decisions := 5 * coming + 2 * plan.slotCount
  match s.phase with
  | .opening => plan.slotCount - s.slots.length + decisions + 4
  | .deciding => decisions + 3
  | .reading => decisions + 2
  | .placing _ => decisions + 6
  | .trading _ => decisions + 5
  | .sending _ _ false => decisions + 4
  | .sending _ _ true => 2 * s.slots.length + 2
  | .flushing _ => 2 * s.slots.length + 1
  | .finished _ => 0

/-- What a look for a stop shows after so many points, if `stop` says when a stop was asked for. -/
def looksOf (plan : Plan σ π) (source : σ) (stop : σ → Bool) (n : Nat) (shown : Bool) : Prop :=
  ∀ points t, Reads plan.read source points t → points.length = n → stop t = shown

/-- There is a reason to read no more: a stop, the limit, or a source that gives no point. -/
def Ends (plan : Plan σ π) (stop : σ → Bool) (n : Nat) (t : σ) : Prop :=
  stop t = true ∨ plan.isLimit n = true ∨ ∀ p u, plan.read t ≠ (.ok (some p), u)

section
variable [Batch β π] {plan : Plan σ π} {looks : Nat → Bool → Prop} {source : σ} {stop : σ → Bool}
  {points whole : List π} {sent : List (Nat × List π)} {s s' : Scan σ π (Noted β)} {pool pool' : Pool (Noted β)} {t : σ}

theorem Account.length_slots (hs : Account plan looks source points sent s)
    (h : s.phase = .deciding ∨ s.phase = .reading) : s.slots.length = plan.slotCount := by
  obtain ⟨u, slots, stats, phase⟩ := s
  have hslots : slots.map (·.points) = restsFrom plan 0 points := by
    rcases h with h | h
    all_goals
      cases h
      exact hs.held.2.2.1
  have hlen := congrArg List.length hslots
  rw [List.length_map, length_restsFrom] at hlen
  exact hlen

/-- A scan that reads a point has not got to where it must end. -/
theorem Account.length_lt (hs : Account plan (looksOf plan source stop) source points sent s)
    (hphase : s.phase = .reading) {p : π} {u : σ} (hp : plan.read s.source = (.ok (some p), u))
    (hwhole : Reads plan.read source whole t) (hend : Ends plan stop whole.length t) :
    points.length < whole.length := by
  obtain ⟨w, slots, stats, phase⟩ := s
  cases hphase
  obtain ⟨hreading, -, -, -, hlook, hmax⟩ := hs.held
  refine Nat.lt_of_not_le fun hle => ?_
  have hgoing : looksOf plan source stop whole.length false ∧ plan.isLimit whole.length = false := by
    rcases Nat.lt_or_eq_of_le hle with h | h
    · exact hs.went _ h
    · exact h ▸ ⟨hlook, hmax⟩
  obtain ⟨hlook, hmax⟩ := hgoing
  have hstop := hlook whole t hwhole rfl
  rcases hend with hend | hend | hend
  · rw [hstop] at hend
    cases hend
  · rw [hmax] at hend
    cases hend
  · -- With `p`, more was read than there is.
    obtain ⟨q, v, hq⟩ := hwhole.exists_next (hreading.reads.next hp) (by simpa using Nat.lt_succ_of_le hle)
    exact hend q v hq

/-- Each move brings a scan closer to its end. -/
theorem Account.movesLeft_lt (hs : Account plan (looksOf plan source stop) source points sent s)
    (hwhole : Reads plan.read source whole t) (hend : Ends plan stop whole.length t) {look : Bool}
    (h : s.advance plan look pool = some (s', pool')) :
    movesLeft plan (whole.length - (points ++ s'.phase.incoming).length) s' <
      movesLeft plan (whole.length - points.length) s := by
  have hslots := hs.length_slots
  have hlength := fun p u hphase hp => hs.length_lt (p := p) (u := u) hphase hp hwhole hend
  obtain ⟨w, slots, stats, phase⟩ := s
  cases phase with
  | opening =>
    simp only [Scan.advance] at h
    split at h
    · cases h
      simp only [movesLeft, Phase.incoming, List.append_nil, List.length_append, List.length_singleton]
      omega
    · cases h
      simp only [movesLeft, Phase.incoming, List.append_nil]
      omega
  | deciding =>
    have hslots : slots.length = plan.slotCount := hslots (.inl rfl)
    simp only [Scan.advance] at h
    split at h
    · cases h
      simp [movesLeft]
      omega
    · split at h <;> cases h
      · simp [movesLeft]
        omega
      · simp [movesLeft, Phase.incoming]
  | reading =>
    have hslots : slots.length = plan.slotCount := hslots (.inr rfl)
    simp only [Scan.advance] at h
    split at h
    · cases h
      simp [movesLeft, Scan.finish]
    · cases h
      simp [movesLeft]
      omega
    · next p u hread =>
      cases h
      have hlt := hlength p u rfl hread
      simp [movesLeft, Phase.incoming]
      omega
  | placing p =>
    simp only [Scan.advance] at h
    split at h
    · split at h
      · cases h
        simp [movesLeft, Scan.finish]
      · cases h
        split <;> simp [movesLeft, Phase.incoming]
    · cases h
      simp [movesLeft, Scan.finish]
  | trading k =>
    simp only [Scan.advance] at h
    split at h <;> cases h <;> simp [movesLeft, Phase.incoming]
  | flushing k =>
    simp only [Scan.advance] at h
    split at h
    · cases h
      simp [movesLeft, Scan.finish]
    · split at h
      · cases h
        simp [movesLeft]
      · cases h
        simp [movesLeft]
        omega
  | sending k b last => cases h
  | finished fault => cases h

theorem movesLeft_sent_lt {k : Nat} {b : Noted β} {coming : Nat} (h : s.offered = some (k, b)) :
    movesLeft plan coming s.sent < movesLeft plan coming s := by
  obtain ⟨w, slots, stats, phase⟩ := s
  cases phase with
  | sending k' b' last => cases last <;> simp [movesLeft, Scan.sent]
  | _ => cases h

theorem exists_advance {look : Bool} (hoffered : s.offered = none) (hresult : s.result? = none) :
    ∃ x, s.advance plan look pool = some x := by
  obtain ⟨w, slots, stats, phase⟩ := s
  cases phase with
  | sending k b last => cases hoffered
  | finished fault => cases fault <;> cases hresult
  | opening =>
    simp only [Scan.advance]
    split <;> exact ⟨_, rfl⟩
  | deciding =>
    simp only [Scan.advance]
    split
    · exact ⟨_, rfl⟩
    · split <;> exact ⟨_, rfl⟩
  | reading =>
    simp only [Scan.advance]
    split <;> exact ⟨_, rfl⟩
  | placing p =>
    simp only [Scan.advance]
    split
    · split <;> exact ⟨_, rfl⟩
    · exact ⟨_, rfl⟩
  | trading k =>
    simp only [Scan.advance]
    split <;> exact ⟨_, rfl⟩
  | flushing k =>
    simp only [Scan.advance]
    split
    · exact ⟨_, rfl⟩
    · split <;> exact ⟨_, rfl⟩

/-- A scan whose batches are all taken keeps its account, and with enough moves it comes to its end. -/
theorem play_account [Batch.CountsRows β] (fuel : Nat) (taken : List (Nat × Noted β))
    (hs : Account plan (looksOf plan source stop) source points (contents taken.reverse) s) (hpool : Clean pool)
    (hclosed : s.stats.queueClosed = false) :
    ∃ points' s' pool' taken', play plan stop true fuel s pool taken = (s', pool', taken') ∧
      s'.stats.queueClosed = false ∧
      Account plan (looksOf plan source stop) source points' (contents taken'.reverse) s' ∧
      ∀ whole t, Reads plan.read source whole t → Ends plan stop whole.length t →
        movesLeft plan (whole.length - points.length) s ≤ fuel → s'.result?.isSome := by
  -- A batch that is offered is taken; in every other phase the scan moves, or is at its end.
  induction fuel generalizing s pool taken points with
  | zero =>
    refine ⟨points, s, pool, taken, rfl, hclosed, hs, fun whole t _ _ hfuel => ?_⟩
    obtain ⟨w, slots, stats, phase⟩ := s
    cases phase with
    | finished fault => cases fault <;> rfl
    | sending k b last => cases last <;> simp [movesLeft] at hfuel
    | _ => simp [movesLeft] at hfuel
  | succ fuel ih =>
    cases hoffered : s.offered with
    | some x =>
      obtain ⟨k, b⟩ := x
      have hs' := hs.handOn hoffered
      rw [← contents_append_singleton, ← List.reverse_cons] at hs'
      obtain ⟨points', s', pool', taken', hplay, hclosed', haccount, hends⟩ :=
        ih _ hs' hpool ((sent_queueClosed s).trans hclosed)
      refine ⟨points', s', pool', taken', by rw [play, hoffered]; exact hplay, hclosed', haccount,
        fun whole t hwhole hend hfuel => hends whole t hwhole hend ?_⟩
      have hlt : movesLeft plan (whole.length - points.length) s.sent < movesLeft plan (whole.length - points.length) s :=
        movesLeft_sent_lt hoffered
      omega
    | none =>
      cases hresult : s.result? with
      | some result =>
        refine ⟨points, s, pool, taken, ?_, hclosed, hs, fun _ _ _ _ _ => by rw [hresult]; rfl⟩
        have hnone : s.advance plan (stop s.source) pool = none := by
          obtain ⟨w, slots, stats, phase⟩ := s
          cases phase with
          | finished fault => rfl
          | _ => cases hresult
        rw [play, hoffered, hnone]
      | none =>
        obtain ⟨⟨s₁, pool₁⟩, hadvance⟩ : ∃ x, s.advance plan (stop s.source) pool = some x :=
          exists_advance hoffered hresult
        have hlook : s.phase = .deciding → looksOf plan source stop points.length (stop s.source) := by
          intro hphase qs u hqs hlen
          obtain ⟨w, slots, stats, phase⟩ := s
          cases hphase
          obtain ⟨-, rfl⟩ := hqs.unique hs.held.1.reads hlen
          rfl
        obtain ⟨hs₁, hpool₁⟩ := hs.advance hpool hlook hadvance
        obtain ⟨points', s', pool', taken', hplay, hclosed', haccount, hends⟩ :=
          ih _ hs₁ hpool₁ ((advance_queueClosed hadvance).trans hclosed)
        refine ⟨points', s', pool', taken', by rw [play, hoffered, hadvance]; exact hplay, hclosed', haccount,
          fun whole t hwhole hend hfuel => hends whole t hwhole hend ?_⟩
        have hlt := hs.movesLeft_lt hwhole hend hadvance
        omega

end

/-! ### What is handed on -/

/-- A batch holds these points, for this partition. -/
def Carries [Batch β π] (x : Nat × β) (y : Nat × List π) : Prop := x.1 = y.1 ∧ Batch.Holds x.2 y.2

theorem carries_contents [Batch β π] (sent : List (Nat × Noted β)) :
    List.Forall₂ Carries (sent.map (Prod.map id Noted.batch)) (contents sent) := by
  induction sent with
  | nil => exact .nil
  | cons x sent ih => exact .cons ⟨rfl, x.2.holds⟩ ih

/-- How a scan whose batches are all taken ends: after these points, with these batches handed on. -/
inductive Outcome [Batch β π] (plan : Plan σ π) (source : σ) (stop : σ → Bool) (points : List π)
    (batches : List (Nat × List π)) : Except Failure ScanStats → Prop
  /-- The scan stops, gets to its limit, or finds the source exhausted. All batches that the points make are handed
      on. -/
  | complete (t : σ) (stats : ScanStats) : Reads plan.read source points t → Placeable plan points →
      batches = allBatches plan points → stats.pointsRead = points.length → stats.batchesSent = batches.length →
      stats.queueClosed = false → stats.cancelled = stop t →
      stats.limitReached = (!stop t && plan.isLimit points.length) →
      (stop t = false → plan.isLimit points.length = false → ∃ u, plan.read t = (.ok none, u)) →
      Outcome plan source stop points batches (.ok stats)
  /-- The next point cannot be read, placed or appended. Only the full batches of the points before are handed on. -/
  | failed (read : List π) (t : σ) (fault : Failure) : Reads plan.read source points t → Placeable plan points →
      batches = fullBatches plan points → stop t = false → plan.isLimit points.length = false →
      Failed (β := β) plan source read points fault → Outcome plan source stop points batches (.error fault)

section
variable [Batch β π] {plan : Plan σ π} {source : σ} {stop : σ → Bool} {points whole : List π}
  {batches : List (Nat × List π)} {t u v : σ}

theorem Reads.length_le (h : Reads plan.read source points t) (hwhole : Reads plan.read source whole u)
    (hend : plan.read u = (.ok none, v)) : points.length ≤ whole.length := by
  refine Nat.le_of_not_lt fun hlt => ?_
  obtain ⟨p, w, hp⟩ := hwhole.exists_next h hlt
  rw [hend] at hp
  cases hp

theorem outcome_of_account {s : Scan σ π (Noted β)}
    (hs : Account plan (looksOf plan source stop) source points batches s) (hclosed : s.stats.queueClosed = false)
    {result : Except Failure ScanStats} (hresult : s.result? = some result) :
    ∃ before, before.length ≤ points.length ∧ Outcome (β := β) plan source stop before batches result := by
  obtain ⟨w, slots, stats, phase⟩ := s
  cases phase with
  | finished fault =>
    cases fault with
    | none =>
      cases hresult
      obtain ⟨hplace, h | h⟩ := hs.held
      · obtain ⟨-, hcomplete, hall⟩ := h
        obtain ⟨t, ht, hlast⟩ := hcomplete.reads
        have hcancelled : stats.cancelled = stop t := (hcomplete.looked points t ht rfl).symm
        refine ⟨points, Nat.le_refl _, .complete t stats ht hplace hall hs.pointsRead hs.batchesSent hclosed hcancelled ?_
          fun hstop hmax => ?_⟩
        · cases hstop : stop t with
          | true => exact hcomplete.either (hcancelled.trans hstop)
          | false => exact hcomplete.limit (hcancelled.trans hstop)
        · have hstop := hcancelled.trans hstop
          exact hlast hstop ((hcomplete.limit hstop).trans hmax)
      · rw [h.1] at hclosed
        cases hclosed
    | some fault =>
      cases hresult
      obtain ⟨before, hplace, hlook, hmax, hfull, hfailed⟩ := hs.held
      obtain ⟨u, hu⟩ := hfailed.reads
      obtain ⟨t, ht⟩ := hu.of_isPrefix hfailed.isPrefix
      exact ⟨before, hfailed.isPrefix.length_le,
        .failed points t fault ht hplace hfull (hlook before t ht rfl) hmax hfailed⟩
  | _ => cases hresult

/-- How many points are read from a source that is exhausted at some time, if no stop is asked for. -/
theorem Outcome.length_eq {stats : ScanStats} (h : Outcome (β := β) plan source stop points batches (.ok stats))
    (hearlier : ∀ before w, Reads plan.read source before w → before.length < points.length →
      plan.isLimit before.length = false)
    (hcancelled : stats.cancelled = false) (hwhole : Reads plan.read source whole u)
    (hend : plan.read u = (.ok none, v)) :
    points.length = plan.limit.elim whole.length (min whole.length) := by
  cases h with
  | complete t _ ht hplace hall hread hsent hclosed hstop hmax hlast =>
    have hle := ht.length_le hwhole hend
    have hnext : plan.isLimit points.length = false → points.length = whole.length := fun hmax => by
      obtain ⟨w, hw⟩ := hlast (hstop ▸ hcancelled) hmax
      exact Nat.le_antisymm hle (hwhole.length_le ht hw)
    cases hlimit : plan.limit with
    | none => exact hnext (by rw [Plan.isLimit, hlimit]; rfl)
    | some limit =>
      have hiff : ∀ n, plan.isLimit n = decide (limit ≤ n) := fun n => by rw [Plan.isLimit, hlimit]; rfl
      have hge : points.length ≤ limit := by
        refine Nat.le_of_not_lt fun hlt => ?_
        obtain ⟨w, hw⟩ := ht.take limit
        have hlen : (points.take limit).length = limit := by
          rw [List.length_take]
          omega
        have := hearlier _ w hw (by omega)
        rw [hiff, hlen] at this
        simp at this
      show points.length = min whole.length limit
      by_cases hmax : limit ≤ points.length
      · omega
      · have := hnext (by rw [hiff]; simpa using hmax)
        omega

/-- A scan whose batches are all taken ends after the points before the first stop, the limit, the end of the source or
    the first fault. It has handed on the full batches in the order of the points that complete them, and, if nothing
    failed, then what was left over, in the order of the partitions; so that for each partition the points come in
    their order, in pieces of one length but for the last. If there is an end, the scan comes to it. -/
theorem play_outcome [Batch.CountsRows β] (plan : Plan σ π) (source : σ) (stop : σ → Bool) (room : Nat) :
    (∀ (fuel : Nat) (s : Scan σ π β) (pool : Pool β) (taken : List (Nat × β)) (result : Except Failure ScanStats),
      play plan stop true fuel (.start source) (.empty room) [] = (s, pool, taken) → s.result? = some result →
      ∃ (points : List π) (batches : List (Nat × List π)),
        List.Forall₂ Carries taken.reverse batches ∧
        Outcome (β := β) plan source stop points batches result ∧
        (∀ before u, Reads plan.read source before u → before.length < points.length →
          stop u = false ∧ plan.isLimit before.length = false) ∧
        (∀ k < plan.slotCount,
          batchesOf k (fullBatches plan points) = wholes plan.fullSize (lane plan.partition k points) ∧
          batchesOf k (allBatches plan points) = pieces plan.fullSize (lane plan.partition k points)) ∧
        (∀ stats all u v, result = .ok stats → stats.cancelled = false → Reads plan.read source all u →
          plan.read u = (.ok none, v) → points.length = plan.limit.elim all.length (min all.length))) ∧
    (∀ whole t, Reads plan.read source whole t → Ends plan stop whole.length t → ∃ enough, ∀ fuel, enough ≤ fuel →
      (play plan stop true fuel (.start source : Scan σ π β) (.empty room) []).1.result?.isSome) := by
  have hstart : Account plan (looksOf plan source stop) source [] (contents ([] : List (Nat × Noted β)))
      (start source : Scan σ π (Noted β)) := account_start source
  have hnoted := fun fuel => play_account fuel [] hstart (clean_empty room) rfl
  have hmap := fun fuel => play_map (Noted.alike (β := β)) plan stop true fuel (start source) (.empty room) []
  refine ⟨fun fuel s pool taken result hplay hresult => ?_, fun whole t hwhole hend => ?_⟩
  · obtain ⟨points, s', pool', taken', hplay', hclosed, hs, -⟩ := hnoted fuel
    have hsame : (s, pool, taken) =
        (s'.map Noted.batch, pool'.map Noted.batch, taken'.map (Prod.map id (Noted.batch (β := β)))) := by
      rw [← hplay]
      exact (hmap fuel).trans (by rw [hplay']; rfl)
    cases hsame
    rw [result?_map] at hresult
    obtain ⟨before, hle, houtcome⟩ := outcome_of_account hs hclosed hresult
    have hearlier : ∀ qs u, Reads plan.read source qs u → qs.length < before.length →
        stop u = false ∧ plan.isLimit qs.length = false := fun qs u hqs hlt => by
      obtain ⟨hlook, hmax⟩ := hs.went qs.length (Nat.lt_of_lt_of_le hlt hle)
      exact ⟨hlook qs u hqs rfl, hmax⟩
    refine ⟨before, contents taken'.reverse, ?_, houtcome, hearlier, fun k hk => ⟨?_, ?_⟩,
      fun stats all u v hok hcancelled hall hexhausted => ?_⟩
    · rw [← List.map_reverse]
      exact carries_contents _
    · exact batchesOf_completed fullSize_pos before
    · exact batchesOf_completed_append_partials fullSize_pos hk before
    · subst hok
      exact houtcome.length_eq (fun qs w hqs hlt => (hearlier qs w hqs hlt).2) hcancelled hall hexhausted
  · refine ⟨movesLeft plan whole.length (start source : Scan σ π (Noted β)), fun fuel hfuel => ?_⟩
    obtain ⟨points, s', pool', taken', hplay', -, -, hends⟩ := hnoted fuel
    have hplay := (hmap fuel).trans (congrArg _ hplay')
    have hs : (play plan stop true fuel (.start source : Scan σ π β) (.empty room) []).1 = s'.map Noted.batch :=
      congrArg Prod.fst hplay
    rw [hs, result?_map]
    exact hends whole t hwhole hend hfuel

end

/-! ### A small scan -/

section
open Rehearsal

/-- Two numbers for one partition, and one for another between them. -/
def mixedNumbers : Feed (Nat × Int) := ⟨[.point (0, 1), .point (1, 2), .point (0, 3)], none⟩

/-- Batches of two numbers. -/
def inPairs : Plan (Feed (Nat × Int)) (Nat × Int) where
  read := Feed.read
  partition := Prod.fst
  partitions := 2
  batchSize := 2
  limit := none

/-- A scan of the numbers that is given so many moves. -/
def mixedScan (fuel : Nat) : Scan (Feed (Nat × Int)) (Nat × Int) Numbers × Pool Numbers × List (Nat × Numbers) :=
  play inPairs (·.stop.isStopping) true fuel (.start mixedNumbers) (.empty 4) []

/-- A scan that hands on a full batch and what is left over. -/
theorem play_outcome_mixed_numbers :
    (∃ points batches, List.Forall₂ Carries (mixedScan 30).2.2.reverse batches ∧
      Outcome (β := Numbers) inPairs mixedNumbers (·.stop.isStopping) points batches (.ok ⟨3, 2, false, false, false⟩)) ∧
    ∃ enough, ∀ fuel, enough ≤ fuel → (mixedScan fuel).1.result?.isSome := by
  obtain ⟨houtcome, hend⟩ := play_outcome (β := Numbers) inPairs mixedNumbers (·.stop.isStopping) 4
  have hone : Reads inPairs.read mixedNumbers [(0, 1)] ⟨[.point (1, 2), .point (0, 3)], none⟩ := .next .start rfl
  have htwo : Reads inPairs.read mixedNumbers [(0, 1), (1, 2)] ⟨[.point (0, 3)], none⟩ := hone.next rfl
  refine ⟨?_, hend [(0, 1), (1, 2), (0, 3)] ⟨[], none⟩ (htwo.next rfl) (.inr (.inr fun p u h => by cases h))⟩
  obtain ⟨points, batches, hcarries, hwhole, -⟩ := houtcome 30 _ _ _ (.ok ⟨3, 2, false, false, false⟩) rfl rfl
  exact ⟨points, batches, hcarries, hwhole⟩

end
end Scan
end IngestBench
