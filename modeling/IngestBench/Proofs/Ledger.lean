import IngestBench.Proofs.Account
import IngestBench.Proofs.Flow

/-! The ledger of a run: the books of all workers, the flow through all queues, and what the counters show of it. It
    holds before the first step, and every step of a run keeps it. -/

namespace IngestBench
namespace Run

variable {σ π β ν : Type}

/-! ### Deeds of one step -/

section
variable {i j k : Nat} {dedicated : Bool} {tasks : List (Task β)}

/-- What a worker did, as a part of the log. -/
def worksOf (i : Nat) (tasks : List (Task β)) : Log π β := tasks.map (.work i)

@[simp] theorem works_worksOf : (worksOf i tasks : Log π β).works = tasks.map (i, ·) := by
  induction tasks with
  | nil => rfl
  | cons task tasks ih => exact congrArg _ ih

@[simp] theorem points_worksOf : (worksOf i tasks : Log π β).points = [] := by
  induction tasks with
  | nil => rfl
  | cons task tasks ih => exact ih

@[simp] theorem sent_worksOf : (worksOf i tasks : Log π β).sent = [] := by
  induction tasks with
  | nil => rfl
  | cons task tasks ih => exact ih

@[simp] theorem sentTo_worksOf (queues : Nat) : (worksOf i tasks : Log π β).sentTo queues k = [] := by
  simp [Log.sentTo]

theorem tasks_worksOf : (worksOf i tasks : Log π β).tasks j = if i = j then tasks else [] := by
  rw [Log.tasks, works_worksOf]
  by_cases h : i = j <;> simp [h, List.filter_map, Function.comp_def]

theorem takenFrom_worksOf : (worksOf i tasks : Log π β).takenFrom dedicated k =
    if channelIndex dedicated i = k then tasks.filterMap Task.took? else [] := by
  rw [Log.takenFrom, works_worksOf, List.filter_map, List.filterMap_map]
  by_cases h : channelIndex dedicated i = k
  · have hall : tasks.filter ((fun x => channelIndex dedicated x.1 == k) ∘ (i, ·)) = tasks :=
      List.filter_eq_self.2 fun _ _ => by simp [h]
    rw [hall, if_pos h]
    rfl
  · have hnone : tasks.filter ((fun x => channelIndex dedicated x.1 == k) ∘ (i, ·)) = [] :=
      List.filter_eq_nil_iff.2 fun _ _ => by simp [h]
    rw [hnone, if_neg h]
    rfl

theorem delivered_worksOf : (worksOf i tasks : Log π β).delivered = tasks.filterMap Task.delivered? := by
  rw [Log.delivered, works_worksOf, List.filterMap_map]
  rfl

end

section
variable {p q : Scan.Phase π β}

/-- What the scan does concerns no worker. -/
theorem works_scanDeeds : (scanDeeds p q).works = [] := by
  cases p <;> cases q <;> rfl

theorem tasks_of_works {log : Log π β} (h : log.works = []) (i : Nat) : log.tasks i = [] := by rw [Log.tasks, h]; rfl

theorem takenFrom_of_works {log : Log π β} (h : log.works = []) (dedicated : Bool) (k : Nat) :
    log.takenFrom dedicated k = [] := by rw [Log.takenFrom, h]; rfl

theorem delivered_of_works {log : Log π β} (h : log.works = []) : log.delivered = [] := by rw [Log.delivered, h]; rfl

end

/-! ### Parts of a turn of the scan -/

section
variable {plan : Plan σ π} {s : State σ π β ν}

theorem sentTo_eq_of_sent {more : Log π β} (h : more.sent = []) (queues k : Nat) : more.sentTo queues k = [] := by
  rw [Log.sentTo, h]
  rfl

theorem sentTo_sent (partition : Nat) (b : β) (queues k : Nat) :
    Log.sentTo ([.sent partition b] : Log π β) queues k = if Queue.route queues partition = k then [b] else [] := by
  by_cases h : Queue.route queues partition = k <;> simp [Log.sentTo, Log.sent, Deed.sent?, h]

theorem flow_setScan {phases : List (Worker.Phase β)} {sent taken : Nat → List β} (scan : Scan σ π β)
    (hflow : ∀ (k : Nat) (c : Channel β), s.channels[k]? = some c →
      Flow plan.dedicated k phases false c.queue (sent k) (taken k)) (k : Nat) (c : Channel β)
    (hc : (s.setScan scan).channels[k]? = some c) :
    Flow plan.dedicated k phases scan.result?.isSome c.queue (sent k) (taken k) := by
  rw [State.setScan_channels] at hc
  cases hover : scan.result?.isSome with
  | true =>
    rw [hover, if_pos rfl, List.getElem?_map] at hc
    obtain ⟨c', hc', rfl⟩ := Option.map_eq_some_iff.1 hc
    exact (hflow k c' hc').finish
  | false =>
    rw [hover, if_neg Bool.false_ne_true] at hc
    exact hflow k c hc

theorem phases_setScan (scan : Scan σ π β) : (s.setScan scan).phases = s.phases := by
  simp [State.phases]

theorem length_channels_setScan (scan : Scan σ π β) : (s.setScan scan).channels.length = s.channels.length := by
  rw [State.setScan_channels]
  split
  · exact List.length_map _
  · rfl

/-- What a scan that has no batch to hand on does concerns no queue. -/
theorem sent_scanDeeds {p q : Scan.Phase π β} (h : ∀ k b last, p ≠ .sending k b last) : (scanDeeds p q).sent = [] := by
  cases p with
  | sending k b last => exact absurd rfl (h k b last)
  | _ => cases q <;> rfl

theorem offered_eq_some {scan : Scan σ π β} {k : Nat} {b : β} (h : scan.offered = some (k, b)) :
    ∃ last, scan.phase = .sending k b last ∧ scan.result? = none := by
  obtain ⟨source, slots, stats, phase⟩ := scan
  cases phase with
  | sending k' b' last =>
    cases h
    exact ⟨last, rfl, rfl⟩
  | _ => cases h

theorem scanDeeds_sent {scan : Scan σ π β} {k : Nat} {b : β} (h : scan.offered = some (k, b)) :
    scanDeeds scan.phase scan.sent.phase = [.sent k b] := by
  obtain ⟨last, hphase, -⟩ := offered_eq_some h
  rw [Scan.sent, hphase]
  cases last <;> rfl

theorem scanDeeds_turnedAway {scan : Scan σ π β} {k : Nat} {b : β} (h : scan.offered = some (k, b)) :
    scanDeeds scan.phase scan.turnedAway.phase = [] := by
  obtain ⟨last, hphase, -⟩ := offered_eq_some h
  rw [hphase]
  rfl

theorem offered_eq_none {scan : Scan σ π β} (h : scan.offered = none) (k : Nat) (b : β) (last : Bool) :
    scan.phase ≠ .sending k b last := by
  intro hphase
  rw [Scan.offered, hphase] at h
  cases h

end

/-! ### The ledger -/

/-- The store has answered with a failure that says that the run was stopped. -/
def SaidCancelled (events : List Event) : Prop :=
  ∃ i f, Event.answered i (.error f) ∈ events ∧ f.isCancelled = true

/-- What a state says about the events that led to it, and about what was done. -/
structure Ledger [Batch β π] (plan : Plan σ π) (events : List Event) (log : Log π β) (s : State σ π β ν) : Prop where
  queues : 0 < s.channels.length
  wired : ∀ i < s.phases.length, channelIndex plan.dedicated i < s.channels.length
  manned : ∀ k < s.channels.length, ∃ i < s.phases.length, channelIndex plan.dedicated i = k
  works : ∀ x ∈ log.works, x.1 < s.phases.length
  books : ∀ (i : Nat) (p : Worker.Phase β), s.phases[i]? = some p → Books plan.sending (log.tasks i) p
  flow : ∀ (k : Nat) (c : Channel β), s.channels[k]? = some c → Flow plan.dedicated k s.phases s.scan.result?.isSome c.queue
    (log.sentTo s.channels.length k) (log.takenFrom plan.dedicated k)
  rows : s.counters.rows = Counters.wrap (log.delivered.map fun b => (Batch.counts b).rows).sum
  metrics : s.counters.metrics = Counters.wrap (log.delivered.map fun b => (Batch.counts b).metrics).sum
  batches : s.counters.batches = Counters.wrap log.delivered.length
  joined : ∀ i ∈ s.joined, ∃ r, s.phases[i]? = some (.ended r)
  /-- Workers break off because of a stop for a reason. -/
  stops : ∀ (i : Nat) (p : Worker.Phase β), s.phases[i]? = some p → p.stops = true →
    s.isForced = true ∨ SaidCancelled events
  /-- Batches are turned away only when a worker has broken off. -/
  refused : s.scan.stats.queueClosed = true → ∃ (i : Nat) (p : Worker.Phase β), s.phases[i]? = some p ∧ p.stage = .broken

section
variable {plan : Plan σ π} {source : σ} {workers capacity : Nat} {bucket : Option (TokenBucket ν)} {stopping : Stopping}

theorem phases_first : (first plan source workers capacity bucket stopping : State σ π β ν).phases =
    List.replicate (max workers 1) .joining := by
  simp only [State.phases, first, State.start, List.map_map]
  rw [List.eq_replicate_iff]
  simp [Worker.start]

theorem channels_first : (first plan source workers capacity bucket stopping : State σ π β ν).channels =
    List.replicate (if plan.dedicated then max workers 1 else 1) (Channel.new capacity) := rfl

end

section
variable [Batch β π] {plan : Plan σ π} {events : List Event} {event : Event} {log : Log π β} {s t : State σ π β ν}

theorem SaidCancelled.append (h : SaidCancelled events) (more : List Event) : SaidCancelled (events ++ more) := by
  obtain ⟨i, f, hmem, hf⟩ := h
  exact ⟨i, f, List.mem_append_left _ hmem, hf⟩

theorem ledger_first (plan : Plan σ π) (source : σ) (workers capacity : Nat) (bucket : Option (TokenBucket ν))
    (stopping : Stopping) :
    Ledger plan [] [] (first plan source workers capacity bucket stopping : State σ π β ν) := by
  have hphases : (first plan source workers capacity bucket stopping : State σ π β ν).phases = _ := phases_first
  have hchannels : (first plan source workers capacity bucket stopping : State σ π β ν).channels = _ := channels_first
  have hjoining : ∀ (i : Nat) (p : Worker.Phase β),
      (first plan source workers capacity bucket stopping : State σ π β ν).phases[i]? = some p → p = .joining :=
    fun i p hp => by
      rw [hphases] at hp
      exact List.eq_of_mem_replicate (List.mem_of_getElem? hp)
  refine ⟨?_, fun i hi => ?_, fun k hk => ?_, nofun, fun i p hp => ?_, fun k c hc => ?_, rfl, rfl, rfl, nofun,
    fun i p hp h => ?_, nofun⟩
  · rw [hchannels, List.length_replicate]
    split <;> omega
  · rw [hphases, List.length_replicate] at hi
    rw [hchannels, List.length_replicate, channelIndex]
    split <;> omega
  · rw [hchannels, List.length_replicate] at hk
    rw [hphases, List.length_replicate]
    cases hd : plan.dedicated with
    | true =>
      rw [hd] at hk
      exact ⟨k, hk, rfl⟩
    | false =>
      rw [hd] at hk
      have hk : k < 1 := hk
      exact ⟨0, by omega, by simp [channelIndex]; omega⟩
  · cases hjoining i p hp
    exact books_joining plan.sending
  · rw [hchannels] at hc
    cases List.eq_of_mem_replicate (List.mem_of_getElem? hc)
    refine flow_new (fun p hp => ?_) capacity
    rw [hphases] at hp
    cases List.eq_of_mem_replicate hp
    rfl
  · cases hjoining i p hp
    cases h

theorem Ledger.quiet (hl : Ledger plan events log s) (h : Quiet s t) : Ledger plan (events ++ [event]) log t := by
  obtain ⟨queues, wired, manned, works, books, flow, rows, metrics, batches, joined, stops, refused⟩ := hl
  obtain ⟨hscan, hchannels, hphases, -, hcounters, -, hforced, hjoined⟩ := h
  refine ⟨?_, ?_, ?_, ?_, ?_, ?_, ?_, ?_, ?_, fun i hi => ?_, fun i p hp hstops => ?_, ?_⟩
  · rwa [hchannels]
  · rwa [hphases, hchannels]
  · rwa [hphases, hchannels]
  · rwa [hphases]
  · rwa [hphases]
  · rwa [hphases, hchannels, hscan]
  · rwa [hcounters]
  · rwa [hcounters]
  · rwa [hcounters]
  · rw [hphases]
    rcases hjoined with hjoined | ⟨j, r, hr, hjoined⟩
    · exact joined i (hjoined ▸ hi)
    · rw [hjoined, List.mem_append, List.mem_singleton] at hi
      rcases hi with hi | rfl
      · exact joined i hi
      · exact ⟨r, hr⟩
  · rw [hphases] at hp
    exact (stops i p hp hstops).imp hforced fun h => h.append _
  · rwa [hscan, hphases]

/-! ### Turns of the scan -/

/-- The scan makes a move that changes the state to `u`, and then itself. -/
theorem Ledger.setScan (hl : Ledger plan events log s) {u : State σ π β ν} {scan : Scan σ π β} {more : Log π β}
    (hworks : more.works = []) (hphases : u.phases = s.phases) (hchannels : u.channels.length = s.channels.length)
    (hcounters : u.counters = s.counters) (hstopping : u.stopping = s.stopping) (hjoined : u.joined = s.joined)
    (hflow : ∀ (k : Nat) (c : Channel β), u.channels[k]? = some c → Flow plan.dedicated k s.phases false c.queue
      ((log ++ more).sentTo s.channels.length k) ((log ++ more).takenFrom plan.dedicated k))
    (hrefused : scan.stats.queueClosed = true → ∃ (i : Nat) (p : Worker.Phase β),
      s.phases[i]? = some p ∧ p.stage = .broken) :
    Ledger plan (events ++ [event]) (log ++ more) (u.setScan scan) where
  queues := by
    rw [length_channels_setScan, hchannels]
    exact hl.queues
  wired := by
    rw [phases_setScan, length_channels_setScan, hphases, hchannels]
    exact hl.wired
  manned := by
    rw [phases_setScan, length_channels_setScan, hphases, hchannels]
    exact hl.manned
  works := by
    rw [phases_setScan, hphases, Log.works_append, hworks, List.append_nil]
    exact hl.works
  books i p hp := by
    rw [phases_setScan, hphases] at hp
    rw [Log.tasks_append, tasks_of_works hworks, List.append_nil]
    exact hl.books i p hp
  flow k c hc := by
    rw [phases_setScan, length_channels_setScan, hphases, hchannels, State.setScan_scan]
    exact flow_setScan scan hflow k c hc
  rows := by
    rw [State.setScan_counters, hcounters, Log.delivered_append, delivered_of_works hworks, List.append_nil]
    exact hl.rows
  metrics := by
    rw [State.setScan_counters, hcounters, Log.delivered_append, delivered_of_works hworks, List.append_nil]
    exact hl.metrics
  batches := by
    rw [State.setScan_counters, hcounters, Log.delivered_append, delivered_of_works hworks, List.append_nil]
    exact hl.batches
  joined i hi := by
    rw [State.setScan_joined, hjoined] at hi
    rw [phases_setScan, hphases]
    exact hl.joined i hi
  stops i p hp hstops := by
    rw [phases_setScan, hphases] at hp
    rw [State.isForced, State.setScan_stopping, hstopping]
    exact (hl.stops i p hp hstops).imp id fun h => h.append _
  refused h := by
    rw [State.setScan_scan] at h
    rw [phases_setScan, hphases]
    exact hrefused h

theorem result_of_advance {scan scan' : Scan σ π β} {pool pool' : Pool β} {stop : Bool}
    (h : scan.advance plan.scan stop pool = some (scan', pool')) : scan.result? = none := by
  obtain ⟨source, slots, stats, phase⟩ := scan
  cases phase with
  | finished fault => cases h
  | _ => rfl

theorem Ledger.scanned (hl : Ledger plan events log s) (h : Scanned plan s t) :
    Ledger plan (events ++ [event]) (log ++ scanDeeds s.scan.phase t.scan.phase) t := by
  cases h with
  | moved scan pool hoffered hadvance ht =>
    have hover : s.scan.result?.isSome = false := by rw [result_of_advance hadvance]; rfl
    have hflow := hover ▸ hl.flow
    rw [ht, State.setScan_scan]
    have hsent : (scanDeeds s.scan.phase scan.phase).sent = [] := sent_scanDeeds (offered_eq_none hoffered)
    refine hl.setScan works_scanDeeds rfl rfl rfl rfl rfl (fun k c hc => ?_) fun hclosed => ?_
    · rw [Log.sentTo_append, Log.takenFrom_append, sentTo_eq_of_sent hsent, takenFrom_of_works works_scanDeeds,
        List.append_nil, List.append_nil]
      exact hflow k c hc
    · exact hl.refused ((Scan.advance_queueClosed hadvance).symm.trans hclosed)
  | handed k b c hoffered hc hclosed ht =>
    obtain ⟨last, -, hresult⟩ := offered_eq_some hoffered
    have hover : s.scan.result?.isSome = false := by rw [hresult]; rfl
    have hflow := hover ▸ hl.flow
    rw [ht, State.setScan_scan, scanDeeds_sent hoffered]
    obtain ⟨hlt, -⟩ := List.getElem?_eq_some_iff.1 hc
    refine hl.setScan rfl rfl (List.length_set ..) rfl rfl rfl (fun j c' hc' => ?_) fun h => ?_
    · have hworks : Log.works ([.sent k b] : Log π β) = [] := rfl
      rw [Log.sentTo_append, Log.takenFrom_append, takenFrom_of_works hworks, List.append_nil]
      by_cases hj : Queue.route s.channels.length k = j
      · subst hj
        have hc' : (s.channels.set _ _)[Queue.route s.channels.length k]? = some c' := hc'
        rw [List.getElem?_set_self hlt] at hc'
        cases hc'
        rw [sentTo_sent, if_pos rfl]
        exact (hflow _ c hc).handOn hclosed b
      · have hc' : (s.channels.set _ _)[j]? = some c' := hc'
        rw [List.getElem?_set_ne hj] at hc'
        rw [sentTo_sent, if_neg hj, List.append_nil]
        exact hflow j c' hc'
    · exact hl.refused ((Scan.sent_queueClosed s.scan).symm.trans h)
  | turnedAway k b c hoffered hc hclosed ht =>
    obtain ⟨last, -, hresult⟩ := offered_eq_some hoffered
    have hover : s.scan.result?.isSome = false := by rw [hresult]; rfl
    have hflow := hover ▸ hl.flow
    rw [ht, State.setScan_scan, scanDeeds_turnedAway hoffered]
    refine hl.setScan rfl rfl rfl rfl rfl rfl (fun j c' hc' => ?_) fun _ => ?_
    · rw [List.append_nil]
      exact hflow j c' hc'
    · -- The source is not exhausted, so only a worker that broke off can have closed the queue.
      rcases (hflow _ c hc).closed hclosed with ⟨hended, -⟩ | ⟨i, p, hp, -, hstage⟩
      · rw [(hflow _ c hc).ended] at hended
        cases hended
      · exact ⟨i, p, hp, hstage⟩

/-! ### Turns of workers -/

theorem wrap_wrap_add (a b : Nat) : Counters.wrap (Counters.wrap a + b) = Counters.wrap (a + b) := by
  simp [Counters.wrap]

/-- A worker counts a batch, or nothing is counted. -/
theorem counted_cases {i : Nat} {p q : Worker.Phase β} {sending forced : Bool} {fails : Failure → Prop} {c d : Channel β}
    (hmove : Worker.Move sending forced fails i p c q d) (h : Counted s t p q) :
    (∃ b, (p.tasks q).filterMap Task.delivered? = [b] ∧ t.counters = s.counters.add (Batch.counts b)) ∨
    ((p.tasks q).filterMap Task.delivered? = [] ∧ sums t.counters = sums s.counters) := by
  cases hmove with
  | deliver => exact .inl ⟨_, rfl, h.1⟩
  | attempt h' =>
    refine .inr ⟨?_, h.1⟩
    cases h' <;> rfl
  | _ => exact .inr ⟨rfl, h.1⟩

/-- Counters go on to show the sums over what was delivered. -/
theorem Ledger.counters (hl : Ledger plan events log s) {more : List β}
    (h : (∃ b, more = [b] ∧ t.counters = s.counters.add (Batch.counts b)) ∨
      (more = [] ∧ sums t.counters = sums s.counters)) :
    t.counters.rows = Counters.wrap ((log.delivered ++ more).map fun b => (Batch.counts b).rows).sum ∧
      t.counters.metrics = Counters.wrap ((log.delivered ++ more).map fun b => (Batch.counts b).metrics).sum ∧
      t.counters.batches = Counters.wrap (log.delivered ++ more).length := by
  rcases h with ⟨b, rfl, hcounters⟩ | ⟨rfl, hcounters⟩
  · rw [hcounters]
    refine ⟨?_, ?_, ?_⟩
    · show Counters.wrap (s.counters.rows + _) = _
      rw [hl.rows, wrap_wrap_add, List.map_append, List.sum_append]
      rfl
    · show Counters.wrap (s.counters.metrics + _) = _
      rw [hl.metrics, wrap_wrap_add, List.map_append, List.sum_append]
      rfl
    · show Counters.wrap (s.counters.batches + 1) = _
      rw [hl.batches, wrap_wrap_add, List.length_append]
      rfl
  · rw [List.append_nil, ← hl.rows, ← hl.metrics, ← hl.batches]
    exact ⟨congrArg (·.1) hcounters, congrArg (·.2.1) hcounters, congrArg (·.2.2) hcounters⟩

theorem Ledger.worked {i : Nat} {p q : Worker.Phase β} (hl : Ledger plan events log s)
    (h : Worked plan event i p q s t) : Ledger plan (events ++ [event]) (log ++ worksOf i (p.tasks q)) t := by
  obtain ⟨hp, hphases, hmove, hcounted, -, hscan, hstopping, hjoined⟩ := h
  obtain ⟨hi, -⟩ := List.getElem?_eq_some_iff.1 hp
  have hlen : t.phases.length = s.phases.length := by rw [hphases, List.length_set]
  have hk := hl.wired i hi
  obtain ⟨d, hmove, hchannels⟩ := hmove _ (List.getElem?_eq_getElem hk)
  have hchannels_length : t.channels.length = s.channels.length := by rw [hchannels, List.length_set]
  have hnew : t.phases[i]? = some q := by rw [hphases, List.getElem?_set_self hi]
  have hold : ∀ j, i ≠ j → t.phases[j]? = s.phases[j]? := fun j hj => by rw [hphases, List.getElem?_set_ne hj]
  -- Only the phase of worker `i` has changed, and the queue that it serves.
  obtain ⟨hrows, hmetrics, hbatches⟩ := hl.counters (counted_cases hmove hcounted)
  refine ⟨?_, ?_, ?_, fun x hx => ?_, fun j r hr => ?_, fun k c hc => ?_, ?_, ?_, ?_, fun j hj => ?_,
    fun j r hr hstops => ?_, fun hclosed => ?_⟩
  · rw [hchannels_length]
    exact hl.queues
  · rw [hlen, hchannels_length]
    exact hl.wired
  · rw [hlen, hchannels_length]
    exact hl.manned
  · rw [hlen]
    rw [Log.works_append, works_worksOf, List.mem_append] at hx
    rcases hx with hx | hx
    · exact hl.works x hx
    · obtain ⟨task, -, rfl⟩ := List.mem_map.1 hx
      exact hi
  · rw [Log.tasks_append, tasks_worksOf]
    by_cases hij : i = j
    · subst hij
      cases hnew.symm.trans hr
      rw [if_pos rfl]
      exact (hl.books i p hp).move hmove
    · rw [if_neg hij, List.append_nil]
      exact hl.books j r (hold j hij ▸ hr)
  · rw [hchannels_length, hscan, hphases, Log.sentTo_append, Log.takenFrom_append, sentTo_worksOf, takenFrom_worksOf,
      List.append_nil]
    by_cases hik : channelIndex plan.dedicated i = k
    · subst hik
      rw [hchannels, List.getElem?_set_self hk] at hc
      cases hc
      rw [if_pos rfl]
      exact (hl.flow _ _ (List.getElem?_eq_getElem hk)).move hp rfl hmove
    · rw [hchannels, List.getElem?_set_ne hik] at hc
      rw [if_neg hik, List.append_nil]
      exact (hl.flow k c hc).move_of_ne hp hik hmove
  · rw [Log.delivered_append, delivered_worksOf]
    exact hrows
  · rw [Log.delivered_append, delivered_worksOf]
    exact hmetrics
  · rw [Log.delivered_append, delivered_worksOf]
    exact hbatches
  · rw [hjoined] at hj
    obtain ⟨r, hr⟩ := hl.joined j hj
    by_cases hij : i = j
    · subst hij
      cases hp.symm.trans hr
      cases hmove
    · exact ⟨r, by rw [hold j hij, hr]⟩
  · rw [State.isForced, hstopping]
    by_cases hij : i = j
    · subst hij
      cases hnew.symm.trans hr
      rcases hmove.stops hstops with hstops | hforced | ⟨f, ⟨i', hevent⟩, hf⟩
      · exact (hl.stops i p hp hstops).imp id fun h => h.append _
      · exact .inl hforced
      · exact .inr ⟨i', f, by simp [hevent], hf⟩
    · exact (hl.stops j r (hold j hij ▸ hr) hstops).imp id fun h => h.append _
  · rw [hscan] at hclosed
    obtain ⟨j, r, hr, hstage⟩ := hl.refused hclosed
    by_cases hij : i = j
    · subst hij
      cases hp.symm.trans hr
      exact ⟨i, q, hnew, hmove.broken hstage⟩
    · exact ⟨j, r, by rw [hold j hij, hr], hstage⟩

/-- The ledger holds all through a run. -/
theorem ledger_of_course [Quantity ν] {source : σ} {workers capacity : Nat} {bucket : Option (TokenBucket ν)}
    {stopping : Stopping} (h : Course plan (first plan source workers capacity bucket stopping) events log s) :
    Ledger plan events log s := by
  induction h with
  | start => exact ledger_first plan source workers capacity bucket stopping
  | next _ hstep ih =>
    cases turn_of_step hstep with
    | quiet _ hquiet hdeeds =>
      rw [hdeeds, List.append_nil]
      exact ih.quiet hquiet
    | scan _ hscanned hdeeds =>
      rw [hdeeds]
      exact ih.scanned hscanned
    | worker i p q _ hworked hdeeds =>
      rw [hdeeds]
      exact ih.worked hworked

end
end Run
end IngestBench
