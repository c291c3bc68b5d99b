import IngestBench.Proofs.Course

/-! What one step of a run can do. Attempts, workers and the scan each have a few moves, and every step of a run is
    one of them, or touches none of scan, queues, phases and counts. What holds all through a run is shown for each
    move on its own. -/

namespace IngestBench

/-! ### Attempts -/

namespace Retry

/-- The moves of attempts, while a forced stop is in force or not, and while the store may answer with some
    failures. -/
inductive Move (forced : Bool) (fails : Failure → Prop) : Phase → Phase → Prop
  | call {n : Nat} : Move forced fails (.charging n) (.calling n)
  | throttle {n : Nat} {due : Time} : Move forced fails (.charging n) (.throttled n due)
  | overflow {n : Nat} : Move forced fails (.charging n) (.settled .overflow)
  | release {n : Nat} {due : Time} : Move forced fails (.throttled n due) (.calling n)
  | accept {n : Nat} : Move forced fails (.calling n) (.settling (.accepted n))
  | refuse {n : Nat} {f : Failure} : fails f → Move forced fails (.calling n) (.settling (.refused (.fatal f)))
  | exhaust {n : Nat} {f : Failure} : fails f → f.isRetryable = true →
      Move forced fails (.calling n) (.settling (.refused (.exhausted n f)))
  | pushBack {n : Nat} : Move forced fails (.calling n) (.telling n)
  | tell {n : Nat} : Move forced fails (.telling n) (.pausing n)
  | pause {n : Nat} {due : Time} : forced = false → Move forced fails (.pausing n) (.sleeping n due)
  | cancel {n : Nat} : forced = true → Move forced fails (.pausing n) (.settling (.refused (.cancelled n)))
  | cutShort {n : Nat} {due : Time} : forced = true →
      Move forced fails (.sleeping n due) (.settling (.refused (.cancelled n)))
  | wake {n : Nat} {due : Time} : Move forced fails (.sleeping n due) (.charging (n + 1))
  | settle {result : Result} : Move forced fails (.settling result) (.settled result)

variable {fails : Failure → Prop} {p q : Phase}

theorem move_of_advance {ν : Type} [Quantity ν] {policy : RetryPolicy} {permits : Nat} {e e' : Surroundings ν}
    (h : advance policy permits p e = some (q, e')) : Move e.stop.isForced fails p q := by
  cases p with
  | charging n =>
    simp only [advance, charge] at h
    cases hb : e.bucket with
    | none =>
      simp only [hb] at h
      cases h
      exact .call
    | some bucket =>
      simp only [hb] at h
      cases hr : bucket.reserve permits e.now with
      | none =>
        simp only [hr] at h
        cases h
        exact .overflow
      | some x =>
        simp only [hr] at h
        cases h
        split
        · exact .call
        · exact .throttle
  | throttled n due =>
    simp only [advance] at h
    split at h
    · cases h
      exact .release
    · cases h
  | calling n => cases h
  | telling n =>
    simp only [advance, Option.map_eq_some_iff] at h
    obtain ⟨_, -, h⟩ := h
    cases h
    exact .tell
  | pausing n =>
    simp only [advance, pause] at h
    cases h
    split
    · next hforced => exact .cancel hforced
    · next hforced => exact .pause (by simpa using hforced)
  | sleeping n due =>
    simp only [advance] at h
    split at h
    · cases h
      exact .wake
    · cases h
  | settling result =>
    simp only [advance, Option.map_eq_some_iff] at h
    obtain ⟨_, -, h⟩ := h
    cases h
    exact .settle
  | settled result => cases h

theorem move_of_answer {forced : Bool} {policy : RetryPolicy} {result : Except Failure Unit}
    (h : answer policy p result = some q) : Move forced (fun f => result = .error f) p q := by
  cases p with
  | calling n =>
    cases h
    cases result with
    | ok u => exact .accept
    | error f =>
      simp only [judge]
      split
      · exact .refuse rfl
      · next hretryable =>
        split
        · exact .pushBack
        · exact .exhaust rfl (by simpa using hretryable)
  | _ => cases h

theorem move_of_interrupt {stop : Stop} (h : interrupt stop p = some q) : Move stop.isForced fails p q := by
  cases p with
  | sleeping n due =>
    simp only [interrupt] at h
    split at h
    · next hforced =>
      cases h
      exact .cutShort hforced
    · cases h
  | _ => cases h

theorem Move.mono {forced : Bool} {fails' : Failure → Prop} (hf : ∀ f, fails f → fails' f)
    (h : Move forced fails p q) : Move forced fails' p q := by
  cases h with
  | refuse hfails => exact .refuse (hf _ hfails)
  | pause h => exact .pause h
  | cancel h => exact .cancel h
  | cutShort h => exact .cutShort h
  | call => exact .call
  | throttle => exact .throttle
  | overflow => exact .overflow
  | release => exact .release
  | accept => exact .accept
  | exhaust hfails hretryable => exact .exhaust (hf _ hfails) hretryable
  | pushBack => exact .pushBack
  | tell => exact .tell
  | wake => exact .wake
  | settle => exact .settle

end Retry

/-! ### Workers -/

namespace Run

variable {σ π β ν : Type}

/-- What the end of a worker does to its queue: the last one takes with it what is queued. -/
def Channel.Abandoned (c d : Channel β) : Prop := d = c ∨ d = { c with queue := c.queue.abandon }

end Run

/-- The moves of a worker, with what they do to its queue and to the line for it. -/
inductive Worker.Move {β : Type} (sending forced : Bool) (fails : Failure → Prop) (i : Nat) :
    Phase β → Run.Channel β → Phase β → Run.Channel β → Prop
  | begin {c : Run.Channel β} : Move sending forced fails i .joining c .choosing c
  | reject {c d : Run.Channel β} {failure : Failure} : c.Abandoned d →
      Move sending forced fails i .joining c (.ended (.error failure)) d
  | stop {c : Run.Channel β} : forced = true → Move sending forced fails i .choosing c (.leaving .stopped) (c.enter i)
  | wait {c : Run.Channel β} : forced = false → Move sending forced fails i .choosing c .waiting (c.enter i)
  | take {c : Run.Channel β} {b : β} {rest : List β} : c.isFirst i = true → c.queue.items = b :: rest →
      Move sending forced fails i .waiting c
        (.sending b (if sending then .first else .settled (.accepted 0)))
        (Run.Channel.leave { c with queue := { c.queue with items := rest } } i)
  | drain {c : Run.Channel β} : c.isFirst i = true → c.queue.items = [] →
      (c.queue.closed || c.queue.ended) = true →
      Move sending forced fails i .waiting c (.leaving .drained) ((c.leave i).enter i)
  | interrupt {c : Run.Channel β} : forced = true →
      Move sending forced fails i .waiting c (.leaving .stopped) ((c.leave i).enter i)
  | attempt {c : Run.Channel β} {b : β} {a a' : Retry.Phase} : Retry.Move forced fails a a' →
      Move sending forced fails i (.sending b a) c (.sending b a') c
  | deliver {c : Run.Channel β} {b : β} {n : Nat} :
      Move sending forced fails i (.sending b (.settled (.accepted n))) c .choosing c
  | giveUp {c : Run.Channel β} {b : β} {fault : RetryFault} :
      Move sending forced fails i (.sending b (.settled (.refused fault))) c
        (.leaving (if fault.toFailure.isCancelled then .stopped else .failed fault.toFailure)) (c.enter i)
  | crash {c d : Run.Channel β} {b : β} {failure : Failure} : c.Abandoned d →
      Move sending forced fails i (.sending b (.settled .overflow)) c (.ended (.error failure)) d
  | close {c : Run.Channel β} {ending : Ending} : c.isFirst i = true →
      Move sending forced fails i (.leaving ending) c (.closing ending)
        (Run.Channel.leave { c with queue := c.queue.close } i)
  | sum {c : Run.Channel β} {ending : Ending} {backoff : BackoffSummary} :
      Move sending forced fails i (.closing ending) c (.parting ending backoff) c
  | part {c d : Run.Channel β} {ending : Ending} {backoff : BackoffSummary} {w : Worker β}
      {closed : Except Failure Unit} : c.Abandoned d →
      Move sending forced fails i (.parting ending backoff) c (.ended (w.result ending backoff closed)) d

section
variable {β : Type} {sending forced : Bool} {fails : Failure → Prop} {i : Nat} {p q : Worker.Phase β}
  {c d : Run.Channel β}

theorem Worker.Move.capacity (h : Worker.Move sending forced fails i p c q d) : d.queue.capacity = c.queue.capacity := by
  cases h with
  | reject hd | crash hd | part hd => rcases hd with rfl | rfl <;> rfl
  | _ => rfl

theorem Worker.Move.length_items_le (h : Worker.Move sending forced fails i p c q d) :
    d.queue.items.length ≤ c.queue.items.length := by
  cases h with
  | reject hd | crash hd | part hd =>
    rcases hd with rfl | rfl
    · exact Nat.le_refl _
    · exact Nat.zero_le _
  | take hfirst hitems =>
    rw [hitems]
    exact Nat.le_succ _
  | _ => exact Nat.le_refl _

end

namespace Run

variable {σ π β ν : Type}

/-! ### Parts of a state -/

namespace State

variable {s : State σ π β ν} {i k : Nat} {w w' : Worker β} {c d : Channel β}

theorem length_phases : s.phases.length = s.workers.length := List.length_map _

theorem phases_getElem? (h : s.workers[i]? = some w) : s.phases[i]? = some w.phase := by
  rw [phases, List.getElem?_map, h]
  rfl

theorem exists_worker {p : Worker.Phase β} (h : s.phases[i]? = some p) : ∃ w, s.workers[i]? = some w ∧ w.phase = p := by
  rwa [phases, List.getElem?_map, Option.map_eq_some_iff] at h

@[simp] theorem setWorker_phases : (s.setWorker i w).phases = s.phases.set i w.phase := by
  simp [phases, setWorker, List.map_set]

theorem phases_set_self (h : s.workers[i]? = some w) : s.phases.set i w.phase = s.phases := by
  obtain ⟨hi, hw⟩ := List.getElem?_eq_some_iff.1 (phases_getElem? h)
  rw [← hw]
  exact List.set_getElem_self hi

theorem channels_set_self (h : s.channels[k]? = some c) : s.channels.set k c = s.channels := by
  obtain ⟨hk, rfl⟩ := List.getElem?_eq_some_iff.1 h
  exact List.set_getElem_self hk

theorem updateChannel_channels {cs : List (Channel β)} (hs : s.channels = cs) (h : cs[k]? = some c)
    (f : Channel β → Channel β) : (s.updateChannel k f).channels = cs.set k (f c) := by
  obtain ⟨hk, rfl⟩ := List.getElem?_eq_some_iff.1 h
  simp only [updateChannel, hs, List.modify_eq_take_cons_drop hk, List.set_eq_take_append_cons_drop, hk, if_true]

theorem setScan_channels (scan : Scan σ π β) : (s.setScan scan).channels =
    if scan.result?.isSome then s.channels.map fun c => { c with queue := c.queue.finish } else s.channels := by
  simp only [setScan]
  split <;> rfl

@[simp] theorem setScan_scan (scan : Scan σ π β) : (s.setScan scan).scan = scan := by
  simp only [setScan]
  split <;> rfl

@[simp] theorem setScan_workers (scan : Scan σ π β) : (s.setScan scan).workers = s.workers := by
  simp only [setScan]
  split <;> rfl

@[simp] theorem setScan_pool (scan : Scan σ π β) : (s.setScan scan).pool = s.pool := by
  simp only [setScan]
  split <;> rfl

@[simp] theorem setScan_counters (scan : Scan σ π β) : (s.setScan scan).counters = s.counters := by
  simp only [setScan]
  split <;> rfl

@[simp] theorem setScan_stopping (scan : Scan σ π β) : (s.setScan scan).stopping = s.stopping := by
  simp only [setScan]
  split <;> rfl

@[simp] theorem setScan_joined (scan : Scan σ π β) : (s.setScan scan).joined = s.joined := by
  simp only [setScan]
  split <;> rfl

@[simp] theorem setScan_scanJoined (scan : Scan σ π β) : (s.setScan scan).scanJoined = s.scanJoined := by
  simp only [setScan]
  split <;> rfl

end State

/-! ### Turns -/

/-- What was accepted so far: points, values in them, and batches. -/
def sums (c : Counters) : Nat × Nat × Nat := (c.rows, c.metrics, c.batches)

/-- What a worker that goes from one phase to another does to counters and pool. -/
def Counted [Batch β π] (s t : State σ π β ν) : Worker.Phase β → Worker.Phase β → Prop
  | .sending b _, .choosing => t.counters = s.counters.add (Batch.counts b) ∧ t.pool = s.pool.put (Batch.reset b)
  | _, _ => sums t.counters = sums s.counters ∧ t.pool = s.pool

/-- What a worker that goes from one phase to another counts for itself, and what it reports of it at its end. -/
def Tallied [Batch β π] (w w' : Worker β) : Worker.Phase β → Worker.Phase β → Prop
  | .sending b _, .choosing => w'.counts = w.counts + Batch.counts b ∧ w'.batches = w.batches + 1
  | _, .ended (.ok report) =>
    w'.counts = w.counts ∧ w'.batches = w.batches ∧ report.counts = w.counts ∧ report.batches = w.batches
  | _, _ => w'.counts = w.counts ∧ w'.batches = w.batches

/-- The store answers with a failure. -/
def Event.fails (event : Event) (f : Failure) : Prop := ∃ i, event = .answered i (.error f)

/-- The worker that makes a move. -/
def Event.worker? : Event → Option Nat
  | .advance i | .interrupt i | .connected i _ | .answered i _ | .disconnected i _ => some i
  | _ => none

/-- A worker goes from one phase to another. -/
structure Worked [Batch β π] (plan : Plan σ π) (event : Event) (i : Nat) (p q : Worker.Phase β)
    (s t : State σ π β ν) : Prop where
  phase : s.phases[i]? = some p
  phases : t.phases = s.phases.set i q
  move : ∀ c, s.channels[channelIndex plan.dedicated i]? = some c → ∃ d,
    Worker.Move plan.sending s.isForced event.fails i p c q d ∧
      t.channels = s.channels.set (channelIndex plan.dedicated i) d
  counted : Counted s t p q
  tallied : ∃ w w', s.workers[i]? = some w ∧ t.workers = s.workers.set i w' ∧ Tallied w w' p q
  scan : t.scan = s.scan
  stopping : t.stopping = s.stopping
  joined : t.joined = s.joined

/-- The scan makes a move. -/
inductive Scanned [Batch β π] (plan : Plan σ π) (s t : State σ π β ν) : Prop
  | moved (scan : Scan σ π β) (pool : Pool β) : s.scan.offered = none →
      s.scan.advance plan.scan s.stopping.level.isStopping s.pool = some (scan, pool) →
      t = State.setScan { s with pool } scan → Scanned plan s t
  | handed (k : Nat) (b : β) (c : Channel β) : s.scan.offered = some (k, b) →
      s.channels[Queue.route s.channels.length k]? = some c → c.queue.closed = false →
      t = (s.setChannel (Queue.route s.channels.length k)
        { c with queue := { c.queue with items := c.queue.items ++ [b] } }).setScan s.scan.sent → Scanned plan s t
  | turnedAway (k : Nat) (b : β) (c : Channel β) : s.scan.offered = some (k, b) →
      s.channels[Queue.route s.channels.length k]? = some c → c.queue.closed = true →
      t = s.setScan s.scan.turnedAway → Scanned plan s t

/-- Nothing happens to scan, queues, phases and counts. -/
structure Quiet (s t : State σ π β ν) : Prop where
  scan : t.scan = s.scan
  channels : t.channels = s.channels
  phases : t.phases = s.phases
  pool : t.pool = s.pool
  counters : t.counters = s.counters
  tallies : t.workers.map (fun w => (w.counts, w.batches)) = s.workers.map fun w => (w.counts, w.batches)
  forced : s.isForced = true → t.isForced = true
  joined : t.joined = s.joined ∨ ∃ i r, s.phases[i]? = some (.ended r) ∧ t.joined = s.joined ++ [i]

/-- What a step can do. -/
inductive Turn [Batch β π] (plan : Plan σ π) (event : Event) (s t : State σ π β ν) : Prop
  | quiet : event.worker? = none → Quiet s t → deedsOf s t event = [] → Turn plan event s t
  | scan : event.worker? = none → Scanned plan s t → deedsOf s t event = scanDeeds s.scan.phase t.scan.phase →
      Turn plan event s t
  | worker (i : Nat) (p q : Worker.Phase β) : event.worker? = some i → Worked plan event i p q s t →
      deedsOf s t event = (p.tasks q).map (.work i) → Turn plan event s t

/-! ### Turns of the scan -/

/-- What a move of the scan leaves as it is. -/
structure Kept (s t : State σ π β ν) : Prop where
  workers : t.workers = s.workers
  stopping : t.stopping = s.stopping
  scanJoined : t.scanJoined = s.scanJoined

theorem Scanned.kept [Batch β π] {plan : Plan σ π} {s t : State σ π β ν} (h : Scanned plan s t) : Kept s t := by
  cases h with
  | moved _ _ _ _ ht | turnedAway _ _ _ _ _ _ ht | handed _ _ _ _ _ _ ht =>
    rw [ht]
    exact ⟨State.setScan_workers _, State.setScan_stopping _, State.setScan_scanJoined _⟩

theorem Scanned.phases [Batch β π] {plan : Plan σ π} {s t : State σ π β ν} (h : Scanned plan s t) :
    t.phases = s.phases := by
  rw [State.phases, State.phases, h.kept.workers]

theorem scanned_of_scanStep [Batch β π] {plan : Plan σ π} {s t : State σ π β ν} (h : s.scanStep plan = some t) :
    Scanned plan s t := by
  simp only [State.scanStep] at h
  cases ho : s.scan.offered with
  | none =>
    simp only [ho, Option.map_eq_some_iff] at h
    obtain ⟨x, hx, rfl⟩ := h
    exact .moved x.1 x.2 ho hx rfl
  | some x =>
    obtain ⟨k, b⟩ := x
    simp only [ho, bind, Option.bind_eq_some_iff] at h
    obtain ⟨c, hc, h⟩ := h
    cases hq : c.queue.offer b with
    | accepted queue =>
      simp only [hq, Option.some.injEq] at h
      subst h
      simp only [Queue.offer] at hq
      split at hq
      · cases hq
      · next hclosed =>
        split at hq
        · cases hq
          exact .handed k b c ho hc (by simpa using hclosed) rfl
        · cases hq
    | full =>
      simp only [hq] at h
      cases h
    | refused =>
      simp only [hq, Option.some.injEq] at h
      subst h
      simp only [Queue.offer] at hq
      split at hq
      · next hclosed => exact .turnedAway k b c ho hc hclosed rfl
      · split at hq <;> cases hq

/-! ### Turns of workers -/

section
variable [Batch β π] {plan : Plan σ π} {event : Event} {s t : State σ π β ν} {i : Nat} {w w' : Worker β}

theorem worked_of_phases (hw : s.workers[i]? = some w) {p q : Worker.Phase β} (hp : w.phase = p)
    (hmove : ∀ c, Worker.Move plan.sending s.isForced event.fails i p c q c) (hcounted : Counted s t p q)
    (hworkers : t.workers = s.workers.set i w') (hq : w'.phase = q) (htallied : Tallied w w' p q)
    (hchannels : t.channels = s.channels) (hscan : t.scan = s.scan) (hstopping : t.stopping = s.stopping)
    (hjoined : t.joined = s.joined) : Worked plan event i p q s t where
  phase := hp ▸ State.phases_getElem? hw
  phases := by rw [State.phases, hworkers, List.map_set, hq, State.phases]
  move c hc := ⟨c, hmove c, by rw [hchannels, State.channels_set_self hc]⟩
  counted := hcounted
  tallied := ⟨w, w', hw, hworkers, htallied⟩
  scan := hscan
  stopping := hstopping
  joined := hjoined

theorem worked_of_retire (hw : s.workers[i]? = some w) {p : Worker.Phase β} (hp : w.phase = p)
    {r : Except Failure WorkerReport} (hq : w'.phase = .ended r) (htallied : Tallied w w' p (.ended r))
    (hmove : ∀ c d, c.Abandoned d → Worker.Move plan.sending s.isForced event.fails i p c (.ended r) d) :
    Worked plan event i p (.ended r) s (s.retire plan i w') where
  phase := hp ▸ State.phases_getElem? hw
  phases := by
    rw [← hq, ← State.setWorker_phases]
    simp only [State.retire]
    split <;> rfl
  move c hc := by
    simp only [State.retire]
    split
    · exact ⟨_, hmove c _ (.inr rfl), State.updateChannel_channels rfl hc _⟩
    · exact ⟨c, hmove c c (.inl rfl), (State.channels_set_self hc).symm⟩
  counted := by
    simp only [State.retire]
    cases p <;> split <;> exact ⟨rfl, rfl⟩
  tallied := by
    refine ⟨w, w', hw, ?_, htallied⟩
    simp only [State.retire]
    split <;> rfl
  scan := by
    simp only [State.retire]
    split <;> rfl
  stopping := by
    simp only [State.retire]
    split <;> rfl
  joined := by
    simp only [State.retire]
    split <;> rfl

/-- A worker leaves, after what `f` has done to its queue. -/
theorem worked_of_leave (hw : s.workers[i]? = some w) {p : Worker.Phase β} (hp : w.phase = p) {ending : Ending}
    {f : Channel β → Channel β} {w' : Worker β}
    (hmove : ∀ c, s.channels[channelIndex plan.dedicated i]? = some c →
      Worker.Move plan.sending s.isForced event.fails i p c (.leaving ending) ((f c).enter i))
    (hchannels : ∀ c, s.channels[channelIndex plan.dedicated i]? = some c →
      t.channels = s.channels.set (channelIndex plan.dedicated i) (f c))
    (htally : w'.counts = w.counts ∧ w'.batches = w.batches) (hworkers : t.workers = s.workers)
    (hcounters : t.counters = s.counters) (hpool : t.pool = s.pool) (hscan : t.scan = s.scan)
    (hstopping : t.stopping = s.stopping) (hjoined : t.joined = s.joined) :
    Worked plan event i p (.leaving ending) s (t.leave plan i w' ending) where
  phase := hp ▸ State.phases_getElem? hw
  phases := by
    simp only [State.leave, State.phases, State.updateChannel, State.setWorker, List.map_set, hworkers]
  move c hc := by
    obtain ⟨hk, -⟩ := List.getElem?_eq_some_iff.1 hc
    refine ⟨_, hmove c hc, ?_⟩
    have ht : t.channels[channelIndex plan.dedicated i]? = some (f c) := by
      rw [hchannels c hc, List.getElem?_set_self hk]
    have hset : (t.leave plan i w' ending).channels = t.channels.set (channelIndex plan.dedicated i) ((f c).enter i) :=
      State.updateChannel_channels rfl ht _
    rw [hset, hchannels c hc, List.set_set]
  counted := by
    have hsums : sums (t.leave plan i w' ending).counters = sums s.counters := by
      simp only [State.leave, State.updateChannel, State.setWorker, sums, Counters.workerFinished, hcounters]
    cases p <;> exact ⟨hsums, hpool⟩
  tallied := by
    refine ⟨w, { w' with phase := .leaving ending }, hw, ?_, ?_⟩
    · rw [← hworkers]
      rfl
    · cases p <;> exact htally
  scan := hscan
  stopping := hstopping
  joined := hjoined

theorem worked_of_take (hw : s.workers[i]? = some w) (hp : w.phase = .waiting) (h : s.take plan i w = some t) :
    ∃ q, Worked plan event i .waiting q s t := by
  simp only [State.take, bind, Option.bind_eq_some_iff] at h
  obtain ⟨c, hc, h⟩ := h
  split at h
  · next hfirst =>
    have hcases : ∀ d, s.channels[channelIndex plan.dedicated i]? = some d → d = c := fun d hd => by
      rw [hc] at hd
      cases hd
      rfl
    cases hitems : c.queue.items with
    | cons b rest =>
      simp only [Queue.front, hitems, Option.some.injEq] at h
      subst h
      refine ⟨_, hp ▸ State.phases_getElem? hw, State.setWorker_phases, fun d hd => ?_, ⟨rfl, rfl⟩,
        ⟨w, _, hw, rfl, rfl, rfl⟩, rfl, rfl, rfl⟩
      cases hcases d hd
      exact ⟨_, .take hfirst hitems, rfl⟩
    | nil =>
      simp only [Queue.front, hitems] at h
      by_cases hover : (c.queue.closed || c.queue.ended) = true
      · simp only [hover, ↓reduceIte, Option.some.injEq] at h
        subst h
        refine ⟨_, worked_of_leave hw hp (f := fun c => c.leave i) (fun d hd => ?_) (fun d hd => ?_) ⟨rfl, rfl⟩
          rfl rfl rfl rfl rfl rfl⟩
        · cases hcases d hd
          exact .drain hfirst hitems hover
        · cases hcases d hd
          rfl
      · simp only [hover, Bool.false_eq_true, ↓reduceIte] at h
        cases h
  · cases h

theorem worked_of_close (hw : s.workers[i]? = some w) {ending : Ending} (hp : w.phase = .leaving ending)
    (h : s.close plan i w ending = some t) : ∃ q, Worked plan event i (.leaving ending) q s t := by
  simp only [State.close, bind, Option.bind_eq_some_iff] at h
  obtain ⟨c, hc, h⟩ := h
  split at h
  · next hfirst =>
    cases h
    refine ⟨_, hp ▸ State.phases_getElem? hw, State.setWorker_phases, fun d hd => ?_, ⟨rfl, rfl⟩,
      ⟨w, _, hw, rfl, rfl, rfl⟩, rfl, rfl, rfl⟩
    rw [hc] at hd
    cases hd
    exact ⟨_, .close hfirst, rfl⟩
  · cases h

theorem worked_of_settle (hw : s.workers[i]? = some w) {b : β} {result : Retry.Result}
    (hp : w.phase = .sending b (.settled result)) (hcounts : w'.counts = w.counts) (hbatches : w'.batches = w.batches) :
    ∃ q, Worked plan event i (.sending b (.settled result)) q s (s.settle plan i w' b result) := by
  cases result with
  | accepted n =>
    exact ⟨.choosing, worked_of_phases hw hp (fun _ => .deliver) ⟨rfl, rfl⟩ rfl rfl
      ⟨congrArg (· + Batch.counts b) hcounts, congrArg (· + 1) hbatches⟩ rfl rfl rfl rfl⟩
  | refused fault =>
    exact ⟨_, worked_of_leave hw hp (f := id) (fun c _ => .giveUp)
      (fun c hc => (State.channels_set_self hc).symm) ⟨hcounts, hbatches⟩ rfl rfl rfl rfl rfl rfl⟩
  | overflow => exact ⟨_, worked_of_retire hw hp rfl ⟨hcounts, hbatches⟩ fun _ _ hd => .crash hd⟩

theorem tallied_finish {p : Worker.Phase β} (w : Worker β) (ending : Ending) (backoff : BackoffSummary)
    (closed : Except Failure Unit) :
    Tallied w (w.finish ending backoff closed) p (.ended (w.result ending backoff closed)) := by
  have hkept : (w.finish ending backoff closed).counts = w.counts ∧ (w.finish ending backoff closed).batches = w.batches :=
    ⟨rfl, rfl⟩
  cases ending <;> cases closed <;> cases p <;> first | exact hkept | exact ⟨rfl, rfl, rfl, rfl⟩

theorem worked_of_advance [Quantity ν] (hw : s.workers[i]? = some w) (h : s.advanceWorker plan i w = some t) :
    ∃ p q, Worked plan event i p q s t := by
  obtain ⟨number, sender, phase, counts, batches⟩ := w
  cases phase with
  | joining =>
    simp only [State.advanceWorker] at h
    split at h
    · cases h
    · cases h
      exact ⟨.joining, .choosing, worked_of_phases hw rfl (fun _ => .begin) ⟨rfl, rfl⟩
        rfl rfl ⟨rfl, rfl⟩ rfl rfl rfl rfl⟩
  | choosing =>
    simp only [State.advanceWorker] at h
    split at h
    · next hforced =>
      cases h
      exact ⟨_, _, worked_of_leave hw rfl (f := id) (fun _ _ => .stop hforced)
        (fun c hc => (State.channels_set_self hc).symm) ⟨rfl, rfl⟩ rfl rfl rfl rfl rfl rfl⟩
    · next hforced =>
      cases h
      refine ⟨.choosing, .waiting, State.phases_getElem? hw, State.setWorker_phases, fun c hc => ?_, ⟨rfl, rfl⟩,
        ⟨_, _, hw, rfl, rfl, rfl⟩, rfl, rfl, rfl⟩
      exact ⟨_, .wait (by simpa using hforced), State.updateChannel_channels rfl hc _⟩
  | waiting =>
    obtain ⟨q, hq⟩ := worked_of_take hw rfl h
    exact ⟨_, q, hq⟩
  | sending b a =>
    cases a with
    | settled result =>
      cases h
      exact ⟨.sending b (.settled result), worked_of_settle hw rfl rfl rfl⟩
    | _ =>
      simp only [State.advanceWorker, Option.map_eq_some_iff] at h
      obtain ⟨x, hx, rfl⟩ := h
      exact ⟨_, .sending b x.1, worked_of_phases hw rfl (fun _ => .attempt (Retry.move_of_advance hx)) ⟨rfl, rfl⟩
        rfl rfl ⟨rfl, rfl⟩ rfl rfl rfl rfl⟩
  | leaving ending =>
    obtain ⟨q, hq⟩ := worked_of_close hw rfl h
    exact ⟨_, q, hq⟩
  | closing ending =>
    simp only [State.advanceWorker, State.summarize] at h
    cases htracker : sender.tracker with
    | none =>
      simp only [htracker] at h
      cases h
      exact ⟨_, .parting ending sender.noBackoff, worked_of_phases hw rfl (fun _ => .sum) ⟨rfl, rfl⟩
        rfl rfl ⟨rfl, rfl⟩ rfl rfl rfl rfl⟩
    | some tracker =>
      simp only [htracker, Option.map_eq_some_iff] at h
      obtain ⟨x, -, rfl⟩ := h
      exact ⟨_, .parting ending x.1, worked_of_phases hw rfl (fun _ => .sum) ⟨rfl, rfl⟩
        rfl rfl ⟨rfl, rfl⟩ rfl rfl rfl rfl⟩
  | parting ending backoff =>
    simp only [State.advanceWorker] at h
    split at h
    · cases h
    · cases h
      exact ⟨_, _, worked_of_retire hw rfl rfl (tallied_finish _ _ _ _) fun _ _ hd => .part hd⟩
  | ended r => cases h

theorem worked_of_interrupt (hw : s.workers[i]? = some w) (h : s.interruptWorker plan i w = some t) :
    ∃ p q, Worked plan event i p q s t := by
  obtain ⟨number, sender, phase, counts, batches⟩ := w
  cases phase with
  | waiting =>
    simp only [State.interruptWorker] at h
    split at h
    · next hforced =>
      cases h
      exact ⟨_, _, worked_of_leave hw rfl (f := fun c => c.leave i) (fun _ _ => .interrupt hforced)
        (fun c hc => State.updateChannel_channels rfl hc _) ⟨rfl, rfl⟩ rfl rfl rfl rfl rfl rfl⟩
    · cases h
  | sending b a =>
    simp only [State.interruptWorker, Option.map_eq_some_iff] at h
    obtain ⟨a', ha, rfl⟩ := h
    exact ⟨_, .sending b a', worked_of_phases hw rfl (fun _ => .attempt (Retry.move_of_interrupt ha)) ⟨rfl, rfl⟩
      rfl rfl ⟨rfl, rfl⟩ rfl rfl rfl rfl⟩
  | _ => cases h

theorem worked_of_connect {result : Except Failure Unit} (hw : s.workers[i]? = some w)
    (h : s.connectWorker plan i w result = some t) : ∃ p q, Worked plan event i p q s t := by
  obtain ⟨number, sender, phase, counts, batches⟩ := w
  cases phase with
  | joining =>
    simp only [State.connectWorker] at h
    split at h
    · cases result with
      | ok u =>
        cases h
        exact ⟨.joining, .choosing, worked_of_phases hw rfl (fun _ => .begin) ⟨rfl, rfl⟩
          rfl rfl ⟨rfl, rfl⟩ rfl rfl rfl rfl⟩
      | error failure =>
        cases h
        exact ⟨_, _, worked_of_retire hw rfl rfl ⟨rfl, rfl⟩ fun _ _ hd => .reject hd⟩
    · cases h
  | _ => cases h

theorem worked_of_answer {result : Except Failure Unit} (hw : s.workers[i]? = some w)
    (h : s.answerWorker plan i w result = some t) : ∃ p q, Worked plan (.answered i result) i p q s t := by
  obtain ⟨number, sender, phase, counts, batches⟩ := w
  cases phase with
  | sending b a =>
    simp only [State.answerWorker, Option.map_eq_some_iff] at h
    obtain ⟨a', ha, rfl⟩ := h
    refine ⟨_, .sending b a', worked_of_phases hw rfl (fun _ => .attempt ?_) ⟨rfl, rfl⟩
      rfl rfl ⟨rfl, rfl⟩ rfl rfl rfl rfl⟩
    exact (Retry.move_of_answer ha).mono fun f hf => ⟨i, by rw [hf]⟩
  | _ => cases h

theorem worked_of_disconnect {result : Except Failure Unit} (hw : s.workers[i]? = some w)
    (h : s.disconnectWorker plan i w result = some t) : ∃ p q, Worked plan event i p q s t := by
  obtain ⟨number, sender, phase, counts, batches⟩ := w
  cases phase with
  | parting ending backoff =>
    simp only [State.disconnectWorker] at h
    split at h
    · cases h
      exact ⟨_, _, worked_of_retire hw rfl rfl (tallied_finish _ _ _ _) fun _ _ hd => .part hd⟩
    · cases h
  | _ => cases h

theorem Worked.workDeeds_eq {p q : Worker.Phase β} (h : Worked plan event i p q s t) :
    workDeeds i s t = (p.tasks q).map (.work i) := by
  have hi : i < s.phases.length := (List.getElem?_eq_some_iff.1 h.phase).1
  have hq : t.phases[i]? = some q := by rw [h.phases, List.getElem?_set_self hi]
  simp only [workDeeds, h.phase, hq]

end

/-! ### Quiet turns -/

section
variable {s t : State σ π β ν} {i : Nat} {w : Worker β}

theorem quiet_of_observe (hw : s.workers[i]? = some w) (h : s.observeWorker i w = some t) : Quiet s t := by
  simp only [State.observeWorker, bind, Option.bind_eq_some_iff] at h
  obtain ⟨tracker, -, h⟩ := h
  have hsame := State.phases_set_self hw
  have htallies : ∀ w' : Worker β, w'.counts = w.counts → w'.batches = w.batches →
      (s.workers.set i w').map (fun w => (w.counts, w.batches)) = s.workers.map fun w => (w.counts, w.batches) :=
    fun w' hcounts hbatches => by
      have hget : (s.workers.map fun w => (w.counts, w.batches))[i]? = some (w.counts, w.batches) := by
        rw [List.getElem?_map, hw]
        rfl
      obtain ⟨hi, hget⟩ := List.getElem?_eq_some_iff.1 hget
      rw [List.map_set, hcounts, hbatches, ← hget, List.set_getElem_self]
  split at h
  · cases h
    exact ⟨rfl, rfl, State.setWorker_phases.trans hsame, rfl, rfl, htallies _ rfl rfl, id, .inl rfl⟩
  · split at h
    · cases h
    · cases h
      exact ⟨rfl, rfl, State.setWorker_phases.trans hsame, rfl, rfl, htallies _ rfl rfl, id, .inl rfl⟩

theorem isForced_raise (level : StopLevel) (h : s.isForced = true) :
    (s.stopping.raise level s.now).level.isForced = true :=
  Stop.reached_raise_of_reached level h

theorem quiet_of_join (hw : s.workers[i]? = some w) (h : s.joinWorker i w = some t) : Quiet s t := by
  obtain ⟨number, sender, phase, counts, batches⟩ := w
  cases phase with
  | ended r =>
    have hphase : s.phases[i]? = some (.ended r) := State.phases_getElem? hw
    simp only [State.joinWorker] at h
    split at h
    · cases h
    · cases r with
      | ok report =>
        cases h
        exact ⟨rfl, rfl, rfl, rfl, rfl, rfl, id, .inr ⟨i, _, hphase, rfl⟩⟩
      | error failure =>
        cases h
        exact ⟨rfl, rfl, rfl, rfl, rfl, rfl, isForced_raise .forced, .inr ⟨i, _, hphase, rfl⟩⟩
  | _ => cases h

theorem quiet_of_joinScan (h : s.joinScan = some t) : Quiet s t := by
  simp only [State.joinScan, bind, Option.bind_eq_some_iff] at h
  obtain ⟨result, -, h⟩ := h
  split at h
  · cases h
  · cases result with
    | ok stats =>
      cases h
      exact ⟨rfl, rfl, rfl, rfl, rfl, rfl, id, .inl rfl⟩
    | error fault =>
      simp only at h
      split at h
      · cases h
        exact ⟨rfl, rfl, rfl, rfl, rfl, rfl, id, .inl rfl⟩
      · cases h
        exact ⟨rfl, rfl, rfl, rfl, rfl, rfl, isForced_raise .forced, .inl rfl⟩

theorem quiet_of_timer {stopping : Stopping} (h : s.stopping.fire s.now = some stopping) :
    Quiet s { s with stopping } := by
  simp only [Stopping.fire, Option.map_eq_some_iff] at h
  obtain ⟨x, -, rfl⟩ := h
  refine ⟨rfl, rfl, rfl, rfl, rfl, rfl, fun hforced => ?_, .inl rfl⟩
  exact Stop.reached_raise_of_reached x.1.level hforced

end

section
variable [Batch β π] [Quantity ν] {plan : Plan σ π} {event : Event} {s t : State σ π β ν}

/-- A step that neither the scan nor a worker makes is quiet. -/
theorem quiet_of_step (h : step plan s event = some t) (hworker : event.worker? = none) (hscan : event ≠ .scan) :
    Quiet s t ∧ deedsOf s t event = [] := by
  cases event with
  | pass time =>
    simp only [step] at h
    split at h
    · cases h
      exact ⟨⟨rfl, rfl, rfl, rfl, rfl, rfl, id, .inl rfl⟩, rfl⟩
    · cases h
  | request level =>
    cases h
    exact ⟨⟨rfl, rfl, rfl, rfl, rfl, rfl, isForced_raise level, .inl rfl⟩, rfl⟩
  | timer =>
    simp only [step, Option.map_eq_some_iff] at h
    obtain ⟨stopping, hfire, rfl⟩ := h
    exact ⟨quiet_of_timer hfire, rfl⟩
  | scan => exact absurd rfl hscan
  | joinScan => exact ⟨quiet_of_joinScan h, rfl⟩
  | observe i =>
    obtain ⟨w, hw, h⟩ := Option.bind_eq_some_iff.1 h
    exact ⟨quiet_of_observe hw h, rfl⟩
  | join i =>
    obtain ⟨w, hw, h⟩ := Option.bind_eq_some_iff.1 h
    exact ⟨quiet_of_join hw h, rfl⟩
  | advance i | interrupt i | connected i result | answered i result | disconnected i result => cases hworker

/-- A step of a worker takes it from one phase to another. -/
theorem worked_of_step {i : Nat} (h : step plan s event = some t) (hworker : event.worker? = some i) :
    ∃ p q, Worked plan event i p q s t := by
  cases event with
  | advance j =>
    cases hworker
    obtain ⟨w, hw, h⟩ := Option.bind_eq_some_iff.1 h
    exact worked_of_advance hw h
  | interrupt j =>
    cases hworker
    obtain ⟨w, hw, h⟩ := Option.bind_eq_some_iff.1 h
    exact worked_of_interrupt hw h
  | connected j result =>
    cases hworker
    obtain ⟨w, hw, h⟩ := Option.bind_eq_some_iff.1 h
    exact worked_of_connect hw h
  | answered j result =>
    cases hworker
    obtain ⟨w, hw, h⟩ := Option.bind_eq_some_iff.1 h
    exact worked_of_answer hw h
  | disconnected j result =>
    cases hworker
    obtain ⟨w, hw, h⟩ := Option.bind_eq_some_iff.1 h
    exact worked_of_disconnect hw h
  | _ => cases hworker

omit [Batch β π] [Quantity ν] in
theorem deedsOf_worker {i : Nat} (h : event.worker? = some i) : deedsOf s t event = workDeeds i s t := by
  cases event <;> cases h <;> rfl

/-- Every step of a run is a turn. -/
theorem turn_of_step (h : step plan s event = some t) : Turn plan event s t := by
  cases hworker : event.worker? with
  | some i =>
    obtain ⟨p, q, hworked⟩ := worked_of_step h hworker
    exact .worker i p q hworker hworked ((deedsOf_worker hworker).trans hworked.workDeeds_eq)
  | none =>
    by_cases hscan : event = .scan
    · subst hscan
      exact .scan rfl (scanned_of_scanStep h) rfl
    · obtain ⟨hquiet, hdeeds⟩ := quiet_of_step h hworker hscan
      exact .quiet hworker hquiet hdeeds

end

end Run
end IngestBench
