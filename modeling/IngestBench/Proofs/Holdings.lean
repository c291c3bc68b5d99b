import IngestBench.Proofs.Conservation

/-! How many batches there are. A batch is held by the scan, queued, in the hand of a worker, or idle in the pool, until
    it is dropped. New ones are made only when none is idle, so that their number stays bounded. -/

namespace IngestBench

variable {σ π β ν : Type}

/-! ### Batches that are held -/

/-- The batches of a scan: those of the partitions, and the one that has to be handed on. -/
def Scan.held (s : Scan σ π β) : List β := s.slots ++ s.offered.toList.map (·.2)

/-- Whether the next move of a scan takes a batch out of the pool. -/
def Scan.takes (plan : Plan σ π) (s : Scan σ π β) : Bool :=
  match s.phase with
  | .opening => s.slots.length < plan.slotCount
  | .trading partition => (s.slots[partition]?).isSome
  | _ => false

/-- The batches that a worker lets go of when it moves: the one in hand when it breaks off, and those that are queued
    when it ends as the last one at its queue. -/
def Worker.Phase.drops (p q : Worker.Phase β) (c d : Run.Channel β) : List β :=
  match q with
  | .leaving _ => p.inHand
  | .ended _ => p.inHand ++ if d.queue.items.isEmpty then c.queue.items else []
  | _ => []

/-- The batches that a worker gives back when it moves. -/
def Worker.Phase.returns : Worker.Phase β → Worker.Phase β → List β
  | .sending b _, .choosing => [b]
  | _, _ => []

namespace Run

namespace State

def queued (s : State σ π β ν) : List β := s.channels.flatMap (·.queue.items)

def inHands (s : State σ π β ν) : List β := s.phases.flatMap Worker.Phase.inHand

/-- All batches that there are. -/
def held (s : State σ π β ν) : List β := s.scan.held ++ s.queued ++ s.inHands ++ s.pool.idle

theorem length_held (s : State σ π β ν) : s.held.length =
    s.scan.held.length + s.queued.length + s.inHands.length + s.pool.idle.length := by
  simp only [held, List.length_append]

end State

/-! ### Batches that are dropped -/

/-- The batches that are dropped in a step. -/
def dropsOf (dedicated : Bool) (s t : State σ π β ν) (event : Event) : List β :=
  match event, event.worker? with
  | .scan, _ => if t.scan.result?.isSome then s.scan.held else []
  | _, some i =>
    match s.phases[i]?, t.phases[i]?, s.channels[channelIndex dedicated i]?, t.channels[channelIndex dedicated i]? with
    | some p, some q, some c, some d => p.drops q c d
    | _, _, _, _ => []
  | _, none => []

/-- The batches that are dropped while some events happen. -/
def dropped [Batch β π] [Quantity ν] (plan : Plan σ π) : State σ π β ν → List Event → List β
  | _, [] => []
  | s, event :: events =>
    match step plan s event with
    | some t => dropsOf plan.dedicated s t event ++ dropped plan t events
    | none => []

/-! ### The balance of one step -/

/-- What a step that drops some batches does to their number: it makes some when none is idle, and some find no room
    in the pool. -/
structure Balance (held held' drops : Nat) (pool pool' : Pool β) : Prop where
  total : ∃ spilled, held' + drops + spilled + pool.created = held + pool'.created ∧
    (held ≤ pool.maxIdle → spilled = 0)
  created : pool.created ≤ pool'.created
  made : pool.created < pool'.created → pool'.idle = []
  room : pool'.maxIdle = pool.maxIdle

section
variable {α : Type} {a b : α} {l : List α}

theorem length_flatMap_set (f : α → List β) {i : Nat} (h : l[i]? = some a) :
    ((l.set i b).flatMap f).length + (f a).length = (l.flatMap f).length + (f b).length := by
  induction l generalizing i with
  | nil => cases h
  | cons x l ih =>
    cases i with
    | zero =>
      cases h
      simp only [List.set_cons_zero, List.flatMap_cons, List.length_append]
      omega
    | succ i =>
      have := ih h
      simp only [List.set_cons_succ, List.flatMap_cons, List.length_append]
      omega

end

section
variable {pool pool' : Pool β} {n m drops : Nat}

theorem balance_drop (n drops : Nat) (pool : Pool β) : Balance (n + drops) n drops pool pool where
  total := ⟨0, rfl, fun _ => rfl⟩
  created := Nat.le_refl _
  made h := absurd h (Nat.lt_irrefl _)
  room := rfl

theorem Balance.add (h : Balance n m drops pool pool') (k : Nat) : Balance (n + k) (m + k) drops pool pool' where
  total := by
    obtain ⟨spilled, htotal, hroom⟩ := h.total
    exact ⟨spilled, by omega, fun hle => hroom (by omega)⟩
  created := h.created
  made := h.made
  room := h.room

/-- A batch out of the pool was idle, or it is made. -/
theorem balance_get (make : Nat → β) (pool : Pool β) :
    Balance pool.idle.length ((pool.get make).2.idle.length + 1) 0 pool (pool.get make).2 := by
  obtain ⟨idle, maxIdle, created, reused⟩ := pool
  cases idle with
  | cons b rest => exact ⟨⟨0, rfl, fun _ => rfl⟩, Nat.le_refl _, fun h => absurd h (Nat.lt_irrefl _), rfl⟩
  | nil => exact ⟨⟨0, by simp [Pool.get]; omega, fun _ => rfl⟩, Nat.le_succ _, fun _ => rfl, rfl⟩

/-- A batch that comes back is idle, unless there is no room for it. -/
theorem balance_put (b : β) (pool : Pool β) :
    Balance (pool.idle.length + 1) (pool.put b).idle.length 0 pool (pool.put b) := by
  unfold Pool.put
  split
  · exact ⟨⟨0, rfl, fun _ => rfl⟩, Nat.le_refl _, fun h => absurd h (Nat.lt_irrefl _), rfl⟩
  · next hfull =>
    exact ⟨⟨1, by omega, fun h => absurd h hfull⟩, Nat.le_refl _, fun h => absurd h (Nat.lt_irrefl _), rfl⟩

end

/-- What a worker has in hand and what is queued for it goes on to be there, or goes back to the pool, or is
    dropped. -/
theorem length_of_move {sending forced : Bool} {fails : Failure → Prop} {i : Nat} {p q : Worker.Phase β}
    {c d : Channel β} (h : Worker.Move sending forced fails i p c q d) :
    q.inHand.length + d.queue.items.length + (p.drops q c d).length + (p.returns q).length =
      p.inHand.length + c.queue.items.length := by
  have habandoned : c.Abandoned d → d.queue.items.length + (if d.queue.items.isEmpty then c.queue.items else []).length =
      c.queue.items.length := by
    rintro (rfl | rfl)
    · cases hitems : d.queue.items <;> rfl
    · exact Nat.zero_add _
  cases h with
  | reject hd | part hd | crash hd =>
    have := habandoned hd
    simp only [Worker.Phase.inHand, Worker.Phase.drops, Worker.Phase.returns, List.length_append, List.length_nil,
      List.length_singleton]
    omega
  | take hfirst hitems =>
    simp only [Worker.Phase.inHand, Worker.Phase.drops, Worker.Phase.returns, Channel.leave, hitems, List.length_cons,
      List.length_nil]
    omega
  | giveUp | deliver =>
    simp only [Worker.Phase.inHand, Worker.Phase.drops, Worker.Phase.returns, Channel.enter, List.length_singleton,
      List.length_nil]
    omega
  | _ => rfl

section
variable {plan : Plan σ π} {event : Event} {s t : State σ π β ν}

theorem queued_setScan (scan : Scan σ π β) : (s.setScan scan).queued = s.queued := by
  simp only [State.queued, State.setScan_channels]
  split
  · rw [List.flatMap_map]
    rfl
  · rfl

theorem length_held_setScan (scan : Scan σ π β) : (s.setScan scan).held.length =
    scan.held.length + s.queued.length + s.inHands.length + s.pool.idle.length := by
  rw [State.length_held, queued_setScan, State.setScan_scan, State.setScan_pool, State.inHands, phases_setScan]
  rfl

theorem Quiet.held (h : Quiet s t) : t.held = s.held := by
  simp only [State.held, State.queued, State.inHands, h.scan, h.channels, h.phases, h.pool]

theorem balance_of_quiet (h : Quiet s t) : Balance s.held.length t.held.length 0 s.pool t.pool := by
  rw [h.held, h.pool]
  exact balance_drop _ 0 _

theorem dropsOf_quiet (dedicated : Bool) (hworker : event.worker? = none) (hscan : event ≠ .scan) :
    dropsOf dedicated s t event = [] := by
  cases event <;> first | rfl | exact absurd rfl hscan | cases hworker

theorem dropsOf_worker {i : Nat} {p q : Worker.Phase β} {c d : Channel β} {dedicated : Bool}
    (hworker : event.worker? = some i) (hp : s.phases[i]? = some p) (hq : t.phases[i]? = some q)
    (hc : s.channels[channelIndex dedicated i]? = some c) (hd : t.channels[channelIndex dedicated i]? = some d) :
    dropsOf dedicated s t event = p.drops q c d := by
  cases event <;> cases hworker <;> simp only [dropsOf, Event.worker?, hp, hq, hc, hd]

/-! ### Moves of workers -/

section
variable [Batch β π]

/-- What comes back from a worker goes to the pool. -/
theorem pool_of_worked {i : Nat} {p q : Worker.Phase β} (h : Worked plan event i p q s t) :
    (∃ b, p.returns q = [b] ∧ t.pool = s.pool.put (Batch.reset b)) ∨ (p.returns q = [] ∧ t.pool = s.pool) := by
  have hcounted := h.counted
  cases p with
  | sending b a =>
    cases q with
    | choosing => exact .inl ⟨b, rfl, hcounted.2⟩
    | _ => exact .inr ⟨rfl, hcounted.2⟩
  | _ => exact .inr ⟨rfl, hcounted.2⟩

theorem balance_of_worked {i : Nat} {p q : Worker.Phase β} (hworker : event.worker? = some i)
    (hwired : channelIndex plan.dedicated i < s.channels.length) (h : Worked plan event i p q s t) :
    Balance s.held.length t.held.length (dropsOf plan.dedicated s t event).length s.pool t.pool := by
  obtain ⟨c, hc⟩ : ∃ c, s.channels[channelIndex plan.dedicated i]? = some c :=
    ⟨_, List.getElem?_eq_getElem hwired⟩
  obtain ⟨d, hmove, hchannels⟩ := h.move c hc
  have hi : i < s.phases.length := (List.getElem?_eq_some_iff.1 h.phase).1
  have hq : t.phases[i]? = some q := by rw [h.phases, List.getElem?_set_self hi]
  have hd : t.channels[channelIndex plan.dedicated i]? = some d := by
    rw [hchannels, List.getElem?_set_self hwired]
  have hmoved := length_of_move hmove
  have hqueued : t.queued.length + c.queue.items.length = s.queued.length + d.queue.items.length := by
    rw [State.queued, hchannels]
    exact length_flatMap_set (fun c : Channel β => c.queue.items) hc
  have hhands : t.inHands.length + p.inHand.length = s.inHands.length + q.inHand.length := by
    rw [State.inHands, h.phases]
    exact length_flatMap_set Worker.Phase.inHand h.phase
  rw [dropsOf_worker hworker h.phase hq hc hd, State.length_held, State.length_held, h.scan]
  rcases pool_of_worked h with ⟨b, hreturns, hpool⟩ | ⟨hreturns, hpool⟩
  · rw [hreturns, List.length_singleton] at hmoved
    have hdrops : (p.drops q c d).length = 0 := by
      cases q with
      | choosing => rfl
      | _ => cases p <;> cases hreturns
    have hput := (balance_put (Batch.reset b) s.pool).add (s.scan.held.length + t.queued.length + t.inHands.length)
    rw [hpool, hdrops]
    convert hput using 1 <;> omega
  · rw [hreturns, List.length_nil] at hmoved
    rw [hpool]
    convert balance_drop (s.scan.held.length + t.queued.length + t.inHands.length + s.pool.idle.length)
      (p.drops q c d).length s.pool using 1
    omega

end

/-! ### Moves of the scan -/

section
variable [Batch β π]

theorem length_place {point : π} {k : Nat} {slots slots' : List β} (h : Scan.place point k slots = .ok slots') :
    slots'.length = slots.length := by
  induction slots generalizing k slots' with
  | nil =>
    cases k <;> cases h <;> rfl
  | cons b rest ih =>
    cases k with
    | zero =>
      simp only [Scan.place] at h
      cases happend : Batch.append b point with
      | error fault =>
        rw [happend] at h
        cases h
      | ok b' =>
        rw [happend] at h
        cases h
        rfl
    | succ k =>
      simp only [Scan.place] at h
      cases hplace : Scan.place point k rest with
      | error fault =>
        rw [hplace] at h
        cases h
      | ok rest' =>
        rw [hplace] at h
        cases h
        exact congrArg (· + 1) (ih hplace)

/-- What a move of the scan does with its batches: nothing, or it takes one out of the pool, gives one back, or comes
    to its end and drops them all. -/
inductive Handled (plan : Scan.Plan σ π) (scan scan' : Scan σ π β) (pool pool' : Pool β) : Prop
  | keep : scan'.held.length = scan.held.length → scan'.result? = none → pool' = pool → Handled plan scan scan' pool pool'
  | take : scan.takes plan = true → scan'.held.length = scan.held.length + 1 → scan'.result? = none →
      pool' = (pool.get fun _ => Batch.empty).2 → Handled plan scan scan' pool pool'
  | giveBack (b : β) : scan'.held.length + 1 = scan.held.length → scan'.result? = none → pool' = pool.put b →
      Handled plan scan scan' pool pool'
  | drop : scan'.held = [] → scan'.result?.isSome = true → pool' = pool → Handled plan scan scan' pool pool'

theorem handled_finish {plan : Scan.Plan σ π} {scan scan' : Scan σ π β} {pool : Pool β} (fault : Option Failure) :
    Handled plan scan (scan'.finish fault) pool pool :=
  .drop (by simp [Scan.held, Scan.finish, Scan.offered]) (by cases fault <;> rfl) rfl

theorem handled_of_advance {plan : Scan.Plan σ π} {scan scan' : Scan σ π β} {pool pool' : Pool β} {stop : Bool}
    (h : scan.advance plan stop pool = some (scan', pool')) : Handled plan scan scan' pool pool' := by
  obtain ⟨source, slots, stats, phase⟩ := scan
  cases phase with
  | opening =>
    simp only [Scan.advance] at h
    split at h
    · next hroom =>
      cases h
      exact .take (by simpa [Scan.takes] using hroom) (by simp [Scan.held, Scan.offered]) rfl rfl
    · cases h
      exact .keep rfl rfl rfl
  | deciding =>
    simp only [Scan.advance] at h
    split at h
    · cases h
      exact .keep rfl rfl rfl
    · split at h <;> cases h <;> exact .keep rfl rfl rfl
  | reading =>
    simp only [Scan.advance] at h
    split at h
    · cases h
      exact handled_finish _
    · cases h
      exact .keep rfl rfl rfl
    · cases h
      exact .keep rfl rfl rfl
  | placing point =>
    simp only [Scan.advance] at h
    split at h
    · split at h
      · cases h
        exact handled_finish _
      · next slots' hplace =>
        cases h
        have hlength := length_place hplace
        by_cases hfull : plan.fullSize ≤ Scan.rowsAt slots' (plan.partition point)
        · rw [if_pos hfull]
          exact .keep (by simpa [Scan.held, Scan.offered] using hlength) rfl rfl
        · rw [if_neg hfull]
          exact .keep (by simpa [Scan.held, Scan.offered] using hlength) rfl rfl
    · cases h
      exact handled_finish _
  | trading k =>
    simp only [Scan.advance] at h
    split at h
    · cases h
      exact .keep rfl rfl rfl
    · next b hb =>
      cases h
      exact .take (by simp [Scan.takes, hb]) (by simp [Scan.held, Scan.offered]) rfl rfl
  | flushing k =>
    simp only [Scan.advance] at h
    split at h
    · cases h
      exact handled_finish _
    · next b rest =>
      split at h
      · cases h
        exact .giveBack _ (by simp [Scan.held, Scan.offered]) rfl rfl
      · cases h
        exact .keep (by simp [Scan.held, Scan.offered]) rfl rfl
  | _ => cases h

/-- A move of the scan alone. -/
theorem Handled.balance {plan : Scan.Plan σ π} {scan scan' : Scan σ π β} {pool pool' : Pool β}
    (h : Handled plan scan scan' pool pool') :
    Balance (scan.held.length + pool.idle.length) (scan'.held.length + pool'.idle.length)
      (if scan'.result?.isSome then scan.held else []).length pool pool' := by
  cases h with
  | keep hheld hresult hpool =>
    rw [hpool, hheld, hresult]
    exact balance_drop _ 0 _
  | take _ hheld hresult hpool =>
    have hget := (balance_get (fun _ => Batch.empty) pool).add scan.held.length
    rw [hpool, hheld, hresult]
    show Balance _ _ 0 _ _
    convert hget using 1 <;> omega
  | giveBack b hheld hresult hpool =>
    have hput := (balance_put b pool).add scan'.held.length
    rw [hpool, ← hheld, hresult]
    show Balance _ _ 0 _ _
    convert hput using 1 <;> omega
  | drop hheld hresult hpool =>
    have hdrop := balance_drop pool.idle.length scan.held.length pool
    rw [hpool, hheld, if_pos hresult]
    convert hdrop using 1
    · omega
    · exact Nat.zero_add _

omit [Batch β π] in
theorem length_held_sent {scan : Scan σ π β} {k : Nat} {b : β} (h : scan.offered = some (k, b)) :
    scan.sent.held.length + 1 = scan.held.length ∧ scan.sent.slots = scan.slots ∧ scan.sent.result? = none := by
  obtain ⟨source, slots, stats, phase⟩ := scan
  cases phase with
  | sending k' b' last => cases last <;> exact ⟨by simp [Scan.held, Scan.sent, Scan.offered], rfl, rfl⟩
  | _ => cases h

theorem balance_of_scanned (h : Scanned plan s t) :
    Balance s.held.length t.held.length (dropsOf plan.dedicated s t .scan).length s.pool t.pool := by
  cases h with
  | moved scan pool hoffered hadvance ht =>
    have hbalance := (handled_of_advance hadvance).balance.add (s.queued.length + s.inHands.length)
    subst ht
    rw [length_held_setScan, State.length_held, State.setScan_pool, dropsOf, State.setScan_scan]
    convert hbalance using 1
    · omega
    · show _ + s.queued.length + s.inHands.length + pool.idle.length = _
      omega
  | handed k b c hoffered hc hclosed ht =>
    obtain ⟨hheld, -, hresult⟩ := length_held_sent hoffered
    have hset := length_flatMap_set (b := { c with queue := { c.queue with items := c.queue.items ++ [b] } })
      (fun c : Channel β => c.queue.items) hc
    rw [List.length_append, List.length_singleton] at hset
    generalize hu : s.setChannel _ _ = u at ht
    have hqueued : u.queued.length = s.queued.length + 1 := by
      rw [← hu]
      exact Nat.add_right_cancel (hset.trans (by rw [State.queued]; omega))
    have hrest : u.inHands = s.inHands ∧ u.pool = s.pool := by
      rw [← hu]
      exact ⟨rfl, rfl⟩
    have hsame : t.held.length = s.held.length := by
      rw [ht, length_held_setScan, State.length_held, hqueued, hrest.1, hrest.2]
      omega
    have hdrops : dropsOf plan.dedicated s t .scan = [] := by rw [dropsOf, ht, State.setScan_scan, hresult]; rfl
    rw [hsame, hdrops, ht, State.setScan_pool, hrest.2]
    exact balance_drop _ 0 _
  | turnedAway k b c hoffered hc hclosed ht =>
    have hdrop := (balance_drop s.pool.idle.length s.scan.held.length s.pool).add (s.queued.length + s.inHands.length)
    have hdrops : dropsOf plan.dedicated s t .scan = s.scan.held := by rw [dropsOf, ht, State.setScan_scan]; rfl
    rw [hdrops, ht, length_held_setScan, State.length_held, State.setScan_pool]
    convert hdrop using 1
    · omega
    · show 0 + _ + _ + _ = _
      omega

/-- Every step keeps the balance. -/
theorem balance_of_step [Quantity ν] (hwired : ∀ i < s.phases.length, channelIndex plan.dedicated i < s.channels.length)
    (h : step plan s event = some t) :
    Balance s.held.length t.held.length (dropsOf plan.dedicated s t event).length s.pool t.pool := by
  cases hworker : event.worker? with
  | some i =>
    obtain ⟨p, q, hworked⟩ := worked_of_step h hworker
    have hi : i < s.phases.length := (List.getElem?_eq_some_iff.1 hworked.phase).1
    exact balance_of_worked hworker (hwired i hi) hworked
  | none =>
    by_cases hscan : event = .scan
    · subst hscan
      exact balance_of_scanned (scanned_of_scanStep h)
    · rw [dropsOf_quiet plan.dedicated hworker hscan]
      exact balance_of_quiet (quiet_of_step h hworker hscan).1

end

end

/-! ### Room -/

/-- The most batches that there can be: one for each partition, those in full queues, one for each worker, and the one
    that the scan hands on. -/
def mostHeld (plan : Plan σ π) (workers capacity : Nat) : Nat :=
  plan.scan.slotCount + (if plan.dedicated then max workers 1 else 1) * max capacity 1 + max workers 1 + 1

/-- Scan, queues and workers hold no more than there is room for. -/
structure Roomy (plan : Plan σ π) (workers capacity : Nat) (s : State σ π β ν) : Prop where
  slots : s.scan.slots.length ≤ plan.scan.slotCount
  channels : s.channels.length = if plan.dedicated then max workers 1 else 1
  queues : ∀ c ∈ s.channels, c.queue.capacity = max capacity 1 ∧ c.queue.items.length ≤ max capacity 1
  phases : s.phases.length = max workers 1

section
variable {plan : Plan σ π} {workers capacity : Nat} {event : Event} {events : List Event} {s t : State σ π β ν}

theorem length_flatMap_le {α : Type} {f : α → List β} {bound : Nat} {l : List α} (h : ∀ x ∈ l, (f x).length ≤ bound) :
    (l.flatMap f).length ≤ l.length * bound := by
  induction l with
  | nil => exact Nat.zero_le _
  | cons x l ih =>
    have hx := h x List.mem_cons_self
    have hl := ih fun y hy => h y (List.mem_cons_of_mem x hy)
    rw [List.flatMap_cons, List.length_append, List.length_cons, Nat.succ_mul]
    omega

theorem length_offered_le (scan : Scan σ π β) : scan.held.length ≤ scan.slots.length + 1 := by
  rw [Scan.held, List.length_append, List.length_map]
  cases scan.offered <;> simp

theorem Roomy.length_held_le (hs : Roomy plan workers capacity s) (hidle : s.pool.idle = []) :
    s.held.length + plan.scan.slotCount + 1 ≤ s.scan.held.length + mostHeld plan workers capacity := by
  have hqueued : s.queued.length ≤ s.channels.length * max capacity 1 :=
    length_flatMap_le fun c hc => (hs.queues c hc).2
  have hhands : s.inHands.length ≤ s.phases.length * 1 := length_flatMap_le fun p _ => by cases p <;> simp
  rw [hs.channels] at hqueued
  rw [hs.phases] at hhands
  rw [State.length_held, hidle, mostHeld, List.length_nil]
  omega

/-- When no batch is idle, there are no more than there can be. -/
theorem Roomy.length_held_le_most (hs : Roomy plan workers capacity s) (hidle : s.pool.idle = []) :
    s.held.length ≤ mostHeld plan workers capacity := by
  have hle := hs.length_held_le hidle
  have hscan := length_offered_le s.scan
  have hslots := hs.slots
  omega

/-- A scan that is about to take a batch leaves one place. -/
theorem Roomy.length_held_lt_most (hs : Roomy plan workers capacity s) (htakes : s.scan.takes plan.scan = true)
    (hidle : s.pool.idle = []) : s.held.length + 1 ≤ mostHeld plan workers capacity := by
  have hle := hs.length_held_le hidle
  have hslots := hs.slots
  have hscan : s.scan.held.length = s.scan.slots.length := by
    unfold Scan.takes at htakes
    split at htakes
    · next hphase => simp [Scan.held, Scan.offered, hphase]
    · next hphase => simp [Scan.held, Scan.offered, hphase]
    · cases htakes
  omega

theorem Roomy.wired (hs : Roomy plan workers capacity s) {i : Nat} (hi : i < s.phases.length) :
    channelIndex plan.dedicated i < s.channels.length := by
  rw [hs.phases] at hi
  rw [hs.channels, channelIndex]
  split <;> omega

variable [Batch β π]

theorem slots_of_advance {plan : Scan.Plan σ π} {scan scan' : Scan σ π β} {pool pool' : Pool β} {stop : Bool}
    (hslots : scan.slots.length ≤ plan.slotCount) (h : scan.advance plan stop pool = some (scan', pool')) :
    scan'.slots.length ≤ plan.slotCount := by
  have hfinish : ∀ (scan : Scan σ π β) fault, (scan.finish fault).slots.length ≤ plan.slotCount :=
    fun _ _ => Nat.zero_le _
  obtain ⟨source, slots, stats, phase⟩ := scan
  cases phase with
  | opening =>
    simp only [Scan.advance] at h
    split at h
    · next hroom =>
      cases h
      exact (List.length_append ..).trans_le hroom
    · cases h
      exact hslots
  | deciding =>
    simp only [Scan.advance] at h
    split at h
    · cases h
      exact hslots
    · split at h <;> cases h <;> exact hslots
  | reading =>
    simp only [Scan.advance] at h
    split at h <;> cases h
    · exact hfinish _ _
    · exact hslots
    · exact hslots
  | placing point =>
    simp only [Scan.advance] at h
    split at h
    · split at h
      · cases h
        exact hfinish _ _
      · next slots' hplace =>
        cases h
        exact (length_place hplace).trans_le hslots
    · cases h
      exact hfinish _ _
  | trading k =>
    simp only [Scan.advance] at h
    split at h <;> cases h
    · exact hslots
    · exact (List.length_set ..).trans_le hslots
  | flushing k =>
    simp only [Scan.advance] at h
    split at h
    · cases h
      exact hfinish _ _
    · split at h <;> cases h <;> exact Nat.le_of_succ_le hslots
  | _ => cases h

/-- A batch is only handed on to a queue that has room for it. -/
theorem room_of_scanStep {k : Nat} {b : β} {c : Channel β} (h : s.scanStep plan = some t)
    (hoffered : s.scan.offered = some (k, b)) (hc : s.channels[Queue.route s.channels.length k]? = some c)
    (hclosed : c.queue.closed = false) : c.queue.items.length < c.queue.capacity := by
  by_contra hfull
  simp [State.scanStep, hoffered, hc, Queue.offer, hclosed, hfull] at h

omit [Batch β π] in
theorem Roomy.setScan (hs : Roomy plan workers capacity s) {scan : Scan σ π β}
    (hslots : scan.slots.length ≤ plan.scan.slotCount) : Roomy plan workers capacity (s.setScan scan) where
  slots := by rwa [State.setScan_scan]
  channels := (length_channels_setScan scan).trans hs.channels
  queues c hc := by
    rw [State.setScan_channels] at hc
    split at hc
    · obtain ⟨c, hmem, rfl⟩ := List.mem_map.1 hc
      exact hs.queues c hmem
    · exact hs.queues c hc
  phases := by rw [phases_setScan, hs.phases]

theorem Roomy.scanned (hs : Roomy plan workers capacity s) (h : s.scanStep plan = some t) :
    Roomy plan workers capacity t := by
  cases scanned_of_scanStep h with
  | moved scan pool hoffered hadvance ht =>
    have hpool : Roomy plan workers capacity { s with pool } := ⟨hs.slots, hs.channels, hs.queues, hs.phases⟩
    exact ht ▸ hpool.setScan (slots_of_advance hs.slots hadvance)
  | handed k b c hoffered hc hclosed ht =>
    have hroom := room_of_scanStep h hoffered hc hclosed
    obtain ⟨hcapacity, -⟩ := hs.queues c (List.mem_of_getElem? hc)
    obtain ⟨-, hslots, -⟩ := length_held_sent hoffered
    have hset : Roomy plan workers capacity (s.setChannel (Queue.route s.channels.length k)
        { c with queue := { c.queue with items := c.queue.items ++ [b] } }) := by
      refine ⟨hs.slots, (List.length_set ..).trans hs.channels, fun d hd => ?_, hs.phases⟩
      rcases List.mem_or_eq_of_mem_set hd with hd | rfl
      · exact hs.queues d hd
      · refine ⟨hcapacity, ?_⟩
        rw [List.length_append, List.length_singleton]
        omega
    exact ht ▸ hset.setScan (hslots ▸ hs.slots)
  | turnedAway k b c hoffered hc hclosed ht => exact ht ▸ hs.setScan (Nat.zero_le _)

theorem Roomy.worked {i : Nat} {p q : Worker.Phase β} (hs : Roomy plan workers capacity s)
    (h : Worked plan event i p q s t) : Roomy plan workers capacity t := by
  have hi : i < s.phases.length := (List.getElem?_eq_some_iff.1 h.phase).1
  obtain ⟨c, hc⟩ : ∃ c, s.channels[channelIndex plan.dedicated i]? = some c :=
    ⟨_, List.getElem?_eq_getElem (hs.wired hi)⟩
  obtain ⟨d, hmove, hchannels⟩ := h.move c hc
  refine ⟨h.scan ▸ hs.slots, by rw [hchannels, List.length_set, hs.channels], fun e he => ?_,
    by rw [h.phases, List.length_set, hs.phases]⟩
  rw [hchannels] at he
  rcases List.mem_or_eq_of_mem_set he with he | rfl
  · exact hs.queues e he
  · obtain ⟨hcapacity, hitems⟩ := hs.queues c (List.mem_of_getElem? hc)
    exact ⟨hmove.capacity.trans hcapacity, hmove.length_items_le.trans hitems⟩

variable [Quantity ν]

theorem Roomy.step (hs : Roomy plan workers capacity s) (h : step plan s event = some t) :
    Roomy plan workers capacity t := by
  cases hworker : event.worker? with
  | some i =>
    obtain ⟨p, q, hworked⟩ := worked_of_step h hworker
    exact hs.worked hworked
  | none =>
    by_cases hscan : event = .scan
    · subst hscan
      exact hs.scanned h
    · obtain ⟨hquiet, -⟩ := quiet_of_step h hworker hscan
      exact ⟨hquiet.scan ▸ hs.slots, hquiet.channels ▸ hs.channels, hquiet.channels ▸ hs.queues,
        hquiet.phases ▸ hs.phases⟩

/-- Only the scan makes batches. -/
theorem created_of_step (h : Run.step plan s event = some t) (hscan : event ≠ .scan) :
    t.pool.created = s.pool.created := by
  cases hworker : event.worker? with
  | some i =>
    obtain ⟨p, q, hworked⟩ := worked_of_step h hworker
    rcases pool_of_worked hworked with ⟨b, -, hpool⟩ | ⟨-, hpool⟩
    · rw [hpool]
      unfold Pool.put
      split <;> rfl
    · rw [hpool]
  | none => rw [(quiet_of_step h hworker hscan).1.pool]

end

/-! ### All through a run -/

section
variable [Batch β π] [Quantity ν] {plan : Plan σ π} {workers capacity : Nat} {events : List Event} {s t : State σ π β ν}

theorem held_of_follow (hs : Roomy plan workers capacity s) (hheld : s.held.length ≤ mostHeld plan workers capacity)
    (h : follow plan s events = some t) : Roomy plan workers capacity t ∧
      t.held.length ≤ mostHeld plan workers capacity ∧ (mostHeld plan workers capacity ≤ s.pool.maxIdle →
        t.held.length + (dropped plan s events).length + s.pool.created = s.held.length + t.pool.created) := by
  induction events generalizing s with
  | nil =>
    cases h
    exact ⟨hs, hheld, fun _ => rfl⟩
  | cons event events ih =>
    obtain ⟨u, hstep, h⟩ := follow_cons_eq_some h
    have hu := hs.step hstep
    have hbalance := balance_of_step (fun i hi => hs.wired hi) hstep
    obtain ⟨spilled, htotal, hspilled⟩ := hbalance.total
    have hheld' : u.held.length ≤ mostHeld plan workers capacity := by
      have hcreated := hbalance.created
      by_cases hmade : s.pool.created < u.pool.created
      · exact hu.length_held_le_most (hbalance.made hmade)
      · omega
    obtain ⟨ht, hle, hcount⟩ := ih hu hheld' h
    refine ⟨ht, hle, fun hroom => ?_⟩
    have hzero := hspilled (hheld.trans hroom)
    have hrest := hcount (hbalance.room ▸ hroom)
    simp only [dropped, hstep, List.length_append]
    omega

/-- What workers and observers do makes no batches. -/
theorem length_held_of_follow (hs : Roomy plan workers capacity s) (hscan : .scan ∉ events)
    (h : follow plan s events = some t) : t.held.length ≤ s.held.length := by
  induction events generalizing s with
  | nil =>
    cases h
    exact Nat.le_refl _
  | cons event events ih =>
    obtain ⟨u, hstep, h⟩ := follow_cons_eq_some h
    rw [List.mem_cons, not_or] at hscan
    have hcreated := created_of_step hstep (Ne.symm hscan.1)
    obtain ⟨spilled, htotal, -⟩ := (balance_of_step (fun i hi => hs.wired hi) hstep).total
    have hrest := ih (hs.step hstep) hscan.2 h
    omega

/-- A run before its first step, with room for so many idle batches. -/
def firstWith (plan : Plan σ π) (source : σ) (workers capacity maxIdle : Nat) (bucket : Option (TokenBucket ν))
    (stopping : Stopping) : State σ π β ν :=
  { first plan source workers capacity bucket stopping with pool := .empty maxIdle }

omit [Batch β π] [Quantity ν] in
/-- A run has the standard room. -/
example (source : σ) (bucket : Option (TokenBucket ν)) (stopping : Stopping) :
    (firstWith plan source workers capacity Pool.standardRoom bucket stopping : State σ π β ν) =
      first plan source workers capacity bucket stopping := rfl

omit [Batch β π] [Quantity ν] in
theorem roomy_firstWith (plan : Plan σ π) (source : σ) (workers capacity maxIdle : Nat)
    (bucket : Option (TokenBucket ν)) (stopping : Stopping) :
    Roomy plan workers capacity (firstWith plan source workers capacity maxIdle bucket stopping : State σ π β ν) where
  slots := Nat.zero_le _
  channels := List.length_replicate
  queues c hc := by
    cases List.eq_of_mem_replicate hc
    exact ⟨rfl, Nat.zero_le _⟩
  phases := by simp [State.phases, firstWith, first, State.start]

omit [Batch β π] [Quantity ν] in
theorem held_firstWith (plan : Plan σ π) (source : σ) (workers capacity maxIdle : Nat)
    (bucket : Option (TokenBucket ν)) (stopping : Stopping) :
    (firstWith plan source workers capacity maxIdle bucket stopping : State σ π β ν).held = [] := by
  have hqueued : (firstWith plan source workers capacity maxIdle bucket stopping : State σ π β ν).queued = [] :=
    List.flatMap_eq_nil_iff.2 fun c hc => by
      cases List.eq_of_mem_replicate hc
      rfl
  have hhands : (first plan source workers capacity bucket stopping : State σ π β ν).inHands = [] :=
    List.flatMap_eq_nil_iff.2 fun p hp => by
      rw [phases_first] at hp
      cases List.eq_of_mem_replicate hp
      rfl
  rw [State.held, hqueued, show (firstWith plan source workers capacity maxIdle bucket stopping : State σ π β ν).inHands
    = [] from hhands]
  rfl

/-- The number of batches is bounded, however long the source is and however many of them idle batches may be kept.
    The bound has one place left when a batch is about to be made, whatever workers do before it is there. As long as
    the pool has room, each batch that was made is held or was dropped. -/
theorem batches_bounded (plan : Plan σ π) (source : σ) (workers capacity maxIdle : Nat)
    (bucket : Option (TokenBucket ν)) (stopping : Stopping) {events : List Event} {s : State σ π β ν}
    (h : follow plan (firstWith plan source workers capacity maxIdle bucket stopping) events = some s) :
    s.held.length ≤ mostHeld plan workers capacity ∧
      (s.scan.takes plan.scan = true → s.pool.idle = [] → ∀ more u, .scan ∉ more → follow plan s more = some u →
        u.held.length + 1 ≤ mostHeld plan workers capacity) ∧
      (mostHeld plan workers capacity ≤ maxIdle →
        let drops : List β :=
          dropped plan (firstWith plan source workers capacity maxIdle bucket stopping : State σ π β ν) events
        s.pool.created = s.held.length + drops.length ∧
          (drops = [] → s.pool.created ≤ mostHeld plan workers capacity)) := by
  have hfirst : Roomy plan workers capacity
      (firstWith plan source workers capacity maxIdle bucket stopping : State σ π β ν) := roomy_firstWith ..
  obtain ⟨hs, hheld, hcount⟩ := held_of_follow hfirst (hfirst.length_held_le_most rfl) h
  refine ⟨hheld, fun htakes hidle more u hscan hu => ?_, fun hroom => ?_⟩
  · exact (Nat.succ_le_succ (length_held_of_follow hs hscan hu)).trans (hs.length_held_lt_most htakes hidle)
  · have htotal := hcount hroom
    rw [held_firstWith] at htotal
    have htotal : s.held.length + _ + 0 = 0 + s.pool.created := htotal
    refine ⟨by omega, fun hdrops => ?_⟩
    rw [hdrops, List.length_nil] at htotal
    omega

end

/-! ### A small run with room for seven batches -/

section
open Rehearsal

/-- One worker sends the numbers, and seven idle batches may be kept. -/
def roomyStart : State (Feed (Nat × Int)) (Nat × Int) Numbers Float :=
  firstWith (singly false) twoNumbers 1 4 7 none .none

/-- Both numbers are accepted, no batch is dropped, and no more batches are made than may be idle. -/
theorem batches_bounded_two_numbers : ∃ s, follow (singly false) roomyStart accepting = some s ∧
    s.held.length ≤ 7 ∧ dropped (singly false) roomyStart accepting = [] ∧ 0 < s.pool.created ∧ s.pool.created ≤ 7 := by
  have hrun : (follow (singly false) roomyStart accepting).map (fun s => 0 < s.pool.created) = some (0 < 3) := rfl
  obtain ⟨s, hs, hcreated⟩ := Option.map_eq_some_iff.1 hrun
  have hdrops : dropped (singly false) roomyStart accepting = [] := rfl
  have hmost : mostHeld (singly false) 1 4 = 7 := rfl
  obtain ⟨hheld, -, hroomy⟩ := batches_bounded (singly false) twoNumbers 1 4 7 none .none hs
  obtain ⟨-, hmade⟩ := hroomy (Nat.le_refl 7)
  exact ⟨s, hs, hmost ▸ hheld, hdrops, hcreated.mpr (by decide), hmost ▸ hmade hdrops⟩

end

end Run
end IngestBench
