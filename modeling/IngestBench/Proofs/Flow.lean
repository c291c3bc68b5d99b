import IngestBench.Proofs.Books

/-! The flow of batches through a queue: what was handed on to it was taken out, is queued, or was lost when the last
    worker went. Batches are only lost, and the queue is only closed early, when a worker has broken off. -/

namespace IngestBench
namespace Run

variable {β : Type}

/-! ### Workers at a queue -/

/-- One of the workers at a queue is at a stage. -/
def At (stage : Stage) (dedicated : Bool) (k : Nat) (phases : List (Worker.Phase β)) : Prop :=
  ∃ i p, phases[i]? = some p ∧ channelIndex dedicated i = k ∧ p.stage = stage

section
variable {dedicated : Bool} {k i : Nat} {phases : List (Worker.Phase β)} {p q : Worker.Phase β} {stage : Stage}

theorem at_set (hp : phases[i]? = some p) (hk : channelIndex dedicated i = k) (hq : q.stage = stage) :
    At stage dedicated k (phases.set i q) := by
  obtain ⟨hi, -⟩ := List.getElem?_eq_some_iff.1 hp
  exact ⟨i, q, List.getElem?_set_self hi, hk, hq⟩

theorem At.set (h : At stage dedicated k phases) (hp : phases[i]? = some p) (hq : p.stage = stage → q.stage = stage) :
    At stage dedicated k (phases.set i q) := by
  obtain ⟨j, r, hr, hk, hstage⟩ := h
  by_cases hij : i = j
  · subst hij
    cases hp.symm.trans hr
    exact at_set hp hk (hq hstage)
  · exact ⟨j, r, by rw [List.getElem?_set_ne hij, hr], hk, hstage⟩

theorem At.of_set (h : At stage dedicated k (phases.set i q)) (hp : phases[i]? = some p) :
    At stage dedicated k phases ∨ (channelIndex dedicated i = k ∧ q.stage = stage) := by
  obtain ⟨j, r, hr, hk, hstage⟩ := h
  by_cases hij : i = j
  · subst hij
    obtain ⟨hi, -⟩ := List.getElem?_eq_some_iff.1 hp
    rw [List.getElem?_set_self hi] at hr
    cases hr
    exact .inr ⟨hk, hstage⟩
  · rw [List.getElem?_set_ne hij] at hr
    exact .inl ⟨j, r, hr, hk, hstage⟩

end

/-! ### The flow -/

/-- How a queue stands to what was handed on to it, what was taken out of it, and its workers; `exhausted`
    says whether the scan has come to its end. -/
structure Flow (dedicated : Bool) (k : Nat) (phases : List (Worker.Phase β)) (exhausted : Bool) (queue : Queue β)
    (sent taken : List β) : Prop where
  split : ∃ lost, sent = taken ++ queue.items ++ lost ∧
    (lost ≠ [] → queue.closed = true ∧ queue.items = [] ∧ At .broken dedicated k phases)
  drained : At .drained dedicated k phases → queue.items = [] ∧ (queue.closed || queue.ended) = true
  closed : queue.closed = true → (queue.ended = true ∧ queue.items = []) ∨ At .broken dedicated k phases
  ended : queue.ended = exhausted

section
variable {dedicated exhausted : Bool} {k i : Nat} {phases : List (Worker.Phase β)} {p p' : Worker.Phase β} {q : Queue β}
  {sent taken : List β}

theorem flow_new (hphases : ∀ p ∈ phases, p.stage = .serving) (capacity : Nat) :
    Flow dedicated k phases false (Queue.new capacity) [] [] where
  split := ⟨[], rfl, fun h => absurd rfl h⟩
  drained h := by
    obtain ⟨i, p, hp, -, hstage⟩ := h
    rw [hphases p (List.mem_of_getElem? hp)] at hstage
    cases hstage
  closed := nofun
  ended := rfl

/-- A worker moves, and the queue stays as it is. -/
theorem Flow.set (hf : Flow dedicated k phases exhausted q sent taken) (hp : phases[i]? = some p)
    (hbroken : p.stage = .broken → p'.stage = .broken)
    (hdrained : channelIndex dedicated i = k → p'.stage = .drained → p.stage = .drained ∨
      (q.items = [] ∧ (q.closed || q.ended) = true)) :
    Flow dedicated k (phases.set i p') exhausted q sent taken where
  split := by
    obtain ⟨lost, hsplit, hlost⟩ := hf.split
    refine ⟨lost, hsplit, fun h => ?_⟩
    obtain ⟨hclosed, hitems, hat⟩ := hlost h
    exact ⟨hclosed, hitems, hat.set hp hbroken⟩
  drained h := by
    rcases h.of_set hp with h | ⟨hk, hstage⟩
    · exact hf.drained h
    · rcases hdrained hk hstage with h | h
      · exact hf.drained ⟨i, p, hp, hk, h⟩
      · exact h
  closed h := (hf.closed h).imp id fun hat => hat.set hp hbroken
  ended := hf.ended

/-- A worker that no longer serves closes the queue. -/
theorem Flow.close (hf : Flow dedicated k phases exhausted q sent taken)
    (hat : At .drained dedicated k phases ∨ At .broken dedicated k phases) :
    Flow dedicated k phases exhausted q.close sent taken where
  split := by
    obtain ⟨lost, hsplit, hlost⟩ := hf.split
    exact ⟨lost, hsplit, fun h => ⟨rfl, (hlost h).2⟩⟩
  drained h := ⟨(hf.drained h).1, rfl⟩
  closed _ := by
    rcases hat with hat | hat
    · obtain ⟨hitems, hover⟩ := hf.drained hat
      cases hclosed : q.closed with
      | true => exact hf.closed hclosed
      | false =>
        rw [hclosed, Bool.false_or] at hover
        exact .inl ⟨hover, hitems⟩
    · exact .inr hat
  ended := hf.ended

/-- A worker that no longer serves takes with it what is queued. -/
theorem Flow.abandon (hf : Flow dedicated k phases exhausted q sent taken)
    (hat : At .drained dedicated k phases ∨ At .broken dedicated k phases) :
    Flow dedicated k phases exhausted q.abandon sent taken where
  split := by
    obtain ⟨lost, hsplit, hlost⟩ := hf.split
    refine ⟨q.items ++ lost, by rw [hsplit]; simp [Queue.abandon], fun h => ⟨rfl, rfl, ?_⟩⟩
    rcases hat with hat | hat
    · refine (hlost fun hnil => h ?_).2.2
      rw [(hf.drained hat).1, hnil]
      rfl
    · exact hat
  drained _ := ⟨rfl, rfl⟩
  closed _ := by
    rcases (hf.close hat).closed rfl with h | h
    · exact .inl ⟨h.1, rfl⟩
    · exact .inr h
  ended := hf.ended

theorem Flow.abandoned {c d : Channel β} (hf : Flow dedicated k phases exhausted c.queue sent taken) (h : c.Abandoned d)
    (hat : At .drained dedicated k phases ∨ At .broken dedicated k phases) :
    Flow dedicated k phases exhausted d.queue sent taken := by
  rcases h with rfl | rfl
  · exact hf
  · exact hf.abandon hat

theorem stage_ne_serving (ending : Ending) : ending.stage = .drained ∨ ending.stage = .broken := by
  cases ending
  · exact .inl rfl
  · exact .inr rfl
  · exact .inr rfl

/-- Each move of a worker at the queue keeps the flow. -/
theorem Flow.move {sending forced : Bool} {fails : Failure → Prop} {c d : Channel β}
    (hf : Flow dedicated k phases exhausted c.queue sent taken) (hp : phases[i]? = some p)
    (hk : channelIndex dedicated i = k) (h : Worker.Move sending forced fails i p c p' d) :
    Flow dedicated k (phases.set i p') exhausted d.queue sent (taken ++ (p.tasks p').filterMap Task.took?) := by
  have hset := hf.set hp h.broken
  have hat : p'.stage = .drained ∨ p'.stage = .broken →
      At .drained dedicated k (phases.set i p') ∨ At .broken dedicated k (phases.set i p') :=
    fun hstage => hstage.imp (at_set hp hk) (at_set hp hk)
  cases h with
  | begin | wait | sum =>
    rw [show List.filterMap Task.took? _ = [] from rfl, List.append_nil]
    exact hset fun _ hstage => .inl hstage
  | stop | interrupt =>
    rw [show List.filterMap Task.took? _ = [] from rfl, List.append_nil]
    exact hset fun _ hstage => by cases hstage
  | @attempt _ b a a' h =>
    have hnone : (a.tasks b a').filterMap Task.took? = [] := by cases h <;> rfl
    rw [show Worker.Phase.tasks _ _ = a.tasks b a' from rfl, hnone, List.append_nil]
    exact hset fun _ hstage => by cases hstage
  | deliver =>
    rw [show List.filterMap Task.took? _ = [] from rfl, List.append_nil]
    exact hset fun _ hstage => by cases hstage
  | @giveUp _ _ fault =>
    rw [show List.filterMap Task.took? _ = [] from rfl, List.append_nil]
    refine hset fun _ hstage => ?_
    revert hstage
    simp only [Worker.Phase.stage]
    split <;> exact fun hstage => by cases hstage
  -- What is taken was queued, so nothing was lost before.
  | @take _ b rest hfirst hitems =>
    obtain ⟨⟨lost, hsplit, hlost⟩, hdrained, hclosed, hended⟩ := hset fun _ hstage => by cases hstage
    have hnil : lost = [] := Decidable.byContradiction fun h => by
      rw [(hlost h).2.1] at hitems
      cases hitems
    refine ⟨⟨[], ?_, fun h => absurd rfl h⟩, fun h => ?_, fun h => ?_, hended⟩
    · rw [hsplit, hitems, hnil]
      simp [Worker.Phase.tasks, Channel.leave]
    · rw [hitems] at hdrained
      cases (hdrained h).1
    · rcases hclosed h with ⟨-, hnil⟩ | h
      · rw [hitems] at hnil
        cases hnil
      · exact .inr h
  | drain hfirst hitems hover =>
    rw [show List.filterMap Task.took? _ = [] from rfl, List.append_nil]
    exact hset fun _ _ => .inr ⟨hitems, hover⟩
  | @close _ ending =>
    rw [show List.filterMap Task.took? _ = [] from rfl, List.append_nil]
    exact (hset fun _ hstage => .inl hstage).close (hat (stage_ne_serving ending))
  | reject hd =>
    rw [show List.filterMap Task.took? _ = [] from rfl, List.append_nil]
    exact (hset fun _ hstage => by cases hstage).abandoned hd (hat (.inr rfl))
  | crash hd =>
    rw [show List.filterMap Task.took? _ = [] from rfl, List.append_nil]
    exact (hset fun _ hstage => by cases hstage).abandoned hd (hat (.inr rfl))
  | @part _ _ ending backoff w closed hd =>
    rw [show List.filterMap Task.took? _ = [] from rfl, List.append_nil]
    have hstage : ∀ stage, (Worker.Phase.ended (w.result ending backoff closed) : Worker.Phase β).stage = stage →
        stage ≠ .broken → ending.stage = stage := fun stage h hne =>
      (stage_result (h ▸ hne)).symm.trans h
    -- A worker that has closed its queue is drained or broken, and so it stays, unless the connection fails.
    refine (hset fun _ h => .inl (hstage _ h fun hne => by cases hne)).abandoned hd (hat ?_)
    by_cases hbroken : (Worker.Phase.ended (w.result ending backoff closed) : Worker.Phase β).stage = .broken
    · exact .inr hbroken
    · rw [stage_result hbroken]
      exact stage_ne_serving ending

/-- A worker at another queue does not matter. -/
theorem Flow.move_of_ne {sending forced : Bool} {fails : Failure → Prop} {c d : Channel β}
    (hf : Flow dedicated k phases exhausted q sent taken) (hp : phases[i]? = some p) (hk : channelIndex dedicated i ≠ k)
    (h : Worker.Move sending forced fails i p c p' d) : Flow dedicated k (phases.set i p') exhausted q sent taken :=
  hf.set hp h.broken fun h => absurd h hk

/-- A batch is handed on. -/
theorem Flow.handOn (hf : Flow dedicated k phases false q sent taken) (hclosed : q.closed = false) (b : β) :
    Flow dedicated k phases false { q with items := q.items ++ [b] } (sent ++ [b]) taken where
  split := by
    obtain ⟨lost, hsplit, hlost⟩ := hf.split
    have hnil : lost = [] := by
      cases lost with
      | nil => rfl
      | cons a lost =>
        have := (hlost nofun).1
        rw [hclosed] at this
        cases this
    exact ⟨[], by simp [hsplit, hnil], fun h => absurd rfl h⟩
  drained h := by
    have hover := (hf.drained h).2
    rw [hclosed, hf.ended] at hover
    cases hover
  closed h := by
    rw [hclosed] at h
    cases h
  ended := hf.ended

/-- The scan comes to its end. -/
theorem Flow.finish (hf : Flow dedicated k phases exhausted q sent taken) :
    Flow dedicated k phases true q.finish sent taken where
  split := hf.split
  drained h := ⟨(hf.drained h).1, Bool.or_true _⟩
  closed h := (hf.closed h).imp (fun h => ⟨rfl, h.2⟩) id
  ended := rfl

/-- What was taken out is the first part of what was handed on. -/
theorem Flow.taken_isPrefix (hf : Flow dedicated k phases exhausted q sent taken) : taken <+: sent := by
  obtain ⟨lost, hsplit, -⟩ := hf.split
  exact ⟨q.items ++ lost, by rw [hsplit, List.append_assoc]⟩

/-- Once all workers at the queue have found it drained, all that was handed on was taken out. -/
theorem Flow.taken_eq (hf : Flow dedicated k phases exhausted q sent taken) (hdrained : At .drained dedicated k phases)
    (hbroken : ¬At .broken dedicated k phases) : taken = sent := by
  obtain ⟨lost, hsplit, hlost⟩ := hf.split
  have hnil : lost = [] := by
    cases lost with
    | nil => rfl
    | cons a lost => exact absurd (hlost nofun).2.2 hbroken
  rw [hsplit, (hf.drained hdrained).1, hnil]
  simp

end
end Run
end IngestBench
