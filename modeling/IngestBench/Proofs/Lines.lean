import IngestBench.Proofs.Ledger

/-! The lines for the queues. Who stands in line for a queue waits for a batch there, or is about to close it; and who
    does either stands in line. -/

namespace IngestBench

/-- Whether a worker stands in line for its queue. -/
@[simp] def Worker.Phase.inLine {β : Type} : Phase β → Bool
  | .waiting => true
  | .leaving _ => true
  | _ => false

namespace Run

variable {σ π β ν : Type}

/-! ### One line -/

namespace Channel

variable {c d : Channel β} {i j : Nat}

theorem mem_enter : j ∈ (c.enter i).line ↔ j ∈ c.line ∨ j = i := by simp [enter]

theorem mem_leave : j ∈ (c.leave i).line ↔ j ∈ c.line ∧ j ≠ i := by simp [leave]

theorem Abandoned.line (h : c.Abandoned d) : d.line = c.line := by
  rcases h with rfl | rfl <;> rfl

end Channel

/-- A move changes the place of the worker that makes it, and of no one else. -/
theorem mem_line_of_move {sending forced : Bool} {fails : Failure → Prop} {i : Nat} {p q : Worker.Phase β}
    {c d : Channel β} (h : Worker.Move sending forced fails i p c q d) (hi : i ∈ c.line ↔ p.inLine = true) (j : Nat) :
    j ∈ d.line ↔ if j = i then q.inLine = true else j ∈ c.line := by
  have hsame : q.inLine = p.inLine → d.line = c.line → (j ∈ d.line ↔ if j = i then q.inLine = true else j ∈ c.line) :=
    fun hq hd => by
      rw [hq, hd]
      split
      · next hj => rw [hj, hi]
      · exact Iff.rfl
  cases h with
  | begin | attempt _ | deliver | sum => exact hsame rfl rfl
  | reject hd | crash hd | part hd => exact hsame rfl hd.line
  | stop _ | wait _ | giveUp =>
    rw [Channel.mem_enter]
    by_cases hj : j = i <;> simp [hj]
  | take _ _ =>
    rw [Channel.mem_leave]
    by_cases hj : j = i <;> simp [hj]
  | drain _ _ _ | interrupt _ =>
    rw [Channel.mem_enter, Channel.mem_leave]
    by_cases hj : j = i <;> simp [hj]
  | close _ =>
    rw [Channel.mem_leave]
    by_cases hj : j = i <;> simp [hj]

/-- Who stands in line and moves leaves the place, and may go to the end of the line. -/
theorem line_of_move {sending forced : Bool} {fails : Failure → Prop} {i : Nat} {p q : Worker.Phase β}
    {c d : Channel β} (h : Worker.Move sending forced fails i p c q d) (hp : p.inLine = true) :
    ∃ last, d.line = c.line.filter (· != i) ++ last := by
  cases h with
  | take _ _ | close _ => exact ⟨[], (List.append_nil _).symm⟩
  | drain _ _ _ | interrupt _ => exact ⟨[i], rfl⟩
  | _ => cases hp

/-! ### All lines -/

section
variable [Batch β π] {plan : Plan σ π} {event : Event} {events : List Event} {log : Log π β} {s t : State σ π β ν}

/-- In line for a queue stand those of its workers who wait or leave. -/
def Lined (plan : Plan σ π) (s : State σ π β ν) : Prop :=
  ∀ (k : Nat) (c : Channel β), s.channels[k]? = some c → ∀ j,
    j ∈ c.line ↔ channelIndex plan.dedicated j = k ∧ ∃ p, s.phases[j]? = some p ∧ p.inLine = true

/-- The scan has no part in the lines; it neither closes a queue nor changes its room. -/
theorem Scanned.channel (h : Scanned plan s t) {k : Nat} {d : Channel β} (hd : t.channels[k]? = some d) :
    ∃ c, s.channels[k]? = some c ∧ d.line = c.line ∧ d.queue.closed = c.queue.closed ∧
      d.queue.capacity = c.queue.capacity := by
  have hset : ∀ (u : State σ π β ν) (scan : Scan σ π β), (u.setScan scan).channels[k]? = some d →
      ∃ c, u.channels[k]? = some c ∧ d.line = c.line ∧ d.queue.closed = c.queue.closed ∧
        d.queue.capacity = c.queue.capacity := fun u scan hd => by
    rw [State.setScan_channels] at hd
    split at hd
    · rw [List.getElem?_map, Option.map_eq_some_iff] at hd
      obtain ⟨c, hc, rfl⟩ := hd
      exact ⟨c, hc, rfl, rfl, rfl⟩
    · exact ⟨d, hd, rfl, rfl, rfl⟩
  cases h with
  | moved scan pool _ _ ht =>
    subst ht
    exact hset { s with pool } scan hd
  | turnedAway j b c _ _ _ ht =>
    subst ht
    exact hset _ _ hd
  | handed j b c _ hc _ ht =>
    subst ht
    obtain ⟨c', hc', hsame⟩ := hset _ _ hd
    simp only [State.setChannel, List.getElem?_set] at hc'
    split at hc'
    · next hj =>
      split at hc'
      · cases hc'
        exact ⟨c, hj ▸ hc, hsame⟩
      · cases hc'
    · exact ⟨c', hc', hsame⟩

theorem Lined.worked {i : Nat} {p q : Worker.Phase β} (hs : Lined plan s) (hl : Ledger plan events log s)
    (h : Worked plan event i p q s t) : Lined plan t := by
  have hi : i < s.phases.length := (List.getElem?_eq_some_iff.1 h.phase).1
  obtain ⟨c, hc⟩ : ∃ c, s.channels[channelIndex plan.dedicated i]? = some c :=
    ⟨_, List.getElem?_eq_getElem (hl.wired i hi)⟩
  obtain ⟨d, hmove, hchannels⟩ := h.move c hc
  have hplace : i ∈ c.line ↔ p.inLine = true := by
    rw [hs _ _ hc]
    simp [h.phase]
  intro k e he j
  rw [hchannels, List.getElem?_set] at he
  rw [h.phases, List.getElem?_set]
  split at he
  · next hk =>
    subst hk
    split at he
    · cases he
      rw [mem_line_of_move hmove hplace]
      by_cases hj : j = i
      · simp [hj, hi]
      · rw [if_neg hj, if_neg (Ne.symm hj)]
        exact hs _ _ hc j
    · cases he
  · next hk =>
    rw [hs k e he]
    by_cases hj : j = i
    · subst hj
      simp [hk]
    · rw [if_neg (Ne.symm hj)]

theorem lined_of_course [Quantity ν] {source : σ} {workers capacity : Nat} {bucket : Option (TokenBucket ν)}
    {stopping : Stopping} (h : Course plan (first plan source workers capacity bucket stopping) events log s) :
    Lined plan s := by
  induction h with
  | start =>
    intro k c hc j
    rw [channels_first] at hc
    cases List.eq_of_mem_replicate (List.mem_of_getElem? hc)
    refine ⟨fun h => (List.not_mem_nil h).elim, fun ⟨_, p, hp, hline⟩ => ?_⟩
    rw [phases_first] at hp
    cases List.eq_of_mem_replicate (List.mem_of_getElem? hp)
    cases hline
  | next hcourse hstep ih =>
    cases turn_of_step hstep with
    | quiet _ hquiet _ =>
      intro k c hc j
      rw [hquiet.channels] at hc
      rw [hquiet.phases]
      exact ih k c hc j
    | scan _ hscanned _ =>
      intro k d hd j
      obtain ⟨c, hc, hline, -⟩ := hscanned.channel hd
      rw [hline, hscanned.phases]
      exact ih k c hc j
    | worker i p q _ hworked _ => exact ih.worked (ledger_of_course hcourse) hworked

end
end Run
end IngestBench
