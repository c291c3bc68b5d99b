import IngestBench.Proofs.Lines

/-! What workers can still do once a stop is forced: each starts at most one more attempt at a batch, and takes at most
    one more batch out of its queue, if it was waiting there; and it has few moves left. -/

namespace IngestBench

variable {σ π β ν : Type}

/-! ### What is left to do -/

namespace Retry.Phase

/-- How many calls of the store are still to come, once a stop is forced. A pause that is over may end before the stop
    is seen. -/
def callsLeft : Phase → Nat
  | .charging _ => 1
  | .throttled _ _ => 1
  | .sleeping _ _ => 1
  | _ => 0

/-- How many moves are still to come, once a stop is forced. -/
def movesLeft : Phase → Nat
  | .sleeping _ _ => 8
  | .charging _ => 7
  | .throttled _ _ => 6
  | .calling _ => 5
  | .telling _ => 4
  | .pausing _ => 3
  | .settling _ => 2
  | .settled _ => 1

end Retry.Phase

namespace Worker.Phase

/-- How many calls of the store are still to come, once a stop is forced. -/
def callsLeft : Phase β → Nat
  | .waiting => 1
  | .sending _ a => a.callsLeft
  | _ => 0

/-- How many batches are still to be taken, once a stop is forced. A worker that waits may find a batch before it sees
    the stop. -/
def takesLeft : Phase β → Nat
  | .waiting => 1
  | _ => 0

/-- How many batches are still to be counted or given up, once a stop is forced. -/
def batchesLeft : Phase β → Nat
  | .waiting => 1
  | .sending _ _ => 1
  | _ => 0

/-- How many moves are still to come, once a stop is forced. -/
def movesLeft : Phase β → Nat
  | .waiting => 12
  | .sending _ a => a.movesLeft + 4
  | .joining => 5
  | .choosing => 4
  | .leaving _ => 3
  | .closing _ => 2
  | .parting _ _ => 1
  | .ended _ => 0

end Worker.Phase

/-- What a worker that was in phase `p` can have done in so many moves until it is in phase `q`, while a stop is
    forced. -/
structure Curbed (p : Worker.Phase β) (moves : Nat) (tasks : List (Task β)) (q : Worker.Phase β) : Prop where
  moves : moves + q.movesLeft ≤ p.movesLeft
  calls : (tasks.filterMap Task.attempted?).length + q.callsLeft ≤ p.callsLeft
  takes : (tasks.filterMap Task.took?).length + q.takesLeft ≤ p.takesLeft
  batches : (tasks.filterMap Task.delivered?).length + (tasks.filterMap Task.gaveUp?).length + q.batchesLeft ≤
    p.batchesLeft
  /-- A batch is taken first, or not at all. -/
  rest : (tasks.drop 1).filterMap Task.took? = []
  begun : tasks ≠ [] → q.takesLeft = 0

section
variable {sending : Bool} {fails : Failure → Prop} {i : Nat} {p q r : Worker.Phase β} {c d : Run.Channel β}
  {m n : Nat} {tasks more : List (Task β)}

theorem Curbed.refl (p : Worker.Phase β) : Curbed p 0 [] p :=
  ⟨by simp, by simp, by simp, by simp, rfl, fun h => absurd rfl h⟩

theorem Curbed.trans (h : Curbed p m tasks q) (h' : Curbed q n more r) : Curbed p (m + n) (tasks ++ more) r := by
  obtain ⟨hmoves, hcalls, htakes, hbatches, hrest, hbegun⟩ := h
  obtain ⟨hmoves', hcalls', htakes', hbatches', hrest', hbegun'⟩ := h'
  refine ⟨by omega, ?_, ?_, ?_, ?_, fun hne => ?_⟩
  · rw [List.filterMap_append, List.length_append]
    omega
  · rw [List.filterMap_append, List.length_append]
    omega
  · simp only [List.filterMap_append, List.length_append]
    omega
  · cases tasks with
    | nil => exact hrest'
    | cons task tasks =>
      have hnone : more.filterMap Task.took? = [] := by
        have := hbegun (List.cons_ne_nil _ _)
        exact List.eq_nil_of_length_eq_zero (by omega)
      rw [List.cons_append, List.drop_succ_cons, List.drop_zero, List.filterMap_append, hnone, List.append_nil]
      exact hrest
  · cases tasks with
    | nil => exact hbegun' (by simpa using hne)
    | cons task tasks =>
      have := hbegun (List.cons_ne_nil _ _)
      omega

theorem Curbed.no_take (h : Curbed p m tasks q) {front back : List (Task β)} {task : Task β}
    (htasks : tasks = front ++ task :: back) : back.filterMap Task.took? = [] := by
  have hrest := h.rest
  subst htasks
  cases front with
  | nil => exact hrest
  | cons first front =>
    rw [List.cons_append, List.drop_succ_cons, List.drop_zero, List.filterMap_append, List.append_eq_nil_iff] at hrest
    cases task with
    | took b => cases hrest.2
    | _ => exact hrest.2

theorem Worker.Phase.left_le (p : Worker.Phase β) :
    p.callsLeft ≤ 1 ∧ p.takesLeft ≤ 1 ∧ p.batchesLeft ≤ 1 ∧ p.movesLeft ≤ 12 := by
  cases p with
  | sending b a =>
    cases a <;> simp [callsLeft, takesLeft, batchesLeft, movesLeft, Retry.Phase.callsLeft, Retry.Phase.movesLeft]
  | _ => simp [callsLeft, takesLeft, batchesLeft, movesLeft]

theorem Retry.Move.curbed {a a' : Retry.Phase} {b : β} (h : Retry.Move true fails a a') :
    a'.movesLeft < a.movesLeft ∧ ((a.tasks b a').filterMap Task.attempted?).length + a'.callsLeft ≤ a.callsLeft ∧
      (a.tasks b a').filterMap Task.took? = [] ∧ (a.tasks b a').filterMap Task.delivered? = [] ∧
      (a.tasks b a').filterMap Task.gaveUp? = [] := by
  cases h with
  | pause h => cases h
  | @settle result => cases result <;> exact ⟨Nat.lt_add_one 1, Nat.le_refl _, rfl, rfl, rfl⟩
  | _ => exact ⟨by simp [Phase.movesLeft], by simp [Phase.tasks, Phase.callsLeft], rfl, rfl, rfl⟩

/-- Each move brings a worker closer to its end. -/
theorem Worker.Move.curbed (h : Worker.Move sending true fails i p c q d) : Curbed p 1 (p.tasks q) q := by
  cases h with
  -- A forced stop lets no worker wait again.
  | wait h => cases h
  | @attempt _ b a a' h =>
    obtain ⟨hmoves, hcalls, htakes, hdelivered, hgaveUp⟩ := h.curbed (b := b)
    refine ⟨?_, hcalls, ?_, ?_, ?_, fun _ => rfl⟩
    · simp only [Phase.movesLeft]
      omega
    · simp only [Phase.tasks, htakes]
      exact Nat.le_refl _
    · simp only [Phase.tasks, hdelivered, hgaveUp]
      exact Nat.le_refl _
    · simp only [Phase.tasks]
      refine List.filterMap_eq_nil_iff.2 fun task htask => ?_
      exact List.filterMap_eq_nil_iff.1 htakes task (List.mem_of_mem_drop htask)
  | @take _ b rest =>
    cases sending with
    | true => exact ⟨by simp [Phase.movesLeft, Retry.Phase.first, Retry.Phase.movesLeft], Nat.le_refl _, Nat.le_refl _,
        Nat.le_refl _, rfl, fun _ => rfl⟩
    | false => exact ⟨by simp [Phase.movesLeft, Retry.Phase.movesLeft], Nat.zero_le _, Nat.le_refl _,
        Nat.le_refl _, rfl, fun _ => rfl⟩
  | deliver | giveUp | crash _ =>
    exact ⟨by simp [Phase.movesLeft, Retry.Phase.movesLeft], Nat.le_refl _, Nat.le_refl _, Nat.le_refl _, rfl,
      fun _ => rfl⟩
  | drain _ _ _ | interrupt _ | begin | reject _ | stop _ | close _ | sum | part _ =>
    exact ⟨by simp [Phase.movesLeft], Nat.zero_le _, Nat.zero_le _, Nat.zero_le _, rfl, fun _ => rfl⟩

end

/-! ### All workers -/

namespace Run

/-- How many moves a worker makes. -/
def movesOf (i : Nat) (events : List Event) : Nat := events.countP (·.worker? == some i)

theorem movesOf_append_singleton (i : Nat) (events : List Event) (event : Event) :
    movesOf i (events ++ [event]) = movesOf i events + if event.worker? = some i then 1 else 0 := by
  simp [movesOf, List.countP_append, List.countP_singleton]

section
variable [Batch β π] {plan : Plan σ π} {event : Event} {events : List Event} {log : Log π β} {s t : State σ π β ν}

theorem Worked.isForced {i : Nat} {p q : Worker.Phase β} (h : Worked plan event i p q s t) : t.isForced = s.isForced := by
  rw [State.isForced, h.stopping, State.isForced]

theorem Scanned.isForced (h : Scanned plan s t) : t.isForced = s.isForced := by
  rw [State.isForced, State.isForced, h.kept.stopping]

/-- A worker moves as a forced stop lets it. -/
theorem Worked.curbed {before : List Event} {done : Log π β} {i : Nat} {p q : Worker.Phase β}
    (h : Worked plan event i p q s t) (hl : Ledger plan before done s) (hforced : s.isForced = true) :
    Curbed p 1 (p.tasks q) q := by
  have hi : i < s.phases.length := (List.getElem?_eq_some_iff.1 h.phase).1
  obtain ⟨d, hmove, -⟩ := h.move _ (List.getElem?_eq_getElem (hl.wired i hi))
  rw [hforced] at hmove
  exact hmove.curbed

/-- A forced stop stays in force, and all that workers do from then on is what it lets them do. -/
theorem curbed_of_course [Quantity ν] {source : σ} {workers capacity : Nat} {bucket : Option (TokenBucket ν)}
    {stopping : Stopping} {before : List Event} {done : Log π β}
    (hs : Course plan (first plan source workers capacity bucket stopping) before done s) (hforced : s.isForced = true)
    (h : Course plan s events log t) : t.isForced = true ∧ ∀ (i : Nat) (p : Worker.Phase β), s.phases[i]? = some p →
      ∃ q, t.phases[i]? = some q ∧ Curbed p (movesOf i events) (log.tasks i) q := by
  induction h with
  | start => exact ⟨hforced, fun i p hp => ⟨p, hp, .refl p⟩⟩
  | @next events log u v event hcourse hstep ih =>
    obtain ⟨hu, hall⟩ := ih
    cases turn_of_step hstep with
    | quiet hworker hquiet hdeeds =>
      refine ⟨hquiet.forced hu, fun i p hp => ?_⟩
      rw [hquiet.phases, movesOf_append_singleton, hworker, hdeeds, List.append_nil]
      exact hall i p hp
    | scan hworker hscanned hdeeds =>
      refine ⟨hscanned.isForced.trans hu, fun i p hp => ?_⟩
      rw [hscanned.phases, movesOf_append_singleton, hworker, hdeeds, Log.tasks_append, tasks_of_works works_scanDeeds,
        List.append_nil]
      exact hall i p hp
    | worker j p' q' hworker hworked hdeeds =>
      refine ⟨hworked.isForced.trans hu, fun i p hp => ?_⟩
      obtain ⟨q, hq, hcurbed⟩ := hall i p hp
      rw [hworked.phases, movesOf_append_singleton, hworker, hdeeds, ← worksOf, Log.tasks_append, tasks_worksOf]
      by_cases hij : j = i
      · subst hij
        have hj : j < u.phases.length := (List.getElem?_eq_some_iff.1 hq).1
        have hsame : q = p' := Option.some.inj (hq.symm.trans hworked.phase)
        subst hsame
        refine ⟨q', by rw [List.getElem?_set_self hj], ?_⟩
        rw [if_pos rfl, if_pos rfl]
        exact hcurbed.trans (hworked.curbed (ledger_of_course (hs.trans hcourse)) hu)
      · have hne : some j ≠ some i := fun h => hij (Option.some.inj h)
        rw [List.getElem?_set_ne hij, if_neg hij, if_neg hne, List.append_nil]
        exact ⟨q, hq, hcurbed⟩

end
end Run
end IngestBench
