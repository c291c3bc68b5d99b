import IngestBench.Proofs.Turns

/-! The books of a worker: each batch that it took is delivered, in hand, or given up. A worker is serving until it
    finds its queue drained or breaks off; whoever still serves, or found the queue drained, has given nothing up. -/

namespace IngestBench

variable {β : Type}

/-! ### Stages -/

/-- How a worker stands to its queue. -/
inductive Stage
  /-- Takes batches out. -/
  | serving
  /-- Has found that nothing is left, and that nothing will come. -/
  | drained
  /-- Has turned away for another reason. -/
  | broken
  deriving DecidableEq

def Ending.stage : Ending → Stage
  | .drained => .drained
  | .stopped => .broken
  | .failed _ => .broken

namespace Worker.Phase

def stage : Phase β → Stage
  | .leaving ending => ending.stage
  | .closing ending => ending.stage
  | .parting ending _ => ending.stage
  | .ended (.ok report) => if report.cancelled then .broken else .drained
  | .ended (.error _) => .broken
  | _ => .serving

/-- The batch that a worker has in hand. -/
@[simp] def inHand : Phase β → List β
  | .sending b _ => [b]
  | _ => []

/-- The batch in hand, once the store has accepted it. -/
@[simp] def accepted : Phase β → List β
  | .sending b (.settling (.accepted _)) => [b]
  | .sending b (.settled (.accepted _)) => [b]
  | _ => []

/-- Whether a worker breaks off because of a stop. -/
def stops : Phase β → Bool
  | .sending _ (.settling (.refused fault)) => fault.toFailure.isCancelled
  | .sending _ (.settled (.refused fault)) => fault.toFailure.isCancelled
  | .leaving ending => ending == .stopped
  | .closing ending => ending == .stopped
  | .parting ending _ => ending == .stopped
  | .ended (.ok report) => report.cancelled
  | _ => false

end Worker.Phase

section
variable {sending forced : Bool} {fails : Failure → Prop} {i : Nat} {p q : Worker.Phase β} {c d : Run.Channel β}

theorem stage_result {w : Worker β} {ending : Ending} {backoff : BackoffSummary} {closed : Except Failure Unit}
    (h : (Worker.Phase.ended (w.result ending backoff closed) : Worker.Phase β).stage ≠ .broken) :
    (Worker.Phase.ended (w.result ending backoff closed) : Worker.Phase β).stage = ending.stage := by
  cases ending <;> cases closed <;> first | rfl | exact absurd rfl h

theorem stops_result (w : Worker β) (ending : Ending) (backoff : BackoffSummary) (closed : Except Failure Unit)
    (h : (Worker.Phase.ended (w.result ending backoff closed) : Worker.Phase β).stops = true) : ending = .stopped := by
  cases ending <;> cases closed <;> first | rfl | cases h

/-- A worker that has broken off does not come back. -/
theorem Worker.Move.broken (h : Worker.Move sending forced fails i p c q d) (hp : p.stage = .broken) :
    q.stage = .broken := by
  cases h with
  | part => exact Decidable.byContradiction fun hq => hq ((stage_result hq).trans hp)
  | close => exact hp
  | sum => exact hp
  | _ => cases hp

/-- A worker has a reason to stop: a forced stop is in force, or the store answers that it was cancelled. -/
theorem Worker.Move.stops (h : Worker.Move sending forced fails i p c q d) (hq : q.stops = true) :
    p.stops = true ∨ forced = true ∨ ∃ f, fails f ∧ f.isCancelled = true := by
  cases h with
  | stop hforced => exact .inr (.inl hforced)
  | interrupt hforced => exact .inr (.inl hforced)
  | attempt h =>
    cases h with
    | refuse hfails => exact .inr (.inr ⟨_, hfails, hq⟩)
    | cancel hforced => exact .inr (.inl hforced)
    | cutShort hforced => exact .inr (.inl hforced)
    | @settle result => exact .inl (by cases result <;> exact hq)
    | _ => cases hq
  | @giveUp _ _ fault =>
    refine .inl ?_
    show fault.toFailure.isCancelled = true
    by_cases h : fault.toFailure.isCancelled = true
    · exact h
    · simp only [h] at hq
      cases hq
  | close => exact .inl hq
  | sum => exact .inl hq
  | part =>
    refine .inl ?_
    rw [stops_result _ _ _ _ hq]
    rfl
  | take =>
    revert hq
    split <;> exact fun hq => by cases hq
  | _ => cases hq

/-- A worker is done because it finds its queue drained. -/
theorem Worker.Move.drained (h : Worker.Move sending forced fails i p c q d) (hq : q.stage = .drained) :
    p.stage = .drained ∨ Task.drained ∈ p.tasks q := by
  cases h with
  | drain => exact .inr (List.mem_singleton_self _)
  | close | sum => exact .inl hq
  | part => exact .inl ((stage_result fun h => by rw [hq] at h; cases h).symm.trans hq)
  | giveUp =>
    simp only [Worker.Phase.stage] at hq
    split at hq <;> cases hq
  | _ => cases hq

end

/-! ### Books -/

/-- What a worker has done, when it is in a phase. -/
structure Books (sending : Bool) (tasks : List (Task β)) (p : Worker.Phase β) : Prop where
  taken : tasks.filterMap Task.took? = tasks.filterMap Task.delivered? ++ p.inHand ++ tasks.filterMap Task.gaveUp?
  stored : sending = true → tasks.filterMap Task.stored? = tasks.filterMap Task.delivered? ++ p.accepted
  /-- Where batches are only counted, the store is not asked. -/
  counted : sending = false → tasks.filterMap Task.stored? = [] ∧
    ∀ b a, p = .sending b a → ∃ n, a = .settled (.accepted n)
  kept : p.stage ≠ .broken → tasks.filterMap Task.gaveUp? = []
  drained : p.stage = .drained → Task.drained ∈ tasks

theorem books_joining (sending : Bool) : Books sending [] (.joining : Worker.Phase β) :=
  ⟨rfl, fun _ => rfl, fun _ => ⟨rfl, nofun⟩, fun _ => rfl, nofun⟩

section
variable {sending forced : Bool} {fails : Failure → Prop} {tasks : List (Task β)}

/-- Attempts change nothing but what the store has accepted. -/
theorem Books.attempt {b : β} {a a' : Retry.Phase} (hb : Books sending tasks (.sending b a))
    (h : Retry.Move forced fails a a') : Books sending (tasks ++ a.tasks b a') (.sending b a') := by
  obtain ⟨htaken, hstored, hcounted, hkept, -⟩ := hb
  have hgaveUp : tasks.filterMap Task.gaveUp? = [] := hkept fun h => by cases h
  have hsame : ∀ {x x' : Retry.Phase}, x.tasks b x' = [] → tasks ++ x.tasks b x' = tasks := fun h => by
    rw [h, List.append_nil]
  have hsettled : sending = false → ∃ n, a = .settled (.accepted n) := fun hs => (hcounted hs).2 b a rfl
  cases h with
  | call | release | accept =>
    refine ⟨by simpa [Retry.Phase.tasks, List.filterMap_cons] using htaken, fun hs => ?_, fun hs => ?_,
      fun _ => by simpa [Retry.Phase.tasks, List.filterMap_cons] using hgaveUp, fun h => by cases h⟩
    · simpa [Retry.Phase.tasks, List.filterMap_cons] using hstored hs
    · obtain ⟨n, hn⟩ := hsettled hs
      cases hn
  | @settle result =>
    rw [hsame rfl]
    refine ⟨htaken, fun hs => by cases result <;> exact hstored hs, fun hs => ?_, fun _ => hgaveUp, fun h => by cases h⟩
    obtain ⟨n, hn⟩ := hsettled hs
    cases hn
  | refuse | exhaust | pushBack | tell | pause | cancel | cutShort | wake | throttle | overflow =>
    rw [hsame rfl]
    refine ⟨htaken, hstored, fun hs => ?_, fun _ => hgaveUp, fun h => by cases h⟩
    obtain ⟨n, hn⟩ := hsettled hs
    cases hn

/-- Each move of a worker keeps its books. -/
theorem Books.move {i : Nat} {p q : Worker.Phase β} {c d : Run.Channel β} (hb : Books sending tasks p)
    (h : Worker.Move sending forced fails i p c q d) : Books sending (tasks ++ p.tasks q) q := by
  have hb' := hb
  obtain ⟨htaken, hstored, hcounted, hkept, hdrained⟩ := hb
  have hdrained : q.stage = .drained → Task.drained ∈ tasks ++ p.tasks q := fun hq => by
    rcases h.drained hq with hp | htask
    · exact List.mem_append_left _ (hdrained hp)
    · exact List.mem_append_right _ htask
  cases h with
  -- These moves have no part in what becomes of batches.
  | begin | stop | wait | interrupt | reject | close | sum =>
    refine ⟨by simpa [Worker.Phase.tasks] using htaken, fun hs => by simpa [Worker.Phase.tasks] using hstored hs,
      fun hs => ⟨by simpa [Worker.Phase.tasks] using (hcounted hs).1, fun _ _ h => by cases h⟩, fun hq => ?_, hdrained⟩
    first
    | exact absurd rfl hq
    | simpa [Worker.Phase.tasks] using hkept hq
  | part =>
    refine ⟨by simpa [Worker.Phase.tasks] using htaken, fun hs => by simpa [Worker.Phase.tasks] using hstored hs,
      fun hs => ⟨by simpa [Worker.Phase.tasks] using (hcounted hs).1, fun _ _ h => by cases h⟩, fun hq => ?_, hdrained⟩
    simpa [Worker.Phase.tasks] using hkept fun h => hq ((stage_result hq).trans h)
  | @take _ b rest =>
    have hgaveUp : tasks.filterMap Task.gaveUp? = [] := hkept fun h => by cases h
    refine ⟨?_, fun hs => ?_, fun hs => ⟨?_, fun b' a' h => ?_⟩, fun _ => ?_, hdrained⟩
    · simpa [Worker.Phase.tasks, List.filterMap_cons, hgaveUp] using htaken
    · rw [hs]
      simpa [Worker.Phase.tasks, List.filterMap_cons, Retry.Phase.first] using hstored hs
    · simpa [Worker.Phase.tasks, List.filterMap_cons] using (hcounted hs).1
    · rw [hs] at h
      cases h
      exact ⟨0, rfl⟩
    · simpa [Worker.Phase.tasks, List.filterMap_cons] using hgaveUp
  | drain =>
    have hgaveUp : tasks.filterMap Task.gaveUp? = [] := hkept fun h => by cases h
    refine ⟨?_, fun hs => ?_, fun hs => ⟨?_, fun _ _ h => by cases h⟩, fun _ => ?_, hdrained⟩
    · simpa [Worker.Phase.tasks, List.filterMap_cons] using htaken
    · simpa [Worker.Phase.tasks, List.filterMap_cons] using hstored hs
    · simpa [Worker.Phase.tasks, List.filterMap_cons] using (hcounted hs).1
    · simpa [Worker.Phase.tasks, List.filterMap_cons] using hgaveUp
  | attempt h => exact hb'.attempt h
  | deliver =>
    have hgaveUp : tasks.filterMap Task.gaveUp? = [] := hkept fun h => by cases h
    refine ⟨?_, fun hs => ?_, fun hs => ⟨?_, fun _ _ h => by cases h⟩, fun _ => ?_, hdrained⟩
    · simpa [Worker.Phase.tasks, List.filterMap_cons, hgaveUp] using htaken
    · simpa [Worker.Phase.tasks, List.filterMap_cons] using hstored hs
    · simpa [Worker.Phase.tasks, List.filterMap_cons] using (hcounted hs).1
    · simpa [Worker.Phase.tasks, List.filterMap_cons] using hgaveUp
  | giveUp =>
    have hgaveUp : tasks.filterMap Task.gaveUp? = [] := hkept fun h => by cases h
    refine ⟨?_, fun hs => ?_, fun hs => ⟨?_, fun _ _ h => by cases h⟩, fun hq => ?_, hdrained⟩
    · simpa [Worker.Phase.tasks, List.filterMap_cons, hgaveUp] using htaken
    · simpa [Worker.Phase.tasks, List.filterMap_cons] using hstored hs
    · simpa [Worker.Phase.tasks, List.filterMap_cons] using (hcounted hs).1
    · refine absurd ?_ hq
      simp only [Worker.Phase.stage]
      split <;> rfl
  | crash =>
    have hgaveUp : tasks.filterMap Task.gaveUp? = [] := hkept fun h => by cases h
    refine ⟨?_, fun hs => ?_, fun hs => ⟨?_, fun _ _ h => by cases h⟩, fun hq => absurd rfl hq, hdrained⟩
    · simpa [Worker.Phase.tasks, List.filterMap_cons, hgaveUp] using htaken
    · simpa [Worker.Phase.tasks, List.filterMap_cons] using hstored hs
    · simpa [Worker.Phase.tasks, List.filterMap_cons] using (hcounted hs).1

end

end IngestBench
