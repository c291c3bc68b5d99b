import IngestBench.Proofs.StopClock
import Mathlib.Logic.Relation

/-! A run as far as stops go. Who asks for a stop sets the level in force and then, in a step of its own, a flag for those
    who only look whether there is a stop; others wait for a level. Those who can act at one moment act in any order, and
    time passes only while nobody can. -/

namespace IngestBench

/-- One who waits for a level: since when, and when it went on. -/
structure StopWaiter where
  level : StopLevel
  start : Time
  woken : Option Time

/-- A request that was made, with the level that was in force before it. -/
structure StopAnswer where
  time : Time
  level : StopLevel
  inForce : Stop
  result : Except StopFault Unit

/-- The level in force with the timers, the flag, how many requests were granted and have yet to set the flag, those who
    wait, and what became of the requests until now. -/
structure StopRun where
  now : Time
  stopping : Stopping
  flag : Bool
  storing : Nat
  waiters : List StopWaiter
  answers : List StopAnswer

namespace StopRun

variable {plan : StopPlan} {waits : List (StopLevel × Time)} {r r' : StopRun} {timer : StopTimer}
  {others before after : List StopTimer} {time : Time} {a : StopAnswer}

/-- A timer makes its request; it is not among the timers any more. -/
def ask (r : StopRun) (timer : StopTimer) (others : List StopTimer) : StopRun :=
  let s : Stopping := { r.stopping with timers := others }
  let answer := s.request timer.level r.now
  { r with
    stopping := s.raise timer.level r.now
    storing := match answer with
      | .ok _ => r.storing + 1
      | .error _ => r.storing
    answers := r.answers ++ [⟨r.now, timer.level, s.level, answer.map fun _ => ()⟩] }

/-- A run before anything has happened: all timers are set, and each waiter will wait from its time on. -/
def start (plan : StopPlan) (waits : List (StopLevel × Time)) : StopRun :=
  ⟨0, plan.start, false, 0, waits.map fun (level, start) => ⟨level, start, none⟩, []⟩

/-- A timer that is due makes its request, a granted request sets the flag, one who waits goes on, or time passes, but not
    beyond what is due. -/
inductive Step : StopRun → StopRun → Prop
  | ask {r : StopRun} {before after : List StopTimer} {timer : StopTimer} {due : Time} :
    r.stopping.timers = before ++ timer :: after → timer.due? = some due → due ≤ r.now →
    Step r (r.ask timer (before ++ after))
  | store {r : StopRun} {n : Nat} : r.storing = n + 1 → Step r { r with flag := true, storing := n }
  | wake {r : StopRun} {before after : List StopWaiter} {w : StopWaiter} :
    r.waiters = before ++ w :: after → w.woken = none → w.start ≤ r.now →
    r.stopping.level.reached w.level = true →
    Step r { r with waiters := before ++ { w with woken := some r.now } :: after }
  | pass {r : StopRun} {time : Time} : r.now < time → r.storing = 0 →
    (∀ timer ∈ r.stopping.timers, ∀ due, timer.due? = some due → time ≤ due) →
    (∀ w ∈ r.waiters, w.woken = none → r.stopping.level.reached w.level = true → time ≤ w.start) →
    Step r { r with now := time }

/-- Nobody can act now. -/
structure Settled (r : StopRun) : Prop where
  stored : r.storing = 0
  timers : r.stopping.Quiet r.now
  waiters : ∀ w ∈ r.waiters, w.woken = none → w.start ≤ r.now → r.stopping.level.reached w.level = false

/-- The states that a run can come to, whoever goes first. -/
def Reachable (plan : StopPlan) (waits : List (StopLevel × Time)) : StopRun → Prop :=
  Relation.ReflTransGen Step (start plan waits)

/-! ### Requests -/

/-- A request is granted if it asks for more than is in force, and otherwise is told what is in force. -/
inductive Answered : StopAnswer → Stop → Prop
  | granted {time : Time} {level : StopLevel} {s : Stop} : s.reached level = false →
    Answered ⟨time, level, s, .ok ()⟩ (some level)
  | refused {time : Time} {level current : StopLevel} : current.covers level = true →
    Answered ⟨time, level, some current, .error (.already current)⟩ (some current)

/-- A request is granted, and the flag is still to be set, or it is refused and changes nothing. -/
theorem ask_cases (r : StopRun) (timer : StopTimer) (others : List StopTimer) :
    r.stopping.level.reached timer.level = false ∧
      r.ask timer others = { r with
        stopping := ⟨some timer.level, others.map (·.arm r.now)⟩
        storing := r.storing + 1
        answers := r.answers ++ [⟨r.now, timer.level, r.stopping.level, .ok ()⟩] } ∨
    ∃ current, r.stopping.level = some current ∧ current.covers timer.level = true ∧
      r.ask timer others = { r with
        stopping := ⟨some current, others.map (·.arm r.now)⟩
        answers := r.answers ++ [⟨r.now, timer.level, some current, .error (.already current)⟩] } := by
  have hraise (s : Stop) := Stopping.raise_eq ⟨s, others⟩ timer.level r.now
  obtain ⟨now, ⟨level, timers⟩, flag, storing, waiters, answers⟩ := r
  rcases level with _ | current
  · refine .inl ⟨rfl, ?_⟩
    simp only [ask, hraise]
    rfl
  · cases hcovers : current.covers timer.level with
    | false =>
      refine .inl ⟨hcovers, ?_⟩
      simp only [ask, hraise, Stopping.request, Stop.request, hcovers, Stop.raise_some]
      rfl
    | true =>
      refine .inr ⟨current, rfl, hcovers, ?_⟩
      simp only [ask, hraise, Stopping.request, Stop.request, hcovers, Stop.raise_some]
      rfl

/-! ### What holds of every run -/

/-- The run is as the plan has it. -/
structure Sound (plan : StopPlan) (waits : List (StopLevel × Time)) (r : StopRun) : Prop where
  follows : plan.Follows (r.answers.map fun a => (a.level, a.time)) r.now r.stopping
  flagged : r.stopping.level.isStopping = (r.flag || r.storing != 0)
  unflagged : r.flag = false → ∀ g, plan.stopAt = some g → r.now ≤ g
  answered : ∀ a ∈ r.answers, (∃ s, Answered a s) ∧ plan.InForce a.time a.inForce
  waits : r.waiters.map (fun w => (w.level, w.start)) = waits
  waiting : ∀ w ∈ r.waiters, w.woken = none → ∀ time, plan.reachedAt w.level = some time → r.now ≤ max w.start time
  woken : ∀ w ∈ r.waiters, ∀ woken, w.woken = some woken →
    ∃ time, plan.reachedAt w.level = some time ∧ woken = max w.start time ∧ woken ≤ r.now

theorem sound_start (plan : StopPlan) (waits : List (StopLevel × Time)) : Sound plan waits (start plan waits) where
  follows := .waiting fun _ _ => Nat.zero_le _
  flagged := by
    rw [start, StopPlan.start_eq]
    rfl
  unflagged _ _ _ := Nat.zero_le _
  answered _ ha := nomatch ha
  waits := by simp [start, Function.comp_def]
  waiting _ _ _ _ _ := Nat.zero_le _
  woken w hw woken hwoken := by
    obtain ⟨wait, -, rfl⟩ := List.mem_map.1 hw
    cases hwoken

theorem Sound.ask (h : Sound plan waits r) {before after : List StopTimer} {due : Time}
    (htimers : r.stopping.timers = before ++ timer :: after) (hdue : timer.due? = some due) (hle : due ≤ r.now) :
    Sound plan waits (r.ask timer (before ++ after)) := by
  have hfollows := h.follows.ask htimers hdue hle
  refine ⟨?_, ?_, h.unflagged, ?_, h.waits, h.waiting, h.woken⟩
  · simpa [StopRun.ask] using hfollows
  · rcases ask_cases r timer (before ++ after) with ⟨-, heq⟩ | ⟨current, hcurrent, -, heq⟩
    · rw [heq]
      simp [Stop.isStopping]
    · have hflagged := h.flagged
      rw [hcurrent] at hflagged
      rw [heq]
      exact hflagged
  · intro a ha
    have hbefore : plan.InForce r.now r.stopping.level := h.follows.inForce
    rcases ask_cases r timer (before ++ after) with ⟨hlower, heq⟩ | ⟨current, hcurrent, hcovers, heq⟩
    · rw [heq] at ha
      rcases List.mem_append.1 ha with ha | ha
      · exact h.answered a ha
      · obtain rfl := List.mem_singleton.1 ha
        exact ⟨⟨_, .granted hlower⟩, hbefore⟩
    · rw [heq] at ha
      rcases List.mem_append.1 ha with ha | ha
      · exact h.answered a ha
      · obtain rfl := List.mem_singleton.1 ha
        exact ⟨⟨_, .refused hcovers⟩, hcurrent ▸ hbefore⟩

theorem Sound.wake (h : Sound plan waits r) {before after : List StopWaiter} {w : StopWaiter}
    (hwaiters : r.waiters = before ++ w :: after) (hwaiting : w.woken = none) (hstart : w.start ≤ r.now)
    (hreached : r.stopping.level.reached w.level = true) :
    Sound plan waits { r with waiters := before ++ { w with woken := some r.now } :: after } := by
  have hmem : w ∈ r.waiters := hwaiters ▸ List.mem_append_right _ List.mem_cons_self
  have hcases : ∀ v ∈ before ++ { w with woken := some r.now } :: after,
      v = { w with woken := some r.now } ∨ v ∈ r.waiters := by
    intro v hv
    rw [hwaiters, List.perm_middle.mem_iff]
    exact (List.mem_cons.1 (List.perm_middle.mem_iff.1 hv)).imp_right (List.mem_cons_of_mem _)
  refine ⟨h.follows, h.flagged, h.unflagged, h.answered, ?_, ?_, ?_⟩
  · rw [← h.waits, hwaiters]
    simp
  · intro v hv hnone time htime
    rcases hcases v hv with rfl | hv
    · cases hnone
    · exact h.waiting v hv hnone time htime
  · intro v hv woken hwoken
    rcases hcases v hv with rfl | hv
    · obtain rfl := Option.some.inj hwoken
      obtain ⟨time, htime, hle⟩ := h.follows.inForce.early w.level hreached
      have hnow := h.waiting w hmem hwaiting time htime
      exact ⟨time, htime, Nat.le_antisymm hnow (Nat.max_le.2 ⟨hstart, hle⟩), Nat.le_refl _⟩
    · exact h.woken v hv woken hwoken

theorem Sound.pass (h : Sound plan waits r) (hlt : r.now < time) (hstoring : r.storing = 0)
    (htimers : ∀ timer ∈ r.stopping.timers, ∀ due, timer.due? = some due → time ≤ due)
    (hwaiters : ∀ w ∈ r.waiters, w.woken = none → r.stopping.level.reached w.level = true → time ≤ w.start) :
    Sound plan waits { r with now := time } := by
  refine ⟨h.follows.pass (Nat.le_of_lt hlt) htimers, h.flagged, ?_, h.answered, h.waits, ?_, ?_⟩
  · intro hflag g hg
    -- no grant is left to store, so that without the flag no level is in force, and the first request is still to come
    have hnone : r.stopping.level.isStopping = false := by
      rw [h.flagged, hflag, hstoring]
      rfl
    have hreached : plan.reachedAt .graceful = some g := hg
    rcases h.follows.reached_or_due hreached with hlevel | ⟨timer, htimer, due, hdue, hle⟩
    · cases hcurrent : r.stopping.level with
      | none =>
        rw [hcurrent] at hlevel
        cases hlevel
      | some current =>
        rw [hcurrent] at hnone
        cases hnone
    · exact Nat.le_trans (htimers timer htimer due hdue) hle
  · intro w hw hwaiting reached hreached
    -- what ends the wait is the start of the wait or a timer that is still set, and time passes over neither
    rcases h.follows.reached_or_due hreached with hlevel | ⟨timer, htimer, due, hdue, hle⟩
    · exact Nat.le_trans (hwaiters w hw hwaiting hlevel) (Nat.le_max_left _ _)
    · exact Nat.le_trans (Nat.le_trans (htimers timer htimer due hdue) hle) (Nat.le_max_right _ _)
  · intro w hw woken hwoken
    obtain ⟨reached, hreached, heq, hle⟩ := h.woken w hw woken hwoken
    exact ⟨reached, hreached, heq, Nat.le_trans hle (Nat.le_of_lt hlt)⟩

theorem Sound.step (h : Sound plan waits r) (hstep : Step r r') : Sound plan waits r' := by
  cases hstep with
  | ask htimers hdue hle => exact h.ask htimers hdue hle
  | store hstoring =>
    refine ⟨h.follows, ?_, nofun, h.answered, h.waits, h.waiting, h.woken⟩
    have hflagged := h.flagged
    rw [hstoring] at hflagged
    simpa using hflagged
  | wake hwaiters hwaiting hstart hreached => exact h.wake hwaiters hwaiting hstart hreached
  | pass hlt hstoring htimers hwaiters => exact h.pass hlt hstoring htimers hwaiters

theorem sound_of_reachable (h : Reachable plan waits r) : Sound plan waits r := by
  induction h with
  | refl => exact sound_start plan waits
  | tail _ hstep ih => exact ih.step hstep

/-! ### Going on -/

/-- What is still to be done; time apart, every step does some of it. -/
def weight (r : StopRun) : Nat :=
  2 * r.stopping.timers.length + r.storing + (r.waiters.filter (·.woken.isNone)).length

theorem weight_ask (r : StopRun) (htimers : r.stopping.timers = before ++ timer :: after) :
    (r.ask timer (before ++ after)).weight < r.weight := by
  rcases ask_cases r timer (before ++ after) with ⟨-, heq⟩ | ⟨current, -, -, heq⟩
  all_goals
    rw [heq]
    simp only [weight, htimers, List.length_map, List.length_append, List.length_cons]
    omega

theorem settled_or_step (r : StopRun) : r.Settled ∨ ∃ r', Step r r' ∧ r'.now = r.now ∧ r'.weight < r.weight := by
  by_cases htimer : ∃ timer ∈ r.stopping.timers, ∃ due, timer.due? = some due ∧ due ≤ r.now
  · obtain ⟨timer, hmem, due, hdue, hle⟩ := htimer
    obtain ⟨before, after, htimers⟩ := List.append_of_mem hmem
    exact .inr ⟨_, .ask htimers hdue hle, rfl, weight_ask r htimers⟩
  by_cases hwaiter : ∃ w ∈ r.waiters, w.woken = none ∧ w.start ≤ r.now ∧ r.stopping.level.reached w.level = true
  · obtain ⟨w, hmem, hwaiting, hstart, hreached⟩ := hwaiter
    obtain ⟨before, after, hwaiters⟩ := List.append_of_mem hmem
    refine .inr ⟨_, .wake hwaiters hwaiting hstart hreached, rfl, ?_⟩
    simp [weight, hwaiters, hwaiting]
  cases hstoring : r.storing with
  | succ n =>
    refine .inr ⟨_, .store hstoring, rfl, ?_⟩
    simp only [weight, hstoring]
    omega
  | zero =>
    refine .inl ⟨hstoring, fun timer hmem due hdue => ?_, fun w hw hwaiting hstart => ?_⟩
    · exact Nat.lt_of_not_le fun hle => htimer ⟨timer, hmem, due, hdue, hle⟩
    · exact Bool.eq_false_iff.2 fun hreached => hwaiter ⟨w, hw, hwaiting, hstart, hreached⟩

theorem exists_settled (r : StopRun) : ∃ r', Relation.ReflTransGen Step r r' ∧ r'.now = r.now ∧ r'.Settled := by
  induction hweight : r.weight using Nat.strongRecOn generalizing r with
  | ind n ih =>
    rcases r.settled_or_step with hsettled | ⟨next, hstep, hnow, hlt⟩
    · exact ⟨r, .refl, rfl, hsettled⟩
    · obtain ⟨r', hsteps, hnow', hsettled⟩ := ih next.weight (hweight ▸ hlt) next rfl
      exact ⟨r', .head hstep hsteps, hnow'.trans hnow, hsettled⟩

/-- Time goes on, and at every time there is a moment at which all is done that was to be done. -/
theorem exists_settled_at (r : StopRun) (h : r.now ≤ time) :
    ∃ r', Relation.ReflTransGen Step r r' ∧ r'.now = time ∧ r'.Settled := by
  obtain ⟨k, rfl⟩ := Nat.exists_eq_add_of_le h
  clear h
  induction k generalizing r with
  | zero => exact r.exists_settled
  | succ k ih =>
    -- once all is done, the least time can pass
    obtain ⟨quiet, hquiet, hnow, hsettled⟩ := r.exists_settled
    have hpass : Step quiet { quiet with now := quiet.now + 1 } := by
      refine .pass (Nat.lt_succ_self _) hsettled.stored hsettled.timers fun w hw hwaiting hreached => ?_
      refine Nat.lt_of_not_le fun hstart => ?_
      rw [hsettled.waiters w hw hwaiting hstart] at hreached
      cases hreached
    obtain ⟨r', hsteps, hnow', hsettled'⟩ := ih { quiet with now := quiet.now + 1 }
    refine ⟨r', hquiet.trans (.head hpass hsteps), ?_, hsettled'⟩
    rw [hnow']
    show quiet.now + 1 + k = r.now + (k + 1)
    rw [hnow, Nat.add_assoc, Nat.add_comm 1 k]

/-! ### The levels over time -/

/-- A step makes no request and leaves the level as it is, or it makes one, which is answered by the level in force. -/
inductive Change (r r' : StopRun) : Prop
  | still : r'.answers = r.answers → r'.stopping.level = r.stopping.level → Change r r'
  | asked (a : StopAnswer) : r'.answers = r.answers ++ [a] → a.time = r.now → a.inForce = r.stopping.level →
    Answered a r'.stopping.level → Change r r'

theorem change_of_step (h : Step r r') : Change r r' := by
  cases h with
  | @ask before after timer due htimers hdue hle =>
    rcases ask_cases r timer (before ++ after) with ⟨hlower, heq⟩ | ⟨current, hcurrent, hcovers, heq⟩
    · rw [heq]
      exact .asked _ rfl rfl rfl (.granted hlower)
    · rw [heq]
      exact .asked _ rfl rfl hcurrent.symm (.refused hcovers)
  | store => exact .still rfl rfl
  | wake => exact .still rfl rfl
  | pass => exact .still rfl rfl

theorem Change.reached (h : Change r r') {level : StopLevel} (hreached : r.stopping.level.reached level = true) :
    r'.stopping.level.reached level = true := by
  cases h with
  | still _ hlevel => rwa [hlevel]
  | asked a _ _ hinForce hanswered =>
    rw [← hinForce] at hreached
    generalize r'.stopping.level = s at hanswered
    cases hanswered with
    | granted hlower => exact Stop.reached_of_higher hlower hreached
    | refused => exact hreached

/-- The timer that goes first in a run is one of those that can. -/
theorem exists_step_of_fire {s : Stopping} (h : r.stopping.fire r.now = some s) : ∃ r', Step r r' ∧ r'.stopping = s := by
  obtain ⟨⟨timer, others⟩, htake, rfl⟩ := Option.map_eq_some_iff.1 h
  obtain ⟨before, after, due, htimers, rfl, hdue, hle⟩ := Stopping.takeDue_eq_some htake
  exact ⟨_, .ask htimers hdue hle, rfl⟩

theorem flag_of_step (h : Step r r') (hflag : r.flag = true) : r'.flag = true := by
  cases h with
  | ask => exact hflag
  | store => rfl
  | wake => exact hflag
  | pass => exact hflag

/-- Neither the flag nor a level that is reached is ever taken back. -/
theorem kept_of_steps (h : Relation.ReflTransGen Step r r') : (r.flag = true → r'.flag = true) ∧
    ∀ level, r.stopping.level.reached level = true → r'.stopping.level.reached level = true := by
  induction h with
  | refl => exact ⟨id, fun _ => id⟩
  | tail _ hstep ih =>
    obtain ⟨hflag, hreached⟩ := ih
    exact ⟨fun h => flag_of_step hstep (hflag h), fun level h => (change_of_step hstep).reached (hreached level h)⟩

/-- A run is where the plan has it; at a moment at which a level is to be reached, before or after that. -/
structure AsPlanned (plan : StopPlan) (waits : List (StopLevel × Time)) (r : StopRun) : Prop where
  level : plan.InForce r.now r.stopping.level
  level_between : (∀ level, plan.reachedAt level ≠ some r.now) → r.stopping.level = plan.levelAt r.now
  flag_early : r.flag = true → ∃ g, plan.stopAt = some g ∧ g ≤ r.now
  flag_late : ∀ g, plan.stopAt = some g → g < r.now → r.flag = true
  answered : ∀ a ∈ r.answers, (∃ s, Answered a s) ∧ plan.InForce a.time a.inForce
  waits : r.waiters.map (fun w => (w.level, w.start)) = waits
  woken : ∀ w ∈ r.waiters, ∀ woken, w.woken = some woken →
    ∃ time, plan.reachedAt w.level = some time ∧ woken = max w.start time
  waiting : ∀ w ∈ r.waiters, w.woken = none → ∀ time, plan.reachedAt w.level = some time → r.now ≤ max w.start time

/-- All is done that was to be done by now. -/
structure Done (plan : StopPlan) (r : StopRun) : Prop where
  level : r.stopping.level = plan.levelAt r.now
  flag : r.flag = plan.stopAt.any (· ≤ r.now)
  answered : ∀ g, plan.stopAt = some g → ∀ request ∈ plan.asks g, request.2 ≤ r.now →
    ∃ a ∈ r.answers, a.level = request.1 ∧ a.time = request.2
  waiting : ∀ w ∈ r.waiters, w.woken = none → ∀ time, plan.reachedAt w.level = some time → r.now < max w.start time

theorem Sound.asPlanned (h : Sound plan waits r) : AsPlanned plan waits r where
  level := h.follows.inForce
  level_between hbetween := by
    refine Stop.eq_of_reached fun level => Bool.eq_iff_iff.2 ?_
    rw [StopPlan.reached_levelAt]
    constructor
    · exact h.follows.inForce.early level
    · rintro ⟨time, htime, hle⟩
      have hne : time ≠ r.now := fun heq => hbetween level (heq ▸ htime)
      exact h.follows.inForce.late level time htime (Nat.lt_of_le_of_ne hle hne)
  flag_early hflag := by
    have hstopping := h.flagged
    rw [hflag, Bool.true_or] at hstopping
    exact h.follows.inForce.early .graceful (Stop.reached_graceful.2 hstopping)
  flag_late g hg hlt := by
    cases hflag : r.flag with
    | true => rfl
    | false => exact absurd (h.unflagged hflag g hg) (Nat.not_le.2 hlt)
  answered := h.answered
  waits := h.waits
  woken w hw woken hwoken := by
    obtain ⟨time, htime, heq, -⟩ := h.woken w hw woken hwoken
    exact ⟨time, htime, heq⟩
  waiting := h.waiting

theorem Sound.done (h : Sound plan waits r) (hsettled : r.Settled) : Done plan r := by
  obtain ⟨hlevel, hasked⟩ := h.follows.of_quiet hsettled.timers
  refine ⟨hlevel, ?_, ?_, ?_⟩
  · have hflagged := h.flagged
    rw [hsettled.stored, hlevel] at hflagged
    have hflag : r.flag = (plan.levelAt r.now).isStopping := by simpa using hflagged.symm
    rw [hflag, Bool.eq_iff_iff, ← Stop.reached_graceful, StopPlan.reached_levelAt]
    cases hg : plan.stopAt <;> simp [StopPlan.reachedAt, hg]
  · intro g hg request hrequest hle
    obtain ⟨a, ha, heq⟩ := List.mem_map.1 (hasked g hg request hrequest hle)
    exact ⟨a, ha, congrArg Prod.fst heq, congrArg Prod.snd heq⟩
  · intro w hw hwaiting time htime
    refine Nat.lt_of_le_of_ne (h.waiting w hw hwaiting time htime) fun hnow => ?_
    have hreached : r.stopping.level.reached w.level = true := by
      rw [hlevel, StopPlan.reached_levelAt]
      exact ⟨time, htime, hnow ▸ Nat.le_max_right _ _⟩
    rw [hsettled.waiters w hw hwaiting (hnow ▸ Nat.le_max_left _ _)] at hreached
    cases hreached

/-- Requests, the time for a run and the time for a stop decide together when each level is reached, and in what order
those who can act at one moment do so makes no difference. At every moment the level is that of the plan, but for the
requests of the moment, and it is exactly that of the plan when nobody can act; so is the flag. A request is granted if
it asks for more than is in force, and is told what is in force if not, and nothing that comes later lowers the level or
takes back the flag; the order in which a run takes its timers is one of those allowed here. Who waits for a level goes
on at the first moment, from the start of the wait on, at which it is reached. Every later time is come to, with all
done that was to be done by then. A simulated clock comes to a time with the level of the plan, and a wait on it ends
when its level is reached or at its limit. -/
theorem levels_by_plan (plan : StopPlan) :
    (∀ (waits : List (StopLevel × Time)) (r : StopRun), Reachable plan waits r →
      AsPlanned plan waits r ∧ (r.Settled → Done plan r) ∧
      (∀ r', Step r r' → Change r r') ∧
      (∀ r', Relation.ReflTransGen Step r r' → (r.flag = true → r'.flag = true) ∧
        ∀ level, r.stopping.level.reached level = true → r'.stopping.level.reached level = true) ∧
      (∀ s, r.stopping.fire r.now = some s → ∃ r', Step r r' ∧ r'.stopping = s) ∧
      ∀ time, r.now ≤ time → ∃ r', Relation.ReflTransGen Step r r' ∧ r'.now = time ∧ r'.Settled) ∧
    ∀ (ν : Type) (s : Rehearsal.Solo ν) (limit : Time), s.now = 0 → s.stopping = plan.start →
      ((s.sleep id limit).now = limit ∧ (s.sleep id limit).stopping.level = plan.levelAt limit) ∧
      ∀ level, (s.waitFor id level limit).1 = (plan.reachedAt level).any (· ≤ limit) ∧
        (s.waitFor id level limit).2.now = (plan.reachedAt level).elim limit (min limit) := by
  constructor
  · intro waits r h
    have hsound := sound_of_reachable h
    exact ⟨hsound.asPlanned, hsound.done, fun r' => change_of_step, fun r' => kept_of_steps,
      fun s => exists_step_of_fire, fun time => exists_settled_at r⟩
  · intro ν s limit hnow hstart
    have hfollows : plan.Follows [] s.now s.stopping := by
      rw [hstart, hnow]
      exact .waiting fun _ _ => Nat.zero_le _
    have hle : s.now ≤ limit := hnow ▸ Nat.zero_le _
    refine ⟨Rehearsal.Solo.level_of_sleep hfollows hle, fun level => ?_⟩
    have hwait := Rehearsal.Solo.waitFor_eq hfollows hle level
    rw [hnow] at hwait
    simpa only [Nat.zero_max] using hwait

/-- A stop after five and its escalation after two more, and requests for both levels between them. -/
def racePlan : StopPlan where
  settings := { RunSettings.standard 1 with maxRunTime := some ⟨5⟩, shutdownGrace := ⟨2⟩ }
  requests := [(.forced, 6), (.graceful, 6), (.graceful, 5)]

/-- The stop is in force at five and is forced at six; those who wait from the start on wake then. -/
theorem levels_by_plan_race :
    (∃ r, Reachable racePlan [(.graceful, 0), (.forced, 0)] r ∧ r.now = 6 ∧ r.stopping.level = some .forced ∧
      r.flag = true ∧ ∀ w ∈ r.waiters, w.woken = some (if w.level = .graceful then 5 else 6)) ∧
    ((Rehearsal.Solo.sleep id 5 { (Rehearsal.Solo.idle none : Rehearsal.Solo Nat) with
      stopping := racePlan.start }).stopping.level =
      some .graceful) := by
  obtain ⟨hruns, hclock⟩ := levels_by_plan racePlan
  constructor
  · obtain ⟨-, -, -, -, -, hlater⟩ := hruns [(.graceful, 0), (.forced, 0)] _ .refl
    obtain ⟨r, hsteps, hnow, hsettled⟩ := hlater 6 (Nat.zero_le _)
    obtain ⟨hplanned, hdone, -⟩ := hruns _ r hsteps
    have hlevel := (hdone hsettled).level
    have hflag := (hdone hsettled).flag
    have hwaiting := (hdone hsettled).waiting
    rw [hnow] at hlevel hflag hwaiting
    refine ⟨r, hsteps, hnow, hlevel.trans (by decide), hflag.trans (by decide), fun w hw => ?_⟩
    have hmem : (w.level, w.start) ∈ [(StopLevel.graceful, 0), (StopLevel.forced, 0)] :=
      hplanned.waits ▸ List.mem_map_of_mem hw
    have hreached : racePlan.reachedAt w.level = some (if w.level = .graceful then 5 else 6) := by
      cases w.level <;> decide
    have hstart : w.start = 0 := by
      rcases List.mem_cons.1 hmem with h | h
      · exact congrArg Prod.snd h
      · exact congrArg Prod.snd (List.mem_singleton.1 h)
    cases hwoken : w.woken with
    | none =>
      have hlate := hwaiting w hw hwoken _ hreached
      rw [hstart, Nat.zero_max] at hlate
      revert hlate
      cases w.level <;> decide
    | some woken =>
      obtain ⟨time, htime, rfl⟩ := hplanned.woken w hw woken hwoken
      rw [hreached] at htime
      obtain rfl := Option.some.inj htime
      rw [hstart, Nat.zero_max]
  · exact (hclock Nat _ 5 rfl rfl).1.2.trans (by decide)

end StopRun
end IngestBench
