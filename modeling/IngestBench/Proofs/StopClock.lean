import IngestBench.Proofs.StopSchedule
import IngestBench.Rehearsal.Solo

/-! Timers on a simulated clock, where each goes off exactly when it is due. -/

namespace IngestBench

/-! ### The next timer -/

namespace Stopping

variable {s : Stopping} {now due : Time} {timer : StopTimer} {timers others : List StopTimer}

theorem takeDue_eq_some (h : takeDue now timers = some (timer, others)) :
    ∃ before after due, timers = before ++ timer :: after ∧ others = before ++ after ∧ timer.due? = some due ∧ due ≤ now := by
  induction timers generalizing others with
  | nil => cases h
  | cons first rest ih =>
    rw [takeDue] at h
    split at h
    · rename_i hdue
      obtain ⟨rfl, rfl⟩ := Prod.mk.inj (Option.some.inj h)
      obtain ⟨due, hfirst, hle⟩ : ∃ due, first.due? = some due ∧ due ≤ now := by
        cases hfirst : first.due? with
        | none =>
          rw [hfirst] at hdue
          cases hdue
        | some due =>
          rw [hfirst] at hdue
          exact ⟨due, rfl, of_decide_eq_true hdue⟩
      exact ⟨[], rest, due, rfl, rfl, hfirst, hle⟩
    · obtain ⟨⟨found, left⟩, hfound, heq⟩ := Option.map_eq_some_iff.1 h
      obtain ⟨rfl, rfl⟩ := Prod.mk.inj heq
      obtain ⟨before, after, due, rfl, rfl, hdue, hle⟩ := ih hfound
      exact ⟨first :: before, after, due, rfl, rfl, hdue, hle⟩

theorem exists_takeDue (htimer : timer ∈ timers) (hdue : timer.due? = some due) (hle : due ≤ now) :
    ∃ found, takeDue now timers = some found := by
  induction timers with
  | nil => cases htimer
  | cons first rest ih =>
    rw [takeDue]
    split
    · exact ⟨_, rfl⟩
    · rename_i hnot
      rcases List.mem_cons.1 htimer with rfl | hrest
      · exact absurd (by simp [hdue, hle]) hnot
      · obtain ⟨found, hfound⟩ := ih hrest
        exact ⟨_, by rw [hfound]; rfl⟩

/-- When a timer is due, one that is due makes its request. -/
theorem exists_fire (htimer : timer ∈ s.timers) (hdue : timer.due? = some due) (hle : due ≤ now) :
    ∃ before first after due, s.timers = before ++ first :: after ∧ first.due? = some due ∧ due ≤ now ∧
      s.fire now = some (Stopping.raise { s with timers := before ++ after } first.level now) := by
  obtain ⟨⟨first, others⟩, htake⟩ := exists_takeDue htimer hdue hle
  obtain ⟨before, after, due, htimers, rfl, hfirst, hle⟩ := takeDue_eq_some htake
  exact ⟨before, first, after, due, htimers, hfirst, hle, by rw [fire, htake]; rfl⟩

theorem nextDue_eq_some (h : s.nextDue = some due) :
    (∃ timer ∈ s.timers, timer.due? = some due) ∧
      ∀ timer ∈ s.timers, ∀ other, timer.due? = some other → due ≤ other := by
  rw [nextDue, List.min?_eq_some_iff] at h
  obtain ⟨hmem, hleast⟩ := h
  exact ⟨List.mem_filterMap.1 hmem, fun timer htimer other hother =>
    hleast other (List.mem_filterMap.2 ⟨timer, htimer, hother⟩)⟩

theorem nextDue_of_quiet (h : s.Quiet now) (hdue : s.nextDue = some due) : now < due := by
  obtain ⟨⟨timer, htimer, hdue⟩, -⟩ := nextDue_eq_some hdue
  exact h timer htimer due hdue

theorem exists_nextDue (h : ¬s.Quiet now) : ∃ due, s.nextDue = some due ∧ due ≤ now := by
  cases hnext : s.nextDue with
  | none =>
    rw [nextDue, List.min?_eq_none_iff, List.filterMap_eq_nil_iff] at hnext
    refine absurd (fun timer htimer due hdue => ?_) h
    rw [hnext timer htimer] at hdue
    cases hdue
  | some due =>
    refine ⟨due, rfl, Nat.le_of_not_lt fun hlt => h fun timer htimer other hother => ?_⟩
    exact Nat.lt_of_lt_of_le hlt ((nextDue_eq_some hnext).2 timer htimer other hother)

end Stopping

namespace Rehearsal
namespace Solo

variable {ν : Type} {s : Solo ν} {plan : StopPlan} {asked : List (StopLevel × Time)} {level : StopLevel}
  {limit begin next : Time}

theorem tick_of_quiet (h : s.stopping.Quiet limit) (hle : s.now ≤ limit) : s.tick id limit = { s with now := limit } := by
  rw [tick, Option.map_id, id_eq]
  cases hnext : s.stopping.nextDue with
  | none => simp [Nat.max_eq_right hle]
  | some due => simp [Nat.not_le.2 (Stopping.nextDue_of_quiet h hnext), Nat.max_eq_right hle]

/-- The clock moves on to the next timer, and a timer that is due makes its request. -/
theorem tick_of_due (h : plan.Follows asked s.now s.stopping) (hdue : ¬s.stopping.Quiet limit) :
    ∃ due asked', plan.Follows asked' due (s.tick id limit).stopping ∧ (s.tick id limit).now = due ∧ s.now ≤ due ∧
      due ≤ limit ∧ (∀ timer ∈ s.stopping.timers, ∀ other, timer.due? = some other → due ≤ other) ∧
      (s.tick id limit).stopping.timers.length + 1 = s.stopping.timers.length := by
  obtain ⟨due, hnext, hle⟩ := Stopping.exists_nextDue hdue
  obtain ⟨⟨timer, htimer, htimerDue⟩, hleast⟩ := Stopping.nextDue_eq_some hnext
  have hnow : s.now ≤ due := h.timed htimer htimerDue
  obtain ⟨before, first, after, firstDue, htimers, hfirst, hfirstLe, hfire⟩ :=
    Stopping.exists_fire htimer htimerDue (Nat.le_refl due)
  have htick : s.tick id limit = { s with
      now := due
      stopping := Stopping.raise { s.stopping with timers := before ++ after } first.level due } := by
    rw [tick, Option.map_id, id_eq, hnext]
    dsimp only
    rw [if_pos hle, Nat.max_eq_right hnow, hfire, Option.getD_some]
  rw [htick]
  refine ⟨due, _, (h.pass hnow hleast).ask htimers hfirst hfirstLe, rfl, hnow, hle, hleast, ?_⟩
  rw [Stopping.raise_eq, htimers]
  simp [Nat.add_assoc]

/-! ### Until a time -/

theorem foldl_tick (h : plan.Follows asked s.now s.stopping) (hle : s.now ≤ limit) (turns : List Nat)
    (hturns : s.stopping.Quiet limit ∨ s.stopping.timers.length ≤ turns.length) :
    ∃ asked', plan.Follows asked' (turns.foldl (fun s _ => s.tick id limit) s).now
        (turns.foldl (fun s _ => s.tick id limit) s).stopping ∧
      (turns.foldl (fun s _ => s.tick id limit) s).now ≤ limit ∧
      (turns.foldl (fun s _ => s.tick id limit) s).stopping.Quiet limit := by
  induction turns generalizing s asked with
  | nil =>
    refine ⟨asked, h, hle, hturns.elim id fun hnone => ?_⟩
    have hempty : s.stopping.timers = [] := List.eq_nil_of_length_eq_zero (Nat.le_zero.1 hnone)
    intro timer htimer
    rw [List.foldl_nil, hempty] at htimer
    cases htimer
  | cons turn turns ih =>
    rw [List.foldl_cons]
    by_cases hquiet : s.stopping.Quiet limit
    · rw [tick_of_quiet hquiet hle]
      exact ih (h.pass_quiet hle hquiet) (Nat.le_refl _) (.inl hquiet)
    · obtain ⟨due, asked', hfollows, hnow, -, hdue, -, hlength⟩ := tick_of_due h hquiet
      refine ih (hnow.symm ▸ hfollows) (hnow ▸ hdue) (.inr ?_)
      have hroom := hturns.resolve_left hquiet
      rw [List.length_cons] at hroom
      omega

/-- After a sleep the level is that of the plan. -/
theorem level_of_sleep (h : plan.Follows asked s.now s.stopping) (hle : s.now ≤ limit) :
    (s.sleep id limit).now = limit ∧ (s.sleep id limit).stopping.level = plan.levelAt limit := by
  obtain ⟨asked', hfollows, hnow, hquiet⟩ :=
    foldl_tick h hle (List.range s.stopping.timers.length) (.inr (by simp))
  rw [sleep]
  refine ⟨Nat.max_eq_right hnow, ?_⟩
  exact ((hfollows.pass_quiet hnow hquiet).of_quiet hquiet).1

/-! ### Until a level -/

/-- One turn of the wait for a level. -/
def turn (level : StopLevel) (limit : Time) (s : Solo ν) : Solo ν :=
  if s.stopping.level.reached level then s else s.tick id limit

/-- The clock follows the plan, and has not passed over the time at which the wait is to end. -/
structure Waits (plan : StopPlan) (level : StopLevel) (begin limit : Time) (s : Solo ν) : Prop where
  follows : ∃ asked, plan.Follows asked s.now s.stopping
  le : s.now ≤ limit
  begun : begin ≤ s.now
  first : ∀ time, plan.reachedAt level = some time → s.now ≤ max begin time

/-- The wait is over: the level is reached, or it is not by the limit. -/
def Over (level : StopLevel) (limit : Time) (s : Solo ν) : Prop :=
  s.stopping.level.reached level = true ∨ s.stopping.Quiet limit ∧ s.now = limit

/-- The next timer is not later than the level that is waited for. -/
theorem Waits.next_le (h : Waits plan level begin limit s) (hnot : ¬s.stopping.level.reached level = true)
    (hle : ∀ timer ∈ s.stopping.timers, ∀ due, timer.due? = some due → next ≤ due) :
    ∀ time, plan.reachedAt level = some time → next ≤ time := by
  intro time htime
  obtain ⟨asked, hfollows⟩ := h.follows
  rcases hfollows.reached_or_due htime with hreached | ⟨timer, htimer, due, hdue, hdueLe⟩
  · exact absurd hreached hnot
  · exact Nat.le_trans (hle timer htimer due hdue) hdueLe

theorem Waits.turn (h : Waits plan level begin limit s) :
    Waits plan level begin limit (s.turn level limit) ∧ (Over level limit (s.turn level limit) ∨
      ¬Over level limit s ∧ (s.turn level limit).stopping.timers.length + 1 = s.stopping.timers.length) := by
  by_cases hreached : s.stopping.level.reached level = true
  · rw [Solo.turn, if_pos hreached]
    exact ⟨h, .inl (.inl hreached)⟩
  rw [Solo.turn, if_neg hreached]
  obtain ⟨asked, hfollows⟩ := h.follows
  -- the clock comes to the limit, or to the next timer, and that is not later than the level
  by_cases hquiet : s.stopping.Quiet limit
  · have hlate : ∀ timer ∈ s.stopping.timers, ∀ due, timer.due? = some due → limit ≤ due :=
      fun timer htimer due hdue => Nat.le_of_lt (hquiet timer htimer due hdue)
    rw [tick_of_quiet hquiet h.le]
    refine ⟨⟨⟨asked, hfollows.pass_quiet h.le hquiet⟩, Nat.le_refl _, Nat.le_trans h.begun h.le, ?_⟩, .inl (.inr ⟨hquiet, rfl⟩)⟩
    intro time htime
    exact Nat.le_trans (h.next_le hreached hlate time htime) (Nat.le_max_right _ _)
  · obtain ⟨due, asked', hfollows', hnow, hle, hlimit, hleast, hlength⟩ := tick_of_due hfollows hquiet
    refine ⟨⟨⟨asked', hnow.symm ▸ hfollows'⟩, hnow ▸ hlimit, hnow ▸ Nat.le_trans h.begun hle, ?_⟩, .inr ⟨?_, hlength⟩⟩
    · intro time htime
      rw [hnow]
      exact Nat.le_trans (h.next_le hreached hleast time htime) (Nat.le_max_right _ _)
    · rintro (hover | ⟨hover, -⟩)
      · exact hreached hover
      · exact hquiet hover

theorem Waits.turns (h : Waits plan level begin limit s) (turns : List Nat)
    (hturns : Over level limit s ∨ s.stopping.timers.length < turns.length) :
    Waits plan level begin limit (turns.foldl (fun s _ => s.turn level limit) s) ∧
      Over level limit (turns.foldl (fun s _ => s.turn level limit) s) := by
  induction turns generalizing s with
  | nil => exact ⟨h, hturns.resolve_right (Nat.not_lt_zero _)⟩
  | cons turn turns ih =>
    rw [List.foldl_cons]
    obtain ⟨hwaits, hover | ⟨hnot, hlength⟩⟩ := h.turn
    · exact ih hwaits (.inl hover)
    · have hroom := hturns.resolve_left hnot
      rw [List.length_cons] at hroom
      refine ih hwaits (.inr ?_)
      omega

/-- A wait for a level ends when the level is reached, if that is before the limit, and otherwise at the limit. -/
theorem waitFor_eq (h : plan.Follows asked s.now s.stopping) (hle : s.now ≤ limit) (level : StopLevel) :
    (s.waitFor id level limit).1 = (plan.reachedAt level).any (· ≤ limit) ∧
      (s.waitFor id level limit).2.now = ((plan.reachedAt level).elim limit fun time => min limit (max s.now time)) := by
  have hwaits : Waits plan level s.now limit s := ⟨⟨asked, h⟩, hle, Nat.le_refl _, fun _ _ => Nat.le_max_left _ _⟩
  obtain ⟨hend, hover⟩ := hwaits.turns (List.range (s.stopping.timers.length + 1)) (.inr (by simp))
  obtain ⟨asked', hfollows⟩ := hend.follows
  have hwait : s.waitFor id level limit =
      (((List.range (s.stopping.timers.length + 1)).foldl (fun s _ => s.turn level limit) s).stopping.level.reached level,
        (List.range (s.stopping.timers.length + 1)).foldl (fun s _ => s.turn level limit) s) := rfl
  rw [hwait]
  generalize (List.range (s.stopping.timers.length + 1)).foldl (fun s _ => s.turn level limit) s = e at *
  by_cases hreached : e.stopping.level.reached level = true
  · obtain ⟨time, htime, htimeLe⟩ := hfollows.inForce.early level hreached
    have hnow : e.now = max s.now time := Nat.le_antisymm (hend.first time htime) (Nat.max_le.2 ⟨hend.begun, htimeLe⟩)
    have hmax : max s.now time ≤ limit := hnow ▸ hend.le
    simp [htime, hreached, hnow, Nat.min_eq_right hmax, Nat.le_trans (Nat.le_max_right _ _) hmax]
  · obtain ⟨hquiet, hnow⟩ := hover.resolve_left hreached
    have hlate : ∀ time, plan.reachedAt level = some time → limit + 1 ≤ time :=
      hend.next_le hreached fun timer htimer due hdue => hquiet timer htimer due hdue
    cases htime : plan.reachedAt level with
    | none => simp [hreached, hnow]
    | some time =>
      have hlt : limit < time := hlate time htime
      have hmin : limit ≤ max s.now time := Nat.le_trans (Nat.le_of_lt hlt) (Nat.le_max_right _ _)
      simp [hreached, hnow, hlt, Nat.min_eq_left hmin]

end Solo
end Rehearsal
end IngestBench
