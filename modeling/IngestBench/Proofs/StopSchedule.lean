import IngestBench.Run.Launch

/-! When a stop is in force. Requests are made at given times, a run that takes too long is asked to stop, and a stop that
    takes too long is forced. From the times alone follows when each level is reached; and so it is reached, in whatever
    order the timers that are due at the same time take their turns. -/

namespace IngestBench

/-- The requests that are made in a run, each at its time, beside the timers of its settings. -/
structure StopPlan where
  settings : RunSettings
  requests : List (StopLevel × Time)

theorem StopLevel.covers_trans {a b c : StopLevel} (hab : a.covers b = true) (hbc : b.covers c = true) :
    a.covers c = true := by
  cases a <;> cases b <;> cases c <;> first | rfl | exact hab | exact hbc

theorem StopLevel.covers_of_lower {a b c : StopLevel} (h : ¬a.covers b = true) : b.covers c = true := by
  cases a <;> cases b <;> first | rfl | exact absurd rfl h

namespace Stop

theorem raise_some (current level : StopLevel) :
    Stop.raise (some current) level = some (if current.covers level then current else level) := by
  cases current <;> cases level <;> rfl

theorem reached_graceful {s : Stop} : s.reached .graceful = true ↔ s.isStopping = true := by
  rcases s with _ | _ | _ <;> decide

theorem reached_of_higher {s : Stop} {higher level : StopLevel} (h : s.reached higher = false)
    (hreached : s.reached level = true) : Stop.reached (some higher) level = true := by
  revert h hreached
  rcases s with _ | _ | _ <;> cases higher <;> cases level <;> decide

theorem isStopping_raise (s : Stop) (level : StopLevel) : (s.raise level).isStopping = true := by
  rcases s with _ | _ | _ <;> cases level <;> rfl

theorem eq_of_reached {s t : Stop} (h : ∀ l, s.reached l = t.reached l) : s = t := by
  have hgraceful := h .graceful
  have hforced := h .forced
  revert hgraceful hforced
  rcases s with _ | _ | _ <;> rcases t with _ | _ | _ <;> decide

end Stop

theorem Stopping.raise_eq (s : Stopping) (level : StopLevel) (now : Time) :
    s.raise level now = ⟨s.level.raise level, s.timers.map (·.arm now)⟩ := by
  rw [raise, enter, if_pos (s.level.isStopping_raise level)]

/-- No timer goes off until then. -/
def Stopping.Quiet (s : Stopping) (time : Time) : Prop :=
  ∀ timer ∈ s.timers, ∀ due, timer.due? = some due → time < due

namespace StopTimer

/-- The timer of a request. -/
def ofRequest : StopLevel × Time → StopTimer
  | (.graceful, due) => .stop due
  | (.forced, due) => .force due

/-- The request that the timer will make, if it is known when. -/
def request? (timer : StopTimer) : Option (StopLevel × Time) := timer.due?.map fun due => (timer.level, due)

@[simp] theorem due?_ofRequest (ask : StopLevel × Time) : (ofRequest ask).due? = some ask.2 := by
  obtain ⟨_ | _, due⟩ := ask <;> rfl

@[simp] theorem request?_ofRequest (ask : StopLevel × Time) : (ofRequest ask).request? = some ask := by
  obtain ⟨_ | _, due⟩ := ask <;> rfl

theorem arm_of_due {timer : StopTimer} {due : Time} (h : timer.due? = some due) (now : Time) : timer.arm now = timer := by
  cases timer with
  | grace length => cases h
  | stop due => rfl
  | force due => rfl

end StopTimer

namespace StopPlan

variable {plan : StopPlan} {asked : List (StopLevel × Time)} {request : StopLevel × Time} {now time : Time}
  {s : Stopping} {level : StopLevel} {timer : StopTimer} {before after : List StopTimer} {due g : Time}

/-! ### Times -/

/-- The requests and the one that is made when the time for a run is over. -/
def direct (plan : StopPlan) : List (StopLevel × Time) :=
  plan.requests ++ plan.settings.maxRunTime.toList.map fun length => (.graceful, length.nanos)

/-- When a stop is in force. -/
def stopAt (plan : StopPlan) : Option Time :=
  (plan.requests.map (·.2) ++ plan.settings.maxRunTime.toList.map (·.nanos)).min?

/-- When a stop has been in force for as long as it may, if that is to be. -/
def escalateAt (plan : StopPlan) : Option Time := plan.stopAt.map (· + plan.settings.shutdownGrace.nanos)

/-- When a forced stop is in force. -/
def forceAt (plan : StopPlan) : Option Time :=
  ((plan.requests.filter (·.1 = .forced)).map (·.2) ++ plan.escalateAt.toList).min?

/-- When a level is reached. -/
def reachedAt (plan : StopPlan) : StopLevel → Option Time
  | .graceful => plan.stopAt
  | .forced => plan.forceAt

/-- The level that is in force at a time. -/
def levelAt (plan : StopPlan) (time : Time) : Stop :=
  if plan.forceAt.any (· ≤ time) then some .forced
  else if plan.stopAt.any (· ≤ time) then some .graceful
  else none

/-- All requests that are made, if a stop is in force from `g` on. -/
def asks (plan : StopPlan) (g : Time) : List (StopLevel × Time) :=
  plan.direct ++ [(.forced, g + plan.settings.shutdownGrace.nanos)]

theorem direct_times (plan : StopPlan) :
    plan.requests.map (·.2) ++ plan.settings.maxRunTime.toList.map (·.nanos) = plan.direct.map (·.2) := by
  simp [direct, Function.comp_def]

theorem stopAt_eq_some : plan.stopAt = some g ↔ (∃ ask ∈ plan.direct, ask.2 = g) ∧ ∀ ask ∈ plan.direct, g ≤ ask.2 := by
  rw [stopAt, direct_times, List.min?_eq_some_iff, List.mem_map, List.forall_mem_map]

theorem stopAt_isSome (h : request ∈ plan.direct) : ∃ g, plan.stopAt = some g := by
  rw [stopAt, direct_times]
  exact ⟨_, List.min?_eq_some_min (List.ne_nil_of_mem (List.mem_map_of_mem h))⟩

theorem le_of_mem_asks (hg : plan.stopAt = some g) (h : request ∈ plan.asks g) : g ≤ request.2 := by
  rcases List.mem_append.1 h with h | h
  · exact (stopAt_eq_some.1 hg).2 request h
  · obtain rfl := List.mem_singleton.1 h
    exact Nat.le_add_right _ _

theorem mem_asks_forced : (.forced, due) ∈ plan.asks g ↔
    (.forced, due) ∈ plan.requests ∨ due = g + plan.settings.shutdownGrace.nanos := by
  simp [asks, direct]

/-- A level is reached at the first of the requests that are at least as urgent. -/
theorem reachedAt_eq_some : plan.reachedAt level = some time ↔ ∃ g, plan.stopAt = some g ∧
    (∃ ask ∈ plan.asks g, ask.1.covers level = true ∧ ask.2 = time) ∧
    ∀ ask ∈ plan.asks g, ask.1.covers level = true → time ≤ ask.2 := by
  cases level with
  | graceful =>
    have hcovers (l : StopLevel) : l.covers .graceful = true := by cases l <;> rfl
    simp only [reachedAt, hcovers, true_and, forall_const]
    constructor
    · intro h
      obtain ⟨ask, hask, rfl⟩ := (stopAt_eq_some.1 h).1
      exact ⟨ask.2, h, ⟨ask, List.mem_append_left _ hask, rfl⟩, fun other hother => le_of_mem_asks h hother⟩
    · rintro ⟨g, hg, ⟨ask, hask, rfl⟩, hleast⟩
      obtain ⟨first, hfirst, rfl⟩ := (stopAt_eq_some.1 hg).1
      have hsame : ask.2 = first.2 := Nat.le_antisymm (hleast first (List.mem_append_left _ hfirst)) (le_of_mem_asks hg hask)
      rw [hg, hsame]
  | forced =>
    have hcovers (l : StopLevel) : l.covers .forced = true ↔ l = .forced := by cases l <;> decide
    have hmem (g t : Time) (hg : plan.stopAt = some g) :
        t ∈ (plan.requests.filter (·.1 = .forced)).map (·.2) ++ plan.escalateAt.toList ↔ (.forced, t) ∈ plan.asks g := by
      rw [mem_asks_forced]
      simp [escalateAt, hg, eq_comm]
    rw [reachedAt, forceAt, List.min?_eq_some_iff]
    constructor
    · rintro ⟨htime, hleast⟩
      obtain ⟨g, hg⟩ : ∃ g, plan.stopAt = some g := by
        rcases List.mem_append.1 htime with h | h
        · obtain ⟨ask, hask, rfl⟩ := List.mem_map.1 h
          exact stopAt_isSome (List.mem_append_left _ (List.mem_filter.1 hask).1)
        · obtain ⟨g, hg, -⟩ := Option.map_eq_some_iff.1 (Option.mem_toList.1 h)
          exact ⟨g, hg⟩
      refine ⟨g, hg, ⟨(.forced, time), (hmem g time hg).1 htime, rfl, rfl⟩, ?_⟩
      rintro ⟨l, t⟩ hask hl
      obtain rfl := (hcovers l).1 hl
      exact hleast t ((hmem g t hg).2 hask)
    · rintro ⟨g, hg, ⟨⟨l, t⟩, hask, hl, rfl⟩, hleast⟩
      obtain rfl := (hcovers l).1 hl
      refine ⟨(hmem g t hg).2 hask, fun other hother => ?_⟩
      exact hleast (.forced, other) ((hmem g other hg).1 hother) rfl

theorem exists_reachedAt (h : plan.stopAt = some g) (level : StopLevel) : ∃ time, plan.reachedAt level = some time := by
  cases level with
  | graceful => exact ⟨g, h⟩
  | forced =>
    rw [reachedAt, forceAt, escalateAt, h]
    exact ⟨_, List.min?_eq_some_min (by simp)⟩

/-! ### The level by the plan -/

theorem stopAt_le_forceAt (hg : plan.stopAt = some g) (h : plan.forceAt = some time) : g ≤ time := by
  obtain ⟨g', hg', ⟨ask, hask, -, rfl⟩, -⟩ := reachedAt_eq_some.1 (show plan.reachedAt .forced = some time from h)
  obtain rfl := Option.some.inj (hg.symm.trans hg')
  exact le_of_mem_asks hg hask

/-- A level is in force by the plan from the time on at which it is reached. -/
theorem reached_levelAt : (plan.levelAt now).reached level = true ↔ ∃ time, plan.reachedAt level = some time ∧ time ≤ now := by
  have hsome (o : Option Time) : o.any (· ≤ now) = true ↔ ∃ time, o = some time ∧ time ≤ now := by
    cases o <;> simp
  -- who forces a stop puts one in force
  have hearlier : plan.forceAt.any (· ≤ now) = true → plan.stopAt.any (· ≤ now) = true := by
    intro hforce
    obtain ⟨time, htime, hle⟩ := (hsome _).1 hforce
    obtain ⟨g, hg, -⟩ := reachedAt_eq_some.1 (show plan.reachedAt .forced = some time from htime)
    exact (hsome _).2 ⟨g, hg, Nat.le_trans (stopAt_le_forceAt hg htime) hle⟩
  cases level with
  | graceful =>
    refine Iff.trans ?_ (hsome plan.stopAt)
    cases hforce : plan.forceAt.any (· ≤ now) <;> cases hstop : plan.stopAt.any (· ≤ now) <;>
      simp_all [levelAt, Stop.reached, StopLevel.covers]
  | forced =>
    refine Iff.trans ?_ (hsome plan.forceAt)
    cases hforce : plan.forceAt.any (· ≤ now) <;> cases hstop : plan.stopAt.any (· ≤ now) <;>
      simp_all [levelAt, Stop.reached, StopLevel.covers]

/-! ### Following the plan -/

/-- The timers of the plan before anything has happened. -/
def start (plan : StopPlan) : Stopping :=
  Run.startTimers plan.settings ⟨none, plan.requests.map StopTimer.ofRequest⟩ 0

/-- A stop is in force, and is what was asked for until now; all other requests are still to come, none of them late. -/
structure Underway (plan : StopPlan) (asked : List (StopLevel × Time)) (now : Time) (s : Stopping) : Prop where
  level : ∃ level due, s.level = some level ∧ (level, due) ∈ asked ∧ ∀ ask ∈ asked, level.covers ask.1 = true
  past : ∀ ask ∈ asked, ask.2 ≤ now
  timed : ∀ timer ∈ s.timers, ∃ due, timer.due? = some due ∧ now ≤ due
  all : ∃ g, plan.stopAt = some g ∧
    ∀ ask, ask ∈ asked ∨ ask ∈ s.timers.filterMap StopTimer.request? ↔ ask ∈ plan.asks g

/-- What is in force, and what is still to come, follows the plan. -/
inductive Follows (plan : StopPlan) : List (StopLevel × Time) → Time → Stopping → Prop
  | waiting {now : Time} : (∀ ask ∈ plan.direct, now ≤ ask.2) → Follows plan [] now plan.start
  | underway {asked : List (StopLevel × Time)} {now : Time} {s : Stopping} : Underway plan asked now s →
    Follows plan asked now s

theorem start_eq (plan : StopPlan) : plan.start = ⟨none, plan.requests.map StopTimer.ofRequest ++
    [.grace plan.settings.shutdownGrace] ++
      plan.settings.maxRunTime.toList.map fun length => .ofRequest (.graceful, length.nanos)⟩ := by
  rw [start, Run.startTimers]
  cases plan.settings.maxRunTime with
  | none => simp [Stopping.escalateAfter, Stop.isStopping]
  | some length => simp [Stopping.escalateAfter, Stopping.stopAfter, Stop.isStopping, StopTimer.ofRequest]

theorem mem_start : timer ∈ plan.start.timers ↔
    timer = .grace plan.settings.shutdownGrace ∨ ∃ request ∈ plan.direct, timer = .ofRequest request := by
  rw [start_eq]
  simp only [direct, List.mem_append, List.mem_map, List.mem_singleton]
  constructor
  · rintro ((⟨request, hrequest, rfl⟩ | h) | ⟨length, hlength, rfl⟩)
    · exact .inr ⟨request, .inl hrequest, rfl⟩
    · exact .inl h
    · exact .inr ⟨_, .inr ⟨length, hlength, rfl⟩, rfl⟩
  · rintro (h | ⟨request, hrequest | ⟨length, hlength, rfl⟩, rfl⟩)
    · exact .inl (.inr h)
    · exact .inl (.inl ⟨request, hrequest, rfl⟩)
    · exact .inr ⟨length, hlength, rfl⟩

theorem Follows.timed (h : Follows plan asked now s) (htimer : timer ∈ s.timers) (hdue : timer.due? = some due) :
    now ≤ due := by
  cases h with
  | waiting h =>
    rcases mem_start.1 htimer with rfl | ⟨request, hrequest, rfl⟩
    · cases hdue
    · obtain rfl := Option.some.inj ((StopTimer.due?_ofRequest request).symm.trans hdue)
      exact h request hrequest
  | underway h =>
    obtain ⟨due', hdue', hle⟩ := h.timed timer htimer
    obtain rfl := Option.some.inj (hdue'.symm.trans hdue)
    exact hle

theorem Follows.pass (h : Follows plan asked now s) (hle : now ≤ time)
    (hdue : ∀ timer ∈ s.timers, ∀ due, timer.due? = some due → time ≤ due) : Follows plan asked time s := by
  cases h with
  | waiting h =>
    refine .waiting fun request hrequest => ?_
    exact hdue (.ofRequest request) (mem_start.2 (.inr ⟨request, hrequest, rfl⟩)) _ (StopTimer.due?_ofRequest request)
  | underway h =>
    refine .underway ⟨h.level, fun request hasked => Nat.le_trans (h.past request hasked) hle, ?_, h.all⟩
    intro timer htimer
    obtain ⟨due, hdue', -⟩ := h.timed timer htimer
    exact ⟨due, hdue', hdue timer htimer due hdue'⟩

theorem Follows.pass_quiet (h : Follows plan asked now s) (hle : now ≤ time) (hquiet : s.Quiet time) :
    Follows plan asked time s :=
  h.pass hle fun timer htimer due hdue => Nat.le_of_lt (hquiet timer htimer due hdue)

/-- The first timer that is due puts a stop in force; the wait for a stop is over. -/
theorem underway_start (h : ∀ request ∈ plan.direct, now ≤ request.2)
    (htimers : plan.start.timers = before ++ timer :: after) (hdue : timer.due? = some now) :
    Underway plan [(timer.level, now)] now
      (Stopping.raise { plan.start with timers := before ++ after } timer.level now) := by
  have hmem (other : StopTimer) : other ∈ plan.start.timers ↔ other = timer ∨ other ∈ before ++ after := by
    rw [htimers, List.perm_middle.mem_iff, List.mem_cons]
  obtain ⟨request, hrequest, rfl⟩ : ∃ request ∈ plan.direct, timer = .ofRequest request := by
    rcases mem_start.1 ((hmem timer).2 (.inl rfl)) with rfl | hofRequest
    · cases hdue
    · exact hofRequest
  obtain rfl : request.2 = now := Option.some.inj ((StopTimer.due?_ofRequest request).symm.trans hdue)
  have hlevel : (StopTimer.ofRequest request).level = request.1 := by obtain ⟨_ | _, due⟩ := request <;> rfl
  have hfirst : plan.stopAt = some request.2 := stopAt_eq_some.2 ⟨⟨request, hrequest, rfl⟩, h⟩
  rw [Stopping.raise_eq, hlevel]
  have hnone : plan.start.level = none := by rw [start_eq]
  refine ⟨⟨request.1, request.2, ?_, List.mem_singleton_self _, ?_⟩, ?_, ?_, request.2, hfirst, ?_⟩
  · show plan.start.level.raise request.1 = some request.1
    rw [hnone]
    rfl
  · intro other hother
    obtain rfl := List.mem_singleton.1 hother
    exact StopLevel.covers_refl _
  · intro other hother
    obtain rfl := List.mem_singleton.1 hother
    exact Nat.le_refl _
  · intro armed harmed
    obtain ⟨other, hother, rfl⟩ := List.mem_map.1 harmed
    rcases mem_start.1 ((hmem other).2 (.inr hother)) with rfl | ⟨later, hlater, rfl⟩
    · exact ⟨_, rfl, Nat.le_add_right _ _⟩
    · rw [StopTimer.arm_of_due (StopTimer.due?_ofRequest later)]
      exact ⟨later.2, StopTimer.due?_ofRequest later, h later hlater⟩
  · intro other
    simp only [asks, List.mem_append, List.mem_singleton, List.mem_filterMap]
    constructor
    · rintro (rfl | ⟨armed, harmed, hother⟩)
      · exact .inl hrequest
      · obtain ⟨timer, htimer, rfl⟩ := List.mem_map.1 harmed
        rcases mem_start.1 ((hmem timer).2 (.inr htimer)) with rfl | ⟨later, hlater, rfl⟩
        · exact .inr (Option.some.inj hother).symm
        · rw [StopTimer.arm_of_due (StopTimer.due?_ofRequest later), StopTimer.request?_ofRequest] at hother
          exact .inl (Option.some.inj hother ▸ hlater)
    · rintro (hdirect | rfl)
      · rcases (hmem (.ofRequest other)).1 (mem_start.2 (.inr ⟨other, hdirect, rfl⟩)) with heq | hrest
        · have hsame := congrArg StopTimer.request? heq
          rw [StopTimer.request?_ofRequest, StopTimer.request?_ofRequest] at hsame
          exact .inl (Option.some.inj hsame)
        · refine .inr ⟨_, List.mem_map_of_mem hrest, ?_⟩
          rw [StopTimer.arm_of_due (StopTimer.due?_ofRequest other), StopTimer.request?_ofRequest]
      · rcases (hmem (.grace plan.settings.shutdownGrace)).1 (mem_start.2 (.inl rfl)) with heq | hrest
        · have hnever := congrArg StopTimer.due? heq
          rw [StopTimer.due?_ofRequest] at hnever
          cases hnever
        · exact .inr ⟨_, List.mem_map_of_mem hrest, rfl⟩

theorem Underway.ask (h : Underway plan asked now s) (htimers : s.timers = before ++ timer :: after)
    (hdue : timer.due? = some now) :
    Underway plan (asked ++ [(timer.level, now)]) now
      (Stopping.raise { s with timers := before ++ after } timer.level now) := by
  obtain ⟨level, due, hlevel, hgranted, hcovered⟩ := h.level
  obtain ⟨g, hg, hall⟩ := h.all
  have hother : ∀ other ∈ before ++ after, other ∈ s.timers := by
    intro other hmem
    rw [htimers, List.perm_middle.mem_iff]
    exact List.mem_cons_of_mem _ hmem
  -- a stop is in force, so that nothing waits for one any more
  have harmed : (before ++ after).map (·.arm now) = before ++ after := by
    refine (List.map_congr_left fun other hmem => ?_).trans (List.map_id _)
    obtain ⟨due, hdue, -⟩ := h.timed other (hother other hmem)
    exact StopTimer.arm_of_due hdue now
  have hrequest : timer.request? = some (timer.level, now) := by rw [StopTimer.request?, hdue]; rfl
  rw [Stopping.raise_eq, harmed]
  refine ⟨?_, ?_, fun other hmem => h.timed other (hother other hmem), g, hg, fun request => ?_⟩
  · have hraise : s.level.raise timer.level = some (if level.covers timer.level then level else timer.level) := by
      rw [hlevel]
      exact Stop.raise_some level timer.level
    refine ⟨_, if level.covers timer.level then due else now, hraise, ?_, ?_⟩
    · split
      · exact List.mem_append_left _ hgranted
      · exact List.mem_append_right _ (List.mem_singleton_self _)
    · intro request hasked
      rcases List.mem_append.1 hasked with hasked | hasked
      · split
        · exact hcovered request hasked
        · rename_i hlower
          exact StopLevel.covers_of_lower hlower
      · obtain rfl := List.mem_singleton.1 hasked
        split
        · assumption
        · exact StopLevel.covers_refl _
  · intro request hasked
    rcases List.mem_append.1 hasked with hasked | hasked
    · exact h.past request hasked
    · obtain rfl := List.mem_singleton.1 hasked
      exact Nat.le_refl _
  · rw [← hall, htimers, List.filterMap_append, List.filterMap_append, List.filterMap_cons_some hrequest]
    simp only [List.mem_append, List.mem_cons, List.not_mem_nil, or_false, or_assoc, or_left_comm]

/-- A timer that is due makes its request. -/
theorem Follows.ask (h : Follows plan asked now s) (htimers : s.timers = before ++ timer :: after)
    (hdue : timer.due? = some due) (hle : due ≤ now) :
    Follows plan (asked ++ [(timer.level, now)]) now
      (Stopping.raise { s with timers := before ++ after } timer.level now) := by
  have htimer : timer ∈ s.timers := htimers ▸ List.mem_append_right _ List.mem_cons_self
  obtain rfl : due = now := Nat.le_antisymm hle (h.timed htimer hdue)
  cases h with
  | waiting h => exact .underway (underway_start h htimers hdue)
  | underway h => exact .underway (h.ask htimers hdue)

/-! ### What follows from the plan -/

/-- A level may be in force at a time if nothing is reached too early, or was to be reached before. -/
structure InForce (plan : StopPlan) (now : Time) (s : Stop) : Prop where
  early : ∀ level, s.reached level = true → ∃ time, plan.reachedAt level = some time ∧ time ≤ now
  late : ∀ level time, plan.reachedAt level = some time → time < now → s.reached level = true

/-- A request that is to be made by now was made, or its timer, or that of an earlier one, is due. -/
theorem Follows.asked_or_due (h : Follows plan asked now s) (hg : plan.stopAt = some g)
    (hrequest : request ∈ plan.asks g) :
    request ∈ asked ∨ ∃ timer ∈ s.timers, ∃ due, timer.due? = some due ∧ due ≤ request.2 := by
  cases h with
  | waiting h =>
    -- nobody has asked yet, so the timer of the very first request is still set
    obtain ⟨first, hfirst, rfl⟩ := (stopAt_eq_some.1 hg).1
    refine .inr ⟨.ofRequest first, mem_start.2 (.inr ⟨first, hfirst, rfl⟩), first.2, ?_, le_of_mem_asks hg hrequest⟩
    exact StopTimer.due?_ofRequest first
  | underway h =>
    obtain ⟨g', hg', hall⟩ := h.all
    obtain rfl := Option.some.inj (hg.symm.trans hg')
    rcases (hall request).2 hrequest with hasked | htimer
    · exact .inl hasked
    · obtain ⟨timer, hmem, htimer⟩ := List.mem_filterMap.1 htimer
      obtain ⟨due, hdue, rfl⟩ := Option.map_eq_some_iff.1 htimer
      exact .inr ⟨timer, hmem, due, hdue, Nat.le_refl _⟩

/-- A level is reached at its time, unless a timer is still to take its turn. -/
theorem Follows.reached_or_due (h : Follows plan asked now s) (htime : plan.reachedAt level = some time) :
    s.level.reached level = true ∨ ∃ timer ∈ s.timers, ∃ due, timer.due? = some due ∧ due ≤ time := by
  obtain ⟨g, hg, ⟨request, hrequest, hcovers, rfl⟩, -⟩ := reachedAt_eq_some.1 htime
  refine (h.asked_or_due hg hrequest).imp_left fun hasked => ?_
  cases h with
  | waiting h => cases hasked
  | underway h =>
    obtain ⟨current, due, hcurrent, -, hcovered⟩ := h.level
    rw [hcurrent]
    exact StopLevel.covers_trans (hcovered request hasked) hcovers

theorem Follows.inForce (h : Follows plan asked now s) : plan.InForce now s.level where
  early level hreached := by
    cases h with
    | waiting h =>
      rw [start_eq] at hreached
      cases hreached
    | underway h =>
      obtain ⟨current, due, hcurrent, hgranted, -⟩ := h.level
      obtain ⟨g, hg, hall⟩ := h.all
      obtain ⟨time, htime⟩ := exists_reachedAt hg level
      refine ⟨time, htime, Nat.le_trans ?_ (h.past _ hgranted)⟩
      obtain ⟨g', hg', -, hleast⟩ := reachedAt_eq_some.1 htime
      obtain rfl := Option.some.inj (hg.symm.trans hg')
      rw [hcurrent] at hreached
      exact hleast (current, due) ((hall _).1 (.inl hgranted)) hreached
  late level time htime hlt := by
    rcases h.reached_or_due htime with hreached | ⟨timer, htimer, due, hdue, hle⟩
    · exact hreached
    · exact absurd (Nat.le_trans (h.timed htimer hdue) hle) (Nat.not_le.2 hlt)

/-- When no timer is due, the level is that of the plan, and all requests were made that were to be made by now. -/
theorem Follows.of_quiet (h : Follows plan asked now s) (hquiet : s.Quiet now) :
    s.level = plan.levelAt now ∧
      ∀ g, plan.stopAt = some g → ∀ request ∈ plan.asks g, request.2 ≤ now → request ∈ asked := by
  constructor
  · refine Stop.eq_of_reached fun level => Bool.eq_iff_iff.2 ?_
    rw [reached_levelAt]
    constructor
    · exact h.inForce.early level
    · rintro ⟨time, htime, hle⟩
      rcases h.reached_or_due htime with hreached | ⟨timer, htimer, due, hdue, hlate⟩
      · exact hreached
      · exact absurd (hquiet timer htimer due hdue) (Nat.not_lt.2 (Nat.le_trans hlate hle))
  · intro g hg request hrequest hle
    rcases h.asked_or_due hg hrequest with hasked | ⟨timer, htimer, due, hdue, hlate⟩
    · exact hasked
    · exact absurd (hquiet timer htimer due hdue) (Nat.not_lt.2 (Nat.le_trans hlate hle))

end StopPlan
end IngestBench
