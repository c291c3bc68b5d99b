import IngestBench.Proofs.LastDate

/-! How many questions the two loops over a simulation ask: the one for the next report, and the one until the end.
    The loops are stated without a bound, as what they do until they stop. The first comes to the first host after all
    others at the latest, and the first host always reports. The second asks every host once in each round of the
    window, whether or not the host reports; so it ends without a limit, and however late hosts start. -/

namespace IngestBench
namespace Simulation

variable {settings : Settings} {s t : Simulation} {p n m fuel : Nat} {r : Option Reading} {rs : List Reading}

/-! ### Loops -/

/-- Hosts are asked until one reports or the simulation is over: how many questions that takes, and its outcome. -/
inductive Seeks : Simulation → Nat → Except Breakdown (Option Reading × Simulation) → Prop
  | ended {s : Simulation} : s.finished = true → Seeks s 0 (.ok (none, s))
  | report {s t : Simulation} {reading : Reading} : s.finished = false → s.next = .ok (some reading, t) →
      Seeks s 1 (.ok (some reading, t))
  | silence {s t : Simulation} {n : Nat} {outcome : Except Breakdown (Option Reading × Simulation)} :
      s.finished = false → s.next = .ok (none, t) → Seeks t n outcome → Seeks s (n + 1) outcome
  | failure {s : Simulation} {e : Breakdown} : s.finished = false → s.next = .error e → Seeks s 1 (.error e)

/-- Hosts are asked until the simulation is over: how many questions that takes, and the reports that it brings. -/
inductive Exhausts : Simulation → Nat → Except Breakdown (List Reading) → Prop
  | ended {s : Simulation} : s.finished = true → Exhausts s 0 (.ok [])
  | answer {s t : Simulation} {r : Option Reading} {n : Nat} {outcome : Except Breakdown (List Reading)} :
      s.finished = false → s.next = .ok (r, t) → Exhausts t n outcome →
      Exhausts s (n + 1) (outcome.map (r.toList ++ ·))
  | failure {s : Simulation} {e : Breakdown} : s.finished = false → s.next = .error e → Exhausts s 1 (.error e)

theorem Exhausts.ask_eq {outcome : Except Breakdown (List Reading)} (h : Exhausts s n outcome) :
    (s.ask n).map Prod.fst = outcome := by
  induction h with
  | ended => rfl
  | @answer s t r n outcome _ hnext _ ih =>
    rw [ask_succ hnext, ← ih]
    cases t.ask n <;> rfl
  | failure _ hnext =>
    rw [ask, hnext]
    rfl

/-- A loop until the end begins by looking for a report. -/
theorem Seeks.exhausts {outcome : Except Breakdown (List Reading)} (h : Seeks s n (.ok (r, t)))
    (h' : Exhausts t m outcome) : Exhausts s (n + m) (outcome.map (r.toList ++ ·)) := by
  generalize hfound : Except.ok (r, t) = found at h
  induction h with
  | ended hdone =>
    obtain ⟨rfl, rfl⟩ := Prod.mk.inj (Except.ok.inj hfound)
    cases h' with
    | ended => exact .ended hdone
    | answer hopen | failure hopen => rw [hdone] at hopen; cases hopen
  | report hopen hnext =>
    obtain ⟨rfl, rfl⟩ := Prod.mk.inj (Except.ok.inj hfound)
    rw [Nat.add_comm]
    exact .answer hopen hnext h'
  | @silence s u n _ hopen hnext _ ih =>
    have hstep := Exhausts.answer hopen hnext (ih hfound)
    rw [Nat.add_right_comm]
    cases outcome <;> exact hstep
  | failure => cases hfound

theorem Seeks.exhausts_error {e : Breakdown} (h : Seeks s n (.error e)) : Exhausts s n (.error e) := by
  generalize hfound : Except.error e = found at h
  induction h with
  | ended => cases hfound
  | report => cases hfound
  | silence hopen hnext _ ih =>
    subst hfound
    exact .answer hopen hnext (ih rfl)
  | failure hopen hnext =>
    obtain rfl := Except.error.inj hfound
    exact .failure hopen hnext

/-! ### How long they are -/

theorem Sound.exists_seeks (hs : s.Sound) (hfuel : s.patience ≤ fuel) :
    ∃ n ≤ fuel, Seeks s n (Simulation.nextWithin fuel s) := by
  induction fuel generalizing s with
  | zero => exact absurd s.patience_pos (Nat.not_lt.2 hfuel)
  | succ fuel ih =>
    rw [Simulation.nextWithin]
    cases hopen : s.finished with
    | true => exact ⟨0, Nat.zero_le _, .ended hopen⟩
    | false =>
      rw [if_neg Bool.false_ne_true]
      cases hnext : s.next with
      | error e => exact ⟨1, Nat.le_add_left 1 fuel, .failure hopen hnext⟩
      | ok answer =>
        obtain ⟨r, t⟩ := answer
        cases r with
        | some reading => exact ⟨1, Nat.le_add_left 1 fuel, .report hopen hnext⟩
        | none =>
          -- no report, so the next host is nearer to the first one
          have hasked := hs.next hopen hnext
          have hnearer := hasked.patience_lt hs
          obtain ⟨n, hn, hseeks⟩ := ih hasked.sound (by omega)
          exact ⟨n + 1, Nat.succ_le_succ hn, .silence hopen hnext hseeks⟩

/-- Collecting reports within a bound is a loop until the end, if the bound is above the questions that are left. -/
theorem Sound.exists_exhausts (hs : s.Sound) (hfuel : s.questionsLeft < fuel) :
    ∃ n, Exhausts s n (collect fuel s) := by
  induction fuel generalizing s with
  | zero => omega
  | succ fuel ih =>
    rw [collect]
    obtain ⟨n, -, hseeks⟩ : ∃ n ≤ s.hosts.size, Seeks s n s.nextReading := hs.exists_seeks hs.patience_le
    cases hreading : s.nextReading with
    | error e => exact ⟨n, (hreading ▸ hseeks).exhausts_error⟩
    | ok answer =>
      obtain ⟨r, t⟩ := answer
      rw [hreading] at hseeks
      obtain ⟨hpolled, hdone⟩ := hs.nextWithin hreading
      cases r with
      | none => exact ⟨n, hseeks.exhausts (.ended (hdone hs.patience_le rfl))⟩
      | some reading =>
        have hleft := hpolled.left
        rw [Option.toList_some, List.length_singleton] at hleft
        obtain ⟨m, hexhausts⟩ := ih hpolled.sound (by omega)
        exact ⟨n + m, hseeks.exhausts hexhausts⟩

theorem Reached.lt_of_open (h : Reached settings p s) (hopen : s.finished = false) {ticks : Nat}
    (hticks : ∀ k, (settings.tick k).before settings.stop = true ↔ k < ticks) : p < settings.scale * ticks := by
  have hround := (hticks _).1 (h.open_iff.1 hopen).1
  rwa [Nat.div_lt_iff_lt_mul h.scale_pos, Nat.mul_comm] at hround

/-- A loop until the end asks no host in a round behind the window. -/
theorem Exhausts.le {outcome : Except Breakdown (List Reading)} (h : Exhausts s n outcome)
    (hreached : Reached settings p s) {ticks : Nat}
    (hticks : ∀ k, (settings.tick k).before settings.stop = true ↔ k < ticks) :
    n ≤ settings.scale * ticks - p := by
  -- The questions are numbered on from `p`, and each that is asked has a number inside the window.
  induction h generalizing p with
  | ended => exact Nat.zero_le _
  | answer hopen hnext _ ih =>
    have hlt := hreached.lt_of_open hopen hticks
    have hrest := ih (hreached.next hopen hnext).1
    omega
  | failure hopen =>
    have hlt := hreached.lt_of_open hopen hticks
    omega

/-- A loop until the end breaks off only where a round in the window is followed by one without a date. -/
theorem Exhausts.exists_eq_ok {outcome : Except Breakdown (List Reading)} (h : Exhausts s n outcome)
    (hreached : Reached settings p s)
    (hdates : ∀ k, (settings.tick k).before settings.stop = true → (settings.tick (k + 1)).inRange = true) :
    ∃ reports, outcome = .ok reports := by
  rw [← h.ask_eq]
  cases hask : s.ask n with
  | ok answer => exact ⟨_, rfl⟩
  | error e =>
    obtain ⟨-, k, hround, hmissing⟩ := hreached.ask_error hask
    rw [hdates k hround.window] at hmissing
    cases hmissing

/-! ### Every simulation -/

/-- The first host has started, whenever a round begins. -/
theorem Sound.first_started (hs : s.Sound) {host : Host} (hhost : s.hosts[0]? = some host) :
    host.firstReading.upTo s.now = true := by
  obtain ⟨first, hfirst, hstarted⟩ := hs.first
  obtain rfl := Option.some.inj (hfirst.symm.trans hhost)
  exact Stamp.upTo_trans hstarted (Stamp.later_zero_upTo s.now)

/-- However often a simulation that was set up has been asked, both loops over it end. That for the next report ends
    after as many questions as there are hosts, at most, since the first host has started in every round; that until
    the end after as many for each round in the window. What is computed for them is what they come to, and that is
    no overflow if each round in the window is followed by one that has a date. -/
theorem loops_end {sim : Simulation} (hsim : ofSettings settings = .ok sim)
    (hstart : settings.start.nanos < 2 * Span.nanosPerSecond) (hask : sim.ask m = .ok (rs, s)) :
    (∀ host, s.hosts[0]? = some host → host.firstReading.upTo s.now = true) ∧
      (∃ n ≤ settings.scale, Seeks s n s.nextReading) ∧
      (∃ ticks, (∀ k, (settings.tick k).before settings.stop = true ↔ k < ticks) ∧
        ∃ n ≤ settings.scale * ticks, Exhausts s n s.readings) ∧
      ((∀ k, (settings.tick k).before settings.stop = true → (settings.tick (k + 1)).inRange = true) →
        (∃ r t, s.nextReading = .ok (r, t)) ∧ ∃ reports, s.readings = .ok reports) := by
  obtain ⟨p, hreached, -⟩ := (reached_zero hsim hstart).of_ask hask
  have hsound := hreached.sound
  have hsize : s.hosts.size = settings.scale := hreached.numbered.size
  obtain ⟨ticks, hticks⟩ := exists_ticks (fresh_of_ofSettings hsim).positive
  obtain ⟨n, hn, hseeks⟩ : ∃ n ≤ s.hosts.size, Seeks s n s.nextReading := hsound.exists_seeks hsound.patience_le
  obtain ⟨k, hexhausts⟩ : ∃ k, Exhausts s k s.readings :=
    hsound.exists_exhausts hsound.questionsLeft_lt_questionBound
  have hk := hexhausts.le hreached hticks
  refine ⟨fun host => hsound.first_started, ⟨n, hsize ▸ hn, hseeks⟩, ⟨ticks, hticks, k, by omega, hexhausts⟩,
    fun hdates => ?_⟩
  obtain ⟨reports, hreports⟩ := hexhausts.exists_eq_ok hreached hdates
  refine ⟨?_, reports, hreports⟩
  cases hreading : s.nextReading with
  | ok answer => exact ⟨answer.1, answer.2, rfl⟩
  | error e =>
    rw [hreading] at hseeks
    obtain ⟨reports, hbroken⟩ := hseeks.exhausts_error.exists_eq_ok hreached hdates
    cases hbroken

/-- Three hosts for twenty seconds without a limit; the last one starts too late to report. -/
def Settings.lateHost : Settings := { Settings.short with scale := 3, maxPoints := 0 }

theorem loops_end_late_host : ∃ sim rs s, ofSettings Settings.lateHost = .ok sim ∧
    Settings.lateHost.start.nanos < 2 * Span.nanosPerSecond ∧ sim.ask 2 = .ok (rs, s) ∧
      (∃ n ≤ 3, Seeks s n s.nextReading) ∧ (∃ n ≤ 6, Exhausts s n s.readings) ∧
      (∃ r t, s.nextReading = .ok (r, t)) ∧ ∃ reports, s.readings = .ok reports := by
  have hset : ((ofSettings Settings.lateHost).bind (·.ask 2)).toOption.isSome = true := by decide +kernel
  have hstart : Settings.lateHost.start.nanos < 2 * Span.nanosPerSecond := by decide
  cases hsim : ofSettings Settings.lateHost with
  | error e => rw [hsim] at hset; cases hset
  | ok sim =>
    cases hask : sim.ask 2 with
    | error e =>
      rw [hsim, Except.bind, hask] at hset
      cases hset
    | ok answer =>
      obtain ⟨rs, s⟩ := answer
      obtain ⟨-, hseeks, ⟨ticks, hticks, n, hn, hexhausts⟩, hfine⟩ := loops_end hsim hstart hask
      have hover : ¬2 < ticks := fun hlt => absurd ((hticks 2).2 hlt) (by decide)
      have hdated := hfine fun k hk => by
        have hlt := (hticks k).1 hk
        obtain rfl | rfl : k = 0 ∨ k = 1 := by omega
        · decide
        · decide
      have hscale : Settings.lateHost.scale = 3 := rfl
      rw [hscale] at hn
      exact ⟨sim, rs, s, rfl, hstart, hask, hseeks, ⟨n, by omega, hexhausts⟩, hdated⟩

end Simulation
end IngestBench
