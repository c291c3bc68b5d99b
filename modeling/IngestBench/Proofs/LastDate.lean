import IngestBench.Proofs.Acceptance
import IngestBench.Proofs.Questions

/-! When the dates of a simulation run out. Its settings are checked, but not that the dates it needs exist: the
    first reading of each host, and the time after each round that is carried out, also after the last one. It
    overflows exactly when one of these dates does not exist. -/

namespace IngestBench

/-! ### Dates -/

namespace Stamp

variable {t : Stamp}

/-- A point in time as a calendar has it. -/
structure IsDate (t : Stamp) : Prop where
  nanos : t.nanos < 2 * Span.nanosPerSecond
  range : t.inRange = true

theorem inRange_iff : t.inRange = true ↔ -8334601228800 ≤ t.seconds ∧ t.seconds ≤ 8210266876799 := by
  have hleast : leastSeconds = -8334601228800 := by decide
  have hgreatest : greatestSeconds = 8210266876799 := by decide
  rw [inRange, hleast, hgreatest, Bool.and_eq_true, decide_eq_true_eq, decide_eq_true_eq]

/-- The longest interval leads out of the calendar from every date in it. -/
theorem inRange_later_of_long {span : Span} (h : t.inRange = true)
    (hlong : Simulation.longestInterval.nanos < span.nanos) : (t.later span).inRange = false := by
  have hlater := elapsed_later t span
  have hbound : Simulation.longestInterval.nanos = 9223372036854775807000000 := by decide
  rw [← Bool.not_eq_true, inRange_iff]
  rw [inRange_iff] at h
  simp only [elapsed, Span.nanosPerSecond] at hlater
  omega

end Stamp

namespace Simulation

variable {settings : Settings} {s : Simulation} {p n : Nat}

theorem slotTime_eq (hstart : settings.start.inRange = true) (slots : Nat) :
    slotTime settings.start settings.interval slots =
      if (settings.tick slots).inRange then .ok (settings.tick slots) else .error .overflow := by
  rw [slotTime]
  dsimp only
  split
  · rename_i hlong
    have hout := Stamp.inRange_later_of_long hstart hlong
    rw [Settings.tick, hout]
    rfl
  · rw [Stamp.later?, Settings.tick]
    cases (settings.start.later ⟨settings.interval.nanos * slots⟩).inRange <;> rfl

/-! ### First readings -/

/-- Drawing one more host: it has a date to start at, or there is none. -/
theorem draw_outcome (hstart : settings.start.inRange = true) (id : Nat) :
    ((settings.tick (settings.delay id)).inRange = true ∧
      ∃ host, Host.draw settings id (settings.drawsFor id) = .ok (host, settings.drawsFor (id + 1))) ∨
    ((settings.tick (settings.delay id)).inRange = false ∧
      Host.draw settings id (settings.drawsFor id) = .error .overflow) := by
  have hdraw := (Sketch.draw_spec id (settings.drawsFor id)).2 settings
  rw [slotTime_eq hstart] at hdraw
  rw [hdraw, Settings.drawsFor, Settings.delay, Sketch.rest]
  -- the drawn values are never looked at
  generalize Sketch.draw id (settings.drawsFor id) = drawn
  cases (settings.tick drawn.1.delay).inRange with
  | true => exact .inl ⟨rfl, _, rfl⟩
  | false => exact .inr ⟨rfl, rfl⟩

/-- Hosts are drawn if each of them has a date to start at. -/
theorem drawHosts_outcome (hstart : settings.start.inRange = true) (n : Nat) (hosts : Array Host) :
    (∃ drawn, drawHosts settings n hosts.size (settings.drawsFor hosts.size) hosts = .ok drawn ∧
      ∀ id, hosts.size ≤ id → id < hosts.size + n → (settings.tick (settings.delay id)).inRange = true) ∨
    (drawHosts settings n hosts.size (settings.drawsFor hosts.size) hosts = .error .overflow ∧
      ∃ id < hosts.size + n, (settings.tick (settings.delay id)).inRange = false) := by
  induction n generalizing hosts with
  | zero => exact .inl ⟨_, rfl, fun id hlow hhigh => by omega⟩
  | succ n ih =>
    rcases draw_outcome hstart hosts.size with ⟨hdated, host, hdraw⟩ | ⟨hout, hdraw⟩
    · have hstep : drawHosts settings (n + 1) hosts.size (settings.drawsFor hosts.size) hosts =
          drawHosts settings n (hosts.push host).size (settings.drawsFor (hosts.push host).size) (hosts.push host) := by
        rw [drawHosts, hdraw, Array.size_push]
        rfl
      have hsize : (hosts.push host).size + n = hosts.size + (n + 1) := by
        rw [Array.size_push]
        omega
      rw [hstep, ← hsize]
      refine (ih (hosts.push host)).imp ?_ id
      rintro ⟨drawn, hdrawn, hdates⟩
      refine ⟨drawn, hdrawn, fun id hlow hhigh => ?_⟩
      rcases Nat.eq_or_lt_of_le hlow with rfl | hlow
      · exact hdated
      · exact hdates id (by rwa [Array.size_push]) hhigh
    · refine .inr ⟨?_, hosts.size, by omega, hout⟩
      rw [drawHosts, hdraw]
      rfl

/-- Settings that are not refused are set up exactly if each host has a date to start at. -/
theorem ofSettings_outcome (hstart : settings.start.inRange = true) (hscale : 0 < settings.scale)
    (hinterval : 0 < settings.interval.nanos) (hshort : settings.interval.nanos ≤ longestInterval.nanos) :
    (∃ sim, ofSettings settings = .ok sim ∧
      ∀ id < settings.scale, (settings.tick (settings.delay id)).inRange = true) ∨
    (ofSettings settings = .error .overflow ∧
      ∃ id < settings.scale, (settings.tick (settings.delay id)).inRange = false) := by
  rw [ofSettings_eq hscale hinterval, if_neg (Nat.not_lt.2 hshort)]
  have houtcome := drawHosts_outcome hstart settings.scale #[]
  rw [Array.size_empty, Nat.zero_add] at houtcome
  rcases houtcome with ⟨drawn, hdrawn, hdates⟩ | ⟨hover, hout⟩
  · exact .inl ⟨settings.begin drawn, congrArg (Except.map settings.begin) hdrawn,
      fun id hid => hdates id (Nat.zero_le _) hid⟩
  · exact .inr ⟨congrArg (Except.map settings.begin) hover, hout⟩

/-! ### Rounds -/

/-- A round of the window in which every host is asked: the limit is not reached before its last question. -/
structure Settings.CarriesOut (settings : Settings) (k : Nat) : Prop where
  window : (settings.tick k).before settings.stop = true
  room : settings.maxPoints = 0 ∨ settings.reportsBefore (settings.scale * (k + 1) - 1) < settings.maxPoints

namespace Reached

/-- A question that fails is the last one of a round that is carried out, and the next round has no date. -/
theorem ask_error (h : Reached settings p s) {e : Breakdown} (hask : s.ask n = .error e) :
    e = .overflow ∧ ∃ k, settings.CarriesOut k ∧ (settings.tick (k + 1)).inRange = false := by
  induction n generalizing p s with
  | zero => cases hask
  | succ n ih =>
    cases hopen : s.finished with
    | true => rw [ask_of_finished hopen] at hask; cases hask
    | false =>
      rcases h.sound.next_outcome hopen with ⟨hlast, hout, hnext⟩ | ⟨r, t, hnext⟩
      · obtain ⟨hwindow, hroom⟩ := h.open_iff.1 hopen
        have hnumber : settings.scale * (p / settings.scale + 1) - 1 = p := by
          have hsplit := Nat.div_add_mod p settings.scale
          have hmod := h.last_iff.1 hlast
          rw [Nat.mul_succ]
          omega
        rw [ask, hnext] at hask
        obtain rfl := Except.error.inj hask
        rw [h.now_later] at hout
        exact ⟨rfl, p / settings.scale, ⟨hwindow, by rwa [hnumber]⟩, hout⟩
      · rw [ask_succ hnext] at hask
        cases hrest : t.ask n with
        | ok answer => rw [hrest] at hask; cases hask
        | error e' =>
          rw [hrest] at hask
          obtain rfl := Except.error.inj hask
          exact ih (h.next hopen hnext).1 hrest

/-- The simulation goes on as long as a round is left that is carried out. -/
theorem open_of_round (h : Reached settings p s) {k : Nat} (hp : p < settings.scale * (k + 1))
    (hround : settings.CarriesOut k) : s.finished = false := by
  have hinterval : 0 < settings.interval.nanos := h.numbered.interval ▸ h.numbered.sound.interval
  have hupTo := (tick_upTo_tick hinterval).2 (Nat.le_of_lt_succ (Nat.div_lt_of_lt_mul hp))
  refine h.open_iff.2 ⟨Bool.not_eq_false _ |>.mp fun hover => ?_, hround.room.imp_right fun hlt => ?_⟩
  · have hlater := Stamp.upTo_trans (by rw [Stamp.upTo, hover]; rfl) hupTo
    rw [Stamp.upTo, hround.window] at hlater
    cases hlater
  · exact Nat.lt_of_le_of_lt (reportsBefore_mono (by omega)) hlt

/-- Where a round is carried out and the next one has no date, a question fails. -/
theorem ask_eq_overflow (h : Reached settings p s) {k : Nat} (hp : p + n + 1 = settings.scale * (k + 1))
    (hround : settings.CarriesOut k) (hout : (settings.tick (k + 1)).inRange = false) :
    s.ask (n + 1) = .error .overflow := by
  induction n generalizing p s with
  | zero =>
    have hopen := h.open_of_round (by omega) hround
    obtain ⟨hdiv, hmod⟩ : p / settings.scale = k ∧ p % settings.scale = settings.scale - 1 := by
      have hpos := h.scale_pos
      rw [Nat.mul_succ] at hp
      exact (Nat.div_mod_unique hpos).2 ⟨by omega, by omega⟩
    have hlast : s.cursor + 1 = s.hosts.size := h.last_iff.2 (by have := h.scale_pos; omega)
    rw [← hdiv, ← h.now_later] at hout
    rw [Simulation.ask, next_eq_overflow h.sound hopen hlast hout]
    rfl
  | succ n ih =>
    have hopen := h.open_of_round (by omega) hround
    rcases h.sound.next_outcome hopen with ⟨-, -, hnext⟩ | ⟨r, t, hnext⟩
    · rw [Simulation.ask, hnext]
      rfl
    · rw [ask_succ hnext, ih (h.next hopen hnext).1 (by omega)]
      rfl

end Reached

/-! ### Overflow -/

/-- Setting up or asking comes upon a date that does not exist. -/
def Settings.Overflows (settings : Settings) : Prop :=
  ofUseCase settings = .error .overflow ∨
    ∃ sim n, ofUseCase settings = .ok sim ∧ sim.ask n = .error .overflow

/-- Settings that pass the check overflow exactly if they are not refused and a date is missing: that of the first
    reading of a host, or that behind a round that is carried out. -/
theorem overflows_iff (hcheck : settings.check = .ok ()) (hstart : settings.start.IsDate) :
    settings.Overflows ↔
      settings.useCase ∈ useCases ∧ settings.interval.nanos ≤ longestInterval.nanos ∧
        ((∃ id < settings.scale, (settings.tick (settings.delay id)).inRange = false) ∨
          ∃ k, settings.CarriesOut k ∧ (settings.tick (k + 1)).inRange = false) := by
  have hchecked := Settings.check_eq_ok_iff.1 hcheck
  rw [Settings.Overflows, ofUseCase]
  by_cases hname : settings.useCase ∈ useCases
  swap
  · rw [if_neg fun hlisted => hname (List.contains_iff_mem.1 hlisted)]
    exact ⟨(by rintro (h | ⟨_, _, h, -⟩) <;> cases h), fun h => absurd h.1 hname⟩
  rw [if_pos (List.contains_iff_mem.2 hname)]
  by_cases hshort : settings.interval.nanos ≤ longestInterval.nanos
  swap
  · rw [ofSettings_eq hchecked.scale hchecked.interval, if_pos (Nat.lt_of_not_le hshort)]
    exact ⟨(by rintro (h | ⟨_, _, h, -⟩) <;> cases h), fun h => absurd h.2.1 hshort⟩
  refine Iff.trans ?_ (and_iff_right hname).symm
  refine Iff.trans ?_ (and_iff_right hshort).symm
  rcases ofSettings_outcome hstart.range hchecked.scale hchecked.interval hshort with
    ⟨sim, hsim, hdates⟩ | ⟨hover, hout⟩
  · have hreached := reached_zero hsim hstart.nanos
    rw [hsim]
    constructor
    · rintro (h | ⟨sim', n, h, hask⟩)
      · cases h
      · obtain rfl := Except.ok.inj h
        exact .inr (hreached.ask_error hask).2
    · rintro (⟨id, hid, hmissing⟩ | ⟨k, hround, hmissing⟩)
      · rw [hdates id hid] at hmissing
        cases hmissing
      · have hpos : 0 < settings.scale * (k + 1) := Nat.mul_pos hchecked.scale (Nat.succ_pos k)
        have hask := hreached.ask_eq_overflow (n := settings.scale * (k + 1) - 1) (by omega) hround hmissing
        exact .inr ⟨sim, _, rfl, hask⟩
  · exact ⟨fun _ => .inl hout, fun _ => .inl hover⟩

/-- Readings that are nine million years apart. -/
def Settings.sparse : Settings := { Settings.standard with interval := .ofSeconds (9000000 * 31557600) }

theorem overflows_iff_sparse : Settings.sparse.check = .ok () ∧ Settings.sparse.start.IsDate ∧
    Settings.sparse.Overflows := by
  have hcheck : Settings.sparse.check = .ok () := rfl
  have hstart : Settings.sparse.start.IsDate := ⟨by decide, by decide⟩
  have hround : Settings.sparse.CarriesOut 0 := ⟨by decide, .inl rfl⟩
  exact ⟨hcheck, hstart, (overflows_iff hcheck hstart).2 ⟨by decide, by decide, .inr ⟨0, hround, by decide⟩⟩⟩

/-- Settings may pass the check, and the first question asks for a time that does not exist. -/
theorem checked_settings_overflow :
    Settings.sparse.check = .ok () ∧
      ∃ sim, ofUseCase Settings.sparse = .ok sim ∧ sim.ask 1 = .error .overflow := by
  have hstart : Settings.sparse.start.IsDate := ⟨by decide, by decide⟩
  refine ⟨rfl, ?_⟩
  rw [ofUseCase, if_pos (by decide)]
  rcases ofSettings_outcome hstart.range (by decide) (by decide) (by decide) with ⟨sim, hsim, -⟩ | ⟨-, hout⟩
  · have hround : Settings.sparse.CarriesOut 0 := ⟨by decide, .inl rfl⟩
    have hask := (reached_zero hsim hstart.nanos).ask_eq_overflow (n := 0) (by decide) hround (by decide)
    exact ⟨sim, hsim, hask⟩
  · obtain ⟨id, hid, hmissing⟩ := hout
    obtain rfl : id = 0 := Nat.lt_one_iff.1 hid
    rw [(delay_spec Settings.sparse 0).2 rfl] at hmissing
    exact absurd hmissing (by decide)

end Simulation
end IngestBench
