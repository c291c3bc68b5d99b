import IngestBench.Proofs.PointText

/-! How a simulation goes on. Its clock moves by one interval after each round of questions, and the first host
    reports in each round. So asking as many hosts as there are brings a report or the end, and the bound on the
    questions is not reached before the window is over. -/

namespace IngestBench

open Text (Lacks)

/-! ### Points in time -/

namespace Stamp

variable {a b c t : Stamp}

/-- A point in time inside a leap second stays there as long as it can; every other one counts on from the
    nanoseconds of its second. -/
theorem later_cases (t : Stamp) (span : Span) :
    (Span.nanosPerSecond ≤ t.nanos ∧ t.nanos + span.nanos < 2 * Span.nanosPerSecond ∧
      t.later span = ⟨t.seconds, t.nanos + span.nanos⟩) ∨
    ((t.nanos < Span.nanosPerSecond ∨ 2 * Span.nanosPerSecond ≤ t.nanos + span.nanos) ∧
      t.later span =
        ⟨t.seconds + ((t.nanos % Span.nanosPerSecond + span.nanos) / Span.nanosPerSecond : Nat),
          (t.nanos % Span.nanosPerSecond + span.nanos) % Span.nanosPerSecond⟩) := by
  have hspan : span.nanos = span.seconds * Span.nanosPerSecond + span.fraction := by
    rw [Nat.mul_comm]
    exact (Nat.div_add_mod _ _).symm
  have hfraction : span.fraction < Span.nanosPerSecond := Nat.mod_lt _ (by decide)
  by_cases hstays : (Span.nanosPerSecond ≤ t.nanos && span.seconds == 0 &&
      t.nanos + span.fraction < 2 * Span.nanosPerSecond) = true
  · have heq : t.later span = ⟨t.seconds, t.nanos + span.fraction⟩ := if_pos hstays
    simp only [Bool.and_eq_true, beq_iff_eq, decide_eq_true_eq] at hstays
    simp only [Span.nanosPerSecond] at *
    refine .inl ⟨by omega, by omega, ?_⟩
    rw [heq, Stamp.mk.injEq]
    exact ⟨rfl, by omega⟩
  · have heq := show t.later span = _ from if_neg hstays
    simp only [Bool.and_eq_true, beq_iff_eq, decide_eq_true_eq] at hstays
    simp only [Span.nanosPerSecond] at *
    refine .inr ⟨by omega, ?_⟩
    rw [heq, Stamp.mk.injEq]
    exact ⟨by omega, by omega⟩

theorem later?_eq_some {span : Span} (h : t.later? span = some a) : a = t.later span := by
  unfold later? at h
  simp only at h
  split at h
  · exact (Option.some.inj h).symm
  · cases h

/-- The nanoseconds since the start of 1970, without those of a leap second. -/
def elapsed (t : Stamp) : Int := t.seconds * Span.nanosPerSecond + (t.nanos % Span.nanosPerSecond : Nat)

theorem elapsed_later (t : Stamp) (span : Span) : (t.later span).elapsed = t.elapsed + span.nanos := by
  rcases later_cases t span with ⟨hleap, hstays, heq⟩ | ⟨-, heq⟩ <;>
    simp only [heq, elapsed, Span.nanosPerSecond] at * <;> omega

theorem upTo_iff : a.upTo b = true ↔ a.seconds < b.seconds ∨ a.seconds = b.seconds ∧ a.nanos ≤ b.nanos := by
  simp only [upTo, before, Bool.not_eq_true', Bool.or_eq_false_iff, Bool.and_eq_false_iff, decide_eq_false_iff_not,
    beq_eq_false_iff_ne]
  omega

theorem elapsed_lt_of_upTo_eq_false (h : a.upTo t = false) : t.elapsed < (a.seconds + 1) * Span.nanosPerSecond := by
  have hnot : ¬(a.seconds < t.seconds ∨ a.seconds = t.seconds ∧ a.nanos ≤ t.nanos) := by
    rw [← upTo_iff, h]
    simp
  simp only [elapsed, Span.nanosPerSecond]
  omega

theorem upTo_trans (hab : a.upTo b = true) (hbc : b.upTo c = true) : a.upTo c = true := by
  rw [upTo_iff] at *
  omega

/-- When no time passes, a point in time at most moves back: its nanoseconds are brought into range. -/
theorem later_zero_upTo (t : Stamp) : (t.later Span.zero).upTo t = true := by
  rw [upTo_iff]
  rcases later_cases t Span.zero with ⟨-, -, heq⟩ | ⟨-, heq⟩ <;>
    rw [heq] <;> simp only [Span.zero, Span.nanosPerSecond, true_and] <;> omega

theorem later_zero_upTo_later (t : Stamp) (span : Span) : (t.later Span.zero).upTo (t.later span) = true := by
  rw [upTo_iff]
  rcases later_cases t Span.zero with ⟨hleap, hstays, heq⟩ | ⟨hleap, heq⟩ <;>
    rcases later_cases t span with ⟨hleap', hstays', heq'⟩ | ⟨hleap', heq'⟩ <;>
      rw [heq, heq'] <;> clear heq heq' <;>
        simp only [Span.zero, Span.nanosPerSecond, true_and] at * <;> omega

theorem later_later_zero (t : Stamp) (span : Span) : (t.later span).later Span.zero = t.later span := by
  rcases later_cases (t.later span) Span.zero with ⟨-, -, heq⟩ | ⟨hleap, heq⟩
  · exact heq
  · rw [heq]
    rcases later_cases t span with ⟨hleap', hstays', heq'⟩ | ⟨hleap', heq'⟩
    · rw [heq'] at hleap
      simp only [Span.zero, Span.nanosPerSecond, Nat.add_zero] at *
      omega
    · simp only [heq', Span.zero, Span.nanosPerSecond, Stamp.mk.injEq] at *
      omega

end Stamp

namespace Simulation

/-! ### Hosts -/

namespace Host

variable {host : Host}

/-- A host whose tags stay on one line, with a value for each field. -/
structure Plain (host : Host) : Prop where
  tags : ∀ tag ∈ host.tags, Lacks Input.isLineEnd tag.1 ∧ Lacks Input.isLineEnd tag.2
  usage : host.usage.length = fieldNames.length

theorem length_foldl_walk (usage done : List Float) (d : Draws) :
    (usage.foldl (fun (done, d) x =>
      let (step, d) := Draws.between (-1.0) 1.0 d
      (done ++ [clamp (x + step)], d)) (done, d)).1.length = done.length + usage.length := by
  induction usage generalizing done d with
  | nil => rfl
  | cons x rest ih =>
    rw [List.foldl_cons, ih, List.length_append, List.length_cons]
    simp only [List.length_cons, List.length_nil]
    omega

theorem Plain.advance (h : host.Plain) (d : Draws) : (host.advance d).1.Plain where
  tags := h.tags
  usage := (length_foldl_walk host.usage [] d).trans (by rw [h.usage]; rfl)

theorem Plain.reading (h : host.Plain) (time : Stamp) :
    (host.reading time).OnOneLine ∧ (host.reading time).Fits header := by
  have hnames : ∀ name ∈ fieldNames, Lacks Input.isLineEnd name := by decide
  constructor
  · have hmeasurement : Lacks Input.isLineEnd measurement := by decide
    refine ⟨hmeasurement, h.tags, ?_⟩
    intro field hfield
    exact hnames field.1 (List.of_mem_zip hfield).1
  · have hcomma : ',' ∉ measurement.toList := by decide
    have hlisted : header.fields? measurement = some fieldNames := by decide
    refine ⟨hcomma, fieldNames, hlisted, ?_⟩
    have hlength : (fieldNames.zip host.usage).length = fieldNames.length := by
      rw [List.length_zip, h.usage, Nat.min_self]
    exact hlength

end Host

/-! ### Questions -/

theorem bind_eq_ok {ε α β : Type} {x : Except ε α} {f : α → Except ε β} {b : β} (h : (x >>= f) = .ok b) :
    ∃ a, x = .ok a ∧ f a = .ok b := by
  cases x with
  | error e => cases h
  | ok a => exact ⟨a, rfl, h⟩

variable {s s' : Simulation} {r : Option Reading}

/-- What holds of a simulation between two questions. The first host has started. -/
structure Sound (s : Simulation) : Prop where
  cursor : s.cursor < s.hosts.size
  interval : 0 < s.interval.nanos
  first : ∃ host, s.hosts[0]? = some host ∧ host.firstReading.upTo (s.now.later Span.zero) = true
  hosts : ∀ (i : Nat) (host : Host), s.hosts[i]? = some host → host.Plain

/-- The rounds of questions that can still be begun. -/
def ticksLeft (s : Simulation) : Nat :=
  ((s.stop.seconds + 1) * Span.nanosPerSecond - s.now.elapsed + s.interval.nanos).toNat / s.interval.nanos

/-- The questions that can still be asked. -/
def questionsLeft (s : Simulation) : Nat := s.hosts.size * s.ticksLeft - s.cursor

/-- The simulation with a host moved on. -/
def reported (s : Simulation) (host : Host) : Simulation :=
  { s with
    hosts := s.hosts.set! s.cursor (host.advance s.draws).1
    draws := (host.advance s.draws).2
    emitted := s.emitted + 1 }

@[simp] theorem size_reported (s : Simulation) (host : Host) : (s.reported host).hosts.size = s.hosts.size := by
  simp [reported]

theorem hosts_reported (host : Host) (hcursor : s.cursor < s.hosts.size) (i : Nat) :
    (s.reported host).hosts[i]? = if s.cursor = i then some (host.advance s.draws).1 else s.hosts[i]? := by
  simp only [reported, Array.set!_eq_setIfInBounds, Array.getElem?_setIfInBounds, hcursor]
  rfl

theorem turn_cases (h : s.turn = .ok s') :
    (s.cursor + 1 ≠ s.hosts.size ∧ s' = { s with cursor := s.cursor + 1 }) ∨
    (s.cursor + 1 = s.hosts.size ∧ s' = { s with cursor := 0, now := s.now.later s.interval }) := by
  unfold turn at h
  split at h
  · rename_i hlast
    split at h
    · rename_i now hnow
      obtain rfl := Stamp.later?_eq_some hnow
      exact .inr ⟨hlast, (Except.ok.inj h).symm⟩
    · cases h
  · rename_i hmore
    exact .inl ⟨hmore, (Except.ok.inj h).symm⟩

theorem size_turn (h : s.turn = .ok s') : s'.hosts.size = s.hosts.size := by
  rcases turn_cases h with ⟨-, rfl⟩ | ⟨-, rfl⟩ <;> rfl

theorem next_cases (hs : s.Sound) (hopen : s.finished = false) (h : s.next = .ok (r, s')) :
    ∃ host, s.hosts[s.cursor]? = some host ∧
      ((host.firstReading.upTo s.now = true ∧ r = some (host.reading s.now) ∧ (s.reported host).turn = .ok s') ∨
        (host.firstReading.upTo s.now = false ∧ r = none ∧ s.turn = .ok s')) := by
  obtain ⟨host, hhost⟩ : ∃ host, s.hosts[s.cursor]? = some host :=
    Option.isSome_iff_exists.1 (by simp [hs.cursor])
  refine ⟨host, hhost, ?_⟩
  simp only [next, hopen, hhost] at h
  cases hstarted : host.firstReading.upTo s.now with
  | true =>
    simp only [hstarted, if_true] at h
    obtain ⟨t, hturn, heq⟩ := bind_eq_ok (x := (s.reported host).turn) h
    obtain ⟨rfl, rfl⟩ := Prod.mk.inj (Except.ok.inj heq)
    exact .inl ⟨rfl, rfl, hturn⟩
  | false =>
    simp only [hstarted] at h
    obtain ⟨t, hturn, heq⟩ := bind_eq_ok h
    obtain ⟨rfl, rfl⟩ := Prod.mk.inj (Except.ok.inj heq)
    exact .inr ⟨rfl, rfl, hturn⟩

theorem Sound.turn (hs : s.Sound) (h : s.turn = .ok s') : s'.Sound := by
  obtain ⟨host, hhost, hfirst⟩ := hs.first
  rcases turn_cases h with ⟨hmore, rfl⟩ | ⟨-, rfl⟩
  · have hcursor : s.cursor + 1 < s.hosts.size := by have := hs.cursor; omega
    exact ⟨hcursor, hs.interval, hs.first, hs.hosts⟩
  · have hsize : 0 < s.hosts.size := Nat.lt_of_le_of_lt (Nat.zero_le _) hs.cursor
    refine ⟨hsize, hs.interval, ⟨host, hhost, ?_⟩, hs.hosts⟩
    rw [Stamp.later_later_zero]
    exact Stamp.upTo_trans hfirst (Stamp.later_zero_upTo_later _ _)

theorem Sound.reported (hs : s.Sound) {host : Host} (hhost : s.hosts[s.cursor]? = some host) :
    (s.reported host).Sound := by
  have hplain : (host.advance s.draws).1.Plain := (hs.hosts s.cursor host hhost).advance s.draws
  have hget := hosts_reported host hs.cursor
  refine ⟨?_, hs.interval, ?_, ?_⟩
  · rw [size_reported]
    exact hs.cursor
  · obtain ⟨first, hfirst, hstarted⟩ := hs.first
    by_cases hzero : s.cursor = 0
    · rw [hzero, hfirst] at hhost
      obtain rfl := Option.some.inj hhost
      exact ⟨(first.advance s.draws).1, (hget 0).trans (if_pos hzero), hstarted⟩
    · exact ⟨first, (hget 0).trans ((if_neg hzero).trans hfirst), hstarted⟩
  · intro i other hother
    rw [hget] at hother
    split at hother
    · obtain rfl := Option.some.inj hother
      exact hplain
    · exact hs.hosts i other hother

/-- While the window is open, a round can be begun. -/
theorem ticksLeft_pos (hs : s.Sound) (hopen : s.stop.upTo s.now = false) : 0 < s.ticksLeft := by
  have hlow := Stamp.elapsed_lt_of_upTo_eq_false hopen
  exact Nat.div_pos (by omega) hs.interval

theorem ticksLeft_later (hs : s.Sound) (hopen : s.stop.upTo s.now = false) :
    ({ s with now := s.now.later s.interval } : Simulation).ticksLeft + 1 = s.ticksLeft := by
  have hlow := Stamp.elapsed_lt_of_upTo_eq_false hopen
  have hnext := Stamp.elapsed_later s.now s.interval
  have hsum : ((s.stop.seconds + 1) * Span.nanosPerSecond - s.now.elapsed + s.interval.nanos).toNat =
      ((s.stop.seconds + 1) * Span.nanosPerSecond - (s.now.later s.interval).elapsed + s.interval.nanos).toNat +
        s.interval.nanos := by
    omega
  simp only [ticksLeft]
  rw [hsum, Nat.add_div_right _ hs.interval]

/-- Each question takes one from the questions that can still be asked. -/
theorem Sound.questionsLeft_turn (hs : s.Sound) (hopen : s.stop.upTo s.now = false) (h : s.turn = .ok s') :
    s'.questionsLeft < s.questionsLeft := by
  have hcursor := hs.cursor
  obtain ⟨ticks, hticks⟩ : ∃ ticks, s.ticksLeft = ticks + 1 :=
    Nat.exists_eq_succ_of_ne_zero (Nat.pos_iff_ne_zero.1 (ticksLeft_pos hs hopen))
  have hround : s.questionsLeft = s.hosts.size * ticks + s.hosts.size - s.cursor := by
    rw [questionsLeft, hticks, Nat.mul_succ]
  rcases turn_cases h with ⟨hmore, rfl⟩ | ⟨hlast, rfl⟩
  · have hleft : ({ s with cursor := s.cursor + 1 } : Simulation).questionsLeft =
        s.hosts.size * s.ticksLeft - (s.cursor + 1) := rfl
    rw [hleft, hticks, Nat.mul_succ]
    omega
  · have hleft := ticksLeft_later hs hopen
    have hafter : ({ s with cursor := 0, now := s.now.later s.interval } : Simulation).questionsLeft =
        s.hosts.size * ({ s with now := s.now.later s.interval } : Simulation).ticksLeft := rfl
    rw [hticks, Nat.add_right_cancel_iff] at hleft
    rw [hafter, hleft]
    omega

/-- What a question has done: it has cost one of those that are left, and it has brought a report of a plain host
    or, behind the first host, none. -/
structure Asked (s : Simulation) (r : Option Reading) (s' : Simulation) : Prop where
  sound : s'.Sound
  size : s'.hosts.size = s.hosts.size
  left : s'.questionsLeft < s.questionsLeft
  plain : ∀ reading ∈ r, reading.OnOneLine ∧ reading.Fits header
  silent : r = none → s.cursor ≠ 0 ∧ (s'.cursor = s.cursor + 1 ∨ s'.cursor = 0)

theorem Sound.next (hs : s.Sound) (hopen : s.finished = false) (h : s.next = .ok (r, s')) : s.Asked r s' := by
  have hwindow : s.stop.upTo s.now = false := (Bool.or_eq_false_iff.1 hopen).1
  obtain ⟨host, hhost, ⟨-, rfl, hturn⟩ | ⟨hnot, rfl, hturn⟩⟩ := next_cases hs hopen h
  · have hreported := hs.reported hhost
    have hsize := size_reported s host
    have hleft : (s.reported host).questionsLeft = s.questionsLeft := by
      simp only [questionsLeft, hsize]
      rfl
    refine ⟨hreported.turn hturn, ?_, ?_, ?_, by simp⟩
    · exact (size_turn hturn).trans hsize
    · rw [← hleft]
      exact hreported.questionsLeft_turn hwindow hturn
    · intro reading hreading
      obtain rfl := Option.mem_some_iff.1 hreading
      exact (hs.hosts s.cursor host hhost).reading s.now
  · refine ⟨hs.turn hturn, ?_, hs.questionsLeft_turn hwindow hturn, by simp, fun _ => ⟨?_, ?_⟩⟩
    · exact size_turn hturn
    · -- the first host is never silent
      intro hzero
      obtain ⟨first, hfirst, hstarted⟩ := hs.first
      rw [hzero, hfirst] at hhost
      obtain rfl := Option.some.inj hhost
      have hnow := Stamp.upTo_trans hstarted (Stamp.later_zero_upTo s.now)
      rw [hnow] at hnot
      cases hnot
    · rcases turn_cases hturn with ⟨-, rfl⟩ | ⟨-, rfl⟩
      · exact .inl rfl
      · exact .inr rfl

/-! ### Reports -/

/-- So many questions bring a report, or the end. -/
def patience (s : Simulation) : Nat := if s.cursor = 0 then 1 else s.hosts.size - s.cursor + 1

theorem patience_pos (s : Simulation) : 0 < s.patience := by
  unfold patience
  split <;> omega

theorem Sound.patience_le (hs : s.Sound) : s.patience ≤ s.hosts.size := by
  have hcursor := hs.cursor
  unfold patience
  split <;> omega

/-- A question without a report is behind the first host, and the next one is nearer to it. -/
theorem Asked.patience_lt (h : s.Asked none s') (hs : s.Sound) : s'.patience < s.patience := by
  obtain ⟨hcursor, hnextCursor⟩ := h.silent rfl
  have hsize := h.size
  have hbound := hs.cursor
  unfold patience
  rw [if_neg hcursor]
  split <;> omega

/-- What asking until someone reports has done. -/
structure Polled (s : Simulation) (r : Option Reading) (s' : Simulation) : Prop where
  sound : s'.Sound
  left : s'.questionsLeft + r.toList.length ≤ s.questionsLeft
  plain : ∀ reading ∈ r, reading.OnOneLine ∧ reading.Fits header

theorem Sound.nextWithin {fuel : Nat} (hs : s.Sound) (h : nextWithin fuel s = .ok (r, s')) :
    s.Polled r s' ∧ (s.patience ≤ fuel → r = none → s'.finished = true) := by
  induction fuel generalizing s with
  | zero =>
    obtain ⟨rfl, rfl⟩ := Prod.mk.inj (Except.ok.inj h)
    exact ⟨⟨hs, Nat.le_refl _, by simp⟩, fun hfuel => absurd s.patience_pos (Nat.not_lt.2 hfuel)⟩
  | succ fuel ih =>
    rw [Simulation.nextWithin] at h
    cases hopen : s.finished with
    | true =>
      rw [hopen, if_pos rfl] at h
      obtain ⟨rfl, rfl⟩ := Prod.mk.inj (Except.ok.inj h)
      exact ⟨⟨hs, Nat.le_refl _, by simp⟩, fun _ _ => hopen⟩
    | false =>
      rw [hopen, if_neg (by simp)] at h
      obtain ⟨⟨r₁, t⟩, hnext, hrest⟩ := bind_eq_ok h
      have hasked := hs.next hopen hnext
      have hless := hasked.left
      cases r₁ with
      | some reading =>
        obtain ⟨rfl, rfl⟩ := Prod.mk.inj (Except.ok.inj hrest)
        exact ⟨⟨hasked.sound, hless, hasked.plain⟩, by simp⟩
      | none =>
        obtain ⟨hpolled, hdone⟩ := ih hasked.sound hrest
        have hleft := hpolled.left
        have hnearer := hasked.patience_lt hs
        exact ⟨⟨hpolled.sound, by omega, hpolled.plain⟩, fun hfuel => hdone (by omega)⟩

theorem nextReading_of_finished (h : s.finished = true) : s.nextReading = .ok (none, s) := by
  unfold nextReading
  cases s.hosts.size with
  | zero => rfl
  | succ n => rw [Simulation.nextWithin, if_pos h]

/-- The collected reports are those that the source yields one after the other. -/
theorem Sound.yields_collect {π : Type} (point : Reading → π) {fuel : Nat} (hs : s.Sound)
    (hfuel : s.questionsLeft < fuel) {readings : List Reading} (h : collect fuel s = .ok readings) :
    Yields (SimulationSource.next point) ⟨s⟩ (readings.map point) ∧
      ∀ r ∈ readings, r.OnOneLine ∧ r.Fits header := by
  induction fuel generalizing s readings with
  | zero => omega
  | succ fuel ih =>
    rw [collect] at h
    obtain ⟨⟨r, t⟩, hreading, hrest⟩ := bind_eq_ok h
    obtain ⟨hpolled, hdone⟩ := hs.nextWithin hreading
    have hleft := hpolled.left
    have hnext : SimulationSource.next point ⟨s⟩ = (.ok (r.map point), ⟨t⟩) := by
      simp only [SimulationSource.next, hreading]
    cases r with
    | none =>
      obtain rfl := Except.ok.inj hrest
      have hover := nextReading_of_finished (hdone hs.patience_le rfl)
      have hstill : SimulationSource.next point ⟨t⟩ = (.ok none, ⟨t⟩) := by
        simp only [SimulationSource.next, hover, Option.map_none]
      exact ⟨.done hnext hstill, by simp⟩
    | some reading =>
      obtain ⟨later, hlater, hreadings⟩ := bind_eq_ok hrest
      obtain rfl := Except.ok.inj hreadings
      simp only [Option.toList_some, List.length_singleton] at hleft
      obtain ⟨hyields, hplain⟩ := ih hpolled.sound (by omega) hlater
      refine ⟨.more hnext hyields, ?_⟩
      intro r hr
      rcases List.mem_cons.1 hr with rfl | hr
      · exact hpolled.plain r rfl
      · exact hplain r hr

end Simulation
end IngestBench
