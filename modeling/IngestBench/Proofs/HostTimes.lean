import IngestBench.Config
import IngestBench.Proofs.Questions
import Mathlib.Data.List.Chain

/-! The times that a simulation writes. The dates of a host's reports are its first reading and then one interval
    after the other. They are written in nanoseconds as long as these fit; that is where the interval is kept,
    except by the step out of a leap second. -/

namespace IngestBench

/-! ### Dates in nanoseconds -/

namespace Stamp

variable {t : Stamp} {span : Span}

/-- Inside a leap second. -/
def IsLeap (t : Stamp) : Prop := Span.nanosPerSecond ≤ t.nanos

/-- The nanoseconds since the start of 1970 fit a signed 64-bit number. -/
def Fits (t : Stamp) : Prop := t.nanosSinceEpoch?.isSome = true

/-- The nanoseconds since the start of 1970; the second behind a leap second starts with those of the leap second. -/
def total (t : Stamp) : Int := t.seconds * Span.nanosPerSecond + t.nanos

theorem nanosSinceEpoch_of_fits (h : t.Fits) : t.nanosSinceEpoch? = some t.total := by
  unfold Fits nanosSinceEpoch? at *
  dsimp only at *
  split at h
  · exact if_pos ‹_›
  · cases h

theorem later_nanos_lt (t : Stamp) (span : Span) : (t.later span).nanos < 2 * Span.nanosPerSecond := by
  rcases later_cases t span with ⟨-, hstays, heq⟩ | ⟨-, heq⟩ <;> rw [heq] <;> clear heq <;>
    simp only [Span.nanosPerSecond] at * <;> omega

/-- No time leads into a leap second. -/
theorem isLeap_of_later (h : (t.later span).IsLeap) : t.IsLeap := by
  rcases later_cases t span with ⟨hleap, -, -⟩ | ⟨-, heq⟩
  · exact hleap
  · rw [heq] at h
    exact absurd h (Nat.not_le.2 (Nat.mod_lt _ (by decide)))

theorem total_later (ht : t.nanos < 2 * Span.nanosPerSecond) (hsame : t.IsLeap ↔ (t.later span).IsLeap) :
    (t.later span).total = t.total + span.nanos := by
  rcases later_cases t span with ⟨hleap, hstays, heq⟩ | ⟨hleap, heq⟩ <;> rw [heq] at hsame ⊢ <;> clear heq <;>
    simp only [IsLeap, total, Span.nanosPerSecond] at * <;> omega

theorem total_later_leaving (ht : t.nanos < 2 * Span.nanosPerSecond) (hleap : t.IsLeap)
    (hnot : ¬(t.later span).IsLeap) : (t.later span).total + Span.nanosPerSecond = t.total + span.nanos := by
  rcases later_cases t span with ⟨-, hstays, heq⟩ | ⟨hleap', heq⟩ <;> rw [heq] at hnot ⊢ <;> clear heq <;>
    simp only [IsLeap, total, Span.nanosPerSecond] at * <;> omega

end Stamp

/-! ### Written times -/

/-- The time in the last column. -/
def Line.time? (line : Line) : Option Int :=
  (Text.split ' ' line.text).getLast?.bind fun time => (Text.readInt Text.maxInt64 time.toList).toOption

/-- The time before the values. -/
def Record.time? (r : Record) : Option Int := r.row.timestampAndValues.toOption.map Prod.fst

namespace Reading

theorem time?_toRecord (r : Reading) : r.toRecord.time? = some r.nanos := by
  rw [Record.time?, timestampAndValues_row]
  rfl

theorem time?_toLine (r : Reading) : r.toLine.time? = some r.nanos := by
  obtain ⟨hlow, hhigh⟩ := r.nanos_bounds
  have hmark : " ".toList = [' '] := by decide
  have hblank : ' ' ∉ (Text.int r.nanos).toList := (Text.lacks_int _).not_mem (by decide)
  rw [Line.time?, toLine]
  dsimp only
  rw [Text.getLast?_split hmark _ hblank, Option.bind_some, Text.readInt_int hlow hhigh]
  rfl

end Reading

namespace Simulation

variable {settings : Settings} {late : Nat → Nat} {s t u : Simulation} {r : Option Reading} {rs rs' : List Reading}
  {k m n id fuel : Nat}

/-! ### All reports are answers -/

theorem ask_append (h : s.ask n = .ok (rs, t)) (h' : t.ask m = .ok (rs', u)) :
    s.ask (n + m) = .ok (rs ++ rs', u) := by
  induction n generalizing s rs with
  | zero =>
    obtain ⟨rfl, rfl⟩ := Prod.mk.inj (Except.ok.inj h)
    rwa [Nat.zero_add]
  | succ n ih =>
    obtain ⟨⟨r, s₁⟩, hnext, hrest⟩ := bind_eq_ok h
    obtain ⟨⟨rs₁, v⟩, hask, heq⟩ := bind_eq_ok hrest
    obtain ⟨rfl, rfl⟩ := Prod.mk.inj (Except.ok.inj heq)
    rw [Nat.add_right_comm, ask_succ hnext, ih hask, List.append_assoc]
    rfl

theorem ask_of_nextWithin (h : nextWithin fuel s = .ok (r, t)) : ∃ n, s.ask n = .ok (r.toList, t) := by
  induction fuel generalizing s with
  | zero =>
    obtain ⟨rfl, rfl⟩ := Prod.mk.inj (Except.ok.inj h)
    exact ⟨0, rfl⟩
  | succ fuel ih =>
    rw [nextWithin] at h
    split at h
    · obtain ⟨rfl, rfl⟩ := Prod.mk.inj (Except.ok.inj h)
      exact ⟨0, rfl⟩
    · obtain ⟨⟨r₁, s₁⟩, hnext, hrest⟩ := bind_eq_ok h
      cases r₁ with
      | some reading =>
        obtain ⟨rfl, rfl⟩ := Prod.mk.inj (Except.ok.inj hrest)
        exact ⟨1, ask_succ hnext⟩
      | none =>
        obtain ⟨n, hask⟩ := ih hrest
        refine ⟨n + 1, ?_⟩
        rw [ask_succ hnext, hask]
        rfl

theorem ask_of_collect (h : collect fuel s = .ok rs) : ∃ n t, s.ask n = .ok (rs, t) := by
  induction fuel generalizing s rs with
  | zero =>
    obtain rfl := Except.ok.inj h
    exact ⟨0, s, rfl⟩
  | succ fuel ih =>
    obtain ⟨⟨r, s₁⟩, hnext, hrest⟩ := bind_eq_ok h
    obtain ⟨n, hask⟩ := ask_of_nextWithin hnext
    cases r with
    | none =>
      obtain rfl := Except.ok.inj hrest
      exact ⟨n, s₁, hask⟩
    | some reading =>
      obtain ⟨rs₁, hcollect, heq⟩ := bind_eq_ok hrest
      obtain rfl := Except.ok.inj heq
      obtain ⟨m, t, hask'⟩ := ih hcollect
      exact ⟨n + m, t, ask_append hask hask'⟩

/-! ### The reports of one host -/

/-- The reports that a host has made. -/
def reportsOf (id : Nat) (rs : List Reading) : List Reading :=
  rs.filter fun r => r.tags.lookup "hostname" == some (hostname id)

/-- How many of the first `k` questions a host was asked, when they are put to `m` hosts in turn. -/
def askedOf (m id k : Nat) : Nat := k / m + if id < k % m then 1 else 0

theorem askedOf_succ (hid : id < m) (k : Nat) :
    askedOf m id (k + 1) = askedOf m id k + if k % m = id then 1 else 0 := by
  have hlt := Nat.mod_lt k (Nat.zero_lt_of_lt hid)
  unfold askedOf
  rcases Nat.lt_or_eq_of_le (Nat.succ_le_of_lt hlt) with hmore | hlast
  · obtain ⟨hdiv, hmod⟩ := div_mod_succ_of_lt hmore
    rw [hdiv, hmod]
    split <;> split <;> split <;> omega
  · obtain ⟨hdiv, hmod⟩ := div_mod_succ_of_eq (Nat.zero_lt_of_lt hid) hlast
    rw [hdiv, hmod]
    split <;> split <;> split <;> omega

/-- Of the answers, those of one host are its rounds from that of its delay on. -/
theorem filter_answers (hid : id < settings.scale) (k : Nat) :
    ((List.range k).flatMap (settings.answer late)).filter (fun o => o.2 == some (hostname id)) =
      (List.range' (late id) (askedOf settings.scale id k - late id)).map
        fun j => (settings.tick j, some (hostname id)) := by
  induction k with
  | zero => simp [askedOf]
  | succ k ih =>
    rw [List.range_succ, List.flatMap_append, List.filter_append, ih, List.flatMap_singleton, askedOf_succ hid,
      Settings.answer]
    by_cases hmine : k % settings.scale = id
    · have hasked : askedOf settings.scale id k = k / settings.scale := by
        rw [askedOf, if_neg (by omega), Nat.add_zero]
      rw [if_pos hmine, hasked, hmine]
      by_cases hstarted : late id ≤ k / settings.scale
      · rw [if_pos hstarted, Nat.sub_add_comm hstarted, List.range'_concat, List.map_append]
        simp [Nat.add_sub_cancel' hstarted]
      · rw [if_neg hstarted, Nat.sub_eq_zero_of_le (by omega), Nat.sub_eq_zero_of_le (by omega)]
        rfl
    · have hother : (some (hostname (k % settings.scale)) == some (hostname id)) = false :=
        beq_false_of_ne fun h => hmine (hostname_inj (Option.some.inj h))
      rw [if_neg hmine, Nat.add_zero]
      split <;> simp [hother]

/-- One report after another of the same host. -/
structure Follows (interval : Span) (p q : Reading) : Prop where
  date : q.time = p.time.later interval
  /-- What is written moves on by the interval. -/
  even : p.time.Fits → q.time.Fits → (p.time.IsLeap ↔ q.time.IsLeap) →
    q.nanos = p.nanos + interval.nanos ∧ p.nanos < q.nanos
  /-- A step out of a leap second is written as one that is a second shorter. -/
  leaving : p.time.Fits → q.time.Fits → p.time.IsLeap → ¬q.time.IsLeap →
    q.nanos + Span.nanosPerSecond = p.nanos + interval.nanos

theorem follows_of_later {p q : Reading} {interval : Span} (hpos : 0 < interval.nanos)
    (hp : p.time.nanos < 2 * Span.nanosPerSecond) (hdate : q.time = p.time.later interval) :
    Follows interval p q := by
  have hnanos {r : Reading} (h : r.time.Fits) : r.nanos = r.time.total := by
    rw [Reading.nanos, Stamp.nanosSinceEpoch_of_fits h, Option.getD_some]
  refine ⟨hdate, fun hfits hfits' hsame => ?_, fun hfits hfits' hleap hnot => ?_⟩
  · rw [hnanos hfits, hnanos hfits']
    rw [hdate] at hsame ⊢
    have hstep := Stamp.total_later hp hsame
    exact ⟨hstep, by omega⟩
  · rw [hnanos hfits, hnanos hfits']
    rw [hdate] at hnot ⊢
    exact Stamp.total_later_leaving hp hleap hnot

/-- The reports of a host are dated round by round, from that of its delay on. -/
theorem times_reportsOf (hid : id < settings.scale)
    (hanswers : rs.map Reading.origin = (List.range k).flatMap (settings.answer late)) :
    ∃ c, (reportsOf id rs).map Reading.time = (List.range' (late id) c).map settings.tick := by
  have hfilter : (reportsOf id rs).map Reading.origin =
      (rs.map Reading.origin).filter fun o => o.2 == some (hostname id) := by
    rw [List.filter_map]
    rfl
  rw [hanswers, filter_answers hid] at hfilter
  have htimes := congrArg (List.map Prod.fst) hfilter
  rw [List.map_map, List.map_map] at htimes
  exact ⟨_, htimes⟩

theorem tick_nanos (settings : Settings) (k : Nat) :
    (settings.tick k).nanos < 2 * Span.nanosPerSecond ∧ ((settings.tick k).IsLeap → settings.start.IsLeap) :=
  ⟨settings.start.later_nanos_lt _, Stamp.isLeap_of_later⟩

/-- Lines and records both say the time in nanoseconds, or the largest number where it does not fit. Each report
    is one of some host, and a host's reports begin with its first reading and follow one after the other. -/
theorem written_times {sim : Simulation} {readings : List Reading} (hsim : ofUseCase settings = .ok sim)
    (hstart : settings.start.nanos < 2 * Span.nanosPerSecond) (hreadings : sim.readings = .ok readings) :
    (∀ r ∈ readings, r.toLine.time? = some r.nanos ∧ r.toRecord.time? = some r.nanos ∧
      (¬r.time.Fits → r.nanos = Text.maxInt64) ∧ (r.time.IsLeap → settings.start.IsLeap) ∧
      ∃ id < settings.scale, r ∈ reportsOf id readings) ∧
    ∀ (id : Nat) (host : Host), sim.hosts[id]? = some host →
      (∀ r ∈ (reportsOf id readings).head?, r.time = host.firstReading) ∧
        (reportsOf id readings).IsChain (Follows settings.interval) := by
  have hset := ofSettings_of_ofUseCase hsim
  have hfresh := fresh_of_ofSettings hset
  obtain ⟨n, t, hask⟩ := ask_of_collect hreadings
  obtain ⟨k, -, hanswers⟩ := (reached_zero hset hstart).of_ask hask
  rw [← List.range_eq_range'] at hanswers
  constructor
  · intro r hr
    obtain ⟨p, -, horigin⟩ : ∃ p ∈ List.range k, r.origin ∈ settings.answer settings.delay p := by
      rw [← List.mem_flatMap, ← hanswers]
      exact List.mem_map_of_mem hr
    obtain ⟨htime, hname⟩ : r.time = settings.tick (p / settings.scale) ∧
        r.tags.lookup "hostname" = some (hostname (p % settings.scale)) := by
      rw [Settings.answer] at horigin
      split at horigin
      · exact Prod.mk.inj (List.mem_singleton.1 horigin)
      · cases horigin
    refine ⟨r.time?_toLine, r.time?_toRecord, fun hfits => ?_, htime ▸ (tick_nanos settings _).2,
      p % settings.scale, Nat.mod_lt p hfresh.scale, List.mem_filter.2 ⟨hr, beq_iff_eq.2 hname⟩⟩
    rw [Reading.nanos, Option.not_isSome_iff_eq_none.1 hfits, Option.getD_none]
  · intro id host hhost
    have hid : id < settings.scale := hfresh.size ▸ (Array.getElem?_eq_some_iff.1 hhost).1
    obtain ⟨c, htimes⟩ := times_reportsOf hid hanswers
    constructor
    · intro r hr
      have hhead := congrArg List.head? htimes
      rw [List.head?_map, hr] at hhead
      cases c with
      | zero => cases hhead
      | succ c => exact (Option.some.inj hhead).trans (hfresh.drawn id host hhost).first.symm
    · have hticks : ((reportsOf id readings).map Reading.time).IsChain fun a b =>
          a.nanos < 2 * Span.nanosPerSecond ∧ b = a.later settings.interval := by
        rw [htimes, List.isChain_map]
        refine (List.isChain_range' (settings.delay id) c 1).imp fun a b hb => ?_
        exact ⟨(tick_nanos settings a).1, by rw [hb, later_tick]⟩
      rw [List.isChain_map] at hticks
      exact hticks.imp fun p q hstep => follows_of_later hfresh.positive hstep.1 hstep.2

/-- The reports of a host are read off their times, so that no value in them has to be known. -/
theorem exists_readings_eq_ok {times : List Int}
    (h : ((ofUseCase settings).bind readings).toOption.map (fun rs => (reportsOf id rs).map Reading.nanos) =
      some times) :
    ∃ sim rs, ofUseCase settings = .ok sim ∧ sim.readings = .ok rs ∧ (reportsOf id rs).map Reading.nanos = times := by
  cases hsim : ofUseCase settings with
  | error e =>
    simp only [hsim, Except.bind] at h
    cases h
  | ok sim =>
    cases hreadings : sim.readings with
    | error e =>
      simp only [hsim, Except.bind, hreadings] at h
      cases h
    | ok rs => exact ⟨sim, rs, rfl, hreadings, by simpa [hsim, Except.bind, hreadings, Except.toOption] using h⟩

theorem written_times_short :
    ∃ sim rs, ofUseCase Settings.short = .ok sim ∧ sim.readings = .ok rs ∧
      (reportsOf 0 rs).map Reading.nanos = [1451606400000000000, 1451606410000000000] ∧
      (reportsOf 0 rs).IsChain (Follows Settings.short.interval) := by
  obtain ⟨sim, rs, hsim, hreadings, htimes⟩ :
      ∃ sim rs, ofUseCase Settings.short = .ok sim ∧ sim.readings = .ok rs ∧
        (reportsOf 0 rs).map Reading.nanos = [1451606400000000000, 1451606410000000000] :=
    exists_readings_eq_ok (by decide +kernel)
  obtain ⟨host, hhost, -⟩ := (sound_of_ofUseCase hsim).first
  exact ⟨sim, rs, hsim, hreadings, htimes, ((written_times hsim (by decide) hreadings).2 0 host hhost).2⟩

/-- The first twenty seconds of the year 2300. -/
def Settings.distant : Settings :=
  { Settings.standard with start := ⟨10413792000, 0⟩, stop := ⟨10413792020, 0⟩ }

/-- A second from the middle of the last leap second on. -/
def Settings.leaping : Settings :=
  { Settings.standard with
    start := ⟨1483228799, 1500000000⟩
    stop := ⟨1483228800, 500000000⟩
    interval := ⟨600000000⟩ }

/-- Settings may pass the check, and the times that are written for successive reports of a host are not an interval
    apart: behind the last date whose nanoseconds fit they are equal, and after a leap second they go back. -/
theorem written_times_stand_and_go_back :
    (Settings.distant.check = .ok () ∧ ∃ sim rs, ofUseCase Settings.distant = .ok sim ∧ sim.readings = .ok rs ∧
      (reportsOf 0 rs).map (fun r => (r.toLine.time?, r.toRecord.time?)) =
        [(some 9223372036854775807, some 9223372036854775807), (some 9223372036854775807, some 9223372036854775807)]) ∧
    Settings.leaping.check = .ok () ∧ ∃ sim rs, ofUseCase Settings.leaping = .ok sim ∧ sim.readings = .ok rs ∧
      (reportsOf 0 rs).map (fun r => (r.toLine.time?, r.toRecord.time?)) =
        [(some 1483228800500000000, some 1483228800500000000), (some 1483228800100000000, some 1483228800100000000)] := by
  have hwritten (rs : List Reading) : rs.map (fun r => (r.toLine.time?, r.toRecord.time?)) =
      (rs.map Reading.nanos).map fun n => (some n, some n) := by
    simp only [List.map_map, Function.comp_def, Reading.time?_toLine, Reading.time?_toRecord]
  simp only [hwritten]
  refine ⟨⟨rfl, ?_⟩, rfl, ?_⟩
  · obtain ⟨sim, rs, hsim, hreadings, htimes⟩ :
        ∃ sim rs, ofUseCase Settings.distant = .ok sim ∧ sim.readings = .ok rs ∧
          (reportsOf 0 rs).map Reading.nanos = [9223372036854775807, 9223372036854775807] :=
      exists_readings_eq_ok (by decide +kernel)
    exact ⟨sim, rs, hsim, hreadings, by rw [htimes]; rfl⟩
  · obtain ⟨sim, rs, hsim, hreadings, htimes⟩ :
        ∃ sim rs, ofUseCase Settings.leaping = .ok sim ∧ sim.readings = .ok rs ∧
          (reportsOf 0 rs).map Reading.nanos = [1483228800500000000, 1483228800100000000] :=
      exists_readings_eq_ok (by decide +kernel)
    exact ⟨sim, rs, hsim, hreadings, by rw [htimes]; rfl⟩

end Simulation
end IngestBench
