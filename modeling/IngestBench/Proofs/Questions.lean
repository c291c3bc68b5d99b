import IngestBench.Proofs.Rounds

/-! The questions of a simulation with its limit. They are numbered as those of the simulation without one, as long
    as it is not finished; a question fails only if it is the last one of a round and the next round has no date. -/

namespace IngestBench
namespace Simulation

variable {settings : Settings} {s t : Simulation} {p n : Nat} {r : Option Reading} {rs : List Reading}

/-! ### One question -/

theorem turn_eq_overflow (hlast : s.cursor + 1 = s.hosts.size) (hout : (s.now.later s.interval).inRange = false) :
    s.turn = .error .overflow := by
  have hnone : s.now.later? s.interval = none := if_neg (ne_true_of_eq_false hout)
  rw [turn, if_pos hlast, hnone]

theorem next_eq_overflow (hs : s.Sound) (hopen : s.finished = false) (hlast : s.cursor + 1 = s.hosts.size)
    (hout : (s.now.later s.interval).inRange = false) : s.next = .error .overflow := by
  obtain ⟨host, hhost⟩ : ∃ host, s.hosts[s.cursor]? = some host :=
    Option.isSome_iff_exists.1 (by simp [hs.cursor])
  simp only [next, hopen, hhost, Bool.false_eq_true, if_false]
  split
  · have hturn := turn_eq_overflow (s := s.reported host) (by rwa [size_reported]) hout
    exact congrArg (· >>= fun s' => pure (some (host.reading s.now), s')) hturn
  · exact congrArg (· >>= fun s' => pure ((none : Option Reading), s')) (turn_eq_overflow hlast hout)

/-- A question is answered, unless the clock has to move to a time without a date. -/
theorem Sound.next_outcome (hs : s.Sound) (hopen : s.finished = false) :
    (s.cursor + 1 = s.hosts.size ∧ (s.now.later s.interval).inRange = false ∧ s.next = .error .overflow) ∨
      ∃ r t, s.next = .ok (r, t) := by
  by_cases hout : s.cursor + 1 = s.hosts.size ∧ (s.now.later s.interval).inRange = false
  · exact .inl ⟨hout.1, hout.2, next_eq_overflow hs hopen hout.1 hout.2⟩
  · refine .inr (exists_next_eq_ok fun hlast => ?_)
    simpa [hlast] using hout

/-! ### Numbered questions -/

/-- The count of reports before a question. -/
def Settings.reportsBefore (settings : Settings) (p : Nat) : Nat :=
  ((List.range p).flatMap (settings.answer settings.delay)).length

theorem reportsBefore_succ (p : Nat) :
    settings.reportsBefore (p + 1) = settings.reportsBefore p + (settings.answer settings.delay p).length := by
  rw [Settings.reportsBefore, List.range_succ, List.flatMap_append, List.length_append, List.flatMap_singleton]
  rfl

theorem reportsBefore_mono {q : Nat} (h : p ≤ q) : settings.reportsBefore p ≤ settings.reportsBefore q := by
  induction h with
  | refl => exact Nat.le_refl _
  | step _ ih =>
    rw [reportsBefore_succ]
    exact Nat.le_add_right_of_le ih

/-- The simulation with the limit of its settings, when so many questions have been asked. -/
structure Reached (settings : Settings) (p : Nat) (s : Simulation) : Prop where
  numbered : At settings settings.delay p (s.limited 0)
  limit : s.maxPoints = settings.maxPoints
  emitted : s.emitted = settings.reportsBefore p

theorem reached_zero {sim : Simulation} (h : ofSettings settings = .ok sim)
    (hstart : settings.start.nanos < 2 * Span.nanosPerSecond) : Reached settings 0 sim where
  numbered := at_zero h hstart fun id host hget => ((fresh_of_ofSettings h).drawn id host hget).first
  limit := (fresh_of_ofSettings h).maxPoints
  emitted := (fresh_of_ofSettings h).emitted

namespace Reached

theorem sound (h : Reached settings p s) : s.Sound :=
  ⟨h.numbered.sound.cursor, h.numbered.sound.interval, h.numbered.sound.first, h.numbered.sound.hosts⟩

theorem scale_pos (h : Reached settings p s) : 0 < settings.scale :=
  h.numbered.size ▸ Nat.lt_of_le_of_lt (Nat.zero_le _) h.numbered.sound.cursor

theorem now_later (h : Reached settings p s) :
    s.now.later s.interval = settings.tick (p / settings.scale + 1) := by
  have hnow : s.now = settings.tick (p / settings.scale) := h.numbered.now
  have hinterval : s.interval = settings.interval := h.numbered.interval
  rw [hnow, hinterval, later_tick]

theorem last_iff (h : Reached settings p s) :
    s.cursor + 1 = s.hosts.size ↔ p % settings.scale + 1 = settings.scale := by
  have hcursor : s.cursor = p % settings.scale := h.numbered.cursor
  have hsize : s.hosts.size = settings.scale := h.numbered.size
  rw [hcursor, hsize]

/-- The simulation goes on as long as the window is open and the limit is not reached. -/
theorem open_iff (h : Reached settings p s) :
    s.finished = false ↔ (settings.tick (p / settings.scale)).before settings.stop = true ∧
      (settings.maxPoints = 0 ∨ settings.reportsBefore p < settings.maxPoints) := by
  have hnow : s.now = settings.tick (p / settings.scale) := h.numbered.now
  have hstop : s.stop = settings.stop := h.numbered.stop
  rw [← Bool.not_eq_true, finished_iff, hnow, hstop, h.limit, h.emitted, Stamp.upTo, not_or, Bool.not_eq_true',
    Bool.not_eq_false]
  exact and_congr_right fun _ => by omega

/-- The answer to a question is that to its number, and the next question is numbered on. -/
theorem next (h : Reached settings p s) (hopen : s.finished = false) (hnext : s.next = .ok (r, t)) :
    Reached settings (p + 1) t ∧ r.toList.map Reading.origin = settings.answer settings.delay p := by
  have hwindow : (s.limited 0).finished = false := by
    rw [h.numbered.finished_eq, (h.open_iff.1 hopen).1, Bool.not_true]
  obtain ⟨hfree, hemitted, hmax⟩ := next_limited h.sound hopen hwindow hnext
  obtain ⟨hat, horigin⟩ := h.numbered.next hwindow hfree
  refine ⟨⟨hat, hmax.trans h.limit, ?_⟩, horigin⟩
  rw [hemitted, h.emitted, reportsBefore_succ, ← horigin, List.length_map]

/-- What was answered so far are the answers to the first questions. -/
theorem of_ask (h : Reached settings p s) (hask : s.ask n = .ok (rs, t)) :
    ∃ k, Reached settings (p + k) t ∧
      rs.map Reading.origin = (List.range' p k).flatMap (settings.answer settings.delay) := by
  induction n generalizing p s rs with
  | zero =>
    obtain ⟨rfl, rfl⟩ := Prod.mk.inj (Except.ok.inj hask)
    exact ⟨0, h, rfl⟩
  | succ n ih =>
    cases hopen : s.finished with
    | true =>
      rw [ask_of_finished hopen] at hask
      obtain ⟨rfl, rfl⟩ := Prod.mk.inj (Except.ok.inj hask)
      exact ⟨0, h, rfl⟩
    | false =>
      obtain ⟨⟨r, s₁⟩, hnext, hrest⟩ := bind_eq_ok hask
      obtain ⟨⟨rs₁, u⟩, hask₁, heq⟩ := bind_eq_ok hrest
      obtain ⟨rfl, rfl⟩ := Prod.mk.inj (Except.ok.inj heq)
      obtain ⟨hreached, horigin⟩ := h.next hopen hnext
      obtain ⟨k, hreached', horigins⟩ := ih hreached hask₁
      refine ⟨k + 1, ?_, ?_⟩
      · rwa [show p + (k + 1) = p + 1 + k by omega]
      · rw [List.map_append, horigin, horigins, List.range'_succ, List.flatMap_cons]

end Reached
end Simulation
end IngestBench
