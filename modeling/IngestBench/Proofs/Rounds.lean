import IngestBench.Proofs.Replay
import Mathlib.Data.Nat.Find
import Mathlib.Data.List.Nodup

/-! The stream of a simulation in closed form. The questions are numbered: with `n` hosts, question `p` goes to
    host `p % n` in round `p / n`. A host answers from the round of its delay on, so the reports are those of the
    hosts that have started, round by round. A limit cuts the stream short and changes nothing before the cut. -/

namespace IngestBench

/-- When a report was made, and by which host. -/
def Reading.origin (r : Reading) : Stamp × Option String := (r.time, r.tags.lookup "hostname")

/-! ### Points in time -/

namespace Stamp

theorem later_of_nanos_lt {t : Stamp} (h : t.nanos < 2 * Span.nanosPerSecond) : t.later Span.zero = t := by
  obtain ⟨seconds, nanos⟩ := t
  rcases later_cases ⟨seconds, nanos⟩ Span.zero with ⟨-, -, heq⟩ | ⟨hleap, heq⟩
  · exact heq
  · rw [heq]
    simp only [Span.zero, Span.nanosPerSecond, mk.injEq] at *
    omega

theorem later_later (t : Stamp) (a b : Span) : (t.later a).later b = t.later ⟨a.nanos + b.nanos⟩ := by
  rcases later_cases t a with ⟨hleap, hstays, heq⟩ | ⟨hleap, heq⟩ <;>
    rcases later_cases (t.later a) b with ⟨hleap', hstays', heq'⟩ | ⟨hleap', heq'⟩ <;>
      rcases later_cases t ⟨a.nanos + b.nanos⟩ with ⟨hleap'', hstays'', heq''⟩ | ⟨hleap'', heq''⟩ <;>
        rw [heq', heq'', mk.injEq] <;>
          simp only [heq, Span.nanosPerSecond, true_and] at * <;> clear heq heq' heq'' <;> omega

theorem later_before_later (t : Stamp) {a b : Span} (h : a.nanos < b.nanos) :
    (t.later a).before (t.later b) = true := by
  have hnot : ¬(t.later b).upTo (t.later a) = true := by
    rw [upTo_iff]
    rcases later_cases t a with ⟨hleap, hstays, heq⟩ | ⟨hleap, heq⟩ <;>
      rcases later_cases t b with ⟨hleap', hstays', heq'⟩ | ⟨hleap', heq'⟩ <;>
        rw [heq, heq'] <;> clear heq heq' <;>
          simp only [Span.nanosPerSecond] at * <;> omega
  simpa [upTo] using hnot

theorem later_upTo_later (t : Stamp) {a b : Span} : (t.later a).upTo (t.later b) = true ↔ a.nanos ≤ b.nanos := by
  constructor
  · intro hupTo
    refine Nat.le_of_not_lt fun hlt => ?_
    rw [upTo, later_before_later t hlt] at hupTo
    cases hupTo
  · intro hle
    rcases Nat.lt_or_eq_of_le hle with hlt | heq
    · have hbefore := later_before_later t hlt
      rw [upTo_iff]
      simp only [before, Bool.or_eq_true, Bool.and_eq_true, decide_eq_true_eq, beq_iff_eq] at hbefore
      omega
    · obtain rfl : a = b := congrArg Span.mk heq
      exact upTo_iff.2 (.inr ⟨rfl, Nat.le_refl _⟩)

end Stamp

namespace Simulation

variable {settings : Settings} {late : Nat → Nat} {s t : Simulation} {p n m : Nat} {rs : List Reading}

/-! ### The ticks of the clock -/

/-- The time of a round. -/
def Settings.tick (settings : Settings) (k : Nat) : Stamp :=
  settings.start.later ⟨settings.interval.nanos * k⟩

theorem later_tick (k : Nat) : (settings.tick k).later settings.interval = settings.tick (k + 1) := by
  rw [Settings.tick, Stamp.later_later, ← Nat.mul_succ]
  rfl

theorem tick_upTo_tick (hpos : 0 < settings.interval.nanos) {j k : Nat} :
    (settings.tick j).upTo (settings.tick k) = true ↔ j ≤ k :=
  (Stamp.later_upTo_later _).trans (Nat.mul_le_mul_left_iff hpos)

/-- The rounds in the window are those up to some round. -/
theorem exists_ticks (hpos : 0 < settings.interval.nanos) :
    ∃ ticks, ∀ k, (settings.tick k).before settings.stop = true ↔ k < ticks := by
  have hover : ∃ k, settings.stop.upTo (settings.tick k) = true := by
    obtain ⟨far, hfar⟩ : ∃ far,
        ((settings.stop.seconds + 1) * Span.nanosPerSecond - settings.start.elapsed).toNat = far := ⟨_, rfl⟩
    refine ⟨far, Bool.not_eq_false _ |>.mp fun hopen => ?_⟩
    have hlow := Stamp.elapsed_lt_of_upTo_eq_false hopen
    have helapsed : (settings.tick far).elapsed =
        settings.start.elapsed + (settings.interval.nanos * far : Nat) := Stamp.elapsed_later _ _
    have hmul : far ≤ settings.interval.nanos * far := Nat.le_mul_of_pos_left _ hpos
    omega
  refine ⟨Nat.find hover, fun k => ?_⟩
  rw [Nat.lt_find_iff]
  constructor
  · intro hbefore j hj hstop
    have hk := Stamp.upTo_trans hstop ((tick_upTo_tick hpos).2 hj)
    rw [Stamp.upTo, hbefore] at hk
    cases hk
  · intro hopen
    simpa [Stamp.upTo] using hopen k (Nat.le_refl _)

/-! ### Asking -/

/-- Asks so many hosts, one after the other, and collects the reports. -/
def ask : Nat → Simulation → Except Breakdown (List Reading × Simulation)
  | 0, s => .ok ([], s)
  | n + 1, s => do
    let (r, s) ← s.next
    let (rs, s) ← ask n s
    return (r.toList ++ rs, s)

/-- Asked often enough, the simulation has given these reports, is finished, and gives none after them. -/
def Gives (s : Simulation) (rs : List Reading) : Prop :=
  ∃ n t, t.finished = true ∧ ∀ m, n ≤ m → s.ask m = .ok (rs, t)

theorem next_of_finished (h : s.finished = true) : s.next = .ok (none, s) := if_pos h

theorem ask_succ {r : Option Reading} (hnext : s.next = .ok (r, t)) :
    s.ask (n + 1) = (t.ask n).map fun (rs, u) => (r.toList ++ rs, u) := by
  rw [ask, hnext]
  change (t.ask n >>= fun (rs, u) => .ok (r.toList ++ rs, u)) = _
  cases t.ask n <;> rfl

theorem ask_of_finished (h : s.finished = true) (n : Nat) : s.ask n = .ok ([], s) := by
  induction n with
  | zero => rfl
  | succ n ih =>
    rw [ask_succ (next_of_finished h), ih]
    rfl

theorem gives_of_ask (h : s.ask n = .ok (rs, t)) (hdone : t.finished = true) : s.Gives rs := by
  refine ⟨n, t, hdone, fun m hm => ?_⟩
  induction n generalizing s rs m with
  | zero =>
    obtain ⟨rfl, rfl⟩ := Prod.mk.inj (Except.ok.inj h)
    exact ask_of_finished hdone m
  | succ n ih =>
    obtain ⟨⟨r, s₁⟩, hnext, hrest⟩ := bind_eq_ok h
    obtain ⟨⟨rs₁, u⟩, hask, heq⟩ := bind_eq_ok hrest
    obtain ⟨rfl, rfl⟩ := Prod.mk.inj (Except.ok.inj heq)
    obtain ⟨m, rfl⟩ : ∃ k, m = k + 1 := ⟨m - 1, by omega⟩
    rw [ask_succ hnext, ih hask m (by omega)]
    rfl

/-! ### Which host answers when -/

/-- The name of a host. -/
def hostname (id : Nat) : String := "host_" ++ Nat.repr id

theorem hostname_inj {i j : Nat} (h : hostname i = hostname j) : i = j := by
  have hdigits : Nat.toDigits 10 i = Nat.toDigits 10 j := by
    rw [← Nat.toList_repr, ← Nat.toList_repr, (String.append_right_inj _).1 h]
  calc
    i = Nat.ofDigitChars 10 (Nat.toDigits 10 i) 0 := Nat.ofDigitChars_ten_toDigits.symm
    _ = Nat.ofDigitChars 10 (Nat.toDigits 10 j) 0 := by rw [hdigits]
    _ = j := Nat.ofDigitChars_ten_toDigits

/-- The answer to a question when the hosts start so many rounds late. -/
def Settings.answer (settings : Settings) (late : Nat → Nat) (p : Nat) : List (Stamp × Option String) :=
  if late (p % settings.scale) ≤ p / settings.scale then
    [(settings.tick (p / settings.scale), some (hostname (p % settings.scale)))]
  else []

/-- The reports of so many rounds when the hosts start so many rounds late. -/
def Settings.rounds (settings : Settings) (late : Nat → Nat) (ticks : Nat) : List (Stamp × Option String) :=
  (List.range ticks).flatMap fun k =>
    ((List.range settings.scale).filter fun id => late id ≤ k).map fun id => (settings.tick k, some (hostname id))

theorem flatMap_ite {α β : Type} (q : α → Prop) [DecidablePred q] (f : α → β) (xs : List α) :
    (xs.flatMap fun x => if q x then [f x] else []) = (xs.filter fun x => q x).map f := by
  induction xs with
  | nil => rfl
  | cons x xs ih =>
    rw [List.flatMap_cons, ih]
    by_cases hx : q x <;> simp [hx]

/-- The questions of whole rounds, taken round by round. -/
theorem flatMap_answer (settings : Settings) (late : Nat → Nat) (ticks : Nat) :
    (List.range (settings.scale * ticks)).flatMap (settings.answer late) = settings.rounds late ticks := by
  induction ticks with
  | zero => rfl
  | succ k ih =>
    have hround : (List.range settings.scale).flatMap (fun id => settings.answer late (settings.scale * k + id)) =
        ((List.range settings.scale).filter fun id => late id ≤ k).map
          fun id => (settings.tick k, some (hostname id)) := by
      rw [← flatMap_ite]
      refine List.flatMap_congr fun id hid => ?_
      have hlt := List.mem_range.1 hid
      rw [Settings.answer, Nat.mul_add_mod, Nat.mod_eq_of_lt hlt, Nat.mul_add_div (by omega),
        Nat.div_eq_of_lt hlt, Nat.add_zero]
    rw [Nat.mul_succ, List.range_add, List.flatMap_append, ih, List.flatMap_map, hround, Settings.rounds,
      Settings.rounds, List.range_succ, List.flatMap_append, List.flatMap_singleton]

theorem countP_round {k id : Nat} (hid : id < settings.scale) :
    (((List.range settings.scale).filter fun i => late i ≤ k).map
      fun i => (settings.tick k, some (hostname i))).countP (fun o => o.2 == some (hostname id)) =
      if late id ≤ k then 1 else 0 := by
  have hsame (i : Nat) : (some (hostname i) == some (hostname id)) = (i == id) := by
    rw [Bool.eq_iff_iff, beq_iff_eq, beq_iff_eq]
    exact ⟨fun h => hostname_inj (Option.some.inj h), fun h => congrArg _ (congrArg _ h)⟩
  rw [List.countP_map]
  simp only [Function.comp_def, hsame]
  change List.count id _ = _
  split
  · rename_i hstarted
    refine List.count_eq_one_of_mem (List.nodup_range.filter _) ?_
    simpa [hid] using hstarted
  · rename_i hnot
    refine List.count_eq_zero.2 ?_
    simp [hnot]

/-- A host reports in every round from that of its delay on. -/
theorem countP_rounds {id : Nat} (hid : id < settings.scale) (ticks : Nat) :
    (settings.rounds late ticks).countP (fun o => o.2 == some (hostname id)) = ticks - late id := by
  induction ticks with
  | zero => exact (Nat.zero_sub _).symm
  | succ k ih =>
    rw [Settings.rounds] at ih ⊢
    rw [List.range_succ, List.flatMap_append, List.countP_append, ih, List.flatMap_singleton, countP_round hid]
    split <;> omega

/-! ### A run of questions -/

theorem div_mod_succ_of_lt {m p : Nat} (h : p % m + 1 < m) : (p + 1) / m = p / m ∧ (p + 1) % m = p % m + 1 := by
  have hsplit := Nat.div_add_mod p m
  exact (Nat.div_mod_unique (by omega)).2 ⟨by omega, h⟩

theorem div_mod_succ_of_eq {m p : Nat} (hpos : 0 < m) (h : p % m + 1 = m) :
    (p + 1) / m = p / m + 1 ∧ (p + 1) % m = 0 := by
  have hsplit := Nat.div_add_mod p m
  exact (Nat.div_mod_unique hpos).2 ⟨by rw [Nat.mul_succ]; omega, hpos⟩

/-- The simulation without a limit, when so many questions have been asked. -/
structure At (settings : Settings) (late : Nat → Nat) (p : Nat) (s : Simulation) : Prop where
  sound : s.Sound
  size : s.hosts.size = settings.scale
  interval : s.interval = settings.interval
  stop : s.stop = settings.stop
  unlimited : s.maxPoints = 0
  cursor : s.cursor = p % settings.scale
  now : s.now = settings.tick (p / settings.scale)
  hosts : ∀ (i : Nat) (host : Host), s.hosts[i]? = some host →
    host.firstReading = settings.tick (late i) ∧ host.tags.lookup "hostname" = some (hostname i)

namespace At

variable {s' : Simulation} {r : Option Reading}

theorem finished_eq (h : At settings late p s) :
    s.finished = !(settings.tick (p / settings.scale)).before settings.stop := by
  rw [finished, h.now, h.stop, h.unlimited]
  simp [Stamp.upTo]

theorem reported (h : At settings late p s) {host : Host} (hhost : s.hosts[s.cursor]? = some host) :
    At settings late p (s.reported host) where
  sound := h.sound.reported hhost
  size := (size_reported s host).trans h.size
  interval := h.interval
  stop := h.stop
  unlimited := h.unlimited
  cursor := h.cursor
  now := h.now
  hosts i other hget := by
    rw [hosts_reported host h.sound.cursor] at hget
    split at hget
    · rename_i hi
      obtain rfl := Option.some.inj hget
      exact h.hosts i host (hi ▸ hhost)
    · exact h.hosts i other hget

theorem turn (h : At settings late p s) (hturn : s.turn = .ok s') : At settings late (p + 1) s' := by
  have hpos : 0 < settings.scale := h.size ▸ Nat.lt_of_le_of_lt (Nat.zero_le _) h.sound.cursor
  have hlt := Nat.mod_lt p hpos
  have hsound := h.sound.turn hturn
  rcases turn_cases hturn with ⟨hmore, rfl⟩ | ⟨hlast, rfl⟩
  · rw [h.cursor, h.size] at hmore
    obtain ⟨hdiv, hmod⟩ := div_mod_succ_of_lt (Nat.lt_of_le_of_ne hlt hmore)
    exact ⟨hsound, h.size, h.interval, h.stop, h.unlimited, by rw [hmod, ← h.cursor], by rw [hdiv, ← h.now],
      h.hosts⟩
  · rw [h.cursor, h.size] at hlast
    obtain ⟨hdiv, hmod⟩ := div_mod_succ_of_eq hpos hlast
    refine ⟨hsound, h.size, h.interval, h.stop, h.unlimited, hmod.symm, ?_, h.hosts⟩
    rw [hdiv, ← later_tick, ← h.now, ← h.interval]

/-- One question: it is answered as its number says, and the next one is numbered on. -/
theorem next (h : At settings late p s) (hopen : s.finished = false) (hnext : s.next = .ok (r, s')) :
    At settings late (p + 1) s' ∧ r.toList.map Reading.origin = settings.answer late p := by
  obtain ⟨host, hhost, hcases⟩ := next_cases h.sound hopen hnext
  obtain ⟨hfirst, hname⟩ := h.hosts _ _ hhost
  have hdue : host.firstReading.upTo s.now = true ↔ late (p % settings.scale) ≤ p / settings.scale := by
    rw [hfirst, h.now, h.cursor]
    exact tick_upTo_tick (h.interval ▸ h.sound.interval)
  rcases hcases with ⟨hstarted, rfl, hturn⟩ | ⟨hnot, rfl, hturn⟩
  · refine ⟨(h.reported hhost).turn hturn, ?_⟩
    rw [Settings.answer, if_pos (hdue.1 hstarted), ← h.now, ← h.cursor, ← hname]
    rfl
  · refine ⟨h.turn hturn, ?_⟩
    have hlate : ¬late (p % settings.scale) ≤ p / settings.scale := by
      rw [← hdue, hnot]
      simp
    rw [Settings.answer, if_neg hlate]
    rfl

end At

theorem exists_turn_eq_ok (h : s.cursor + 1 = s.hosts.size → (s.now.later s.interval).inRange = true) :
    ∃ t, s.turn = .ok t := by
  unfold turn
  split
  · rename_i hlast
    simp [Stamp.later?, h hlast]
  · exact ⟨_, rfl⟩

theorem exists_next_eq_ok (h : s.cursor + 1 = s.hosts.size → (s.now.later s.interval).inRange = true) :
    ∃ r t, s.next = .ok (r, t) := by
  unfold next
  split
  · exact ⟨_, _, rfl⟩
  · split
    · exact ⟨_, _, rfl⟩
    · rename_i host hhost
      split
      · obtain ⟨t, ht⟩ := exists_turn_eq_ok (s := s.reported host) fun hlast => h (size_reported s host ▸ hlast)
        exact ⟨some (host.reading s.now), t, congrArg (· >>= _) ht⟩
      · obtain ⟨t, ht⟩ := exists_turn_eq_ok h
        exact ⟨none, t, congrArg (· >>= _) ht⟩

/-- Any number of questions inside the window. -/
theorem At.ask (h : At settings late p s) {ticks : Nat}
    (hticks : ∀ k, (settings.tick k).before settings.stop = true ↔ k < ticks)
    (hdates : ∀ k < ticks, (settings.tick (k + 1)).inRange = true) (hn : p + n ≤ settings.scale * ticks) :
    ∃ rs t, s.ask n = .ok (rs, t) ∧ At settings late (p + n) t ∧
      rs.map Reading.origin = (List.range' p n).flatMap (settings.answer late) := by
  induction n generalizing p s with
  | zero => exact ⟨[], s, rfl, h, rfl⟩
  | succ n ih =>
    have hround : p / settings.scale < ticks := Nat.div_lt_of_lt_mul (by omega)
    have hopen : s.finished = false := by rw [h.finished_eq, (hticks _).2 hround, Bool.not_true]
    obtain ⟨r, t, hnext⟩ := exists_next_eq_ok (s := s) fun _ => by
      rw [h.now, h.interval, later_tick]
      exact hdates _ hround
    obtain ⟨hat, horigin⟩ := h.next hopen hnext
    obtain ⟨rs, u, hask, hat', horigins⟩ := ih hat (by omega)
    refine ⟨r.toList ++ rs, u, ?_, ?_, ?_⟩
    · rw [ask_succ hnext, hask]
      rfl
    · rwa [show p + (n + 1) = p + 1 + n by omega]
    · rw [List.map_append, horigin, horigins, List.range'_succ, List.flatMap_cons]

/-! ### The limit -/

/-- The simulation with a limit. -/
def limited (s : Simulation) (m : Nat) : Simulation := { s with maxPoints := m }

theorem finished_iff :
    s.finished = true ↔ s.stop.upTo s.now = true ∨ 0 < s.maxPoints ∧ s.maxPoints ≤ s.emitted := by
  simp [finished]

theorem finished_limited_iff (hm : 0 < m) :
    (s.limited m).finished = true ↔ s.stop.upTo s.now = true ∨ m ≤ s.emitted :=
  finished_iff.trans (or_congr_right (and_iff_right hm))

theorem finished_limited (hfree : s.maxPoints = 0) (h : s.finished = true) : (s.limited m).finished = true := by
  have hover : s.stop.upTo s.now = true := by simpa [hfree] using finished_iff.1 h
  exact finished_iff.2 (.inl hover)

theorem turn_limited (h : s.turn = .ok t) : (s.limited m).turn = .ok (t.limited m) := by
  unfold turn at h
  split at h
  · rename_i hlast
    split at h
    · rename_i now hnow
      obtain rfl := Except.ok.inj h
      have hlast' : (s.limited m).cursor + 1 = (s.limited m).hosts.size := hlast
      have hnow' : (s.limited m).now.later? (s.limited m).interval = some now := hnow
      rw [turn, if_pos hlast', hnow']
      rfl
    · cases h
  · rename_i hmore
    obtain rfl := Except.ok.inj h
    exact if_neg hmore

theorem turn_emitted (h : s.turn = .ok t) : t.emitted = s.emitted ∧ t.maxPoints = s.maxPoints := by
  rcases turn_cases h with ⟨-, rfl⟩ | ⟨-, rfl⟩ <;> exact ⟨rfl, rfl⟩

/-- Where neither is finished, the simulation with a limit goes the way of the one without it. -/
theorem next_limited {r : Option Reading} (hs : s.Sound) (hopen : s.finished = false)
    (hlimit : (s.limited m).finished = false) (hnext : s.next = .ok (r, t)) :
    (s.limited m).next = .ok (r, t.limited m) ∧ t.emitted = s.emitted + r.toList.length ∧
      t.maxPoints = s.maxPoints := by
  obtain ⟨host, hhost, hcases⟩ := next_cases hs hopen hnext
  have hlimited : (s.limited m).hosts[(s.limited m).cursor]? = some host := hhost
  unfold next
  simp only [hlimit, hlimited, Bool.false_eq_true, if_false]
  rcases hcases with ⟨hstarted, rfl, hturn⟩ | ⟨hnot, rfl, hturn⟩
  · refine ⟨(if_pos hstarted).trans ?_, turn_emitted hturn⟩
    exact congrArg (· >>= fun s' => pure (some (host.reading s.now), s')) (turn_limited hturn)
  · refine ⟨(if_neg (ne_true_of_eq_false hnot)).trans ?_, turn_emitted hturn⟩
    exact congrArg (· >>= fun s' => pure ((none : Option Reading), s')) (turn_limited hturn)

/-- As many questions with a limit give the first reports of those without it. -/
theorem ask_limited (hs : s.Sound) (hfree : s.maxPoints = 0) (hm : 0 < m) (h : s.ask n = .ok (rs, t))
    (hdone : t.finished = true) :
    ∃ u, (s.limited m).ask n = .ok (rs.take (m - s.emitted), u) ∧ u.finished = true := by
  induction n generalizing s rs with
  | zero =>
    obtain ⟨rfl, rfl⟩ := Prod.mk.inj (Except.ok.inj h)
    exact ⟨s.limited m, by rw [List.take_nil]; rfl, finished_limited hfree hdone⟩
  | succ n ih =>
    cases hopen : s.finished with
    | true =>
      rw [ask_of_finished hopen] at h
      obtain ⟨rfl, rfl⟩ := Prod.mk.inj (Except.ok.inj h)
      have hover := finished_limited (m := m) hfree hopen
      exact ⟨s.limited m, by rw [List.take_nil]; exact ask_of_finished hover _, hover⟩
    | false =>
      cases hlimit : (s.limited m).finished with
      | true =>
        -- the limit is reached, so the reports that are still to come are cut off
        have hwindow : s.stop.upTo s.now = false := (Bool.or_eq_false_iff.1 hopen).1
        have hreached : m ≤ s.emitted := by simpa [hwindow] using (finished_limited_iff hm).1 hlimit
        rw [Nat.sub_eq_zero_of_le hreached, List.take_zero]
        exact ⟨s.limited m, ask_of_finished hlimit _, hlimit⟩
      | false =>
        have hroom : s.emitted < m := by
          refine Nat.lt_of_not_le fun hreached => ?_
          rw [(finished_limited_iff hm).2 (.inr hreached)] at hlimit
          cases hlimit
        obtain ⟨⟨r, s₁⟩, hnext, hrest⟩ := bind_eq_ok h
        obtain ⟨⟨rs₁, u⟩, hask, heq⟩ := bind_eq_ok hrest
        obtain ⟨rfl, rfl⟩ := Prod.mk.inj (Except.ok.inj heq)
        obtain ⟨hnext', hemitted, hmax⟩ := next_limited hs hopen hlimit hnext
        obtain ⟨v, hask', hdone'⟩ := ih (hs.next hopen hnext).sound (hmax.trans hfree) hask
        refine ⟨v, ?_, hdone'⟩
        have htake : (r.toList ++ rs₁).take (m - s.emitted) = r.toList ++ rs₁.take (m - s₁.emitted) := by
          have hfits : r.toList.length ≤ m - s.emitted := by
            cases r with
            | none => exact Nat.zero_le _
            | some reading => exact Nat.sub_pos_of_lt hroom
          rw [List.take_append, List.take_of_length_le hfits, hemitted, Nat.sub_add_eq]
        rw [ask_succ hnext', hask', htake]
        rfl

/-! ### The stream -/

theorem drawHosts_limited (settings : Settings) (m n id : Nat) (d : Draws) (hosts : Array Host) :
    drawHosts { settings with maxPoints := m } n id d hosts = drawHosts settings n id d hosts := by
  induction n generalizing id d hosts with
  | zero => rfl
  | succ n ih =>
    have hdraw : Host.draw { settings with maxPoints := m } id d = Host.draw settings id d := rfl
    simp only [drawHosts, hdraw, ih]

theorem ofSettings_limited (settings : Settings) (m : Nat) :
    ofSettings { settings with maxPoints := m } = (ofSettings settings).map (limited · m) := by
  unfold ofSettings
  simp only [drawHosts_limited]
  split
  · rfl
  · split
    · rfl
    · cases drawHosts settings settings.scale 0 (Draws.ofSeed (UInt64.ofNat settings.seed)) #[] <;> rfl

/-- Each host has a delay in rounds, that of the first host being none. -/
theorem exists_delays {sim : Simulation} (h : ofSettings settings = .ok sim) :
    ∃ late : Nat → Nat, late 0 = 0 ∧ (∀ id, late id < startSlots) ∧
      ∀ (id : Nat) (host : Host), sim.hosts[id]? = some host → host.firstReading = settings.tick (late id) :=
  ⟨settings.delay, (delay_spec settings 0).2 rfl, fun id => (delay_spec settings id).1, fun id host hget =>
    ((fresh_of_ofSettings h).drawn id host hget).first⟩

theorem at_zero {sim : Simulation} (h : ofSettings settings = .ok sim)
    (hstart : settings.start.nanos < 2 * Span.nanosPerSecond)
    (hlate : ∀ (i : Nat) (host : Host), sim.hosts[i]? = some host → host.firstReading = settings.tick (late i)) :
    At settings late 0 (sim.limited 0) := by
  have hfresh := fresh_of_ofSettings h
  have hsound := sound_of_ofSettings h
  have htick : settings.tick 0 = settings.start := Stamp.later_of_nanos_lt hstart
  exact {
    sound := ⟨hsound.cursor, hsound.interval, hsound.first, hsound.hosts⟩
    size := hfresh.size
    interval := hfresh.interval
    stop := hfresh.stop
    unlimited := rfl
    cursor := hfresh.cursor.trans (Nat.zero_mod _).symm
    now := by
      rw [Nat.zero_div, htick]
      exact hfresh.now
    hosts := fun i host hget => ⟨hlate i host hget, (hfresh.drawn i host hget).hostname⟩ }

/-- Without a limit, a simulation that is set up reports round by round, in each round the hosts that have
    started; with a limit it gives the first of these reports. The dates do not run out: each round in the window
    is followed by one that has a date. -/
theorem gives_rounds {sim : Simulation} (hsim : ofSettings settings = .ok sim)
    (hstart : settings.start.nanos < 2 * Span.nanosPerSecond)
    (hdates : ∀ k, (settings.tick k).before settings.stop = true → (settings.tick (k + 1)).inRange = true) :
    ∃ (late : Nat → Nat) (ticks : Nat) (free : Simulation) (reports : List Reading),
      late 0 = 0 ∧ (∀ id, late id ≤ 2) ∧
      (∀ (id : Nat) (host : Host), sim.hosts[id]? = some host → host.firstReading = settings.tick (late id)) ∧
      (∀ k, (settings.tick k).before settings.stop = true ↔ k < ticks) ∧
      ofSettings { settings with maxPoints := 0 } = .ok free ∧ free.Gives reports ∧
      reports.map Reading.origin = settings.rounds late ticks ∧
      (∀ id < settings.scale,
        reports.countP (fun r => r.origin.2 == some (hostname id)) = ticks - late id) ∧
      sim.Gives (if settings.maxPoints = 0 then reports else reports.take settings.maxPoints) := by
  have hfresh := fresh_of_ofSettings hsim
  obtain ⟨late, hfirst, hslots, hlate⟩ := exists_delays hsim
  obtain ⟨ticks, hticks⟩ := exists_ticks hfresh.positive
  have hat := at_zero hsim hstart hlate
  obtain ⟨reports, t, hask, hend, horigins⟩ := hat.ask (n := settings.scale * ticks) hticks
    (fun k hk => hdates k ((hticks k).2 hk)) (by rw [Nat.zero_add])
  rw [← List.range_eq_range', flatMap_answer] at horigins
  have hdone : t.finished = true := by
    have hover : ¬(settings.tick ticks).before settings.stop = true := by
      rw [hticks]
      exact Nat.lt_irrefl _
    rw [hend.finished_eq, Nat.zero_add, Nat.mul_div_cancel_left _ hfresh.scale, Bool.not_eq_true _ |>.mp hover]
    rfl
  refine ⟨late, ticks, sim.limited 0, reports, hfirst, fun id => Nat.le_of_lt_succ (hslots id), hlate, hticks, ?_,
    gives_of_ask hask hdone, horigins, fun id hid => ?_, ?_⟩
  · rw [ofSettings_limited, hsim]
    rfl
  · rw [← countP_rounds hid ticks, ← horigins, List.countP_map]
    rfl
  · have hsame : sim = (sim.limited 0).limited settings.maxPoints := by
      rw [← hfresh.maxPoints]
      rfl
    have hnone : (sim.limited 0).emitted = 0 := hfresh.emitted
    rw [hsame]
    split
    · rename_i hfree
      rw [hfree]
      exact gives_of_ask hask hdone
    · rename_i hlimit
      obtain ⟨u, hcut, hdone'⟩ := ask_limited hat.sound rfl (Nat.pos_of_ne_zero hlimit) hask hdone
      rw [hnone, Nat.sub_zero] at hcut
      exact gives_of_ask hcut hdone'

theorem tick_short (k : Nat) : Settings.short.tick k = ⟨1451606400 + 10 * k, 0⟩ := by
  have hstart : Settings.short.start = ⟨1451606400, 0⟩ := rfl
  have hinterval : Settings.short.interval = ⟨10000000000⟩ := rfl
  rw [Settings.tick, hstart, hinterval]
  rcases Stamp.later_cases ⟨1451606400, 0⟩ ⟨10000000000 * k⟩ with ⟨hleap, -, -⟩ | ⟨-, heq⟩
  · exact absurd hleap (by decide)
  · rw [heq, Stamp.mk.injEq]
    simp only [Span.nanosPerSecond]
    omega

theorem gives_rounds_short :
    ∃ (sim : Simulation) (late : Nat → Nat) (reports : List Reading), ofSettings Settings.short = .ok sim ∧
      reports.map Reading.origin = Settings.short.rounds late 2 ∧ sim.Gives (reports.take 3) := by
  obtain ⟨sim, hsim⟩ : ∃ sim, ofSettings Settings.short = .ok sim := by
    have hset : (ofSettings Settings.short).toOption.isSome = true := by decide +kernel
    cases hsim : ofSettings Settings.short with
    | error e => rw [hsim] at hset; cases hset
    | ok sim => exact ⟨sim, rfl⟩
  have hwindow (k : Nat) : (Settings.short.tick k).before Settings.short.stop = true ↔ k < 2 := by
    have hstop : Settings.short.stop = ⟨1451606420, 0⟩ := rfl
    rw [tick_short, hstop]
    simp only [Stamp.before, Bool.or_eq_true, Bool.and_eq_true, decide_eq_true_eq, beq_iff_eq]
    omega
  have hdates (k : Nat) (hk : (Settings.short.tick k).before Settings.short.stop = true) :
      (Settings.short.tick (k + 1)).inRange = true := by
    rw [hwindow] at hk
    rw [tick_short]
    have hlow : Stamp.leastSeconds ≤ 0 := by decide
    have hhigh : 2000000000 ≤ Stamp.greatestSeconds := by decide
    simp only [Stamp.inRange, Bool.and_eq_true, decide_eq_true_eq]
    omega
  obtain ⟨late, ticks, -, reports, -, -, -, hticks, -, -, horigins, -, hgives⟩ :=
    gives_rounds hsim (by decide) hdates
  obtain rfl : ticks = 2 := by
    have h₁ := hticks ticks
    have h₂ := hticks 2
    rw [hwindow] at h₁ h₂
    omega
  exact ⟨sim, late, reports, hsim, horigins, hgives⟩

end Simulation
end IngestBench
