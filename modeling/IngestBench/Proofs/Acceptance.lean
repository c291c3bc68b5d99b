import IngestBench.Config
import IngestBench.Proofs.Replay

/-! Settings of a simulation that pass their check. Setting the simulation up looks at the same things again: hosts
    are drawn after all refusals, so what is refused is read off the settings, and the only thing that the check
    lets through and the simulation refuses by design is an interval beyond what calendar arithmetic takes. -/

namespace IngestBench

/-! ### The parts of a check -/

namespace Config

theorem bind_eq_ok_iff {ε α : Type} {x : Except ε Unit} {y : Except ε α} {a : α} :
    (x >>= fun _ => y) = .ok a ↔ x = .ok () ∧ y = .ok a := by
  cases x with
  | error e => exact ⟨fun h => (by cases h), fun h => (by cases h.1)⟩
  | ok u => exact ⟨fun h => ⟨rfl, h⟩, fun h => h.2⟩

namespace Check

variable {field value : String}

theorem positive_eq_ok_iff {n : Int} : positive field n = .ok () ↔ 0 < n := by
  unfold positive
  split
  · rename_i hn
    exact ⟨fun h => (by cases h), fun h => (by omega)⟩
  · rename_i hn
    exact ⟨fun _ => Int.not_le.1 hn, fun _ => rfl⟩

theorem nonzero_eq_ok_iff {s : Span} : nonzero field s = .ok () ↔ 0 < s.nanos := by
  unfold nonzero Span.isZero
  split
  · rename_i hzero
    rw [beq_iff_eq] at hzero
    exact ⟨fun h => (by cases h), fun h => (by omega)⟩
  · rename_i hne
    rw [beq_iff_eq] at hne
    exact ⟨fun _ => Nat.pos_of_ne_zero hne, fun _ => rfl⟩

/-- The texts differ at most in the case of their letters. -/
def SameLetters (s t : String) : Prop := s.toList.map Char.toLower = t.toList.map Char.toLower

theorem choice_eq_ok_iff {choices : List String} :
    choice field value choices = .ok () ↔ ∃ c ∈ choices, SameLetters c value := by
  have hany : (choices.any fun c => c.toList.map Char.toLower == value.toList.map Char.toLower) = true ↔
      ∃ c ∈ choices, SameLetters c value := by
    simp only [List.any_eq_true, beq_iff_eq, SameLetters]
  rw [← hany, choice]
  split
  · rename_i hfound
    exact ⟨fun _ => hfound, fun _ => rfl⟩
  · rename_i hnone
    exact ⟨fun h => (by cases h), fun h => absurd h hnone⟩

end Check
end Config

namespace Simulation

variable {settings : Settings}

/-! ### The check -/

/-- What the check asks of the settings. -/
structure Settings.Checked (settings : Settings) : Prop where
  useCase : ∃ name ∈ useCases, Config.Check.SameLetters name settings.useCase
  scale : 0 < settings.scale
  interval : 0 < settings.interval.nanos
  window : settings.start.before settings.stop = true

theorem Settings.check_eq_ok_iff : settings.check = .ok () ↔ settings.Checked := by
  have hwindow : (if settings.stop.upTo settings.start then
      throw (Config.Flaw.window settings.start settings.stop) else pure () : Config.Check) = .ok () ↔
        settings.start.before settings.stop = true := by
    rw [Stamp.upTo]
    cases settings.start.before settings.stop
    · exact ⟨fun h => (by cases h), fun h => (by cases h)⟩
    · exact ⟨fun _ => rfl, fun _ => rfl⟩
  rw [Settings.check, Config.bind_eq_ok_iff, Config.bind_eq_ok_iff, Config.bind_eq_ok_iff, hwindow,
    Config.Check.choice_eq_ok_iff, Config.Check.positive_eq_ok_iff, Config.Check.nonzero_eq_ok_iff,
    Int.natCast_pos]
  constructor
  · rintro ⟨huse, hscale, hinterval, hopen⟩
    exact ⟨huse, hscale, hinterval, hopen⟩
  · intro h
    exact ⟨h.useCase, h.scale, h.interval, h.window⟩

/-! ### Refusals -/

/-- Drawing hosts ends in hosts or in a date that does not fit. -/
theorem drawHosts_ne_failed {n id : Nat} {d : Draws} {hosts : Array Host} {failure : Failure} :
    drawHosts settings n id d hosts ≠ .error (.failed failure) := by
  induction n generalizing id d hosts with
  | zero => intro h; cases h
  | succ n ih =>
    have hdraw := (Sketch.draw_spec id d).2 settings
    generalize Sketch.draw id d = drawn at hdraw
    intro h
    rw [drawHosts, hdraw, slotTime] at h
    dsimp only at h
    split at h
    · cases h
    · split at h
      · exact ih h
      · cases h

/-- The simulation of these hosts before the first question. -/
def Settings.begin (settings : Settings) (drawn : Array Host × Draws) : Simulation where
  hosts := drawn.1
  draws := drawn.2
  interval := settings.interval
  now := settings.start
  stop := settings.stop
  cursor := 0
  emitted := 0
  maxPoints := settings.maxPoints

/-- Behind the refusals, setting up is drawing the hosts. -/
theorem ofSettings_eq (hscale : 0 < settings.scale) (hinterval : 0 < settings.interval.nanos) :
    ofSettings settings =
      if longestInterval.nanos < settings.interval.nanos then
        .error (.failed (.config (.interval settings.interval)))
      else
        (drawHosts settings settings.scale 0 (Draws.ofSeed (UInt64.ofNat settings.seed)) #[]).map settings.begin := by
  have hzero : settings.interval.isZero = false := beq_false_of_ne (Nat.pos_iff_ne_zero.1 hinterval)
  rw [ofSettings, if_neg (Nat.pos_iff_ne_zero.1 hscale), hzero, Bool.false_or]
  by_cases hlong : longestInterval.nanos < settings.interval.nanos
  · rw [decide_eq_true hlong, if_pos rfl, if_pos hlong]
    rfl
  · rw [decide_eq_false hlong, if_neg Bool.false_ne_true, if_neg hlong]
    cases drawHosts settings settings.scale 0 (Draws.ofSeed (UInt64.ofNat settings.seed)) #[] <;> rfl

/-- Of what the check lets through, a simulation whose data set is named as it is listed refuses the intervals that
    are too long for calendar arithmetic, and nothing else. All others are set up, unless a date does not fit. -/
theorem refuses_iff_too_long (hcheck : settings.check = .ok ()) (hname : settings.useCase ∈ useCases) :
    (∀ failure, ofUseCase settings = .error (.failed failure) ↔
      longestInterval.nanos < settings.interval.nanos ∧ failure = .config (.interval settings.interval)) ∧
    (settings.interval.nanos ≤ longestInterval.nanos →
      (∃ sim, ofUseCase settings = .ok sim) ∨ ofUseCase settings = .error .overflow) := by
  have hchecked := Settings.check_eq_ok_iff.1 hcheck
  rw [ofUseCase, if_pos (List.contains_iff_mem.2 hname), ofSettings_eq hchecked.scale hchecked.interval]
  by_cases hlong : longestInterval.nanos < settings.interval.nanos
  · rw [if_pos hlong]
    refine ⟨fun failure => ⟨fun h => ?_, ?_⟩, fun hshort => absurd hlong (Nat.not_lt.2 hshort)⟩
    · cases h
      exact ⟨hlong, rfl⟩
    · rintro ⟨-, rfl⟩
      rfl
  · rw [if_neg hlong]
    cases hdrawn : drawHosts settings settings.scale 0 (Draws.ofSeed (UInt64.ofNat settings.seed)) #[] with
    | ok drawn =>
      exact ⟨fun failure => ⟨fun h => (by cases h), fun h => absurd h.1 hlong⟩, fun _ => .inl ⟨_, rfl⟩⟩
    | error e =>
      cases e with
      | failed failure => exact absurd hdrawn drawHosts_ne_failed
      | overflow => exact ⟨fun failure => ⟨fun h => (by cases h), fun h => absurd h.1 hlong⟩, fun _ => .inr rfl⟩

/-- Readings that are three hundred million years apart. -/
def Settings.rare : Settings := { Settings.standard with interval := .ofSeconds (300000000 * 31557600) }

theorem refuses_iff_too_long_rare :
    Settings.rare.check = .ok () ∧ Settings.rare.useCase ∈ useCases ∧
      ofUseCase Settings.rare = .error (.failed (.config (.interval Settings.rare.interval))) := by
  have hcheck : Settings.rare.check = .ok () := rfl
  have hname : Settings.rare.useCase ∈ useCases := by decide
  have hlong : longestInterval.nanos < Settings.rare.interval.nanos := by decide
  exact ⟨hcheck, hname, ((refuses_iff_too_long hcheck hname).1 _).2 ⟨hlong, rfl⟩⟩

/-- Settings may pass the check and be refused: for an interval that is too long, and for a data set that is named
    in other letters. -/
theorem checked_settings_refused :
    (Settings.rare.check = .ok () ∧
      ofUseCase Settings.rare = .error (.failed (.config (.interval ⟨9467280000000000000000000⟩)))) ∧
    ({ Settings.standard with useCase := "CPU-ONLY" } : Settings).check = .ok () ∧
      ofUseCase { Settings.standard with useCase := "CPU-ONLY" } =
        .error (.failed (.config (.unknownUseCase "CPU-ONLY"))) := by
  refine ⟨⟨rfl, ?_⟩, rfl, ?_⟩
  · rw [ofUseCase, if_pos (by decide), ofSettings_eq (by decide) (by decide), if_pos (by decide)]
    rfl
  · rw [ofUseCase, if_neg (by decide)]

end Simulation
end IngestBench
