import IngestBench.CommandLine.Actions
import IngestBench.CommandLine.Machine
import IngestBench.Proofs.Acceptance

/-! Simulated points that are written, against the check of the settings that they come from. The check looks at the
    source that a load would read, and points are written from the settings of the simulator whatever that source
    is. Setting a simulation up asks again for a data set, for hosts and for an interval, so all that can be missed is
    a window that ends before it begins: nothing is reported in it, and no one is told. -/

namespace IngestBench

/-! ### Windows -/

namespace Simulation

variable {settings : Settings} {sim : Simulation}

/-- A simulation that was set up leaves only the window to check. -/
theorem check_of_ofUseCase (h : ofUseCase settings = .ok sim) :
    settings.check =
      if settings.start.before settings.stop then .ok () else .error (.window settings.start settings.stop) := by
  have hfresh := fresh_of_ofSettings (ofSettings_of_ofUseCase h)
  have hname : settings.useCase ∈ useCases := by
    unfold ofUseCase at h
    split at h
    · rename_i hname
      exact List.contains_iff_mem.1 hname
    · cases h
  have huse : Config.Check.choice "use_case" settings.useCase useCases = .ok () :=
    Config.Check.choice_eq_ok_iff.2 ⟨_, hname, rfl⟩
  have hscale : Config.Check.positive "scale" settings.scale = .ok () :=
    Config.Check.positive_eq_ok_iff.2 (Int.natCast_pos.2 hfresh.scale)
  have hinterval : Config.Check.nonzero "log_interval" settings.interval = .ok () :=
    Config.Check.nonzero_eq_ok_iff.2 hfresh.positive
  rw [Settings.check, huse, hscale, hinterval, Stamp.upTo]
  cases settings.start.before settings.stop <;> rfl

/-- In a window that ends before it begins there are no readings. -/
theorem generate_of_closed {format : PointFormat} (h : ofUseCase settings = .ok sim)
    (hclosed : settings.start.before settings.stop = false) :
    sim.generate format = .ok (format.writeHeader header, 0) := by
  have hfresh := fresh_of_ofSettings (ofSettings_of_ofUseCase h)
  have hfinished : sim.finished = true := by
    rw [finished, hfresh.stop, hfresh.now, Stamp.upTo, hclosed, Bool.not_false, Bool.true_or]
  have hreadings : sim.readings = .ok [] := by
    have hbound := (sound_of_ofUseCase h).questionsLeft_lt_questionBound
    obtain ⟨fuel, hfuel⟩ := Nat.exists_eq_add_one_of_ne_zero (Nat.ne_of_gt (Nat.lt_of_le_of_lt (Nat.zero_le _) hbound))
    rw [readings, hfuel, collect, nextReading_of_finished hfinished]
    rfl
  rw [Simulation.generate, hreadings]
  exact congrArg (fun text => Except.ok (text, 0)) (String.append_empty)

end Simulation

namespace CommandLine

variable {σ ω α β : Type}

/-! ### Actions on a state -/

namespace Action

theorem bind_eq_ok_iff {u : Action (StateM σ) α} {f : α → Action (StateM σ) β} {x y : σ} {b : β} :
    (u >>= f) x = (.ok b, y) ↔ ∃ a z, u x = (.ok a, z) ∧ f a z = (.ok b, y) := by
  have hbind : (u >>= f) x = match u x with
      | (.ok a, z) => f a z
      | (.error e, z) => (.error e, z) := by
    change (StateT.bind (m := Id) u (ExceptT.bindCont f)) x = _
    unfold StateT.bind
    rcases u x with ⟨e | a, z⟩ <;> rfl
  rw [hbind]
  rcases hu : u x with ⟨e | a, z⟩
  · exact ⟨fun h => (by cases h), by rintro ⟨a, z', h, -⟩; cases h⟩
  · exact ⟨fun h => ⟨a, z, rfl, h⟩, by rintro ⟨a', z', h, hf⟩; cases h; exact hf⟩

theorem settled_eq_ok_iff {result : Except Fault α} {x y : σ} {a : α} :
    (settled result : Action (StateM σ) α) x = (.ok a, y) ↔ result = .ok a ∧ y = x := by
  constructor
  · intro h
    cases h
    exact ⟨rfl, rfl⟩
  · rintro ⟨rfl, rfl⟩
    rfl

theorem withFile_eq_ok_iff {task : FileTask} {work : StateM σ (Except FileFault α)} {x y : σ} {a : α} :
    (withFile task work) x = (.ok a, y) ↔ work x = (.ok a, y) := by
  have hwork : (withFile task work) x = ((work x).1.mapError (.file task), (work x).2) := rfl
  rw [hwork]
  rcases work x with ⟨e | b, z⟩
  · exact ⟨fun h => (by cases h), fun h => (by cases h)⟩
  · exact ⟨fun h => (by cases h; rfl), fun h => (by cases h; rfl)⟩

theorem lift_eq_ok_iff {work : StateM σ α} {x y : σ} {a : α} :
    (liftM work : Action (StateM σ) α) x = (.ok a, y) ↔ work x = (a, y) := by
  have hwork : (liftM work : Action (StateM σ) α) x = (.ok (work x).1, (work x).2) := rfl
  rw [hwork]
  rcases work x with ⟨b, z⟩
  exact ⟨fun h => (by cases h; rfl), fun h => (by cases h; rfl)⟩

end Action

/-! ### Checked settings -/

theorem bind_of_eq_ok {ε : Type} {result : Except ε α} {f : α → Except ε β} {a : α} (h : result = .ok a) :
    (result >>= f) = f a := by
  rw [h]
  rfl

theorem mapError_eq_ok_iff {ε ε' : Type} {result : Except ε α} {f : ε → ε'} {a : α} :
    result.mapError f = .ok a ↔ result = .ok a := by
  cases result with
  | error e => exact ⟨fun h => (by cases h), fun h => (by cases h)⟩
  | ok b => exact ⟨fun h => (by cases h; rfl), fun h => (by cases h; rfl)⟩

variable {host : Host (StateM σ) ω} {common : CommonFlags} {flags : GenerateFlags} {s : Settings} {x y z : σ}

/-- The settings of a command have passed their check with the flags in force. -/
theorem check_of_settingsFor {change : Settings → Settings} (h : settingsFor host common change x = (.ok s, z)) :
    s.check = .ok () := by
  obtain ⟨loaded, x₁, -, hflags⟩ := Action.bind_eq_ok_iff.1 h
  obtain ⟨hflags, -⟩ := Action.settled_eq_ok_iff.1 hflags
  obtain ⟨levelled, -, hchange⟩ := Simulation.bind_eq_ok hflags
  obtain ⟨hcheck, heq⟩ := Config.bind_eq_ok_iff.1 hchange
  cases heq
  exact mapError_eq_ok_iff.1 hcheck

/-- Of the settings of a simulator, the check looks at those that a load would use. -/
theorem simulator_check_of_check (h : s.check = .ok ()) (hkind : s.source.kind = .simulator) :
    s.source.simulator.check = .ok () := by
  have hsource := (Config.bind_eq_ok_iff.1 (Config.bind_eq_ok_iff.1 h).2).1
  rw [SourceSettings.check, hkind] at hsource
  exact mapError_eq_ok_iff.1 hsource

/-! ### Written points -/

/-- The output holds a text. A file was emptied before. -/
def Written (host : Host (StateM σ) ω) (output : Option String) (text : String) (x y : σ) : Prop :=
  match output with
  | none => host.print text x = ((), y)
  | some path => ∃ z, host.write path "" x = (.ok (), z) ∧ host.write path text z = (.ok (), y)

theorem generate_eq_ok_iff :
    generate host common flags x = (.ok (), y) ↔
      ∃ s z target text, settingsFor host common flags.apply x = (.ok s, z) ∧ targetOf s = .ok target ∧
        simulatedText s target = .ok text ∧ Written host flags.output text z y := by
  simp only [generate, Action.bind_eq_ok_iff, Action.settled_eq_ok_iff]
  constructor
  · rintro ⟨s, _, hsettings, target, z, ⟨htarget, rfl⟩, hwrite⟩
    refine ⟨s, z, target, ?_⟩
    cases houtput : flags.output with
    | none =>
      rw [houtput] at hwrite
      obtain ⟨text, _, hsettled, hprint⟩ := Action.bind_eq_ok_iff.1 hwrite
      obtain ⟨htext, rfl⟩ := Action.settled_eq_ok_iff.1 hsettled
      exact ⟨text, hsettings, htarget, htext, Action.lift_eq_ok_iff.1 hprint⟩
    | some path =>
      rw [houtput] at hwrite
      obtain ⟨⟨⟩, x₁, hcreate, hwrite⟩ := Action.bind_eq_ok_iff.1 hwrite
      obtain ⟨text, _, hsettled, hfill⟩ := Action.bind_eq_ok_iff.1 hwrite
      obtain ⟨htext, rfl⟩ := Action.settled_eq_ok_iff.1 hsettled
      exact ⟨text, hsettings, htarget, htext, _, Action.withFile_eq_ok_iff.1 hcreate,
        Action.withFile_eq_ok_iff.1 hfill⟩
  · rintro ⟨s, z, target, text, hsettings, htarget, htext, hwritten⟩
    refine ⟨s, z, hsettings, target, z, ⟨htarget, rfl⟩, ?_⟩
    cases houtput : flags.output with
    | none =>
      rw [houtput] at hwritten
      exact Action.bind_eq_ok_iff.2
        ⟨text, z, Action.settled_eq_ok_iff.2 ⟨htext, rfl⟩, Action.lift_eq_ok_iff.2 hwritten⟩
    | some path =>
      rw [houtput] at hwritten
      obtain ⟨x₁, hcreate, hfill⟩ := hwritten
      exact Action.bind_eq_ok_iff.2 ⟨(), x₁, Action.withFile_eq_ok_iff.2 hcreate, Action.bind_eq_ok_iff.2
        ⟨text, x₁, Action.settled_eq_ok_iff.2 ⟨htext, rfl⟩, Action.withFile_eq_ok_iff.2 hfill⟩⟩

theorem simulatedText_eq_ok_iff {target : Target} {text : String} :
    simulatedText s target = .ok text ↔ ∃ sim points, Simulation.ofUseCase s.source.simulator = .ok sim ∧
      sim.generate target.format = .ok (text, points) := by
  rw [simulatedText, mapError_eq_ok_iff]
  constructor
  · intro h
    obtain ⟨sim, hsim, hrest⟩ := Simulation.bind_eq_ok h
    obtain ⟨⟨text', points⟩, hpoints, heq⟩ := Simulation.bind_eq_ok hrest
    cases heq
    exact ⟨sim, points, hsim, hpoints⟩
  · rintro ⟨sim, points, hsim, hpoints⟩
    rw [bind_of_eq_ok hsim, bind_of_eq_ok hpoints]
    rfl

theorem simulatedText_of_closed {target : Target} {sim : Simulation}
    (hsim : Simulation.ofUseCase s.source.simulator = .ok sim)
    (hclosed : s.source.simulator.start.before s.source.simulator.stop = false) :
    simulatedText s target = .ok (target.format.writeHeader Simulation.header) :=
  simulatedText_eq_ok_iff.2 ⟨sim, 0, hsim, Simulation.generate_of_closed hsim hclosed⟩

/-- Points that were written come from settings whose window alone may be wrong, and only where a load would read a
    file: then no point was written, and this passed as a success. It does so whenever the simulation can be set up
    and the output takes what stands before the points. -/
theorem generate_checks_all_but_window (host : Host (StateM σ) ω) (common : CommonFlags) (flags : GenerateFlags)
    (x y : σ) :
    (generate host common flags x = (.ok (), y) → ∃ s z target text,
      settingsFor host common flags.apply x = (.ok s, z) ∧ targetOf s = .ok target ∧
      simulatedText s target = .ok text ∧ Written host flags.output text z y ∧
      (s.source.simulator.check = .ok () ↔
        s.source.simulator.start.before s.source.simulator.stop = true) ∧
      (s.source.kind = .simulator → s.source.simulator.check = .ok ()) ∧
      (s.source.simulator.check ≠ .ok () → s.source.kind = .file ∧
        s.source.simulator.check = .error (.window s.source.simulator.start s.source.simulator.stop) ∧
        text = target.format.writeHeader Simulation.header)) ∧
    ∀ s z target sim, settingsFor host common flags.apply x = (.ok s, z) → targetOf s = .ok target →
      Simulation.ofUseCase s.source.simulator = .ok sim →
      s.source.simulator.start.before s.source.simulator.stop = false →
      Written host flags.output (target.format.writeHeader Simulation.header) z y →
      generate host common flags x = (.ok (), y) := by
  constructor
  · intro h
    obtain ⟨s, z, target, text, hsettings, htarget, htext, hwritten⟩ := generate_eq_ok_iff.1 h
    obtain ⟨sim, points, hsim, hpoints⟩ := simulatedText_eq_ok_iff.1 htext
    have hcheck := Simulation.check_of_ofUseCase hsim
    have hkind := simulator_check_of_check (check_of_settingsFor hsettings)
    refine ⟨s, z, target, text, hsettings, htarget, htext, hwritten, ?_, hkind, fun hne => ?_⟩
    · exact ⟨fun hok => (Simulation.Settings.check_eq_ok_iff.1 hok).window, fun hopen => hcheck.trans (if_pos hopen)⟩
    · have hclosed : ¬s.source.simulator.start.before s.source.simulator.stop = true :=
        fun hopen => hne (hcheck.trans (if_pos hopen))
      refine ⟨?_, hcheck.trans (if_neg hclosed), ?_⟩
      · cases hfile : s.source.kind with
        | file => rfl
        | simulator => exact absurd (hkind hfile) hne
      · rw [Simulation.generate_of_closed hsim (Bool.eq_false_iff.2 hclosed)] at hpoints
        exact (Prod.mk.inj (Except.ok.inj hpoints)).1.symm
  · intro s z target sim hsettings htarget hsim hclosed hwritten
    exact generate_eq_ok_iff.2
      ⟨s, z, target, _, hsettings, htarget, simulatedText_of_closed hsim hclosed, hwritten⟩

/-- Settings for a load from a file. The simulation in them ends a day before it starts. -/
def backwards : String :=
  "data_source:\n  simulator:\n    timestamp_start: 2016-01-02T00:00:00Z\n    timestamp_end: 2016-01-01T00:00:00Z\n"

/-- A machine with these settings in a file. -/
def Machine.withBackwards : Machine := .ofFiles [("c.yaml", backwards)] ""

/-- The flags of a command that takes its settings from that file. -/
def CommonFlags.backwards : CommonFlags := ⟨some "c.yaml", .none⟩

/-- The simulation of those settings. -/
def backwardsSimulator : Simulation.Settings :=
  { Simulation.Settings.standard with start := ⟨1451692800, 0⟩, stop := ⟨1451606400, 0⟩ }

/-- An outcome, read off what can be compared of it. -/
theorem exists_of_toOption_map {ε : Type} {outcome : Except ε α × σ} {f : α → β} {b : β} {x : σ}
    (hvalue : outcome.1.toOption.map f = some b) (hstate : outcome.2 = x) :
    ∃ a, outcome = (.ok a, x) ∧ f a = b := by
  obtain ⟨e | a, z⟩ := outcome
  · cases hvalue
  · exact ⟨a, by rw [← hstate], Option.some.inj hvalue⟩

theorem settingsFor_backwards : ∃ s, settingsFor (Machine.host 4 fun _ => none) .backwards
    GenerateFlags.none.apply Machine.withBackwards = (.ok s, Machine.withBackwards) ∧
      (s.source, s.target.name) = (⟨.file, "-", backwardsSimulator⟩, "influx") :=
  exists_of_toOption_map (by decide +kernel) (by decide +kernel)

theorem ofUseCase_backwards : ∃ sim, Simulation.ofUseCase backwardsSimulator = .ok sim := by
  have hset : (Simulation.ofUseCase backwardsSimulator).isOk = true := by decide +kernel
  cases h : Simulation.ofUseCase backwardsSimulator with
  | error e =>
    rw [h] at hset
    cases hset
  | ok sim => exact ⟨sim, rfl⟩

/-- What stands before the points of this simulation can be written. -/
theorem backwards_ready : ∃ s sim,
    settingsFor (Machine.host 4 fun _ => none) .backwards GenerateFlags.none.apply Machine.withBackwards =
      (.ok s, Machine.withBackwards) ∧ targetOf s = .ok .influx ∧
    Simulation.ofUseCase s.source.simulator = .ok sim ∧
    s.source.simulator.start.before s.source.simulator.stop = false ∧
    Written (Machine.host 4 fun _ => none) GenerateFlags.none.output
      (Target.influx.format.writeHeader Simulation.header) Machine.withBackwards Machine.withBackwards := by
  obtain ⟨s, hsettings, hs⟩ := settingsFor_backwards
  obtain ⟨hsource, hname⟩ := Prod.mk.inj hs
  obtain ⟨sim, hsim⟩ := ofUseCase_backwards
  have hsimulator : s.source.simulator = backwardsSimulator := congrArg SourceSettings.simulator hsource
  have htarget : targetOf s = .ok .influx := by
    rw [targetOf, hname]
    rfl
  have hclosed : s.source.simulator.start.before s.source.simulator.stop = false := by
    rw [hsimulator]
    rfl
  exact ⟨s, sim, hsettings, htarget, hsimulator ▸ hsim, hclosed, rfl⟩

theorem generate_checks_all_but_window_backwards : ∃ s sim,
    settingsFor (Machine.host 4 fun _ => none) .backwards GenerateFlags.none.apply Machine.withBackwards =
      (.ok s, Machine.withBackwards) ∧ targetOf s = .ok .influx ∧
    Simulation.ofUseCase s.source.simulator = .ok sim ∧
    s.source.simulator.start.before s.source.simulator.stop = false ∧
    Written (Machine.host 4 fun _ => none) GenerateFlags.none.output
      (Target.influx.format.writeHeader Simulation.header) Machine.withBackwards Machine.withBackwards ∧
    generate (Machine.host 4 fun _ => none) .backwards .none Machine.withBackwards =
      (.ok (), Machine.withBackwards) ∧
    ∃ s z target text, settingsFor (Machine.host 4 fun _ => none) .backwards GenerateFlags.none.apply
      Machine.withBackwards = (.ok s, z) ∧ targetOf s = .ok target ∧ simulatedText s target = .ok text := by
  obtain ⟨s, sim, hsettings, htarget, hsim, hclosed, hwritten⟩ := backwards_ready
  have hmain := generate_checks_all_but_window (Machine.host 4 fun _ => none) .backwards .none
    Machine.withBackwards Machine.withBackwards
  have hgenerate := hmain.2 s _ _ sim hsettings htarget hsim hclosed hwritten
  obtain ⟨s', z, target, text, hsettings', htarget', htext, -⟩ := hmain.1 hgenerate
  exact ⟨s, sim, hsettings, htarget, hsim, hclosed, hwritten, hgenerate, s', z, target, text, hsettings', htarget',
    htext⟩

/-- Writing points, none at all, succeeds with settings that do not pass the check. -/
theorem backwards_window_written : ∃ s,
    settingsFor (Machine.host 4 fun _ => none) .backwards GenerateFlags.none.apply Machine.withBackwards =
      (.ok s, Machine.withBackwards) ∧
    generate (Machine.host 4 fun _ => none) .backwards .none Machine.withBackwards =
      (.ok (), Machine.withBackwards) ∧
    s.source.simulator.check ≠ .ok () := by
  obtain ⟨s, sim, hsettings, htarget, hsim, hclosed, hwritten⟩ := backwards_ready
  refine ⟨s, hsettings, generate_eq_ok_iff.2
    ⟨s, _, _, _, hsettings, htarget, simulatedText_of_closed hsim hclosed, hwritten⟩, ?_⟩
  rw [Simulation.check_of_ofUseCase hsim, hclosed, if_neg Bool.false_ne_true]
  exact fun h => (by cases h)

end CommandLine
end IngestBench
