import IngestBench.Proofs.Ticks

/-! Data that is written from a simulation and replayed is the data of the simulation. -/

namespace IngestBench

open Text (Lacks)

/-- The correction of a draw stays below the range: where it is made, the high half is not the largest one. -/
theorem Draws.below_lt {range : Nat} (d : Draws) (hpos : 0 < range) : (d.below range).1 < range := by
  have hhigh (w : UInt32) : w.toNat * range / UInt32.size < range :=
    Nat.div_lt_of_lt_mul (Nat.mul_lt_mul_of_pos_right w.toNat_lt hpos)
  have hroom (w : UInt32) (hopen : UInt32.size - range < w.toNat * range % UInt32.size) :
      w.toNat * range / UInt32.size + 1 < range := by
    refine Nat.lt_of_le_of_ne (hhigh w) fun hlast => ?_
    have hproduct := Nat.mul_le_mul_right range (Nat.le_sub_one_of_lt w.toNat_lt)
    have hsplit := Nat.div_add_mod (w.toNat * range) UInt32.size
    generalize w.toNat * range / UInt32.size = high at *
    generalize w.toNat * range % UInt32.size = low at *
    simp only [UInt32.size] at *
    omega
  unfold Draws.below
  dsimp only
  split
  · rename_i hopen
    dsimp only
    split
    · exact hroom _ hopen
    · exact hhigh _
  · exact hhigh _

namespace Simulation

variable {settings : Settings} {sim : Simulation}

/-! ### Drawing hosts -/

theorem pick_of_forall {α : Type} {P : α → Prop} {items : List α} {default x : α} {d d' : Draws}
    (hitems : ∀ x ∈ items, P x) (hdefault : P default) (h : pick items default d = (x, d')) : P x := by
  have hx : items.getD (d.below items.length).1 default = x := congrArg Prod.fst h
  rw [← hx, List.getD_eq_getElem?_getD]
  cases hget : items[(d.below items.length).1]? with
  | none => exact hdefault
  | some x => exact hitems x (List.mem_of_getElem? hget)

theorem length_drawMany (draw : Draws → Float × Draws) (n : Nat) (d : Draws) :
    (drawMany draw n d).1.length = n := by
  induction n generalizing d with
  | zero => rfl
  | succ n ih => exact congrArg (· + 1) (ih (draw d).2)

theorem slotTime_eq_ok {start first : Stamp} {interval : Span} {slots : Nat}
    (h : slotTime start interval slots = .ok first) : first = start.later ⟨interval.nanos * slots⟩ := by
  unfold slotTime at h
  simp only at h
  split at h
  · cases h
  · split at h
    · rename_i t ht
      obtain rfl := Except.ok.inj h
      exact Stamp.later?_eq_some ht
    · cases h

/-- A host without its dates. -/
structure Sketch where
  tags : List (String × String)
  usage : List Float
  /-- The intervals between the start and the first reading. -/
  delay : Nat

/-- Draws all of a host but its dates. -/
def Sketch.draw (id : Nat) (d : Draws) : Sketch × Draws :=
  let ((region, centers), d) := pick regions ("", []) d
  let (center, d) := pick centers "" d
  let (rack, d) := d.below 100
  let (system, d) := pick systems "" d
  let (architecture, d) := pick architectures "" d
  let (team, d) := pick teams "" d
  let (service, d) := d.below 20
  let (version, d) := d.below 2
  let (environment, d) := pick environments "" d
  let values := ["host_" ++ Nat.repr id, region, region ++ center, Nat.repr rack, system, architecture, team,
    Nat.repr service, Nat.repr version, environment]
  let (usage, d) := drawMany (Draws.between 0.0 100.0) fieldNames.length d
  let (delay, d) := if id = 0 then (0, d) else d.below startSlots
  (⟨tagNames.zip values, usage, delay⟩, d)

/-- What is known of a sketch that was drawn for the host with number `id`. -/
structure Sketch.Drawn (id : Nat) (sketch : Sketch) : Prop where
  tags : ∀ tag ∈ sketch.tags, Lacks Input.isLineEnd tag.1 ∧ Lacks Input.isLineEnd tag.2
  usage : sketch.usage.length = fieldNames.length
  hostname : sketch.tags.lookup "hostname" = some ("host_" ++ Nat.repr id)
  delay : sketch.delay < startSlots
  first : id = 0 → sketch.delay = 0

/-- The dates come last: a host is drawn as its sketch is, and then dated. -/
theorem Sketch.draw_spec (id : Nat) (d : Draws) :
    (Sketch.draw id d).1.Drawn id ∧
      ∀ settings, Host.draw settings id d =
        (slotTime settings.start settings.interval (Sketch.draw id d).1.delay).map fun first =>
          (⟨(Sketch.draw id d).1.tags, (Sketch.draw id d).1.usage, first⟩, (Sketch.draw id d).2) := by
  rcases hregion : pick regions ("", []) d with ⟨⟨region, centers⟩, d₁⟩
  rcases hcenter : pick centers "" d₁ with ⟨center, d₂⟩
  rcases hrack : d₂.below 100 with ⟨rack, d₃⟩
  rcases hsystem : pick systems "" d₃ with ⟨system, d₄⟩
  rcases harchitecture : pick architectures "" d₄ with ⟨architecture, d₅⟩
  rcases hteam : pick teams "" d₅ with ⟨team, d₆⟩
  rcases hservice : d₆.below 20 with ⟨service, d₇⟩
  rcases hversion : d₇.below 2 with ⟨version, d₈⟩
  rcases henvironment : pick environments "" d₈ with ⟨environment, d₉⟩
  rcases husage : drawMany (Draws.between 0.0 100.0) fieldNames.length d₉ with ⟨usage, d₁₀⟩
  rcases hdelay : (if id = 0 then (0, d₁₀) else d₁₀.below startSlots) with ⟨delay, d₁₁⟩
  simp only [Host.draw, Sketch.draw, hregion, hcenter, hrack, hsystem, harchitecture, hteam, hservice, hversion,
    henvironment, husage, hdelay]
  refine ⟨⟨?_, ?_, rfl, ?_, ?_⟩, fun settings => ?_⟩
  · have hregionLine := pick_of_forall (P := fun item : String × List String =>
      Lacks Input.isLineEnd item.1 ∧ ∀ center ∈ item.2, Lacks Input.isLineEnd center)
      (by decide) (by decide) hregion
    have hcenterLine := pick_of_forall hregionLine.2 (by decide) hcenter
    have hsystemLine := pick_of_forall (P := Lacks Input.isLineEnd) (by decide) (by decide) hsystem
    have harchitectureLine := pick_of_forall (P := Lacks Input.isLineEnd) (by decide) (by decide) harchitecture
    have hteamLine := pick_of_forall (P := Lacks Input.isLineEnd) (by decide) (by decide) hteam
    have henvironmentLine := pick_of_forall (P := Lacks Input.isLineEnd) (by decide) (by decide) henvironment
    have hnumber (n : Nat) : Lacks Input.isLineEnd n.repr :=
      (Text.lacks_repr n).mono fun _ => Text.isForeign_of_isLineEnd
    have hnames : ∀ name ∈ tagNames, Lacks Input.isLineEnd name := by decide
    intro tag htag
    refine ⟨hnames tag.1 (List.of_mem_zip htag).1, ?_⟩
    have hvalue := (List.of_mem_zip htag).2
    simp only [List.mem_cons, List.not_mem_nil, or_false] at hvalue
    rcases hvalue with h | h | h | h | h | h | h | h | h | h <;> rw [h]
    · exact Text.lacks_append.2 ⟨by decide, hnumber id⟩
    · exact hregionLine.1
    · exact Text.lacks_append.2 ⟨hregionLine.1, hcenterLine⟩
    · exact hnumber rack
    · exact hsystemLine
    · exact harchitectureLine
    · exact hteamLine
    · exact hnumber service
    · exact hnumber version
    · exact henvironmentLine
  · have hlength := length_drawMany (Draws.between 0.0 100.0) fieldNames.length d₉
    rwa [husage] at hlength
  · dsimp only
    split at hdelay
    · obtain ⟨rfl, -⟩ := Prod.mk.inj hdelay
      decide
    · have hbelow := d₁₀.below_lt (show 0 < startSlots by decide)
      rwa [hdelay] at hbelow
  · intro hid
    rw [if_pos hid] at hdelay
    exact (Prod.mk.inj hdelay).1.symm
  · cases slotTime settings.start settings.interval delay <;> rfl

/-- The draws that are left when a host is drawn. -/
def Sketch.rest (id : Nat) (d : Draws) : Draws := (Sketch.draw id d).2

/-- The draws that are left for a host when those before it are drawn. -/
def Settings.drawsFor (settings : Settings) : Nat → Draws
  | 0 => Draws.ofSeed (UInt64.ofNat settings.seed)
  | id + 1 => Sketch.rest id (settings.drawsFor id)

/-- The rounds that a host starts late. They depend on the seed only. -/
def Settings.delay (settings : Settings) (id : Nat) : Nat := (Sketch.draw id (settings.drawsFor id)).1.delay

/-- The first host is on time, the others start less than three rounds late. -/
theorem delay_spec (settings : Settings) (id : Nat) :
    settings.delay id < startSlots ∧ (id = 0 → settings.delay id = 0) := by
  have hdrawn := (Sketch.draw_spec id (settings.drawsFor id)).1
  rw [Settings.delay]
  exact ⟨hdrawn.delay, hdrawn.first⟩

/-- What is known of a host that was drawn as the one with number `id`. -/
structure Host.Drawn (settings : Settings) (id : Nat) (host : Host) : Prop where
  plain : host.Plain
  hostname : host.tags.lookup "hostname" = some ("host_" ++ Nat.repr id)
  first : host.firstReading = settings.start.later ⟨settings.interval.nanos * settings.delay id⟩

theorem Host.drawn_of_draw {id : Nat} {d : Draws} {host : Host}
    (h : Host.draw settings id (settings.drawsFor id) = .ok (host, d)) :
    Host.Drawn settings id host ∧ d = settings.drawsFor (id + 1) := by
  obtain ⟨hsketch, hdraw⟩ := Sketch.draw_spec id (settings.drawsFor id)
  rw [hdraw] at h
  cases hslot : slotTime settings.start settings.interval (Sketch.draw id (settings.drawsFor id)).1.delay with
  | error e => rw [hslot] at h; cases h
  | ok first =>
    have hfirst : first = settings.start.later ⟨settings.interval.nanos * settings.delay id⟩ := by
      rw [Settings.delay]
      exact slotTime_eq_ok hslot
    rw [hslot] at h
    rw [Settings.drawsFor, Sketch.rest]
    -- the drawn values are never looked at
    generalize Sketch.draw id (settings.drawsFor id) = drawn at h hsketch
    obtain ⟨rfl, rfl⟩ := Prod.mk.inj (Except.ok.inj h)
    exact ⟨⟨⟨hsketch.tags, hsketch.usage⟩, hsketch.hostname, hfirst⟩, rfl⟩

theorem drawHosts_spec {n : Nat} {d : Draws} {hosts hosts' : Array Host}
    (h : drawHosts settings n hosts.size (settings.drawsFor hosts.size) hosts = .ok (hosts', d)) :
    hosts'.size = hosts.size + n ∧
      ∀ (i : Nat) (host : Host), hosts'[i]? = some host →
        hosts[i]? = some host ∨ hosts.size ≤ i ∧ Host.Drawn settings i host := by
  induction n generalizing hosts with
  | zero =>
    obtain ⟨rfl, -⟩ := Prod.mk.inj (Except.ok.inj h)
    exact ⟨rfl, fun _ _ hget => .inl hget⟩
  | succ n ih =>
    obtain ⟨⟨host, d₁⟩, hdraw, hrest⟩ := bind_eq_ok h
    obtain ⟨hdrawn, hd⟩ := Host.drawn_of_draw hdraw
    rw [hd, ← Array.size_push host] at hrest
    obtain ⟨hsize, hhosts⟩ := ih hrest
    rw [Array.size_push] at hsize
    refine ⟨by omega, fun i other hget => ?_⟩
    rcases hhosts i other hget with hbefore | ⟨hlater, hother⟩
    · rw [Array.getElem?_push] at hbefore
      split at hbefore
      · rename_i hi
        obtain rfl := Option.some.inj hbefore
        exact .inr ⟨Nat.le_of_eq hi.symm, hi ▸ hdrawn⟩
      · exact .inl hbefore
    · rw [Array.size_push] at hlater
      exact .inr ⟨by omega, hother⟩

/-- A simulation that was just set up. -/
structure Fresh (settings : Settings) (sim : Simulation) : Prop where
  size : sim.hosts.size = settings.scale
  scale : 0 < settings.scale
  drawn : ∀ (i : Nat) (host : Host), sim.hosts[i]? = some host → Host.Drawn settings i host
  interval : sim.interval = settings.interval
  positive : 0 < settings.interval.nanos
  now : sim.now = settings.start
  stop : sim.stop = settings.stop
  cursor : sim.cursor = 0
  emitted : sim.emitted = 0
  maxPoints : sim.maxPoints = settings.maxPoints

theorem fresh_of_ofSettings (h : ofSettings settings = .ok sim) : Fresh settings sim := by
  unfold ofSettings at h
  by_cases hscale : settings.scale = 0
  · simp only [hscale, if_true] at h
    cases h
  by_cases hinterval : (settings.interval.isZero || longestInterval.nanos < settings.interval.nanos) = true
  · simp only [hscale, hinterval, if_true, if_false] at h
    cases h
  simp only [hscale, hinterval, if_false, Bool.false_eq_true] at h
  obtain ⟨⟨hosts, draws⟩, hdraw, heq⟩ := bind_eq_ok h
  obtain rfl := Except.ok.inj heq
  have hdraw : drawHosts settings settings.scale (#[] : Array Host).size (settings.drawsFor (#[] : Array Host).size) #[] =
    .ok (hosts, draws) := hdraw
  obtain ⟨hsize, hhosts⟩ := drawHosts_spec hdraw
  have hspan : 0 < settings.interval.nanos := by
    simp only [Span.isZero, Bool.or_eq_true, beq_iff_eq, not_or] at hinterval
    exact Nat.pos_of_ne_zero hinterval.1
  refine ⟨by simpa using hsize, Nat.pos_of_ne_zero hscale, fun i host hget => ?_, rfl, hspan, rfl, rfl, rfl, rfl, rfl⟩
  rcases hhosts i host hget with hbefore | ⟨-, hdrawn⟩
  · simp at hbefore
  · exact hdrawn

/-- A simulation that is set up is sound. -/
theorem sound_of_ofSettings (h : ofSettings settings = .ok sim) : sim.Sound := by
  have hfresh := fresh_of_ofSettings h
  have hpos : 0 < sim.hosts.size := hfresh.size.symm ▸ hfresh.scale
  obtain ⟨first, hfirst⟩ : ∃ first, sim.hosts[0]? = some first := Option.isSome_iff_exists.1 (by simp [hpos])
  refine ⟨hfresh.cursor.symm ▸ hpos, hfresh.interval.symm ▸ hfresh.positive, ⟨first, hfirst, ?_⟩,
    fun i host hget => (hfresh.drawn i host hget).plain⟩
  rw [(hfresh.drawn 0 first hfirst).first, (delay_spec settings 0).2 rfl, hfresh.now]
  exact Stamp.upTo_iff.2 (.inr ⟨rfl, Nat.le_refl _⟩)

theorem ofSettings_of_ofUseCase (h : ofUseCase settings = .ok sim) : ofSettings settings = .ok sim := by
  unfold ofUseCase at h
  split at h
  · exact h
  · cases h

theorem sound_of_ofUseCase (h : ofUseCase settings = .ok sim) : sim.Sound :=
  sound_of_ofSettings (ofSettings_of_ofUseCase h)

/-- The bound on the questions takes the seconds in whole and leaves a round to spare. -/
theorem Sound.questionsLeft_lt_questionBound (hs : sim.Sound) : sim.questionsLeft < sim.questionBound := by
  have hinterval := hs.interval
  have hsize : 0 < sim.hosts.size := Nat.lt_of_le_of_lt (Nat.zero_le _) hs.cursor
  obtain ⟨seconds, hseconds⟩ : ∃ seconds, (sim.stop.seconds - sim.now.seconds + 3).toNat = seconds := ⟨_, rfl⟩
  have htime : ((sim.stop.seconds + 1) * Span.nanosPerSecond - sim.now.elapsed + sim.interval.nanos).toNat ≤
      seconds * Span.nanosPerSecond + sim.interval.nanos := by
    simp only [Stamp.elapsed, Span.nanosPerSecond]
    omega
  have hticks : sim.ticksLeft ≤ seconds * Span.nanosPerSecond / sim.interval.nanos + 1 := by
    rw [← Nat.add_div_right _ hinterval]
    exact Nat.div_le_div_right htime
  have hround : sim.hosts.size * sim.ticksLeft <
      sim.hosts.size * (seconds * Span.nanosPerSecond / sim.interval.nanos + 2) :=
    Nat.mul_lt_mul_of_pos_left (by omega) hsize
  have hbound : sim.questionBound =
      sim.hosts.size * (seconds * Span.nanosPerSecond / sim.interval.nanos + 2) := by
    rw [← hseconds]
    rfl
  rw [hbound]
  exact Nat.lt_of_le_of_lt (Nat.sub_le _ _) hround

/-! ### The header -/

theorem wellNamed_header : header.WellNamed where
  paired := by decide
  keys := by decide
  types := by decide
  ordered := by decide
  entries := by decide

/-! ### Replay -/

/-- What is written from a simulation is as long as it says, and a source over its bytes yields the points that
    come straight from the simulation, with the same header, to which every point fits. -/
theorem generate_replays (hsim : ofUseCase settings = .ok sim) :
    (∀ text written, sim.generate .line = .ok (text, written) →
      ∃ lines : List Line, lines.length = written ∧
        Yields (SimulationSource.next Reading.toLine) ⟨sim⟩ lines ∧
        Yields LineSource.next ⟨Input.ofBytes text.toUTF8.data.toList⟩ lines) ∧
    (∀ text written, sim.generate .record = .ok (text, written) →
      ∃ records : List Record, records.length = written ∧
        Yields (SimulationSource.next Reading.toRecord) ⟨sim⟩ records ∧
        Yields RecordSource.next (RecordSource.ofInput (Input.ofBytes text.toUTF8.data.toList)) records ∧
        ∃ header source, (SimulationSource.headers ⟨sim⟩).1 = .ok header ∧
          (RecordSource.ofInput (Input.ofBytes text.toUTF8.data.toList)).headers = (.ok header, source) ∧
          Yields RecordSource.next source records ∧
          ∀ record ∈ records, record.check header = .ok ()) := by
  have hsound := sound_of_ofUseCase hsim
  have hbound := hsound.questionsLeft_lt_questionBound
  constructor
  · intro text written h
    obtain ⟨readings, hreadings, heq⟩ := bind_eq_ok h
    obtain ⟨htext, rfl⟩ := Prod.mk.inj (Except.ok.inj heq)
    obtain ⟨hyields, hplain⟩ := hsound.yields_collect Reading.toLine hbound hreadings
    have hlines : String.join (readings.map fun r => r.toLine.write) = text :=
      String.empty_append.symm.trans htext
    refine ⟨readings.map Reading.toLine, List.length_map _, hyields, ?_⟩
    rw [Input.ofBytes_toUTF8, ← hlines]
    exact Reading.yields_lines fun r hr => (hplain r hr).1
  · intro text written h
    obtain ⟨readings, hreadings, heq⟩ := bind_eq_ok h
    obtain ⟨rfl, rfl⟩ := Prod.mk.inj (Except.ok.inj heq)
    obtain ⟨hyields, hplain⟩ := hsound.yields_collect Reading.toRecord hbound hreadings
    have hfile := Reading.yields_records hplain
    have hheaders := RecordSource.headers_write wellNamed_header.writable
      (String.join (readings.map fun r => r.toRecord.write))
    rw [Input.ofBytes_toUTF8]
    refine ⟨readings.map Reading.toRecord, List.length_map _, hyields,
      RecordSource.yields_behind_header hheaders hfile, header, _, rfl, hheaders, hfile, ?_⟩
    intro record hrecord
    obtain ⟨r, hr, rfl⟩ := List.mem_map.1 hrecord
    exact (hplain r hr).2.check

/-- That a file is written is read off the count of its points, so that no number in it has to be known. -/
theorem exists_generate_eq_ok {format : PointFormat} {n : Nat}
    (h : ((ofUseCase settings).bind fun sim => sim.generate format).toOption.map Prod.snd = some n) :
    ∃ sim text, ofUseCase settings = .ok sim ∧ sim.generate format = .ok (text, n) := by
  cases hsim : ofUseCase settings with
  | error e => rw [hsim] at h; cases h
  | ok sim =>
    cases hfile : sim.generate format with
    | error e =>
      simp only [hsim, Except.bind, hfile] at h
      cases h
    | ok file =>
      obtain ⟨text, written⟩ := file
      obtain rfl : written = n := by simpa [hsim, Except.bind, hfile, Except.toOption] using h
      exact ⟨sim, text, rfl, hfile⟩

/-- Two hosts for twenty seconds, cut off after three points. -/
def Settings.short : Settings :=
  { Settings.standard with scale := 2, stop := ⟨1451606420, 0⟩, maxPoints := 3 }

theorem generate_replays_short :
    ∃ sim lineText recordText, ofUseCase Settings.short = .ok sim ∧
      sim.generate .line = .ok (lineText, 3) ∧ sim.generate .record = .ok (recordText, 3) ∧
      (∃ lines : List Line, lines.length = 3 ∧
        Yields LineSource.next ⟨Input.ofBytes lineText.toUTF8.data.toList⟩ lines) ∧
      ∃ records : List Record, records.length = 3 ∧
        Yields RecordSource.next (RecordSource.ofInput (Input.ofBytes recordText.toUTF8.data.toList)) records := by
  obtain ⟨sim, lineText, hsim, hline⟩ : ∃ sim text, ofUseCase Settings.short = .ok sim ∧
      sim.generate .line = .ok (text, 3) := exists_generate_eq_ok (by decide +kernel)
  obtain ⟨sim', recordText, hsim', hrecord⟩ : ∃ sim text, ofUseCase Settings.short = .ok sim ∧
      sim.generate .record = .ok (text, 3) := exists_generate_eq_ok (by decide +kernel)
  obtain rfl : sim = sim' := Except.ok.inj (hsim.symm.trans hsim')
  obtain ⟨lines, hlines, -, hreplayed⟩ := (generate_replays hsim).1 lineText 3 hline
  obtain ⟨records, hrecords, -, hreplayed', -⟩ := (generate_replays hsim).2 recordText 3 hrecord
  exact ⟨sim, lineText, recordText, hsim, hline, hrecord, ⟨lines, hlines, hreplayed⟩,
    records, hrecords, hreplayed'⟩

end Simulation
end IngestBench
