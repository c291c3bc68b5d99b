import IngestBench.Proofs.LineReplay

/-! The records that a text of lines is read as. A grammar says which lines are records, without a reader: a line of
    tags, perhaps behind empty lines, and a line of data that fits the header. The reader gives the records of the
    grammar and then nothing more, or those before the first violation and then a fault. -/

namespace IngestBench

/-! ### Sources that end in a fault -/

/-- Asked again and again, a source gives the points in this order and then a fault in what it reads. -/
inductive Breaks {σ π : Type} (next : σ → Except Failure (Option π) × σ) : σ → List π → Prop
  | fault {s t : σ} {fault : ParseFault} : next s = (.error (.parse fault), t) → Breaks next s []
  | more {s t : σ} {point : π} {points : List π} : next s = (.ok (some point), t) → Breaks next t points →
      Breaks next s (point :: points)

namespace Breaks

variable {σ π : Type} {next : σ → Except Failure (Option π) × σ} {s t : σ} {points others : List π}

theorem of_next_eq (h : Breaks next t points) (heq : next s = next t) : Breaks next s points := by
  cases h with
  | fault hfault => exact .fault (heq.trans hfault)
  | more hsome hrest => exact .more (heq.trans hsome) hrest

theorem unique (h : Breaks next s points) (h' : Breaks next s others) : points = others := by
  induction h generalizing others with
  | fault hfault =>
    cases h' with
    | fault => rfl
    | more hsome => rw [hfault] at hsome; cases hsome
  | more hsome _ ih =>
    cases h' with
    | fault hfault => rw [hsome] at hfault; cases hfault
    | more hsome' hrest =>
      rw [hsome] at hsome'
      obtain ⟨hpoint, rfl⟩ := Prod.mk.inj hsome'
      obtain rfl := Option.some.inj (Except.ok.inj hpoint)
      rw [ih hrest]

theorem not_yields (h : Breaks next s points) : ¬Yields next s others := by
  induction h generalizing others with
  | fault hfault =>
    intro h'
    cases h' with
    | done hnone => rw [hfault] at hnone; cases hnone
    | more hsome => rw [hfault] at hsome; cases hsome
  | more hsome _ ih =>
    intro h'
    cases h' with
    | done hnone => rw [hsome] at hnone; cases hnone
    | more hsome' hrest =>
      rw [hsome] at hsome'
      obtain ⟨-, rfl⟩ := Prod.mk.inj hsome'
      exact ih hrest

end Breaks

/-! ### The text behind a header -/

namespace Input

theorem cutLines_eq_cons {cs line : List Char} {rest : List (List Char)} (h : cutLines cs = line :: rest) :
    ∃ behind, cs = line ++ behind ∧ cutLines behind = rest := by
  induction cs generalizing line rest with
  | nil => cases h
  | cons c cs ih =>
    rw [cutLines] at h
    split at h
    · rename_i hc
      obtain ⟨rfl, rfl⟩ := List.cons.inj h
      exact ⟨cs, rfl, rfl⟩
    · split at h
      · rename_i hnil
        obtain ⟨rfl, rfl⟩ := List.cons.inj h
        exact ⟨cs, rfl, hnil⟩
      · rename_i first others hcut
        obtain ⟨rfl, rfl⟩ := List.cons.inj h
        obtain ⟨behind, hcs, hrest⟩ := ih hcut
        exact ⟨behind, by rw [hcs, List.cons_append], hrest⟩

theorem flatten_cutLines (cs : List Char) : (cutLines cs).flatten = cs := by
  induction cs with
  | nil => rfl
  | cons c cs ih =>
    rw [cutLines]
    split
    · rename_i hc
      rw [List.flatten_cons, ih, hc, List.singleton_append]
    · split
      · rename_i hnil
        rw [hnil, List.flatten_nil] at ih
        rw [← ih]
        rfl
      · rename_i line rest hcut
        rw [hcut, List.flatten_cons] at ih
        rw [List.flatten_cons, List.cons_append, ih]

theorem unread_ofText (text : String) : (ofText text).unread = text := by
  have hjoin (lines : List (List Char)) : String.join (lines.map String.ofList) = String.ofList lines.flatten := by
    induction lines with
    | nil => rfl
    | cons line lines ih => rw [List.map_cons, String.join_cons, ih, List.flatten_cons, String.ofList_append]
  rw [unread, ofText, List.map_map]
  exact (hjoin _).trans (by rw [flatten_cutLines, String.ofList_toList])

/-- What is left of a text behind a line is a text. -/
theorem ofText_eq_cons {text : String} {raw : RawLine} {rest : Input} (h : ofText text = raw :: rest) :
    ∃ front behind, text = front ++ behind ∧ rest = ofText behind := by
  obtain ⟨line, others, hcut, -, rfl⟩ := List.map_eq_cons_iff.1 h
  obtain ⟨behind, htext, rfl⟩ := cutLines_eq_cons hcut
  refine ⟨String.ofList line, String.ofList behind, ?_, by rw [ofText, String.toList_ofList]⟩
  rw [← String.ofList_append, ← htext, String.ofList_toList]

theorem Holds.of_cons {input : Input} {line : String} {lines : List String} (h : input.Holds (line :: lines)) :
    (line = "" ∧ lines = []) ∨ ∃ content, ∃ rest : Input,
      input = .text content :: rest ∧ dropLineEnd content = line ∧ rest.Holds lines := by
  generalize hlines : line :: lines = all at h
  cases h with
  | done => cases hlines
  | last => exact .inl (List.cons.inj hlines)
  | line content hrest =>
    obtain ⟨rfl, rfl⟩ := List.cons.inj hlines
    exact .inr ⟨content, _, rfl, rfl, hrest⟩

end Input

namespace Header

variable {header h : Header} {text : String} {rest : Input}

theorem readMeasurements_rest (hread : header.readMeasurements (Input.ofText text) = (.ok h, rest)) :
    ∃ front behind, text = front ++ behind ∧ rest = Input.ofText behind := by
  generalize hinput : Input.ofText text = input at hread
  induction input generalizing header text with
  | nil => cases hread
  | cons raw input ih =>
    obtain ⟨line, behind, rfl, rfl⟩ := Input.ofText_eq_cons hinput
    cases raw with
    | malformed => cases hread
    | text content =>
      rw [readMeasurements] at hread
      split at hread
      · obtain ⟨-, rfl⟩ := Prod.mk.inj hread
        exact ⟨line, behind, rfl, rfl⟩
      · have hmore (header : Header) (hread : header.readMeasurements (Input.ofText behind) = (.ok h, rest)) :
            ∃ front behind', line ++ behind = front ++ behind' ∧ rest = Input.ofText behind' := by
          obtain ⟨lines, behind', rfl, hrest⟩ := ih rfl hread
          exact ⟨line ++ lines, behind', String.append_assoc.symm, hrest⟩
        split at hread
        · exact hmore _ hread
        · exact hmore _ hread

/-- The reader of a header stops at a line of the text. -/
theorem read_rest (hread : read (Input.ofText text) = (.ok h, rest)) :
    ∃ front behind, text = front ++ behind ∧ rest = Input.ofText behind := by
  generalize hinput : Input.ofText text = input at hread
  cases input with
  | nil => cases hread
  | cons raw input =>
    obtain ⟨line, behind, rfl, rfl⟩ := Input.ofText_eq_cons hinput
    cases raw with
    | malformed => cases hread
    | text content =>
      simp only [read, Input.readLine] at hread
      split at hread
      · cases hread
      · obtain ⟨lines, behind', rfl, hrest⟩ := readMeasurements_rest hread
        exact ⟨line ++ lines, behind', String.append_assoc.symm, hrest⟩

end Header

/-! ### The grammar -/

namespace Record

/-- A line of tags, and the text of the tags. -/
inductive TagsLine : String → String → Prop
  | bare : TagsLine tagsMark ""
  | listed (tags : String) : TagsLine (tagsMark ++ "," ++ tags) tags

/-- A line of data that fits a header, its measurement, and the text of its time and values. -/
def DataLine (header : Header) (line measurement fields : String) : Prop :=
  ∃ keys time values, header.fields? measurement = some keys ∧ values.length = keys.length ∧
    Text.IsInt Text.maxInt64 time ∧ (∀ part ∈ measurement :: time :: values, ',' ∉ part.toList) ∧
    line = ",".intercalate (measurement :: time :: values) ∧ fields = ",".intercalate (time :: values)

/-- The lines begin with a record, and these lines are behind it. Before the record there may be empty lines. -/
inductive Begins (header : Header) : List String → Record → List String → Prop
  | blank {lines behind : List String} {r : Record} : Begins header lines r behind →
      Begins header ("" :: lines) r behind
  | record {tagsLine dataLine tags measurement fields : String} {behind : List String} : TagsLine tagsLine tags →
      DataLine header dataLine measurement fields →
      Begins header (tagsLine :: dataLine :: behind) ⟨measurement, ⟨tags, fields⟩⟩ behind

/-- The lines are these records; no other line says anything. -/
inductive Conforms (header : Header) : List String → List Record → Prop
  | done {lines : List String} : (∀ line ∈ lines, line = "") → Conforms header lines []
  | more {lines behind : List String} {r : Record} {rs : List Record} : Begins header lines r behind →
      Conforms header behind rs → Conforms header lines (r :: rs)

/-- The lines begin with these records, but what is behind them neither begins with a record nor is empty. -/
inductive Violates (header : Header) : List String → List Record → Prop
  | here {lines : List String} : (¬∀ line ∈ lines, line = "") → (∀ r behind, ¬Begins header lines r behind) →
      Violates header lines []
  | more {lines behind : List String} {r : Record} {rs : List Record} : Begins header lines r behind →
      Violates header behind rs → Violates header lines (r :: rs)

variable {header : Header} {lines behind : List String} {r : Record} {rs : List Record}

theorem Begins.length_lt (h : Begins header lines r behind) : behind.length < lines.length := by
  induction h with
  | blank _ ih => exact Nat.lt_succ_of_lt ih
  | record _ _ => exact Nat.lt_succ_of_lt (Nat.lt_succ_self _)

/-- Lines either follow the grammar or have a first violation. -/
theorem conforms_or_violates (header : Header) (lines : List String) :
    ∃ rs, Conforms header lines rs ∨ Violates header lines rs := by
  induction hlength : lines.length using Nat.strongRecOn generalizing lines with
  | ind n ih =>
    by_cases hempty : ∀ line ∈ lines, line = ""
    · exact ⟨[], .inl (.done hempty)⟩
    by_cases hbegins : ∃ r behind, Begins header lines r behind
    · obtain ⟨r, behind, hr⟩ := hbegins
      obtain ⟨rs, hrs⟩ := ih behind.length (hlength ▸ hr.length_lt) behind rfl
      exact ⟨r :: rs, hrs.imp (.more hr) (.more hr)⟩
    · exact ⟨[], .inr (.here hempty fun r behind hr => hbegins ⟨r, behind, hr⟩)⟩

/-! ### Reading one record -/

theorem readTags_eq_ok_iff {line tags : String} : readTags line = .ok tags ↔ TagsLine line tags := by
  have hcomma : ",".toList = [','] := by decide
  constructor
  · intro h
    unfold readTags at h
    split at h
    · rename_i mark rest hcut
      obtain ⟨rfl, -⟩ := Text.splitOnce_eq_some hcomma hcut
      split at h
      · rename_i hmark
        obtain rfl := Except.ok.inj h
        exact hmark ▸ .listed rest
      · cases h
    · split at h
      · rename_i hline
        obtain rfl := Except.ok.inj h
        exact hline ▸ .bare
      · cases h
  · intro h
    cases h with
    | bare => decide
    | listed tags =>
      have hcut : Text.splitOnce ',' (tagsMark ++ "," ++ tags) = some (tagsMark, tags) :=
        Text.splitOnce_append hcomma (by decide) tags
      rw [readTags, hcut]
      exact if_pos rfl

theorem read_eq_ok_iff {tagsLine dataLine : String} :
    read tagsLine dataLine = .ok r ↔ TagsLine tagsLine r.row.tags ∧
      Text.splitOnce ',' dataLine = some (r.measurement, r.row.fields) := by
  rw [← readTags_eq_ok_iff, read]
  cases readTags tagsLine with
  | error fault => exact ⟨fun h => (by cases h), fun h => (by cases h.1)⟩
  | ok tags =>
    cases Text.splitOnce ',' dataLine with
    | none => exact ⟨fun h => (by cases h), fun h => (by cases h.2)⟩
    | some parts =>
      obtain ⟨measurement, fields⟩ := parts
      constructor
      · intro h
        obtain rfl := Except.ok.inj h
        exact ⟨rfl, rfl⟩
      · rintro ⟨htags, hparts⟩
        obtain rfl := Except.ok.inj htags
        obtain ⟨rfl, rfl⟩ := Prod.mk.inj (Option.some.inj hparts)
        rfl

theorem timestampAndValues_eq_ok_iff {row : Row} {values : List String} :
    (∃ n, row.timestampAndValues = .ok (n, values)) ↔
      ∃ time, Text.split ',' row.fields = time :: values ∧ Text.IsInt Text.maxInt64 time := by
  rw [Row.timestampAndValues]
  cases Text.split ',' row.fields with
  | nil => simp
  | cons time rest =>
    dsimp only
    constructor
    · rintro ⟨n, h⟩
      cases hread : Text.readInt Text.maxInt64 time.toList with
      | error fault => rw [hread] at h; cases h
      | ok m =>
        rw [hread] at h
        obtain ⟨-, rfl⟩ := Prod.mk.inj (Except.ok.inj h)
        exact ⟨time, rfl, Text.isInt_of_readInt hread⟩
    · rintro ⟨time', heq, hint⟩
      obtain ⟨rfl, rfl⟩ := List.cons.inj heq
      obtain ⟨n, hread⟩ := Text.exists_readInt_eq_ok hint
      exact ⟨n, by rw [hread]⟩

theorem check_eq_ok_iff :
    r.check header = .ok () ↔ ∃ keys time values, header.fields? r.measurement = some keys ∧
      values.length = keys.length ∧ Text.IsInt Text.maxInt64 time ∧ Text.split ',' r.row.fields = time :: values := by
  rw [check]
  cases header.fields? r.measurement with
  | none => simp [throw, throwThe, MonadExceptOf.throw]
  | some keys =>
    constructor
    · intro h
      cases htimes : r.row.timestampAndValues with
      | error fault => rw [htimes] at h; cases h
      | ok parts =>
        obtain ⟨time, hsplit, hint⟩ := timestampAndValues_eq_ok_iff.1 ⟨parts.1, htimes⟩
        rw [htimes] at h
        by_cases hvalues : r.row.valueCount = keys.length
        · exact ⟨keys, time, parts.2, rfl, Row.valueCount_of_split hsplit ▸ hvalues, hint, hsplit⟩
        · have hfault := (if_pos hvalues).symm.trans h
          cases hfault
    · rintro ⟨keys', time, values, hkeys, hlength, hint, hsplit⟩
      obtain rfl := Option.some.inj hkeys
      obtain ⟨n, htimes⟩ := timestampAndValues_eq_ok_iff.2 ⟨time, hsplit, hint⟩
      have hvalues : ¬r.row.valueCount ≠ keys.length := fun hne =>
        hne ((Row.valueCount_of_split hsplit).trans hlength)
      rw [htimes]
      exact if_neg hvalues

/-- Two lines are read as a record that fits the header exactly if they are one. -/
theorem read_check_iff {tagsLine dataLine : String} :
    (read tagsLine dataLine = .ok r ∧ r.check header = .ok ()) ↔
      TagsLine tagsLine r.row.tags ∧ DataLine header dataLine r.measurement r.row.fields := by
  have hcomma : ",".toList = [','] := by decide
  obtain ⟨measurement, tags, fields⟩ := r
  rw [read_eq_ok_iff, check_eq_ok_iff, and_assoc, and_congr_right_iff]
  intro _
  constructor
  · rintro ⟨hcut, keys, time, values, hkeys, hlength, hint, hsplit⟩
    obtain ⟨rfl, hmeasurement⟩ := Text.splitOnce_eq_some hcomma hcut
    have hfields := Text.intercalate_split hcomma fields
    have hparts : ∀ part ∈ measurement :: time :: values, ',' ∉ part.toList :=
      List.forall_mem_cons.2 ⟨hmeasurement, fun part hpart => Text.not_mem_of_mem_split (hsplit ▸ hpart)⟩
    rw [hsplit] at hfields
    refine ⟨keys, time, values, hkeys, hlength, hint, hparts, ?_, hfields.symm⟩
    rw [String.intercalate_cons_cons, hfields]
  · rintro ⟨keys, time, values, hkeys, hlength, hint, hparts, rfl, hfields⟩
    obtain ⟨hmeasurement, hrest⟩ := List.forall_mem_cons.1 hparts
    obtain ⟨htime, hvalues⟩ := List.forall_mem_cons.1 hrest
    obtain rfl : fields = ",".intercalate (time :: values) := hfields
    rw [String.intercalate_cons_cons]
    refine ⟨Text.splitOnce_append hcomma hmeasurement _, keys, time, values, hkeys, hlength, hint, ?_⟩
    rw [Text.intercalate_cons]
    exact Text.split_join hcomma hvalues htime

theorem TagsLine.ne_empty {line tags : String} (h : TagsLine line tags) : line ≠ "" := by
  cases h with
  | bare => decide
  | listed tags => simp

theorem DataLine.ne_empty {line measurement fields : String} (h : DataLine header line measurement fields) :
    line ≠ "" := by
  obtain ⟨keys, time, values, -, -, -, -, rfl, -⟩ := h
  simp [String.intercalate_cons_cons]

end Record

/-! ### Reading the lines of a record -/

namespace RecordSource

open Record (TagsLine DataLine Begins Conforms Violates read_check_iff)

variable {header : Header} {input rest : Input} {lines behind : List String} {r : Record} {rs : List Record}

theorem nextRecord_blank {content : String} (h : Input.dropLineEnd content = "") :
    nextRecord header (.text content :: input) = nextRecord header input := by
  have hskip : Input.readFilled (.text content :: input) = Input.readFilled input := by
    simp [Input.readFilled, h]
  rw [nextRecord, hskip]
  rfl

theorem readFilled_filled {content : String} (h : Input.dropLineEnd content ≠ "") :
    Input.readFilled (.text content :: input) = (.ok (some (Input.dropLineEnd content)), input) := by
  simp [Input.readFilled, h]

/-- Behind a line that is not empty, the next line counts, empty or not. -/
theorem nextRecord_pair {content data : String} (h : Input.dropLineEnd content ≠ "") {next : Option Record} :
    nextRecord header (.text content :: .text data :: input) = (.ok next, rest) ↔
      rest = input ∧ ∃ r, next = some r ∧ TagsLine (Input.dropLineEnd content) r.row.tags ∧
        DataLine header (Input.dropLineEnd data) r.measurement r.row.fields := by
  simp only [← read_check_iff]
  rw [nextRecord, readFilled_filled h]
  simp only [Input.readLine, Prod.mk.injEq]
  rw [and_comm, @eq_comm _ input]
  refine and_congr_right fun _ => ?_
  cases Record.read (Input.dropLineEnd content) (Input.dropLineEnd data) with
  | error fault => simp [bind, Except.bind]
  | ok record =>
    constructor
    · intro hnext
      cases hcheck : record.check header with
      | error fault =>
        have hfault := (congrArg (· >>= fun _ => pure (some record)) hcheck).symm.trans hnext
        cases hfault
      | ok _ =>
        have hsome := (congrArg (· >>= fun _ => pure (some record)) hcheck).symm.trans hnext
        exact ⟨record, (Except.ok.inj hsome).symm, rfl, hcheck⟩
    · rintro ⟨r, rfl, hread, hcheck⟩
      obtain rfl := Except.ok.inj hread
      exact congrArg (· >>= fun _ => pure (some record)) hcheck

theorem nextRecord_of_empty (header : Header) (h : input.Holds lines) (hempty : ∀ line ∈ lines, line = "") :
    nextRecord header input = (.ok none, []) := by
  induction h with
  | done => rfl
  | last => rfl
  | line content _ ih =>
    obtain ⟨hline, hrest⟩ := List.forall_mem_cons.1 hempty
    rw [nextRecord_blank hline, ih hrest]

theorem nextRecord_of_begins (hbegins : Begins header lines r behind) (h : input.Holds lines) :
    ∃ rest, nextRecord header input = (.ok (some r), rest) ∧ rest.Holds behind := by
  induction hbegins generalizing input with
  | blank hbegins ih =>
    rcases h.of_cons with ⟨-, rfl⟩ | ⟨content, rest, rfl, hblank, hrest⟩
    · cases hbegins
    · rw [nextRecord_blank hblank]
      exact ih hrest
  | record htags hdata =>
    rcases h.of_cons with ⟨hempty, -⟩ | ⟨content, rest, rfl, rfl, hrest⟩
    · exact absurd hempty htags.ne_empty
    rcases hrest.of_cons with ⟨hempty, -⟩ | ⟨data, behind, rfl, rfl, hbehind⟩
    · exact absurd hempty hdata.ne_empty
    exact ⟨behind, (nextRecord_pair htags.ne_empty).2 ⟨rfl, _, rfl, htags, hdata⟩, hbehind⟩

/-- Whatever is read without a fault, the grammar says so. -/
theorem of_nextRecord {next : Option Record} (h : input.Holds lines)
    (hnext : nextRecord header input = (.ok next, rest)) :
    (next = none ∧ ∀ line ∈ lines, line = "") ∨ ∃ r behind, next = some r ∧ Begins header lines r behind := by
  induction h with
  | done =>
    obtain ⟨hnone, -⟩ := Prod.mk.inj hnext
    exact .inl ⟨(Except.ok.inj hnone).symm, by simp⟩
  | last =>
    obtain ⟨hnone, -⟩ := Prod.mk.inj hnext
    exact .inl ⟨(Except.ok.inj hnone).symm, by simp⟩
  | @line input lines content hrest ih =>
    by_cases hblank : Input.dropLineEnd content = ""
    · rw [nextRecord_blank hblank] at hnext
      rw [hblank]
      rcases ih hnext with ⟨hnone, hempty⟩ | ⟨r, behind, hsome, hbegins⟩
      · exact .inl ⟨hnone, List.forall_mem_cons.2 ⟨rfl, hempty⟩⟩
      · exact .inr ⟨r, behind, hsome, .blank hbegins⟩
    · cases hrest with
      | line data _ =>
        obtain ⟨rfl, r, hsome, htags, hdata⟩ := (nextRecord_pair hblank).1 hnext
        exact .inr ⟨r, _, hsome, .record htags hdata⟩
      | done | last =>
        simp only [nextRecord, readFilled_filled hblank, Input.readLine] at hnext
        cases hnext

/-! ### Reading all records -/

theorem next_eq (header : Header) (input : Input) :
    next ⟨input, some header⟩ = match nextRecord header input with
      | (.ok record, rest) => (.ok record, ⟨rest, some header⟩)
      | (.error fault, rest) => (.error (.parse fault), ⟨rest, some header⟩) := rfl

theorem yields_of_conforms (hconforms : Conforms header lines rs) (h : input.Holds lines) :
    Yields next ⟨input, some header⟩ rs := by
  induction hconforms generalizing input with
  | done hempty =>
    have hnone := nextRecord_of_empty header h hempty
    exact .done (t := ⟨[], some header⟩) (by rw [next_eq, hnone]) rfl
  | more hbegins _ ih =>
    obtain ⟨rest, hsome, hrest⟩ := nextRecord_of_begins hbegins h
    exact .more (by rw [next_eq, hsome]) (ih hrest)

theorem breaks_of_violates (hviolates : Violates header lines rs) (h : input.Holds lines) :
    Breaks next ⟨input, some header⟩ rs := by
  induction hviolates generalizing input with
  | here hfilled hnot =>
    cases hnext : nextRecord header input with
    | mk result rest =>
      cases result with
      | error fault => exact .fault (by rw [next_eq, hnext])
      | ok record =>
        rcases of_nextRecord h hnext with ⟨-, hempty⟩ | ⟨r, behind, -, hbegins⟩
        · exact absurd hempty hfilled
        · exact absurd hbegins (hnot r behind)
  | more hbegins _ ih =>
    obtain ⟨rest, hsome, hrest⟩ := nextRecord_of_begins hbegins h
    exact .more (by rw [next_eq, hsome]) (ih hrest)

/-- Behind the header, a source gives records and then nothing more exactly if the lines that are left are these
    records; otherwise it gives the records before the first violation and then a fault. -/
theorem reads_grammar {text : String} {rest : Input}
    (hread : Header.read (Input.ofBytes text.toUTF8.data.toList) = (.ok header, rest)) :
    (∃ front, text = front ++ rest.unread) ∧
      (∀ rs, Yields next (ofInput (Input.ofBytes text.toUTF8.data.toList)) rs ↔
        Conforms header (Input.lines rest.unread) rs) ∧
      (∀ rs, Breaks next (ofInput (Input.ofBytes text.toUTF8.data.toList)) rs ↔
        Violates header (Input.lines rest.unread) rs) ∧
      ∃ rs, Conforms header (Input.lines rest.unread) rs ∨ Violates header (Input.lines rest.unread) rs := by
  rw [Input.ofBytes_toUTF8] at hread ⊢
  obtain ⟨front, behind, htext, rfl⟩ := Header.read_rest hread
  have hstart : next (ofInput (Input.ofText text)) = next ⟨Input.ofText behind, some header⟩ := by
    rw [next, ofInput, headers]
    simp only [hread]
    rfl
  have hholds := Input.holds_ofText behind
  rw [Input.unread_ofText]
  have hyields {rs : List Record} (hconforms : Conforms header (Input.lines behind) rs) :
      Yields next (ofInput (Input.ofText text)) rs := (yields_of_conforms hconforms hholds).of_next_eq hstart
  have hbreaks {rs : List Record} (hviolates : Violates header (Input.lines behind) rs) :
      Breaks next (ofInput (Input.ofText text)) rs := (breaks_of_violates hviolates hholds).of_next_eq hstart
  obtain ⟨rs, hrs⟩ := Record.conforms_or_violates header (Input.lines behind)
  refine ⟨⟨front, htext⟩, fun others => ⟨fun h => ?_, hyields⟩,
    fun others => ⟨fun h => ?_, hbreaks⟩, rs, hrs⟩
  · rcases hrs with hconforms | hviolates
    · exact (hyields hconforms).unique h ▸ hconforms
    · exact absurd h (hbreaks hviolates).not_yields
  · rcases hrs with hconforms | hviolates
    · exact absurd (hyields hconforms) h.not_yields
    · exact (hbreaks hviolates).unique h ▸ hviolates

/-- The header of a measurement with two fields. -/
def pairHeader : Header := ⟨["host"], ["string"], [("cpu", ["a", "b"])]⟩

/-- Two records, the first one behind an empty line, the second one without tags. -/
def twoRecords : String := "\ntags,host=x\ncpu,+5,1,2\r\ntags\ncpu,-7,,3\n\n"

/-- The two records are read. With a record behind them in which the data are not next to the tags, they are read
    before the fault. -/
theorem reads_grammar_two_records :
    Yields next (ofInput (Input.ofBytes (pairHeader.write tagsMark ++ twoRecords).toUTF8.data.toList))
        [⟨"cpu", ⟨"host=x", "+5,1,2"⟩⟩, ⟨"cpu", ⟨"", "-7,,3"⟩⟩] ∧
      Breaks next (ofInput (Input.ofBytes
          (pairHeader.write tagsMark ++ (twoRecords ++ "tags\n\ncpu,9,1,2\n")).toUTF8.data.toList))
        [⟨"cpu", ⟨"host=x", "+5,1,2"⟩⟩, ⟨"cpu", ⟨"", "-7,,3"⟩⟩] := by
  have hread (text : String) : Header.read (Input.ofBytes (pairHeader.write tagsMark ++ text).toUTF8.data.toList) =
      (.ok pairHeader, Input.ofText text) := by
    have hnamed : pairHeader.WellNamed := ⟨by decide, by decide, by decide, by decide, by decide⟩
    rw [Input.ofBytes_toUTF8]
    exact hnamed.writable.read_write text
  have hdata (time : String) (values : List String) (hlength : values.length = 2) (hint : Text.IsInt Text.maxInt64 time)
      (hparts : ∀ part ∈ "cpu" :: time :: values, ',' ∉ part.toList) :
      DataLine pairHeader (",".intercalate ("cpu" :: time :: values)) "cpu" (",".intercalate (time :: values)) :=
    ⟨["a", "b"], time, values, by decide, hlength, hint, hparts, rfl, rfl⟩
  have hfirst : Text.IsInt Text.maxInt64 "+5" :=
    ⟨['+'], ['5'], by decide, by decide, List.forall_mem_singleton.2 rfl, .inl ⟨.inr rfl, by decide⟩⟩
  have hsecond : Text.IsInt Text.maxInt64 "-7" :=
    ⟨['-'], ['7'], by decide, by decide, List.forall_mem_singleton.2 rfl, .inr ⟨rfl, by decide⟩⟩
  have hbegins (behind : List String) : Begins pairHeader
      ("" :: "tags,host=x" :: "cpu,+5,1,2" :: behind) ⟨"cpu", ⟨"host=x", "+5,1,2"⟩⟩ behind :=
    .blank (.record (.listed "host=x") (hdata "+5" ["1", "2"] rfl hfirst (by decide)))
  have hbegins' (behind : List String) : Begins pairHeader
      ("tags" :: "cpu,-7,,3" :: behind) ⟨"cpu", ⟨"", "-7,,3"⟩⟩ behind :=
    .record .bare (hdata "-7" ["", "3"] rfl hsecond (by decide))
  constructor
  · refine ((reads_grammar (hread twoRecords)).2.1 _).2 ?_
    have hlines : Input.lines (Input.ofText twoRecords).unread =
        ["", "tags,host=x", "cpu,+5,1,2", "tags", "cpu,-7,,3", "", ""] := by decide
    rw [hlines]
    exact .more (hbegins _) (.more (hbegins' _) (.done (by decide)))
  · refine ((reads_grammar (hread (twoRecords ++ "tags\n\ncpu,9,1,2\n"))).2.2.1 _).2 ?_
    have hlines : Input.lines (Input.ofText (twoRecords ++ "tags\n\ncpu,9,1,2\n")).unread =
        ["", "tags,host=x", "cpu,+5,1,2", "tags", "cpu,-7,,3", "", "tags", "", "cpu,9,1,2", ""] := by decide
    rw [hlines]
    refine .more (hbegins _) (.more (hbegins' _) (.here (by decide) ?_))
    intro r behind h
    rcases h with h | ⟨htags, -⟩
    · generalize hline : "tags" = line at h
      cases h with
      | blank _ => exact absurd hline (by decide)
      | record _ hdata => exact hdata.ne_empty rfl
    · exact htags.ne_empty rfl

end RecordSource
end IngestBench
