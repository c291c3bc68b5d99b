import IngestBench.Proofs.HeaderText
import IngestBench.Proofs.Numerals
import IngestBench.Simulation.Formats

/-! A reading that is written in either format is read back as the same point. -/

namespace IngestBench

open Text (Lacks)

/-! ### What a source yields -/

/-- Asked again and again, a source gives the points in this order and then nothing more. -/
inductive Yields {σ ε π : Type} (next : σ → Except ε (Option π) × σ) : σ → List π → Prop
  | done {s t : σ} : next s = (.ok none, t) → next t = (.ok none, t) → Yields next s []
  | more {s t : σ} {point : π} {points : List π} : next s = (.ok (some point), t) → Yields next t points →
      Yields next s (point :: points)

/-- What comes depends on the answer to the first question only. -/
theorem Yields.of_next_eq {σ ε π : Type} {next : σ → Except ε (Option π) × σ} {s t : σ} {points : List π}
    (h : Yields next t points) (heq : next s = next t) : Yields next s points := by
  cases h with
  | done hnone hstill => exact .done (heq.trans hnone) hstill
  | more hsome hrest => exact .more (heq.trans hsome) hrest

/-- No source yields two sequences. -/
theorem Yields.unique {σ ε π : Type} {next : σ → Except ε (Option π) × σ} {s : σ} {points others : List π}
    (h : Yields next s points) (h' : Yields next s others) : points = others := by
  induction h generalizing others with
  | done hnone =>
    cases h' with
    | done => rfl
    | more hsome => rw [hnone] at hsome; cases hsome
  | more hsome _ ih =>
    cases h' with
    | done hnone => rw [hsome] at hnone; cases hnone
    | more hother hrest =>
      rw [hsome] at hother
      obtain ⟨hpoint, rfl⟩ := Prod.mk.inj hother
      obtain rfl := Option.some.inj (Except.ok.inj hpoint)
      rw [ih hrest]

namespace Row

/-- The value count is that of the parts behind the time. -/
theorem valueCount_of_split {row : Row} {time : String} {values : List String}
    (h : Text.split ',' row.fields = time :: values) : row.valueCount = values.length := by
  have hlength := congrArg List.length h
  rw [Text.split, List.length_map, List.length_cons] at hlength
  rw [Row.valueCount, hlength, Nat.add_sub_cancel]

end Row

namespace Reading

variable {r : Reading} {header : Header}

/-- No name and no tag of the reading ends a line. -/
structure OnOneLine (r : Reading) : Prop where
  measurement : Lacks Input.isLineEnd r.measurement
  tags : ∀ tag ∈ r.tags, Lacks Input.isLineEnd tag.1 ∧ Lacks Input.isLineEnd tag.2
  fields : ∀ field ∈ r.fields, Lacks Input.isLineEnd field.1

theorem OnOneLine.tagTexts (h : r.OnOneLine) : ∀ text ∈ r.tagTexts, Lacks Input.isLineEnd text := by
  intro text htext
  obtain ⟨tag, htag, rfl⟩ := List.mem_map.1 htext
  obtain ⟨hkey, hvalue⟩ := h.tags tag htag
  exact Text.lacks_append.2 ⟨Text.lacks_append.2 ⟨hkey, by decide⟩, hvalue⟩

/-! ### Lines -/

theorem OnOneLine.toLine (h : r.OnOneLine) : Lacks Input.isLineEnd r.toLine.text := by
  have htags : Lacks Input.isLineEnd (String.join (r.tagTexts.map fun t => "," ++ t)) := by
    refine Text.lacks_join.2 fun text htext => ?_
    obtain ⟨tag, htag, rfl⟩ := List.mem_map.1 htext
    exact Text.lacks_append.2 ⟨by decide, h.tagTexts tag htag⟩
  have hfields : ∀ text ∈ r.fields.map fun field => field.1 ++ "=" ++ Decimal.plain field.2,
      Lacks Input.isLineEnd text := by
    intro text htext
    obtain ⟨field, hfield, rfl⟩ := List.mem_map.1 htext
    have hvalue := (Decimal.lacks_plain field.2).mono fun _ => Text.isForeign_of_isLineEnd
    exact Text.lacks_append.2 ⟨Text.lacks_append.2 ⟨h.fields field hfield, by decide⟩, hvalue⟩
  have htime := (Text.lacks_int r.nanos).mono fun _ => Text.isForeign_of_isLineEnd
  simp only [Reading.toLine, Text.lacks_append]
  refine ⟨⟨⟨⟨h.measurement, htags⟩, ?_⟩, by decide⟩, htime⟩
  split
  · decide
  · exact Text.lacks_append.2 ⟨by decide, Text.lacks_intercalate (by decide) hfields⟩

theorem toLine_ne_empty (r : Reading) : r.toLine.text ≠ "" := by
  simp [toLine]

/-- A line that was written is the next point of its source. -/
theorem OnOneLine.next_line (h : r.OnOneLine) (rest : String) :
    LineSource.next ⟨Input.ofText (r.toLine.write ++ rest)⟩ = (.ok (some r.toLine), ⟨Input.ofText rest⟩) := by
  rw [LineSource.next, Line.write]
  simp only [Input.readFilled_line (Input.oneLine_of_lacks h.toLine) (toLine_ne_empty r), Option.map_some]

theorem yields_lines {readings : List Reading} (h : ∀ r ∈ readings, r.OnOneLine) :
    Yields LineSource.next ⟨Input.ofText (String.join (readings.map fun r => r.toLine.write))⟩
      (readings.map toLine) := by
  induction readings with
  | nil => exact .done rfl rfl
  | cons r rest ih =>
    have hrest := ih fun r hr => h r (List.mem_cons_of_mem _ hr)
    rw [List.map_cons, List.map_cons, String.join_cons]
    exact .more ((h r List.mem_cons_self).next_line _) hrest

/-! ### Records -/

/-- The header lists the reading's measurement with as many fields as the reading has. -/
structure Fits (header : Header) (r : Reading) : Prop where
  comma : ',' ∉ r.measurement.toList
  listed : ∃ fields, header.fields? r.measurement = some fields ∧ r.fields.length = fields.length

theorem nanos_bounds (r : Reading) : -(Text.maxInt64 : Int) - 1 ≤ r.nanos ∧ r.nanos ≤ Text.maxInt64 := by
  unfold nanos Stamp.nanosSinceEpoch?
  simp only
  split
  · assumption
  · have hpos : (0 : Int) ≤ Text.maxInt64 := Int.natCast_nonneg _
    simp only [Option.getD_none]
    omega

/-- The data of a record are cut into the time and the values. -/
theorem split_row (r : Reading) :
    Text.split ',' r.toRecord.row.fields =
      Text.int r.nanos :: r.fields.map fun (_, value) => Decimal.plain value := by
  have hrow : r.toRecord.row.fields = Text.int r.nanos ++
      String.join ((r.fields.map fun (_, value) => Decimal.plain value).map ("," ++ ·)) := by
    simp [toRecord, Function.comp_def]
  rw [hrow]
  refine Text.split_join (by decide) ?_ ((Text.lacks_int _).not_mem (by decide))
  intro text htext
  obtain ⟨field, -, rfl⟩ := List.mem_map.1 htext
  exact (Decimal.lacks_plain _).not_mem (by decide)

theorem timestampAndValues_row (r : Reading) :
    r.toRecord.row.timestampAndValues = .ok (r.nanos, r.fields.map fun (_, value) => Decimal.plain value) := by
  obtain ⟨hlow, hhigh⟩ := nanos_bounds r
  rw [Row.timestampAndValues, split_row]
  simp only [Text.readInt_int hlow hhigh]

theorem valueCount_row (r : Reading) : r.toRecord.row.valueCount = r.fields.length :=
  (Row.valueCount_of_split (split_row r)).trans (List.length_map _)

theorem Fits.check (h : r.Fits header) : r.toRecord.check header = .ok () := by
  obtain ⟨fields, hlisted, hlength⟩ := h.listed
  have hfields : header.fields? r.toRecord.measurement = some fields := hlisted
  simp [Record.check, hfields, timestampAndValues_row, valueCount_row, hlength, pure, Except.pure, bind,
    Except.bind]

theorem Fits.read (h : r.Fits header) :
    Record.read (tagsMark ++ "," ++ r.toRecord.row.tags) (r.measurement ++ "," ++ r.toRecord.row.fields) =
      .ok r.toRecord := by
  have hmark : Text.splitOnce ',' (tagsMark ++ "," ++ r.toRecord.row.tags) =
      some (tagsMark, r.toRecord.row.tags) :=
    Text.splitOnce_append (by decide) (by decide) _
  have hdata : Text.splitOnce ',' (r.measurement ++ "," ++ r.toRecord.row.fields) =
      some (r.measurement, r.toRecord.row.fields) := Text.splitOnce_append (by decide) h.comma _
  simp only [Record.read, Record.readTags, hmark, hdata, if_true]
  rfl

/-- A record that was written is the next point behind a header that it fits. -/
theorem OnOneLine.next_record (h : r.OnOneLine) (hfits : r.Fits header) (rest : String) :
    RecordSource.nextRecord header (Input.ofText (r.toRecord.write ++ rest)) =
      (.ok (some r.toRecord), Input.ofText rest) := by
  have htags : Lacks Input.isLineEnd (tagsMark ++ "," ++ r.toRecord.row.tags) :=
    Text.lacks_append.2 ⟨by decide, Text.lacks_intercalate (by decide) h.tagTexts⟩
  have hdata : Lacks Input.isLineEnd (r.measurement ++ "," ++ r.toRecord.row.fields) := by
    have htime := (Text.lacks_int r.nanos).mono fun _ => Text.isForeign_of_isLineEnd
    simp only [toRecord, Text.lacks_append]
    refine ⟨⟨h.measurement, by decide⟩, htime, ?_⟩
    refine Text.lacks_join.2 fun text htext => ?_
    obtain ⟨field, -, rfl⟩ := List.mem_map.1 htext
    exact Text.lacks_append.2 ⟨by decide, (Decimal.lacks_plain _).mono fun _ => Text.isForeign_of_isLineEnd⟩
  have hne : tagsMark ++ "," ++ r.toRecord.row.tags ≠ "" := by simp
  have htext : r.toRecord.write ++ rest = tagsMark ++ "," ++ r.toRecord.row.tags ++ "\n" ++
      (r.measurement ++ "," ++ r.toRecord.row.fields ++ "\n" ++ rest) := by
    simp [Record.write, toRecord, String.append_assoc]
  rw [htext, RecordSource.nextRecord, Input.readFilled_line (Input.oneLine_of_lacks htags) hne]
  simp only [Input.readLine_line (Input.oneLine_of_lacks hdata), hfits.read]
  rw [Prod.mk.injEq]
  refine ⟨?_, rfl⟩
  simp [hfits.check, bind, Except.bind, pure, Except.pure]

/-- Records behind a header that was read are given back in order. -/
theorem yields_records {readings : List Reading} (h : ∀ r ∈ readings, r.OnOneLine ∧ r.Fits header) :
    Yields RecordSource.next
      ⟨Input.ofText (String.join (readings.map fun r => r.toRecord.write)), some header⟩
      (readings.map toRecord) := by
  induction readings with
  | nil => exact .done rfl rfl
  | cons r rest ih =>
    have hrest := ih fun r hr => h r (List.mem_cons_of_mem _ hr)
    obtain ⟨hline, hfits⟩ := h r List.mem_cons_self
    rw [List.map_cons, List.map_cons, String.join_cons]
    refine .more ?_ hrest
    rw [RecordSource.next]
    simp only [RecordSource.headers, hline.next_record hfits]

end Reading

/-! ### A header before records -/

namespace RecordSource

variable {header : Header}

theorem headers_write (hw : header.Writable) (text : String) :
    (ofInput (Input.ofText (header.write tagsMark ++ text))).headers =
      (.ok header, ⟨Input.ofText text, some header⟩) := by
  simp only [ofInput, headers, hw.read_write]

/-- Whether or not the header was asked for first, the points are the same. -/
theorem yields_behind_header {input rest : Input} {records : List Record}
    (hheaders : (ofInput input).headers = (.ok header, ⟨rest, some header⟩))
    (h : Yields next ⟨rest, some header⟩ records) : Yields next (ofInput input) records := by
  have hagain : headers ⟨rest, some header⟩ = (.ok header, ⟨rest, some header⟩) := rfl
  have hnext : next (ofInput input) = next ⟨rest, some header⟩ := by
    simp only [next, hheaders, hagain]
  exact h.of_next_eq hnext

/-- The bytes of a file: what stands before the points, and the points. -/
def fileOf (format : PointFormat) (header : Header) (readings : List Reading) : List UInt8 :=
  (format.writeHeader header ++ String.join (readings.map format.write)).toUTF8.data.toList

/-- A file of records is read back whole: the reader of the header stops at its last byte, whatever follows, and a
    source gives the header and then every record in order, also when it is not asked for the header first. -/
theorem replays_file {readings : List Reading} (hnamed : header.WellNamed)
    (h : ∀ r ∈ readings, r.OnOneLine ∧ r.Fits header) :
    (∀ bytes, Header.read (Input.ofBytes ((header.write tagsMark).toUTF8.data.toList ++ bytes)) =
      (.ok header, Input.ofBytes bytes)) ∧
    Yields next (ofInput (Input.ofBytes (fileOf .record header readings))) (readings.map Reading.toRecord) ∧
    ∃ source, (ofInput (Input.ofBytes (fileOf .record header readings))).headers = (.ok header, source) ∧
      Yields next source (readings.map Reading.toRecord) := by
  have hrecords := Reading.yields_records h
  have hheaders := headers_write hnamed.writable (String.join (readings.map PointFormat.record.write))
  have hbytes : Input.ofBytes (fileOf .record header readings) =
      Input.ofText (header.write tagsMark ++ String.join (readings.map PointFormat.record.write)) :=
    Input.ofBytes_toUTF8 _
  rw [hbytes]
  exact ⟨hnamed.writable.read_bytes, yields_behind_header hheaders hrecords, _, hheaders, hrecords⟩

/-- A header in which a tag, a measurement and a field have no name. -/
def sparseHeader : Header := ⟨["host", ""], ["text", "tag"], [("", ["a"]), ("cpu", ["b", ""])]⟩

/-- A reading without tags and one whose tag has a comma and a blank. -/
def sparseReadings : List Reading :=
  [⟨"cpu", [], [("b", 1), ("", 0.5)], Stamp.epoch⟩, ⟨"", [("host", "a, b")], [("a", -2)], ⟨10, 1⟩⟩]

theorem replays_file_sparse :
    sparseHeader.WellNamed ∧ (∀ r ∈ sparseReadings, r.OnOneLine ∧ r.Fits sparseHeader) ∧
      Header.read (Input.ofBytes ((sparseHeader.write tagsMark).toUTF8.data.toList ++ [255, 10])) =
        (.ok sparseHeader, [.malformed]) ∧
      Yields next (ofInput (Input.ofBytes (fileOf .record sparseHeader sparseReadings)))
        (sparseReadings.map Reading.toRecord) := by
  have hnamed : sparseHeader.WellNamed := ⟨by decide, by decide, by decide, by decide, by decide⟩
  have hreadings : ∀ r ∈ sparseReadings, r.OnOneLine ∧ r.Fits sparseHeader := by
    intro r hr
    rcases List.mem_cons.1 hr with rfl | hr
    · exact ⟨⟨by decide, by decide, by decide⟩, by decide, ["b", ""], by decide, rfl⟩
    · obtain rfl := List.mem_singleton.1 hr
      exact ⟨⟨by decide, by decide, by decide⟩, by decide, ["a"], by decide, rfl⟩
  have hreplays := replays_file hnamed hreadings
  exact ⟨hnamed, hreadings, hreplays.1 [255, 10], hreplays.2.1⟩

end RecordSource
end IngestBench
