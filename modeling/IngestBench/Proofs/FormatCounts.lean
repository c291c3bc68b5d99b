import IngestBench.Partition
import IngestBench.Proofs.LineReplay

/-! A reading in either format, as a batch counts it. A batch of lines cuts the text of a line at blanks and commas, and
    a batch of records the data of a record at commas; as no number has a blank or a comma in its text, both come to one
    row and to as many metrics as the reading has fields. -/

namespace IngestBench

/-- Texts with a mark between them are cut into these texts again. -/
theorem Text.split_intercalate {sep : Char} {mark : String} (hmark : mark.toList = [sep]) {texts : List String}
    (hne : texts ≠ []) (htexts : ∀ t ∈ texts, sep ∉ t.toList) : split sep (mark.intercalate texts) = texts := by
  obtain ⟨first, rest, rfl⟩ := List.exists_cons_of_ne_nil hne
  obtain ⟨hfirst, hrest⟩ := List.forall_mem_cons.1 htexts
  rw [intercalate_cons, split_join hmark hrest hfirst]

namespace Reading

variable {r : Reading}

/-! ### Columns -/

/-- No name and no tag of the reading has a blank, and no name of a field has a comma. -/
structure Columned (r : Reading) : Prop where
  measurement : ' ' ∉ r.measurement.toList
  tags : ∀ tag ∈ r.tags, ' ' ∉ tag.1.toList ∧ ' ' ∉ tag.2.toList
  fields : ∀ field ∈ r.fields, ' ' ∉ field.1.toList ∧ ',' ∉ field.1.toList

/-- The measurement, and each tag with a comma before it. -/
def seriesText (r : Reading) : String :=
  r.measurement ++ String.join (r.tags.map fun tag => "," ++ tag.1 ++ "=" ++ tag.2)

/-- `key=value` for each field. -/
def fieldTexts (r : Reading) : List String := r.fields.map fun field => field.1 ++ "=" ++ Decimal.plain field.2

theorem toLine_text (r : Reading) : ∃ more, r.toLine.text = r.seriesText ++ " " ++ more ∧
    (r.fields ≠ [] → more = ",".intercalate r.fieldTexts ++ " " ++ Text.int r.nanos) := by
  have htags : String.join (r.tagTexts.map fun t => "," ++ t) =
      String.join (r.tags.map fun tag => "," ++ tag.1 ++ "=" ++ tag.2) := by
    simp [tagTexts, Function.comp_def, String.append_assoc]
  cases hfields : r.fields with
  | nil =>
    refine ⟨Text.int r.nanos, ?_, fun hne => absurd rfl hne⟩
    simp [toLine, seriesText, htags, hfields]
  | cons field fields =>
    refine ⟨_, ?_, fun _ => rfl⟩
    simp [toLine, seriesText, fieldTexts, htags, hfields, String.append_assoc]

theorem blank_not_mem_seriesText (hmeasurement : ' ' ∉ r.measurement.toList)
    (htags : ∀ tag ∈ r.tags, ' ' ∉ tag.1.toList ∧ ' ' ∉ tag.2.toList) : ' ' ∉ r.seriesText.toList := by
  intro h
  simp only [seriesText, String.toList_append, String.toList_join, List.mem_append, List.mem_flatMap,
    List.mem_map] at h
  rcases h with h | ⟨_, ⟨tag, htag, rfl⟩, h⟩
  · exact hmeasurement h
  · obtain ⟨hkey, hvalue⟩ := htags tag htag
    simp only [String.toList_append, List.mem_append] at h
    rcases h with ((h | h) | h) | h
    · exact absurd h (by decide)
    · exact hkey h
    · exact absurd h (by decide)
    · exact hvalue h

/-- The first column of a line is its series, whatever the names of its fields are. -/
theorem seriesKey_toLine (hmeasurement : ' ' ∉ r.measurement.toList)
    (htags : ∀ tag ∈ r.tags, ' ' ∉ tag.1.toList ∧ ' ' ∉ tag.2.toList) : r.toLine.seriesKey = r.seriesText := by
  obtain ⟨more, htext, -⟩ := toLine_text r
  have hchars : r.toLine.text.toList = r.seriesText.toList ++ ' ' :: more.toList := by simp [htext]
  rw [Line.seriesKey, Text.split, hchars, Text.splitChars_append (blank_not_mem_seriesText hmeasurement htags)]
  simp

namespace Columned

theorem fieldTexts (h : r.Columned) : ∀ text ∈ r.fieldTexts, ' ' ∉ text.toList ∧ ',' ∉ text.toList := by
  intro text htext
  obtain ⟨field, hfield, rfl⟩ := List.mem_map.1 htext
  obtain ⟨hblank, hcomma⟩ := h.fields field hfield
  have hplain := Decimal.lacks_plain field.2
  have hblank' : ' ' ∉ (Decimal.plain field.2).toList := hplain.not_mem (by decide)
  have hcomma' : ',' ∉ (Decimal.plain field.2).toList := hplain.not_mem (by decide)
  simp [hblank, hcomma, hblank', hcomma']

theorem blank_not_mem_intercalate (h : r.Columned) : ' ' ∉ (",".intercalate r.fieldTexts).toList := by
  have hlacks : Text.Lacks (· == ' ') (",".intercalate r.fieldTexts) :=
    Text.lacks_intercalate (by decide) fun text htext c hc =>
      beq_false_of_ne fun heq => (h.fieldTexts text htext).1 (heq ▸ hc)
  exact hlacks.not_mem (beq_self_eq_true ' ')

/-- A line with fields has three columns: series, fields and time. -/
theorem splitChars_toLine (h : r.Columned) (hfields : r.fields ≠ []) :
    Text.splitChars ' ' r.toLine.text.toList =
      [r.seriesText.toList, (",".intercalate r.fieldTexts).toList, (Text.int r.nanos).toList] := by
  obtain ⟨more, htext, hmore⟩ := toLine_text r
  have hchars : r.toLine.text.toList =
      r.seriesText.toList ++ ' ' :: ((",".intercalate r.fieldTexts).toList ++ ' ' :: (Text.int r.nanos).toList) := by
    simp [htext, hmore hfields]
  have htime : ' ' ∉ (Text.int r.nanos).toList := (Text.lacks_int r.nanos).not_mem (by decide)
  rw [hchars, Text.splitChars_append (blank_not_mem_seriesText h.measurement h.tags),
    Text.splitChars_append h.blank_not_mem_intercalate, Text.splitChars_of_not_mem htime]

theorem metrics_toLine (h : r.Columned) (hfields : r.fields ≠ []) : r.toLine.metrics = .ok r.fields.length := by
  have hne : r.fieldTexts ≠ [] := fun hnil => hfields (List.map_eq_nil_iff.1 hnil)
  have hsplit : Text.split ',' (",".intercalate r.fieldTexts) = r.fieldTexts :=
    Text.split_intercalate (by decide) hne fun text htext => (h.fieldTexts text htext).2
  have hlength := congrArg List.length hsplit
  rw [Text.split, List.length_map, Reading.fieldTexts, List.length_map] at hlength
  simp only [Line.metrics, h.splitChars_toLine hfields]
  exact congrArg Except.ok hlength

end Columned

/-! ### Counts and partitions -/

/-- A reading with fields is taken in by every batch in either format, as one row with as many metrics as the reading
    has fields. Its line is of the series that measurement and tags make, so that measurement and tags decide the
    partition in both formats. -/
theorem counted_alike (h : r.Columned) (hfields : r.fields ≠ []) :
    (∀ b : LineBatch, ∃ b', b.append r.toLine = .ok b' ∧
      Batch.counts b' = Batch.counts b + ⟨1, r.fields.length⟩) ∧
    (∀ b : RecordBatch, ∃ b', b.append r.toRecord = .ok b' ∧
      Batch.counts b' = Batch.counts b + ⟨1, r.fields.length⟩) ∧
    r.toLine.seriesKey = r.measurement ++ String.join (r.tags.map fun tag => "," ++ tag.1 ++ "=" ++ tag.2) ∧
    ∀ s : Reading, s.measurement = r.measurement → s.tags = r.tags → ∀ partitions,
      Partition.of partitions s.toLine = Partition.of partitions r.toLine ∧
        Partition.of partitions s.toRecord = Partition.of partitions r.toRecord := by
  have hseries := seriesKey_toLine h.measurement h.tags
  refine ⟨fun b => ?_, fun b => ?_, hseries, fun s hmeasurement htags partitions => ⟨?_, ?_⟩⟩
  · refine ⟨_, by rw [LineBatch.append, h.metrics_toLine hfields], rfl⟩
  · have hcount : r.toRecord.row.valueCount ≠ 0 := by
      rw [valueCount_row]
      exact fun hnil => hfields (List.length_eq_zero_iff.1 hnil)
    refine ⟨_, by rw [RecordBatch.append, timestampAndValues_row]; exact if_neg hcount, ?_⟩
    rw [← valueCount_row r]
    rfl
  · have hkey : s.toLine.seriesKey = r.toLine.seriesKey := by
      rw [hseries, seriesKey_toLine (hmeasurement ▸ h.measurement) (htags ▸ h.tags), seriesText, seriesText,
        hmeasurement, htags]
    simp only [Partition.of, Keyed.key, hkey]
  · have hkey : s.toRecord.row.tags = r.toRecord.row.tags := by simp only [toRecord, tagTexts, htags]
    simp only [Partition.of, Keyed.key, hkey]

/-- A reading whose values are no number, infinity and less than zero, and whose tag has a comma. -/
def odd : Reading := ⟨"cpu", [("host", "a,b")], [("u", 0.0 / 0.0), ("", 1.0 / 0.0), ("=", -1.5)], ⟨-1, 5⟩⟩

theorem counted_alike_odd :
    odd.Columned ∧ odd.fields ≠ [] ∧
    (∃ b, (⟨"m f=1 0\n", 1, 1⟩ : LineBatch).append odd.toLine = .ok b ∧ (b.rows, b.metrics) = (2, 4)) ∧
    (∃ b, RecordBatch.empty.append odd.toRecord = .ok b ∧ (b.rows, b.metrics) = (1, 3)) ∧
    odd.toLine.seriesKey = "cpu,host=a,b" := by
  have hcolumned : odd.Columned := ⟨by decide, by decide, by decide⟩
  have hfields : odd.fields ≠ [] := by decide
  obtain ⟨hlines, hrecords, hseries, -⟩ := counted_alike hcolumned hfields
  obtain ⟨b, hb, hcounts⟩ := hlines ⟨"m f=1 0\n", 1, 1⟩
  obtain ⟨b', hb', hcounts'⟩ := hrecords .empty
  refine ⟨hcolumned, hfields, ⟨b, hb, ?_⟩, ⟨b', hb', ?_⟩, hseries.trans (by decide)⟩
  · exact congrArg (fun c : Counts => (c.rows, c.metrics)) hcounts
  · exact congrArg (fun c : Counts => (c.rows, c.metrics)) hcounts'

end Reading
end IngestBench
