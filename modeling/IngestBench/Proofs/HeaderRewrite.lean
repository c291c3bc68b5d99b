import IngestBench.Proofs.HeaderText

/-! A header that was read and is written again. The lines of its tags come out as they were read, and so do
    those of measurements with fields. A line without a comma names a measurement without fields; written
    again it has a comma, and so is read with one field that has no name. -/

namespace IngestBench

open Text (Trimmed)

/-! ### Entries at their place -/

namespace Sorted

variable {α : Type} {entries : Sorted α} {key : String} {f : Option α → α} {e : String × α}

theorem mem_update (he : e ∈ entries.update key f) : e ∈ entries ∨ e.1 = key ∧ ∃ old, e.2 = f old := by
  induction entries with
  | nil =>
    obtain rfl := List.mem_singleton.1 he
    exact .inr ⟨rfl, none, rfl⟩
  | cons entry rest ih =>
    obtain ⟨k, v⟩ := entry
    rw [update] at he
    split at he
    · rename_i hk
      rcases List.mem_cons.1 he with rfl | he
      · exact .inr ⟨hk, some v, rfl⟩
      · exact .inl (List.mem_cons_of_mem _ he)
    · split at he
      · rcases List.mem_cons.1 he with rfl | he
        · exact .inr ⟨rfl, none, rfl⟩
        · exact .inl he
      · rcases List.mem_cons.1 he with rfl | he
        · exact .inl List.mem_cons_self
        · exact (ih he).imp_left (List.mem_cons_of_mem _)

theorem mem_insert {value : α} (he : e ∈ entries.insert key value) : e ∈ entries ∨ e = (key, value) := by
  rcases mem_update he with he | ⟨hkey, -, hvalue⟩
  · exact .inl he
  · exact .inr (Prod.ext hkey hvalue)

theorem update_ordered (h : entries.Pairwise fun a b => a.1 < b.1) :
    (entries.update key f).Pairwise fun a b => a.1 < b.1 := by
  induction entries with
  | nil => exact List.pairwise_singleton _ _
  | cons entry rest ih =>
    obtain ⟨k, v⟩ := entry
    obtain ⟨habove, hrest⟩ := List.pairwise_cons.1 h
    rw [update]
    split
    · exact List.pairwise_cons.2 ⟨habove, hrest⟩
    · rename_i hne
      split
      · rename_i hlt
        refine List.pairwise_cons.2 ⟨?_, h⟩
        intro e he
        rcases List.mem_cons.1 he with rfl | he
        · exact hlt
        · exact String.lt_trans hlt (habove e he)
      · rename_i hnot
        refine List.pairwise_cons.2 ⟨?_, ih hrest⟩
        intro e he
        rcases mem_update he with he | ⟨hkey, -⟩
        · exact habove e he
        · rw [hkey]
          exact Std.lt_of_le_of_ne (String.not_lt.1 hnot) hne

end Sorted

namespace Header

variable {h : Header} {entry : String × List String}

/-! ### Where an entry comes from -/

/-- The entry is what one filled line says. -/
def FromLine (entry : String × List String) : Prop :=
  ∃ line : String, '\n' ∉ line.toList ∧ Trimmed line ∧ line ≠ "" ∧ Text.split ',' line = entry.1 :: entry.2

theorem readTags_eq_ok {tags : List String} {header h : Header}
    (hread : tags.foldlM (fun header tag =>
      match Text.splitOnce ' ' tag with
      | some (key, type) => Except.ok (header.withTag key type)
      | none => .error (.headerTag tag)) header = (Except.ok h : Except ParseFault Header)) :
    ∃ pairs : List (String × String), tags = pairs.map (fun (key, type) => key ++ " " ++ type) ∧
      (∀ pair ∈ pairs, ' ' ∉ pair.1.toList) ∧
      h = { header with
        tagKeys := header.tagKeys ++ pairs.map Prod.fst
        tagTypes := header.tagTypes ++ pairs.map Prod.snd } := by
  induction tags generalizing header with
  | nil =>
    obtain rfl := Except.ok.inj hread
    exact ⟨[], rfl, by simp, by simp⟩
  | cons tag tags ih =>
    rw [List.foldlM_cons] at hread
    cases hcut : Text.splitOnce ' ' tag with
    | none => rw [hcut] at hread; cases hread
    | some pair =>
      obtain ⟨key, type⟩ := pair
      rw [hcut] at hread
      obtain ⟨pairs, htags, hkeys, hheader⟩ := ih hread
      have hpair : tag = key ++ " " ++ type ∧ ' ' ∉ key.toList := Text.splitOnce_eq_some (by decide) hcut
      obtain ⟨htag, hkey⟩ := hpair
      refine ⟨(key, type) :: pairs, by rw [htags, htag]; rfl, ?_, ?_⟩
      · intro pair hpair
        rcases List.mem_cons.1 hpair with rfl | hpair
        · exact hkey
        · exact hkeys pair hpair
      · rw [hheader]
        simp [withTag]

/-- The tags that a line was read to are that line, written again. -/
theorem readTagLine_eq_ok {line : String} (hread : readTagLine line = .ok h) :
    h.tagKeys.length = h.tagTypes.length ∧ (∀ key ∈ h.tagKeys, ',' ∉ key.toList ∧ ' ' ∉ key.toList) ∧
      (∀ type ∈ h.tagTypes, ',' ∉ type.toList) ∧ h.fieldKeys = [] ∧ h.tagLine = Text.trim line := by
  rw [readTagLine] at hread
  have hwhole : ",".intercalate (Text.split ',' (Text.trim line)) = Text.trim line :=
    Text.intercalate_split (by decide) _
  have hpieces : ∀ piece ∈ Text.split ',' (Text.trim line), ',' ∉ piece.toList :=
    fun piece => Text.not_mem_of_mem_split
  cases hcut : Text.split ',' (Text.trim line) with
  | nil => rw [hcut] at hread; cases hread
  | cons mark tags =>
    rw [hcut] at hread hwhole hpieces
    dsimp only at hread
    split at hread
    · cases hread
    rename_i hmark
    obtain rfl := Decidable.not_not.1 hmark
    obtain ⟨pairs, rfl, hkeys, rfl⟩ := readTags_eq_ok hread
    have hcommas : ∀ pair ∈ pairs, ',' ∉ pair.1.toList ∧ ',' ∉ pair.2.toList := by
      intro pair hpair
      have hpiece := hpieces _ (List.mem_cons_of_mem _ (List.mem_map_of_mem hpair))
      simpa using hpiece
    refine ⟨by simp [empty], ?_, ?_, rfl, ?_⟩
    · intro key hkey
      obtain ⟨pair, hpair, rfl⟩ := List.mem_map.1 hkey
      exact ⟨(hcommas pair hpair).1, hkeys pair hpair⟩
    · intro type htype
      obtain ⟨pair, hpair, rfl⟩ := List.mem_map.1 htype
      exact (hcommas pair hpair).2
    · rw [Text.intercalate_cons] at hwhole
      have hzip : (pairs.map Prod.fst).zip (pairs.map Prod.snd) = pairs := (List.zip_of_prod rfl rfl).symm
      rw [← hwhole, tagLine]
      simp [empty, hzip, Function.comp_def, String.append_assoc]

/-- Reading measurements keeps the tags; each entry, old or new, is at its place and comes from a line. -/
theorem readMeasurements_eq_ok {header : Header} {input rest : Input} (hlined : input.Lined)
    (hordered : header.fieldKeys.Pairwise fun a b => a.1 < b.1) (hentries : ∀ e ∈ header.fieldKeys, FromLine e)
    (hread : header.readMeasurements input = (.ok h, rest)) :
    h.tagKeys = header.tagKeys ∧ h.tagTypes = header.tagTypes ∧
      (h.fieldKeys.Pairwise fun a b => a.1 < b.1) ∧ ∀ e ∈ h.fieldKeys, FromLine e := by
  induction input generalizing header with
  | nil => cases hread
  | cons line input ih =>
    cases line with
    | malformed => cases hread
    | text content =>
      rw [readMeasurements] at hread
      split at hread
      · obtain ⟨hheader, -⟩ := Prod.mk.inj hread
        obtain rfl := Except.ok.inj hheader
        exact ⟨rfl, rfl, hordered, hentries⟩
      rename_i hfilled
      split at hread
      · exact ih hlined.tail hordered hentries hread
      rename_i name fields hcut
      have hline : FromLine (name, fields) := by
        have htrimmed := Text.trimmed_trim content
        have hfeed := htrimmed.not_mem (Text.trim_infix content) (by decide) (hlined content List.mem_cons_self)
        exact ⟨Text.trim content, hfeed, htrimmed, by simpa using hfilled, hcut⟩
      have hnext : ∀ e ∈ (header.withMeasurement name fields).fieldKeys, FromLine e := by
        intro e he
        rcases Sorted.mem_insert he with he | rfl
        · exact hentries e he
        · exact hline
      have hplace : (header.withMeasurement name fields).fieldKeys.Pairwise fun a b => a.1 < b.1 :=
        Sorted.update_ordered hordered
      -- a header with one more measurement has the same tags
      obtain ⟨hkeys, htypes, hrest⟩ := ih hlined.tail hplace hnext hread
      exact ⟨hkeys, htypes, hrest⟩

/-! ### Written again -/

/-- The fields of a measurement's written line: there is always one, if only without a name. -/
def writtenFields : List String → List String
  | [] => [""]
  | field :: fields => field :: fields

/-- What a header is after it was written and read. -/
def reread (h : Header) : Header :=
  { h with fieldKeys := h.fieldKeys.map fun entry => (entry.1, writtenFields entry.2) }

theorem writtenFields_ne_nil (fields : List String) : writtenFields fields ≠ [] := by
  cases fields <;> simp [writtenFields]

theorem writtenFields_eq_iff {fields : List String} : writtenFields fields = fields ↔ fields ≠ [] := by
  cases fields <;> simp [writtenFields]

theorem measurementLine_written (entry : String × List String) :
    measurementLine (entry.1, writtenFields entry.2) = measurementLine entry := by
  obtain ⟨name, fields⟩ := entry
  cases fields <;> simp [measurementLine, writtenFields]

theorem write_reread (h : Header) : h.reread.write tagsMark = h.write tagsMark := by
  rw [write_eq_lines, write_eq_lines, reread, List.map_map]
  simp only [Function.comp_def, measurementLine_written, tagLine]

theorem reread_eq_iff : h.reread = h ↔ ∀ e ∈ h.fieldKeys, e.2 ≠ [] := by
  have hfields : h.reread = h ↔ h.fieldKeys.map (fun e => (e.1, writtenFields e.2)) = h.fieldKeys.map id := by
    rw [List.map_id]
    exact ⟨congrArg fieldKeys, fun heq => by rw [reread, heq]⟩
  rw [hfields, List.map_inj_left]
  refine forall₂_congr fun e _ => ?_
  rw [← writtenFields_eq_iff]
  exact ⟨congrArg Prod.snd, fun heq => Prod.ext rfl heq⟩

theorem FromLine.written (hline : FromLine entry) :
    (',' ∉ entry.1.toList ∧ ∀ field ∈ writtenFields entry.2, ',' ∉ field.toList) ∧
      '\n' ∉ (measurementLine entry).toList ∧ Trimmed (measurementLine entry) := by
  obtain ⟨line, hfeed, htrimmed, hfilled, hcut⟩ := hline
  have hpieces : ∀ piece ∈ entry.1 :: entry.2, ',' ∉ piece.toList :=
    fun piece hpiece => Text.not_mem_of_mem_split (hcut ▸ hpiece)
  have hwhole : ",".intercalate (Text.split ',' line) = line := Text.intercalate_split (by decide) _
  rw [hcut] at hwhole
  obtain ⟨name, fields⟩ := entry
  refine ⟨⟨hpieces name List.mem_cons_self, ?_⟩, ?_⟩
  · intro field hfield
    cases fields with
    | nil =>
      obtain rfl := List.mem_singleton.1 hfield
      simp
    | cons first rest => exact hpieces field (List.mem_cons_of_mem _ hfield)
  · cases fields with
    | nil =>
      -- the line had no comma, and is written with one behind it
      obtain rfl : name = line := by simpa using hwhole
      obtain ⟨c, cs, hcs⟩ := List.exists_cons_of_ne_nil (by simpa using hfilled : name.toList ≠ [])
      have hhead := htrimmed.1
      refine ⟨by simpa [measurementLine] using hfeed, ?_, ?_⟩
      · simpa [measurementLine, hcs] using hhead
      · simpa [measurementLine] using (by decide : Text.isBlank ',' = false)
    | cons first rest =>
      have hsame : measurementLine (name, first :: rest) = line := by
        rw [measurementLine_eq (List.cons_ne_nil _ _), ← Text.intercalate_cons]
        exact hwhole
      rw [hsame]
      exact ⟨hfeed, htrimmed⟩

theorem writable_of_read {input rest : Input} (hlined : input.Lined) (hread : read input = (.ok h, rest)) :
    h.reread.Writable := by
  cases input with
  | nil => cases hread
  | cons line input =>
    cases line with
    | malformed => cases hread
    | text content =>
      simp only [read, Input.readLine] at hread
      split at hread
      · cases hread
      rename_i header htags
      obtain ⟨hpaired, hkeys, htypes, hnone, hline⟩ := readTagLine_eq_ok htags
      obtain ⟨hsameKeys, hsameTypes, hordered, hentries⟩ :=
        readMeasurements_eq_ok hlined.tail (by rw [hnone]; exact .nil) (by rw [hnone]; simp) hread
      have htagLine : h.reread.tagLine = Text.trim (Input.dropLineEnd content) := by
        rw [← hline, tagLine, tagLine, reread, hsameKeys, hsameTypes]
      have hfeed : '\n' ∉ (Text.trim (Input.dropLineEnd content)).toList := by
        have hprefix : (Input.dropLineEnd content).toList <+: content.toList := by
          rw [Input.dropLineEnd, String.toList_ofList]
          exact Text.dropEnd_isPrefix _ _
        have hpart := (Text.trim_infix (Input.dropLineEnd content)).trans hprefix.isInfix
        exact (Text.trimmed_trim _).not_mem hpart (by decide) (hlined content List.mem_cons_self)
      constructor
      · rw [reread, hsameKeys, hsameTypes, hpaired]
      · rw [reread, hsameKeys]; exact hkeys
      · rw [reread, hsameTypes]; exact htypes
      · rw [htagLine]; exact ⟨hfeed, Text.trimmed_trim _⟩
      · exact List.pairwise_map.2 hordered
      · intro e he
        obtain ⟨entry, hentry, rfl⟩ := List.mem_map.1 he
        obtain ⟨⟨hname, hfields⟩, -⟩ := (hentries entry hentry).written
        exact ⟨hname, writtenFields_ne_nil _, hfields⟩
      · intro e he
        obtain ⟨entry, hentry, rfl⟩ := List.mem_map.1 he
        rw [measurementLine_written]
        exact (hentries entry hentry).written.2

/-- A header that was read and is written again is read back up to its end. It is the same header exactly if every
    measurement has a field; a measurement without fields gets one without a name. Either way the text does not
    change when it is written once more. -/
theorem read_rewritten {bytes : List UInt8} {rest : Input} (hread : read (Input.ofBytes bytes) = (.ok h, rest))
    (more : List UInt8) :
    read (Input.ofBytes ((h.write tagsMark).toUTF8.data.toList ++ more)) = (.ok h.reread, Input.ofBytes more) ∧
      (h.reread = h ↔ ∀ e ∈ h.fieldKeys, e.2 ≠ []) ∧ h.reread.write tagsMark = h.write tagsMark := by
  have hagain := (writable_of_read (Input.lined_ofBytes bytes) hread).read_bytes more
  rw [write_reread] at hagain
  exact ⟨hagain, reread_eq_iff, write_reread h⟩

/-- The header of two measurements, the second without fields. -/
def halfBare : Header := ⟨["host"], ["string"], [("cpu", ["usage"]), ("mem", [])]⟩

theorem read_rewritten_half_bare :
    read (Input.ofBytes "tags,host string\ncpu,usage\nmem\n\n".toUTF8.data.toList) = (.ok halfBare, []) ∧
      read (Input.ofBytes ((halfBare.write tagsMark).toUTF8.data.toList ++ [10])) =
        (.ok halfBare.reread, Input.ofBytes [10]) := by
  have hread : read (Input.ofBytes "tags,host string\ncpu,usage\nmem\n\n".toUTF8.data.toList) = (.ok halfBare, []) :=
    rfl
  exact ⟨hread, (read_rewritten hread [10]).1⟩

/-- A measurement without fields comes back with one. -/
theorem bare_measurement_gains_field :
    read (Input.ofText "tags\ncpu\n\n") = (.ok ⟨[], [], [("cpu", [])]⟩, []) ∧
      read (Input.ofText (write ⟨[], [], [("cpu", [])]⟩ tagsMark)) = (.ok ⟨[], [], [("cpu", [""])]⟩, []) :=
  ⟨rfl, rfl⟩

end Header
end IngestBench
