import IngestBench.Proofs.LineText
import IngestBench.Record

/-! A header that is written is read back the same, and the reader stops where the header ends. -/

namespace IngestBench

open Text (Lacks Trimmed)

/-! ### A key above all others -/

theorem Sorted.update_above {α : Type} {entries : Sorted α} {key : String} (f : Option α → α)
    (h : ∀ e ∈ entries, e.1 < key) : entries.update key f = entries ++ [(key, f none)] := by
  induction entries with
  | nil => rfl
  | cons e rest ih =>
    obtain ⟨k, v⟩ := e
    have hk : k < key := h (k, v) List.mem_cons_self
    have hne : k ≠ key := fun heq => String.lt_irrefl key (heq ▸ hk)
    have hnot : ¬ key < k := String.lt_asymm hk
    have hrest := ih fun e he => h e (List.mem_cons_of_mem _ he)
    simp [update, hne, hnot, hrest]

namespace Header

variable {h : Header} {entry : String × List String}

/-! ### The lines of a header -/

/-- The line of the tags. -/
def tagLine (h : Header) : String :=
  tagsMark ++ String.join ((h.tagKeys.zip h.tagTypes).map fun (key, type) => "," ++ key ++ " " ++ type)

/-- The line of a measurement. -/
def measurementLine (entry : String × List String) : String := entry.1 ++ "," ++ ",".intercalate entry.2

theorem write_eq_lines (h : Header) :
    h.write tagsMark =
      h.tagLine ++ "\n" ++ (String.join (h.fieldKeys.map (measurementLine · ++ "\n")) ++ "\n") := by
  simp only [write, tagLine, measurementLine, String.append_assoc]

theorem measurementLine_eq (hne : entry.2 ≠ []) :
    measurementLine entry = entry.1 ++ String.join (entry.2.map ("," ++ ·)) := by
  obtain ⟨name, fields⟩ := entry
  obtain ⟨field, rest, rfl⟩ := List.exists_cons_of_ne_nil hne
  simp only [measurementLine, Text.intercalate_cons, List.map_cons, String.join_cons, String.append_assoc]

/-- A header whose lines can be told apart again: names keep the separators out, no line has blanks at its ends,
    and each measurement has a field. -/
structure Writable (h : Header) : Prop where
  paired : h.tagKeys.length = h.tagTypes.length
  keys : ∀ key ∈ h.tagKeys, ',' ∉ key.toList ∧ ' ' ∉ key.toList
  types : ∀ type ∈ h.tagTypes, ',' ∉ type.toList
  tagLine : '\n' ∉ h.tagLine.toList ∧ Trimmed h.tagLine
  ordered : h.fieldKeys.Pairwise fun a b => a.1 < b.1
  entries : ∀ e ∈ h.fieldKeys, ',' ∉ e.1.toList ∧ e.2 ≠ [] ∧ ∀ field ∈ e.2, ',' ∉ field.toList
  lines : ∀ e ∈ h.fieldKeys, '\n' ∉ (measurementLine e).toList ∧ Trimmed (measurementLine e)

/-! ### Reading the lines -/

theorem readTag_texts (tags : List (String × String)) (hkeys : ∀ tag ∈ tags, ' ' ∉ tag.1.toList) (h : Header) :
    (tags.map fun (key, type) => key ++ " " ++ type).foldlM (fun header tag =>
      match Text.splitOnce ' ' tag with
      | some (key, type) => Except.ok (header.withTag key type)
      | none => .error (.headerTag tag)) h =
    (Except.ok { h with
      tagKeys := h.tagKeys ++ tags.map Prod.fst
      tagTypes := h.tagTypes ++ tags.map Prod.snd } : Except ParseFault Header) := by
  induction tags generalizing h with
  | nil => simp [pure, Except.pure]
  | cons tag rest ih =>
    obtain ⟨key, type⟩ := tag
    have hcut : Text.splitOnce ' ' (key ++ " " ++ type) = some (key, type) :=
      Text.splitOnce_append (by decide) (hkeys (key, type) List.mem_cons_self) type
    have hrest := ih (fun tag ht => hkeys tag (List.mem_cons_of_mem _ ht)) (h.withTag key type)
    simp only [List.map_cons, List.foldlM_cons, hcut]
    exact hrest.trans (by simp [withTag])

theorem Writable.readTagLine (hw : h.Writable) :
    Header.readTagLine h.tagLine = .ok ⟨h.tagKeys, h.tagTypes, []⟩ := by
  have hpairs : ∀ tag ∈ h.tagKeys.zip h.tagTypes,
      (',' ∉ tag.1.toList ∧ ' ' ∉ tag.1.toList) ∧ ',' ∉ tag.2.toList := by
    intro tag ht
    have hmem := List.of_mem_zip ht
    exact ⟨hw.keys tag.1 hmem.1, hw.types tag.2 hmem.2⟩
  have hline : h.tagLine = tagsMark ++ String.join
      (((h.tagKeys.zip h.tagTypes).map fun (key, type) => key ++ " " ++ type).map ("," ++ ·)) := by
    simp [Header.tagLine, Function.comp_def, String.append_assoc]
  have hcut : Text.split ',' h.tagLine =
      tagsMark :: (h.tagKeys.zip h.tagTypes).map fun (key, type) => key ++ " " ++ type := by
    rw [hline]
    refine Text.split_join (by decide) ?_ (by decide)
    intro text htext
    obtain ⟨tag, htag, rfl⟩ := List.mem_map.1 htext
    obtain ⟨⟨hkey, -⟩, htype⟩ := hpairs tag htag
    simp [hkey, htype]
  have hread := readTag_texts (h.tagKeys.zip h.tagTypes) (fun tag ht => (hpairs tag ht).1.2) Header.empty
  rw [Header.readTagLine, hw.tagLine.2.trim, hcut]
  simp only [ne_eq, not_true_eq_false, if_false]
  exact hread.trans (by simp [Header.empty, List.map_fst_zip, List.map_snd_zip, hw.paired])

theorem measurementLine_ne_empty (entry : String × List String) : measurementLine entry ≠ "" := by
  simp [measurementLine]

theorem split_measurementLine (hname : ',' ∉ entry.1.toList) (hne : entry.2 ≠ [])
    (hfields : ∀ field ∈ entry.2, ',' ∉ field.toList) :
    Text.split ',' (measurementLine entry) = entry.1 :: entry.2 := by
  rw [measurementLine_eq hne]
  exact Text.split_join (by decide) hfields hname

/-- The measurements of a header join those that were read before, as their names are above them. -/
theorem readMeasurements_lines {entries : Sorted (List String)}
    (hentries : ∀ e ∈ entries, ',' ∉ e.1.toList ∧ e.2 ≠ [] ∧ ∀ field ∈ e.2, ',' ∉ field.toList)
    (hlines : ∀ e ∈ entries, '\n' ∉ (measurementLine e).toList ∧ Trimmed (measurementLine e))
    (h : Header) (hordered : (h.fieldKeys ++ entries).Pairwise fun a b => a.1 < b.1) (rest : String) :
    h.readMeasurements (Input.ofText (String.join (entries.map (measurementLine · ++ "\n")) ++ "\n" ++ rest)) =
      (.ok { h with fieldKeys := h.fieldKeys ++ entries }, Input.ofText rest) := by
  induction entries generalizing h with
  | nil =>
    have hblank : Input.ofText ("" ++ "\n" ++ rest) = .text ("" ++ "\n") :: Input.ofText rest :=
      Input.ofText_line (by decide) rest
    have htrim : Text.trim ("" ++ "\n") = "" := by decide
    simp only [List.map_nil, String.join_nil, hblank, readMeasurements, htrim, List.append_nil]
    rfl
  | cons entry entries ih =>
    obtain ⟨hname, hne, hfields⟩ := hentries entry List.mem_cons_self
    obtain ⟨hfeed, htrimmed⟩ := hlines entry List.mem_cons_self
    have hfilled : (measurementLine entry).isEmpty = false := by simpa using measurementLine_ne_empty entry
    have habove : ∀ e ∈ h.fieldKeys, e.1 < entry.1 := by
      intro e he
      exact (List.pairwise_append.1 hordered).2.2 e he entry List.mem_cons_self
    have hnext : h.withMeasurement entry.1 entry.2 = { h with fieldKeys := h.fieldKeys ++ [entry] } := by
      rw [withMeasurement, Sorted.insert, Sorted.update_above _ habove]
    have hrest := ih (fun e he => hentries e (List.mem_cons_of_mem _ he))
      (fun e he => hlines e (List.mem_cons_of_mem _ he))
      { h with fieldKeys := h.fieldKeys ++ [entry] } (by simpa using hordered)
    rw [List.map_cons, String.join_cons, String.append_assoc, String.append_assoc, Input.ofText_line hfeed,
      ← String.append_assoc]
    simp only [readMeasurements, htrimmed.trim_line, hfilled, split_measurementLine hname hne hfields, hnext]
    exact hrest.trans (by simp)

/-- A header that was written is read back, and what stands behind it is left. -/
theorem Writable.read_write (hw : h.Writable) (rest : String) :
    read (Input.ofText (h.write tagsMark ++ rest)) = (.ok h, Input.ofText rest) := by
  have hmeasurements := readMeasurements_lines hw.entries hw.lines ⟨h.tagKeys, h.tagTypes, []⟩
    (by simpa using hw.ordered) rest
  rw [write_eq_lines, String.append_assoc, read, Input.readLine_line (Input.oneLine_of_trimmed hw.tagLine.1 hw.tagLine.2)]
  simp only [hw.readTagLine]
  exact hmeasurements.trans (by simp)

/-! ### What stands behind a header -/

theorem readMeasurements_append {header : Header} {input rest : Input}
    (hread : header.readMeasurements input = (.ok h, rest)) (more : Input) :
    header.readMeasurements (input ++ more) = (.ok h, rest ++ more) := by
  induction input generalizing header with
  | nil => cases hread
  | cons line input ih =>
    cases line with
    | malformed => cases hread
    | text content =>
      simp only [readMeasurements, List.cons_append] at hread ⊢
      split at hread
      · rename_i hblank
        obtain ⟨hheader, rfl⟩ := Prod.mk.inj hread
        rw [if_pos hblank, hheader]
      · rename_i hfilled
        rw [if_neg hfilled]
        split at hread <;> exact ih hread

/-- Reading stops where the header ends, so it does not matter what follows. -/
theorem read_append {input rest : Input} (hread : read input = (.ok h, rest)) (more : Input) :
    read (input ++ more) = (.ok h, rest ++ more) := by
  cases input with
  | nil => cases hread
  | cons line input =>
    cases line with
    | malformed => cases hread
    | text content =>
      simp only [read, Input.readLine, List.cons_append] at hread ⊢
      split at hread
      · cases hread
      · exact readMeasurements_append hread more

/-- A header that was written is read from its bytes, and the bytes behind it are left. -/
theorem Writable.read_bytes (hw : h.Writable) (bytes : List UInt8) :
    read (Input.ofBytes ((h.write tagsMark).toUTF8.data.toList ++ bytes)) = (.ok h, Input.ofBytes bytes) := by
  have hread := hw.read_write ""
  rw [String.append_empty, write_eq_lines, ← String.append_assoc] at hread
  rw [write_eq_lines, ← String.append_assoc, Input.ofBytes_append]
  exact read_append hread (Input.ofBytes bytes)

/-! ### Names without separators -/

/-- The characters that stand between names, and all blanks. -/
def isMark (c : Char) : Bool := c == ',' || Text.isBlank c

/-- A header whose names and types are texts without commas and blanks. -/
structure WellNamed (h : Header) : Prop where
  paired : h.tagKeys.length = h.tagTypes.length
  keys : ∀ key ∈ h.tagKeys, Lacks isMark key
  types : ∀ type ∈ h.tagTypes, type ≠ "" ∧ Lacks isMark type
  ordered : h.fieldKeys.Pairwise fun a b => a.1 < b.1
  entries : ∀ e ∈ h.fieldKeys, Lacks isMark e.1 ∧ e.2 ≠ [] ∧ ∀ field ∈ e.2, Lacks isMark field

theorem isMark_of_isBlank {c : Char} (h : Text.isBlank c = true) : isMark c = true := by
  simp [isMark, h]

theorem isMark_of_isLineEnd {c : Char} (h : Input.isLineEnd c = true) : isMark c = true :=
  isMark_of_isBlank (Input.isBlank_of_isLineEnd h)

theorem WellNamed.tagLine (hn : h.WellNamed) : Lacks Input.isLineEnd h.tagLine ∧ Trimmed h.tagLine := by
  constructor
  · simp only [Header.tagLine, Text.lacks_append, Text.lacks_join]
    refine ⟨by decide, ?_⟩
    intro text htext
    obtain ⟨tag, htag, rfl⟩ := List.mem_map.1 htext
    have hkey := (hn.keys tag.1 (List.of_mem_zip htag).1).mono fun _ => isMark_of_isLineEnd
    have htype := (hn.types tag.2 (List.of_mem_zip htag).2).2.mono fun _ => isMark_of_isLineEnd
    simp only [Text.lacks_append]
    exact ⟨⟨⟨by decide, hkey⟩, by decide⟩, htype⟩
  · have hmark : tagsMark.toList = ['t', 'a', 'g', 's'] := by decide
    constructor
    · intro c hc
      rw [Header.tagLine, String.toList_append, hmark] at hc
      obtain rfl : 't' = c := by simpa using hc
      decide
    · -- the line ends with the last type, or with the mark when there are no tags
      rcases List.eq_nil_or_concat (h.tagKeys.zip h.tagTypes) with hnil | ⟨front, ⟨key, type⟩, hlast⟩
      · have hblank : Lacks Text.isBlank tagsMark := by decide
        rw [Header.tagLine, hnil, List.map_nil, String.join_nil, String.append_empty]
        exact hblank.trimmed.2
      · have htag : (key, type) ∈ h.tagKeys.zip h.tagTypes := by simp [hlast]
        obtain ⟨hne, hlacks⟩ := hn.types type (List.of_mem_zip htag).2
        have hlist : type.toList ≠ [] := by simpa using hne
        intro c hc
        refine hlacks.mono (fun _ => isMark_of_isBlank) c (List.mem_of_mem_getLast? ?_)
        have htext : h.tagLine = tagsMark ++
            String.join (front.map fun (key, type) => "," ++ key ++ " " ++ type) ++ ("," ++ key ++ " ") ++ type := by
          simp [Header.tagLine, hlast, String.join_append, String.append_assoc]
        rw [htext, String.toList_append, List.getLast?_append, List.getLast?_eq_some_getLast hlist] at hc
        rw [List.getLast?_eq_some_getLast hlist]
        exact hc

theorem WellNamed.measurementLine (hn : h.WellNamed) (hentry : entry ∈ h.fieldKeys) :
    Lacks Text.isBlank (Header.measurementLine entry) := by
  obtain ⟨hname, hne, hfields⟩ := hn.entries entry hentry
  rw [measurementLine_eq hne, Text.lacks_append, Text.lacks_join]
  refine ⟨hname.mono fun _ => isMark_of_isBlank, ?_⟩
  intro text htext
  obtain ⟨field, hfield, rfl⟩ := List.mem_map.1 htext
  exact Text.lacks_append.2 ⟨by decide, (hfields field hfield).mono fun _ => isMark_of_isBlank⟩

theorem WellNamed.writable (hn : h.WellNamed) : h.Writable where
  paired := hn.paired
  keys key hkey := ⟨(hn.keys key hkey).not_mem (by decide), (hn.keys key hkey).not_mem (by decide)⟩
  types type htype := (hn.types type htype).2.not_mem (by decide)
  tagLine := ⟨hn.tagLine.1.not_mem (by decide), hn.tagLine.2⟩
  ordered := hn.ordered
  entries e he := by
    obtain ⟨hname, hne, hfields⟩ := hn.entries e he
    exact ⟨hname.not_mem (by decide), hne, fun field hfield => (hfields field hfield).not_mem (by decide)⟩
  lines e he := by
    have hlacks := hn.measurementLine he
    exact ⟨hlacks.not_mem (by decide), hlacks.trimmed⟩

end Header
end IngestBench
