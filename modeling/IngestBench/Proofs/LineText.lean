import IngestBench.Input
import IngestBench.Text.Blank

/-! Text that is put together from pieces and cut again. A piece comes back whole when it lacks the character
    that is put between the pieces, and a line when it lacks the characters that end a line. -/

namespace IngestBench
namespace Text

variable {p q : Char → Bool} {sep : Char} {mark s t : String}

/-! ### Characters that a text lacks -/

/-- No character of the class occurs in the text. -/
def Lacks (p : Char → Bool) (s : String) : Prop := ∀ c ∈ s.toList, p c = false

instance : Decidable (Lacks p s) := List.decidableBAll (fun c => p c = false) s.toList

@[simp] theorem lacks_append : Lacks p (s ++ t) ↔ Lacks p s ∧ Lacks p t := by
  simp only [Lacks, String.toList_append, List.mem_append, or_imp, forall_and]

theorem lacks_join {texts : List String} : Lacks p (String.join texts) ↔ ∀ s ∈ texts, Lacks p s := by
  simp only [Lacks, String.toList_join, List.mem_flatMap]
  constructor
  · intro h s hs c hc
    exact h c ⟨s, hs, hc⟩
  · rintro h c ⟨s, hs, hc⟩
    exact h s hs c hc

theorem Lacks.mono (h : Lacks p s) (hq : ∀ c, q c = true → p c = true) : Lacks q s := by
  intro c hc
  have hp := h c hc
  cases hqc : q c with
  | false => rfl
  | true => rw [hq c hqc] at hp; cases hp

theorem Lacks.not_mem (h : Lacks p s) (hsep : p sep = true) : sep ∉ s.toList := by
  intro hmem
  rw [h sep hmem] at hsep
  cases hsep

/-! ### Cutting at a separator -/

theorem splitChars_of_not_mem {cs : List Char} (h : sep ∉ cs) : splitChars sep cs = [cs] := by
  induction cs with
  | nil => rfl
  | cons c cs ih =>
    obtain ⟨hc, hcs⟩ := List.ne_and_not_mem_of_not_mem_cons h
    simp [splitChars, hc.symm, ih hcs]

theorem splitChars_append {cs : List Char} (h : sep ∉ cs) (rest : List Char) :
    splitChars sep (cs ++ sep :: rest) = cs :: splitChars sep rest := by
  induction cs with
  | nil => simp [splitChars]
  | cons c cs ih =>
    obtain ⟨hc, hcs⟩ := List.ne_and_not_mem_of_not_mem_cons h
    simp [splitChars, hc.symm, ih hcs]

/-- A text behind a separator is the last piece. -/
theorem splitChars_append_last {last : List Char} (h : sep ∉ last) (cs : List Char) :
    ∃ piece front, splitChars sep (cs ++ sep :: last) = piece :: front ++ [last] := by
  induction cs with
  | nil => exact ⟨[], [], by simp [splitChars, splitChars_of_not_mem h]⟩
  | cons c cs ih =>
    obtain ⟨piece, front, hcut⟩ := ih
    rw [List.cons_append, splitChars, hcut]
    split
    · exact ⟨[], piece :: front, rfl⟩
    · exact ⟨c :: piece, front, rfl⟩

theorem getLast?_split (hmark : mark.toList = [sep]) (s : String) (h : sep ∉ t.toList) :
    (split sep (s ++ mark ++ t)).getLast? = some t := by
  obtain ⟨piece, front, hcut⟩ := splitChars_append_last h s.toList
  have htext : (s ++ mark ++ t).toList = s.toList ++ sep :: t.toList := by simp [hmark]
  rw [split, htext, hcut, List.map_append, List.map_singleton, List.getLast?_concat, String.ofList_toList]

theorem splitOnceChars_append {cs : List Char} (h : sep ∉ cs) (rest : List Char) :
    splitOnceChars sep (cs ++ sep :: rest) = some (cs, rest) := by
  induction cs with
  | nil => simp [splitOnceChars]
  | cons c cs ih =>
    obtain ⟨hc, hcs⟩ := List.ne_and_not_mem_of_not_mem_cons h
    simp [splitOnceChars, hc.symm, ih hcs]

theorem splitOnce_append (hmark : mark.toList = [sep]) (hs : sep ∉ s.toList) (t : String) :
    splitOnce sep (s ++ mark ++ t) = some (s, t) := by
  have htext : (s ++ mark ++ t).toList = s.toList ++ sep :: t.toList := by simp [hmark]
  rw [splitOnce, htext, splitOnceChars_append hs]
  simp

/-- A text with marked texts behind it is cut into these texts. -/
theorem split_join (hmark : mark.toList = [sep]) {texts : List String} (htexts : ∀ t ∈ texts, sep ∉ t.toList)
    (hs : sep ∉ s.toList) : split sep (s ++ String.join (texts.map (mark ++ ·))) = s :: texts := by
  induction texts generalizing s with
  | nil => simp [split, splitChars_of_not_mem hs]
  | cons t rest ih =>
    have hrest := ih (fun t ht => htexts t (List.mem_cons_of_mem _ ht)) (htexts t List.mem_cons_self)
    have htext : (s ++ String.join ((t :: rest).map (mark ++ ·))).toList =
        s.toList ++ sep :: (t ++ String.join (rest.map (mark ++ ·))).toList := by
      simp [hmark, String.join_cons]
    rw [split, htext, splitChars_append hs, List.map_cons, String.ofList_toList]
    exact congrArg (s :: ·) hrest

/-- Texts with a mark between them are the first one with the others marked behind it. -/
theorem intercalate_cons (mark s : String) (texts : List String) :
    mark.intercalate (s :: texts) = s ++ String.join (texts.map (mark ++ ·)) := by
  induction texts generalizing s with
  | nil => simp
  | cons t rest ih =>
    rw [String.intercalate_cons_cons, ih, List.map_cons, String.join_cons]
    simp [String.append_assoc]

theorem lacks_intercalate {texts : List String} (hmark : Lacks p mark) (htexts : ∀ s ∈ texts, Lacks p s) :
    Lacks p (mark.intercalate texts) := by
  cases texts with
  | nil => intro c hc; simp at hc
  | cons s rest =>
    rw [intercalate_cons, lacks_append, lacks_join]
    refine ⟨htexts s List.mem_cons_self, ?_⟩
    intro marked hmarked
    obtain ⟨t, ht, rfl⟩ := List.mem_map.1 hmarked
    exact lacks_append.2 ⟨hmark, htexts t (List.mem_cons_of_mem _ ht)⟩

/-! ### The pieces of a cut -/

theorem splitOnceChars_eq_some {cs before after : List Char} (h : splitOnceChars sep cs = some (before, after)) :
    cs = before ++ sep :: after ∧ sep ∉ before := by
  induction cs generalizing before with
  | nil => cases h
  | cons c cs ih =>
    rw [splitOnceChars] at h
    split at h
    · rename_i hc
      obtain ⟨rfl, rfl⟩ := Prod.mk.inj (Option.some.inj h)
      exact ⟨by rw [hc, List.nil_append], List.not_mem_nil⟩
    · rename_i hc
      obtain ⟨⟨front, back⟩, hcut, heq⟩ := Option.map_eq_some_iff.1 h
      obtain ⟨rfl, rfl⟩ := Prod.mk.inj heq
      obtain ⟨hcs, hmem⟩ := ih hcut
      exact ⟨by rw [hcs, List.cons_append], List.not_mem_cons_of_ne_of_not_mem (Ne.symm hc) hmem⟩

theorem splitOnce_eq_some (hmark : mark.toList = [sep]) {before after : String}
    (h : splitOnce sep s = some (before, after)) : s = before ++ mark ++ after ∧ sep ∉ before.toList := by
  obtain ⟨⟨front, back⟩, hcut, heq⟩ := Option.map_eq_some_iff.1 h
  obtain ⟨rfl, rfl⟩ := Prod.mk.inj heq
  obtain ⟨hs, hmem⟩ := splitOnceChars_eq_some hcut
  refine ⟨String.toList_inj.1 ?_, by simpa using hmem⟩
  simp [hs, hmark]

theorem not_mem_of_mem_splitChars {cs piece : List Char} (h : piece ∈ splitChars sep cs) : sep ∉ piece := by
  induction cs generalizing piece with
  | nil =>
    obtain rfl := List.mem_singleton.1 h
    exact List.not_mem_nil
  | cons c cs ih =>
    rw [splitChars] at h
    split at h
    · rcases List.mem_cons.1 h with rfl | h
      · exact List.not_mem_nil
      · exact ih h
    · rename_i hc
      obtain ⟨first, rest, hcs⟩ := List.exists_cons_of_ne_nil (splitChars_ne_nil sep cs)
      rw [hcs] at h ih
      rcases List.mem_cons.1 h with rfl | h
      · exact List.not_mem_cons_of_ne_of_not_mem (Ne.symm hc) (ih List.mem_cons_self)
      · exact ih (List.mem_cons_of_mem _ h)

theorem not_mem_of_mem_split (h : t ∈ split sep s) : sep ∉ t.toList := by
  obtain ⟨piece, hpiece, rfl⟩ := List.mem_map.1 h
  simpa using not_mem_of_mem_splitChars hpiece

/-- The pieces put together again are the text. -/
theorem intercalate_split (hmark : mark.toList = [sep]) (s : String) : mark.intercalate (split sep s) = s := by
  have hpieces : String.toList ∘ String.ofList = id := funext fun cs => String.toList_ofList
  rw [← String.toList_inj, String.toList_intercalate, hmark, split, List.map_map, hpieces, List.map_id,
    intercalate_splitChars]

/-! ### Blanks at the ends -/

/-- The text neither starts nor ends with a blank. -/
def Trimmed (s : String) : Prop :=
  (∀ c ∈ s.toList.head?, isBlank c = false) ∧ ∀ c ∈ s.toList.getLast?, isBlank c = false

theorem dropEnd_concat (p : Char → Bool) (cs : List Char) (c : Char) :
    dropEnd p (cs ++ [c]) = if p c then dropEnd p cs else cs ++ [c] := by
  simp only [dropEnd, List.reverse_append, List.reverse_cons, List.reverse_nil, List.nil_append,
    List.singleton_append, List.dropWhile_cons]
  split <;> simp

theorem dropEnd_eq_self {cs : List Char} (h : ∀ c ∈ cs.getLast?, p c = false) : dropEnd p cs = cs := by
  rcases List.eq_nil_or_concat cs with rfl | ⟨front, c, rfl⟩
  · rfl
  · have hc : p c = false := h c (by simp)
    simp [dropEnd_concat, hc]

theorem Lacks.trimmed (h : Lacks isBlank s) : Trimmed s :=
  ⟨fun c hc => h c (List.mem_of_mem_head? hc), fun c hc => h c (List.mem_of_mem_getLast? hc)⟩

theorem Trimmed.dropStart_append (h : Trimmed s) (hs : s.toList ≠ []) (rest : List Char) :
    dropStart isBlank (s.toList ++ rest) = s.toList ++ rest := by
  obtain ⟨c, cs, hcs⟩ := List.exists_cons_of_ne_nil hs
  have hc : isBlank c = false := h.1 c (by simp [hcs])
  simp [dropStart, hcs, hc]

theorem Trimmed.trim (h : Trimmed s) : trim s = s := by
  by_cases hs : s.toList = []
  · rw [Text.trim, hs, ← String.ofList_toList (s := s), hs]
    rfl
  · have hstart := h.dropStart_append hs []
    rw [List.append_nil] at hstart
    rw [Text.trim, trimChars, hstart, dropEnd_eq_self h.2, String.ofList_toList]

/-- The line end goes with the blanks. -/
theorem Trimmed.trim_line (h : Trimmed s) : Text.trim (s ++ "\n") = s := by
  have htext : (s ++ "\n").toList = s.toList ++ ['\n'] := by simp
  have hblank : isBlank '\n' = true := by decide
  by_cases hs : s.toList = []
  · rw [Text.trim, htext, hs, ← String.ofList_toList (s := s), hs]
    rfl
  · rw [Text.trim, trimChars, htext, h.dropStart_append hs, dropEnd_concat, if_pos hblank,
      dropEnd_eq_self h.2, String.ofList_toList]

/-! ### What trimming leaves -/

theorem dropEnd_isPrefix (p : Char → Bool) (cs : List Char) : dropEnd p cs <+: cs := by
  rw [dropEnd, ← List.reverse_suffix, List.reverse_reverse]
  exact List.dropWhile_suffix _

theorem toList_trim (s : String) : (trim s).toList = dropEnd isBlank (dropStart isBlank s.toList) := by
  rw [trim, String.toList_ofList, trimChars]

theorem trimmed_trim (s : String) : Trimmed (trim s) := by
  constructor
  · intro c hc
    rw [toList_trim] at hc
    obtain ⟨rest, hrest⟩ := dropEnd_isPrefix isBlank (dropStart isBlank s.toList)
    have hhead : (s.toList.dropWhile isBlank).head? = some c := by
      rw [← dropStart, ← hrest, List.head?_append, hc]
      rfl
    have hnot := List.head?_dropWhile_not isBlank s.toList
    rw [hhead] at hnot
    simpa using hnot
  · intro c hc
    rw [toList_trim, dropEnd, List.getLast?_reverse] at hc
    have hnot := List.head?_dropWhile_not isBlank (dropStart isBlank s.toList).reverse
    rw [hc] at hnot
    simpa using hnot

theorem trim_infix (s : String) : (trim s).toList <:+: s.toList := by
  rw [toList_trim]
  exact (dropEnd_isPrefix _ _).isInfix.trans (List.dropWhile_suffix _).isInfix

/-- A blank that can only be the last character of a text is in no trimmed part of it. -/
theorem Trimmed.not_mem {cs : List Char} (htrimmed : Trimmed t) (hpart : t.toList <:+: cs)
    (hblank : isBlank sep = true) (hcs : sep ∉ cs.dropLast) : sep ∉ t.toList := by
  intro hmem
  obtain ⟨front, back, rfl⟩ := hpart
  obtain ⟨inner, c, ht⟩ := (List.eq_nil_or_concat t.toList).resolve_left (List.ne_nil_of_mem hmem)
  rw [List.concat_eq_append] at ht
  have hc : isBlank c = false := htrimmed.2 c (by simp [ht])
  have hinner : sep ∈ inner := by
    rw [ht] at hmem
    rcases List.mem_append.1 hmem with hinner | hlast
    · exact hinner
    · rw [List.mem_singleton.1 hlast, hc] at hblank
      cases hblank
  apply hcs
  rw [ht]
  rcases List.eq_nil_or_concat back with rfl | ⟨back, b, rfl⟩
  · simp [hinner]
  · simp only [List.concat_eq_append, ← List.append_assoc, List.dropLast_concat]
    simp [hinner]

end Text

/-! ### Lines -/

namespace Input

open Text (Lacks)

variable {line : String}

/-- The characters that end a line. -/
def isLineEnd (c : Char) : Bool := c = '\n' || c = '\r'

theorem isBlank_of_isLineEnd {c : Char} (h : isLineEnd c = true) : Text.isBlank c = true := by
  simp only [isLineEnd, Bool.or_eq_true, decide_eq_true_eq] at h
  rcases h with rfl | rfl <;> decide

theorem cutLines_append {cs : List Char} (h : '\n' ∉ cs) (rest : List Char) :
    cutLines (cs ++ '\n' :: rest) = (cs ++ ['\n']) :: cutLines rest := by
  induction cs with
  | nil => simp [cutLines]
  | cons c cs ih =>
    obtain ⟨hc, hcs⟩ := List.ne_and_not_mem_of_not_mem_cons h
    simp [cutLines, hc.symm, ih hcs]

theorem ofText_line (h : '\n' ∉ line.toList) (rest : String) :
    ofText (line ++ "\n" ++ rest) = .text (line ++ "\n") :: ofText rest := by
  have htext : (line ++ "\n" ++ rest).toList = line.toList ++ '\n' :: rest.toList := by simp
  have hline : String.ofList (line.toList ++ ['\n']) = line ++ "\n" := by
    rw [String.ofList_append, String.ofList_toList]
  rw [ofText, htext, cutLines_append h, List.map_cons, hline]
  rfl

/-- The text is one line, and what ends it can be told from what it says. -/
structure OneLine (line : String) : Prop where
  feed : '\n' ∉ line.toList
  last : ∀ c ∈ line.toList.getLast?, isLineEnd c = false

theorem oneLine_of_lacks (h : Lacks isLineEnd line) : OneLine line :=
  ⟨h.not_mem (by decide), fun c hc => h c (List.mem_of_mem_getLast? hc)⟩

theorem oneLine_of_trimmed (hfeed : '\n' ∉ line.toList) (h : Text.Trimmed line) : OneLine line := by
  refine ⟨hfeed, ?_⟩
  intro c hc
  cases hend : isLineEnd c with
  | false => rfl
  | true =>
    have hblank := h.2 c hc
    rw [isBlank_of_isLineEnd hend] at hblank
    cases hblank

theorem dropLineEnd_line (h : OneLine line) : dropLineEnd (line ++ "\n") = line := by
  have htext : (line ++ "\n").toList = line.toList ++ ['\n'] := by simp
  have hdrop : Text.dropEnd isLineEnd (line.toList ++ ['\n']) = line.toList := by
    rw [Text.dropEnd_concat, if_pos (by decide), Text.dropEnd_eq_self h.last]
  rw [dropLineEnd, htext]
  exact (congrArg String.ofList hdrop).trans String.ofList_toList

/-- A line that was written is read back, and what stands behind it is left. -/
theorem readLine_line (h : OneLine line) (rest : String) :
    readLine (ofText (line ++ "\n" ++ rest)) = (.ok (some line), ofText rest) := by
  rw [ofText_line h.feed, readLine, dropLineEnd_line h]

theorem readFilled_line (h : OneLine line) (hne : line ≠ "") (rest : String) :
    readFilled (ofText (line ++ "\n" ++ rest)) = (.ok (some line), ofText rest) := by
  have hfilled : line.isEmpty = false := by simpa using hne
  rw [ofText_line h.feed]
  simp [readFilled, dropLineEnd_line h, hfilled]

/-! ### The bytes of a text -/

/-- The bytes of characters. -/
def encoded (cs : List Char) : List UInt8 := cs.flatMap String.utf8EncodeChar

/-- The byte of a line feed occurs in no other character. -/
theorem lineFeed_not_mem_utf8EncodeChar {c : Char} (h : c ≠ '\n') : (10 : UInt8) ∉ String.utf8EncodeChar c := by
  have hval : c.val.toNat ≠ 10 := fun heq => h (Char.ext (UInt32.toNat_inj.1 heq))
  fun_cases String.utf8EncodeChar <;> simp [← UInt8.toNat_inj] <;> omega

theorem cutBytes_append {b : UInt8} {bs : List UInt8} (h : 10 ∉ b :: bs) (rest : List UInt8) :
    cutBytes (b :: bs ++ rest) =
      match cutBytes rest with
      | [] => [b :: bs]
      | line :: more => (b :: bs ++ line) :: more := by
  obtain ⟨hb, hbs⟩ := List.ne_and_not_mem_of_not_mem_cons h
  induction bs generalizing b with
  | nil => exact if_neg hb.symm
  | cons b' bs ih =>
    obtain ⟨hb', hbs'⟩ := List.ne_and_not_mem_of_not_mem_cons hbs
    have hrest := ih hbs hb' hbs'
    rw [List.cons_append, cutBytes, if_neg hb.symm, hrest]
    cases cutBytes rest <;> rfl

theorem cutBytes_encoded (cs : List Char) : cutBytes (encoded cs) = (cutLines cs).map encoded := by
  induction cs with
  | nil => rfl
  | cons c cs ih =>
    have hcons : encoded (c :: cs) = String.utf8EncodeChar c ++ encoded cs := List.flatMap_cons
    by_cases hc : c = '\n'
    · subst hc
      have hbytes : String.utf8EncodeChar '\n' = [10] := by decide
      rw [hcons, hbytes, List.singleton_append, cutBytes, if_pos rfl, ih, cutLines, if_pos rfl]
      rfl
    · obtain ⟨b, bs, hbytes⟩ := List.exists_cons_of_ne_nil (String.utf8EncodeChar_ne_nil (c := c))
      have hmem := lineFeed_not_mem_utf8EncodeChar hc
      rw [hbytes] at hmem
      rw [hcons, hbytes, cutBytes_append hmem, ih, cutLines, if_neg hc]
      cases cutLines cs with
      | nil => simp [encoded, hbytes]
      | cons line more => simp [encoded, hbytes]

theorem utf8Encode_eq (cs : List Char) : cs.utf8Encode = ByteArray.mk (encoded cs).toArray := by
  have hlist : cs.utf8Encode.data.toList = encoded cs := List.toList_data_toByteArray
  rw [← hlist, Array.toArray_toList]

theorem fromUTF8?_encoded (cs : List Char) :
    String.fromUTF8? (ByteArray.mk (encoded cs).toArray) = some (String.ofList cs) := by
  rw [← utf8Encode_eq, String.fromUTF8?, dif_pos ByteArray.isValidUTF8_utf8Encode]
  rfl

theorem toUTF8_eq_encoded (text : String) : text.toUTF8.data.toList = encoded text.toList := by
  have htext : text.toUTF8 = text.toList.utf8Encode := String.utf8Encode_toList.symm
  rw [htext, utf8Encode_eq]

/-- The bytes of a text are read as the text. -/
theorem ofBytes_toUTF8 (text : String) : ofBytes text.toUTF8.data.toList = ofText text := by
  rw [toUTF8_eq_encoded, ofBytes, cutBytes_encoded, List.map_map, ofText]
  refine List.map_congr_left fun line _ => ?_
  simp only [Function.comp_apply, fromUTF8?_encoded]

/-! ### Where lines end -/

theorem cutBytes_lineFeed (front rest : List UInt8) :
    cutBytes (front ++ 10 :: rest) = cutBytes (front ++ [10]) ++ cutBytes rest := by
  induction front with
  | nil => rfl
  | cons b front ih =>
    by_cases hb : b = 10
    · simp only [List.cons_append, cutBytes, if_pos hb, ih]
    · have hne : cutBytes (front ++ [10]) ≠ [] := by
        cases front with
        | nil => simp [cutBytes]
        | cons c front =>
          rw [List.cons_append, cutBytes]
          split
          · simp
          · split <;> simp
      obtain ⟨line, lines, hcut⟩ := List.exists_cons_of_ne_nil hne
      rw [hcut, List.cons_append] at ih
      simp only [List.cons_append, cutBytes, if_neg hb, ih, hcut]

/-- What stands behind a text that ends its last line is read on its own. -/
theorem ofBytes_append (text : String) (bytes : List UInt8) :
    ofBytes ((text ++ "\n").toUTF8.data.toList ++ bytes) = ofText (text ++ "\n") ++ ofBytes bytes := by
  have hfeed : encoded ['\n'] = [10] := by decide
  have htext : (text ++ "\n").toUTF8.data.toList = encoded text.toList ++ [10] := by
    rw [toUTF8_eq_encoded, String.toList_append, encoded, List.flatMap_append]
    exact congrArg (encoded text.toList ++ ·) hfeed
  rw [← ofBytes_toUTF8, htext, List.append_assoc, List.singleton_append]
  simp only [ofBytes, cutBytes_lineFeed (encoded text.toList) bytes, List.map_append]

/-- No line goes on behind its line feed. -/
def Lined (input : Input) : Prop := ∀ content, .text content ∈ input → '\n' ∉ content.toList.dropLast

theorem Lined.tail {raw : RawLine} {input : Input} (h : Lined (raw :: input)) : Lined input :=
  fun content hcontent => h content (List.mem_cons_of_mem _ hcontent)

theorem not_mem_of_mem_cutBytes {bytes line : List UInt8} (h : line ∈ cutBytes bytes) : 10 ∉ line.dropLast := by
  induction bytes generalizing line with
  | nil => cases h
  | cons b bytes ih =>
    rw [cutBytes] at h
    split at h
    · rcases List.mem_cons.1 h with rfl | h
      · simp
      · exact ih h
    · rename_i hb
      split at h
      · obtain rfl := List.mem_singleton.1 h
        simp
      · rename_i first rest hcut
        rw [hcut] at ih
        rcases List.mem_cons.1 h with rfl | h
        · have hfirst := ih List.mem_cons_self
          cases first with
          | nil => simp
          | cons c first => exact List.not_mem_cons_of_ne_of_not_mem (Ne.symm hb) hfirst
        · exact ih (List.mem_cons_of_mem _ h)

theorem lined_ofBytes (bytes : List UInt8) : Lined (ofBytes bytes) := by
  intro content hcontent hmem
  obtain ⟨line, hline, hread⟩ := List.mem_map.1 hcontent
  split at hread
  · rename_i text htext
    obtain rfl := RawLine.text.inj hread
    obtain ⟨front, c, hcs⟩ :=
      (List.eq_nil_or_concat text.toList).resolve_left fun hnil => by rw [hnil] at hmem; cases hmem
    rw [hcs, List.concat_eq_append, List.dropLast_concat] at hmem
    have hbytes : line = encoded front ++ String.utf8EncodeChar c := by
      have hencoded : ByteArray.mk line.toArray = text.toUTF8 := by
        rw [String.fromUTF8?] at htext
        split at htext
        · rw [← Option.some.inj htext]
          rfl
        · cases htext
      have hlist : line = encoded text.toList := by
        rw [← toUTF8_eq_encoded, ← hencoded]
      rw [hlist, hcs, encoded, List.concat_eq_append, List.flatMap_append]
      simp [encoded]
    -- the byte of the line feed stands before the last character, so it is not the last one
    apply not_mem_of_mem_cutBytes hline
    rw [hbytes, List.dropLast_append_of_ne_nil String.utf8EncodeChar_ne_nil]
    refine List.mem_append_left _ (List.mem_flatMap.2 ⟨'\n', hmem, ?_⟩)
    decide
  · cases hread

end Input
end IngestBench
