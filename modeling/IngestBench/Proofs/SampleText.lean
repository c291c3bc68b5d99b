import IngestBench.Exposition
import IngestBench.Proofs.PointText

/-! Samples as lines of text, and what a line says. A line is read by the rules of the text form, without regard to how
    it was written: a metric name, labels in braces with their values in quotes, a value and a time. Each line that is
    written is read as the sample it was written for, whatever stands in the tags. -/

namespace IngestBench

namespace Row

theorem timestampAndValues_eq_ok {row : Row} {n : Int} {values : List String} :
    row.timestampAndValues = .ok (n, values) ↔
      ∃ time, Text.split ',' row.fields = time :: values ∧ Text.readInt Text.maxInt64 time.toList = .ok n := by
  rw [timestampAndValues]
  constructor
  · intro h
    split at h
    · cases h
    · rename_i time rest hsplit
      split at h
      · rename_i t hread
        obtain ⟨rfl, rfl⟩ := Prod.mk.inj (Except.ok.inj h)
        exact ⟨time, hsplit, hread⟩
      · cases h
  · rintro ⟨time, hsplit, hread⟩
    simp only [hsplit, hread]

end Row

namespace Exposition

open Text (Lacks)

variable {row : Row} {c : Char} {cs rest value : List Char}

/-- The text of one value of a row. -/
def lineText (measurement field : String) (row : Row) (value : String) (millis : Int) : String :=
  name measurement ++ "_" ++ name field ++ labels row ++ " " ++ value ++ " " ++ Text.int millis

/-- The line of one value of a row. -/
def line (measurement field : String) (row : Row) (value : String) (millis : Int) : String :=
  lineText measurement field row value millis ++ "\n"

/-! ### Reading a line -/

/-- What a line says. -/
structure Sample where
  metric : String
  labels : List (String × String)
  value : String
  time : Int
  deriving Repr, DecidableEq

/-- The character that an escape stands for. -/
def unescape : Char → Option Char
  | '\\' => some '\\'
  | '"' => some '"'
  | 'n' => some '\n'
  | _ => none

/-- The text up to the closing quote, and what stands behind the quote. -/
def readQuoted : List Char → Option (List Char × List Char)
  | [] => none
  | '"' :: rest => some ([], rest)
  | '\n' :: _ => none
  | ['\\'] => none
  | '\\' :: e :: rest =>
    (unescape e).bind fun c => (readQuoted rest).map fun (cs, behind) => (c :: cs, behind)
  | c :: rest => (readQuoted rest).map fun (cs, behind) => (c :: cs, behind)

/-- A label: its name up to the equals sign, and its value in quotes. -/
def readLabel (cs : List Char) : Option ((String × String) × List Char) :=
  match Text.splitOnceChars '=' cs with
  | some (key, '"' :: rest) =>
    (readQuoted rest).map fun (value, behind) => ((String.ofList key, String.ofList value), behind)
  | _ => none

theorem readQuoted_length (h : readQuoted cs = some (value, rest)) : rest.length < cs.length := by
  induction cs using readQuoted.induct generalizing value with
  | case1 => cases h
  | case2 behind =>
    obtain ⟨-, rfl⟩ := Prod.mk.inj (Option.some.inj h)
    exact Nat.lt_succ_self _
  | case3 => cases h
  | case4 => cases h
  | case5 e behind ih =>
    obtain ⟨c, -, hread⟩ := Option.bind_eq_some_iff.1 h
    obtain ⟨⟨cs, rest'⟩, hcs, heq⟩ := Option.map_eq_some_iff.1 hread
    obtain ⟨-, rfl⟩ := Prod.mk.inj heq
    have hlt := ih hcs
    simp only [List.length_cons]
    omega
  | case6 c behind _ _ _ _ ih =>
    rw [readQuoted] at h
    · obtain ⟨⟨cs, rest'⟩, hcs, heq⟩ := Option.map_eq_some_iff.1 h
      obtain ⟨-, rfl⟩ := Prod.mk.inj heq
      exact Nat.lt_succ_of_lt (ih hcs)
    all_goals assumption

theorem readLabel_length {label : String × String} (h : readLabel cs = some (label, rest)) :
    rest.length < cs.length := by
  unfold readLabel at h
  split at h
  · rename_i key behind hcut
    obtain ⟨⟨value, rest'⟩, hread, heq⟩ := Option.map_eq_some_iff.1 h
    obtain ⟨-, rfl⟩ := Prod.mk.inj heq
    have hlt := readQuoted_length hread
    rw [(Text.splitOnceChars_eq_some hcut).1]
    simp only [List.length_append, List.length_cons]
    omega
  · cases h

/-- Labels with commas between them, up to the closing brace. -/
def readLabels (cs : List Char) : Option (List (String × String) × List Char) :=
  match _h : readLabel cs with
  | some (label, ',' :: rest) => (readLabels rest).map fun (labels, behind) => (label :: labels, behind)
  | some (label, '}' :: rest) => some ([label], rest)
  | _ => none
termination_by cs.length
decreasing_by
  have hlt := readLabel_length _h
  simp only [List.length_cons] at hlt
  omega

/-- The labels at the start of a text, if there are any. -/
def readLabelSet : List Char → Option (List (String × String) × List Char)
  | '{' :: cs => readLabels cs
  | cs => some ([], cs)

/-- The characters of a metric name. -/
def isNameChar (c : Char) : Bool := c.isAlphanum || c == '_' || c == ':'

/-- The sample that a line says: name and labels, a blank, the value, a blank and the time. -/
def Sample.read (line : String) : Option Sample := do
  let (labels, rest) ← readLabelSet (line.toList.dropWhile isNameChar)
  match Text.splitChars ' ' rest with
  | [[], value, time] =>
    match Text.readInt Text.maxInt64 time with
    | .ok time => some ⟨String.ofList (line.toList.takeWhile isNameChar), labels, String.ofList value, time⟩
    | .error _ => none
  | _ => none

/-! ### Names -/

/-- Letters, digits, underscores and the other characters that are allowed, with no digit in front. -/
def IsName (other : Char → Bool) (s : String) : Prop :=
  ∃ first more, s.toList = first :: more ∧ (first.isAlpha || first == '_' || other first) = true ∧
    ∀ c ∈ more, (c.isAlphanum || c == '_' || other c) = true

/-- The name of a metric; it may hold colons. -/
def IsMetricName (s : String) : Prop := IsName (· == ':') s

/-- Whether a character is kept in a name. -/
def isKept (start : Bool) (c : Char) : Bool := c.isAlpha || c == '_' || c == ':' || (!start && c.isDigit)

theorem nameChars_cons (start : Bool) (c : Char) (cs : List Char) :
    nameChars start (c :: cs) = (if isKept start c then c else '_') :: nameChars false cs := rfl

theorem isNameChar_of_isKept {start : Bool} (h : isKept start c = true) : isNameChar c = true := by
  simp only [isKept, isNameChar, Char.isAlphanum, Bool.or_eq_true, Bool.and_eq_true] at h ⊢
  rcases h with ((halpha | hscore) | hcolon) | ⟨-, hdigit⟩
  · exact .inl (.inl (.inl halpha))
  · exact .inl (.inr hscore)
  · exact .inr hcolon
  · exact .inl (.inl (.inr hdigit))

theorem isNameChar_of_mem {start : Bool} (h : c ∈ nameChars start cs) : isNameChar c = true := by
  induction cs generalizing start with
  | nil => cases h
  | cons d cs ih =>
    rw [nameChars_cons] at h
    rcases List.mem_cons.1 h with rfl | h
    · split
      · rename_i hkept
        exact isNameChar_of_isKept hkept
      · decide
    · exact ih h

theorem isMetricName_join (measurement field : String) : IsMetricName (name measurement ++ "_" ++ name field) := by
  have htext : (name measurement ++ "_" ++ name field).toList =
      nameChars true measurement.toList ++ '_' :: nameChars true field.toList := by simp [name]
  rw [IsMetricName, IsName, htext]
  cases measurement.toList with
  | nil => exact ⟨'_', nameChars true field.toList, rfl, by decide, fun c hc => isNameChar_of_mem hc⟩
  | cons c cs =>
    refine ⟨_, _, rfl, ?_, ?_⟩
    · split
      · rename_i hkept
        simpa [isKept] using hkept
      · decide
    · intro d hd
      rcases List.mem_append.1 hd with hd | hd
      · exact isNameChar_of_mem hd
      · rcases List.mem_cons.1 hd with rfl | hd
        · decide
        · exact isNameChar_of_mem hd

/-! ### Quotes -/

theorem quoteChars_cons (c : Char) (cs : List Char) :
    quoteChars (c :: cs) = (if c = '\\' then ['\\', '\\'] else if c = '"' then ['\\', '"']
      else if c = '\n' then ['\\', 'n'] else [c]) ++ quoteChars cs := List.flatMap_cons

/-- A value in quotes is read as it was, whatever its characters are. -/
theorem readQuoted_quoteChars (value rest : List Char) :
    readQuoted (quoteChars value ++ '"' :: rest) = some (value, rest) := by
  induction value with
  | nil => rfl
  | cons c cs ih =>
    rw [quoteChars_cons, List.append_assoc]
    split
    · rename_i hc
      simp [readQuoted, unescape, ih, hc]
    · rename_i hslash
      split
      · rename_i hc
        simp [readQuoted, unescape, ih, hc]
      · rename_i hquote
        split
        · rename_i hc
          simp [readQuoted, unescape, ih, hc]
        · rename_i hfeed
          rw [List.singleton_append, readQuoted, ih]
          · rfl
          all_goals simp [hslash, hquote, hfeed]

theorem not_mem_quoteChars (cs : List Char) : '\n' ∉ quoteChars cs := by
  induction cs with
  | nil => exact List.not_mem_nil
  | cons c cs ih =>
    rw [quoteChars_cons, List.mem_append]
    rintro (h | h)
    · split at h
      · simp at h
      · split at h
        · simp at h
        · split at h
          · simp at h
          · rename_i hfeed
            exact hfeed (List.mem_singleton.1 h).symm
    · exact ih h

/-! ### Labels -/

/-- A label as it is written. -/
def labelText (pair : String × String) : String :=
  name pair.1 ++ "=\"" ++ String.ofList (quoteChars pair.2.toList) ++ "\""

/-- A label as it is read: the key has become a name, the value is as it was. -/
def labelOf (pair : String × String) : String × String := (name pair.1, pair.2)

theorem labels_eq (row : Row) :
    labels row = if row.tagPairs = [] then "" else "\x7b" ++ ",".intercalate (row.tagPairs.map labelText) ++ "\x7d" := by
  have hempty : ((row.tagPairs.map labelText).isEmpty = true) = (row.tagPairs = []) := by simp
  simp only [labels, ← hempty]
  rfl

theorem labelText_toList (pair : String × String) :
    (labelText pair).toList = nameChars true pair.1.toList ++ '=' :: '"' :: (quoteChars pair.2.toList ++ ['"']) := by
  simp [labelText, name]

theorem readLabel_labelText (pair : String × String) (rest : List Char) :
    readLabel ((labelText pair).toList ++ rest) = some (labelOf pair, rest) := by
  have hequals : '=' ∉ nameChars true pair.1.toList := by
    intro hmem
    have hname := isNameChar_of_mem hmem
    revert hname
    decide
  have htext : (labelText pair).toList ++ rest =
      nameChars true pair.1.toList ++ '=' :: '"' :: (quoteChars pair.2.toList ++ '"' :: rest) := by
    simp [labelText_toList]
  rw [readLabel, htext, Text.splitOnceChars_append hequals]
  simp [readQuoted_quoteChars, labelOf, name]

theorem readLabels_last {label : String × String} (h : readLabel cs = some (label, '}' :: rest)) :
    readLabels cs = some ([label], rest) := by
  rw [readLabels]
  split <;> simp_all

theorem readLabels_more {label : String × String} (h : readLabel cs = some (label, ',' :: rest)) :
    readLabels cs = (readLabels rest).map fun (labels, behind) => (label :: labels, behind) := by
  rw [readLabels]
  split <;> simp_all

theorem readLabels_intercalate (pair : String × String) (pairs : List (String × String)) (rest : List Char) :
    readLabels ((",".intercalate ((pair :: pairs).map labelText)).toList ++ '}' :: rest) =
      some ((pair :: pairs).map labelOf, rest) := by
  induction pairs generalizing pair with
  | nil =>
    refine readLabels_last ?_
    rw [← readLabel_labelText pair ('}' :: rest)]
    simp
  | cons second pairs ih =>
    have htext : (",".intercalate ((pair :: second :: pairs).map labelText)).toList ++ '}' :: rest =
        (labelText pair).toList ++
          ',' :: ((",".intercalate ((second :: pairs).map labelText)).toList ++ '}' :: rest) := by
      simp [String.intercalate_cons_cons]
    rw [htext, readLabels_more (readLabel_labelText pair _), ih]
    rfl

theorem readLabelSet_of_head {cs : List Char} (h : '{' ∉ cs.head?) : readLabelSet cs = some ([], cs) := by
  unfold readLabelSet
  split
  · exact absurd rfl h
  · rfl

/-- The labels of a row are read as its tags. -/
theorem readLabelSet_labels (row : Row) (rest : List Char) (h : '{' ∉ rest.head?) :
    readLabelSet ((labels row).toList ++ rest) = some (row.tagPairs.map labelOf, rest) := by
  rw [labels_eq]
  cases row.tagPairs with
  | nil => exact readLabelSet_of_head h
  | cons pair pairs =>
    have htext : ("\x7b" ++ ",".intercalate ((pair :: pairs).map labelText) ++ "\x7d").toList ++ rest =
        '{' :: ((",".intercalate ((pair :: pairs).map labelText)).toList ++ '}' :: rest) := by simp
    rw [if_neg (List.cons_ne_nil pair pairs), htext, readLabelSet]
    exact readLabels_intercalate pair pairs rest

theorem labels_start (row : Row) : (labels row).toList = [] ∨ ∃ more, (labels row).toList = '{' :: more := by
  rw [labels_eq]
  split
  · exact .inl rfl
  · exact .inr ⟨_, by rw [String.toList_append, String.toList_append]; rfl⟩

theorem readLabelSet_labels_nil (row : Row) : readLabelSet (labels row).toList = some (row.tagPairs.map labelOf, []) := by
  rw [← readLabelSet_labels row [] (by simp), List.append_nil]

/-! ### Lines -/

/-- Whether a character ends a line. -/
def isFeed (c : Char) : Bool := c == '\n'

theorem lacks_name (s : String) : Lacks isFeed (name s) := by
  intro c hc
  have hname : isNameChar c = true := isNameChar_of_mem (by simpa [name] using hc)
  cases hfeed : isFeed c with
  | false => rfl
  | true =>
    obtain rfl := eq_of_beq hfeed
    exact absurd hname (by decide)

theorem lacks_labels (row : Row) : Lacks isFeed (labels row) := by
  have hpair (pair : String × String) : Lacks isFeed (labelText pair) := by
    have hvalue : Lacks isFeed (String.ofList (quoteChars pair.2.toList)) := by
      intro c hc
      rw [String.toList_ofList] at hc
      exact beq_eq_false_iff_ne.2 fun heq => not_mem_quoteChars _ (heq ▸ hc)
    simp only [labelText, Text.lacks_append]
    exact ⟨⟨⟨lacks_name _, by decide⟩, hvalue⟩, by decide⟩
  rw [labels_eq]
  split
  · decide
  · refine Text.lacks_append.2 ⟨Text.lacks_append.2 ⟨by decide, ?_⟩, by decide⟩
    refine Text.lacks_intercalate (by decide) fun text htext => ?_
    obtain ⟨pair, -, rfl⟩ := List.mem_map.1 htext
    exact hpair pair

theorem lacks_lineText {value : String} (h : Lacks isFeed value) (measurement field : String) (row : Row)
    (millis : Int) : Lacks isFeed (lineText measurement field row value millis) := by
  have htime : Lacks isFeed (Text.int millis) := by
    refine (Text.lacks_int millis).mono fun c hc => ?_
    obtain rfl := eq_of_beq hc
    decide
  simp only [lineText, Text.lacks_append]
  exact ⟨⟨⟨⟨⟨⟨⟨lacks_name _, by decide⟩, lacks_name _⟩, lacks_labels row⟩, by decide⟩, h⟩, by decide⟩, htime⟩

theorem isNameChar_of_mem_metric {measurement field : String}
    (h : c ∈ (name measurement ++ "_" ++ name field).toList) : isNameChar c = true := by
  simp only [String.toList_append, List.mem_append] at h
  rcases h with (h | h) | h
  · exact isNameChar_of_mem (by simpa [name] using h)
  · obtain rfl : c = '_' := by simpa using h
    decide
  · exact isNameChar_of_mem (by simpa [name] using h)

/-- A line is read as the sample it was written for. -/
theorem read_lineText {value : String} {millis : Int} (hblank : ' ' ∉ value.toList)
    (hlow : -(Text.maxInt64 : Int) - 1 ≤ millis) (hhigh : millis ≤ Text.maxInt64) (measurement field : String)
    (row : Row) :
    Sample.read (lineText measurement field row value millis) =
      some ⟨name measurement ++ "_" ++ name field, row.tagPairs.map labelOf, value, millis⟩ := by
  have htext : (lineText measurement field row value millis).toList =
      (name measurement ++ "_" ++ name field).toList ++
        ((labels row).toList ++ ' ' :: (value.toList ++ ' ' :: (Text.int millis).toList)) := by simp [lineText]
  have hmetric : ∀ c ∈ (name measurement ++ "_" ++ name field).toList, isNameChar c = true :=
    fun c hc => isNameChar_of_mem_metric hc
  -- neither a brace nor a blank goes on with the name
  obtain ⟨c, behind, hbehind, hc⟩ : ∃ c behind,
      (labels row).toList ++ ' ' :: (value.toList ++ ' ' :: (Text.int millis).toList) = c :: behind ∧
        isNameChar c = false := by
    rcases labels_start row with hnone | ⟨more, hmore⟩
    · rw [hnone]
      exact ⟨' ', _, rfl, by decide⟩
    · rw [hmore]
      exact ⟨'{', _, rfl, by decide⟩
  have htime : ' ' ∉ (Text.int millis).toList := (Text.lacks_int millis).not_mem (by decide)
  have hcut : Text.splitChars ' ' (' ' :: (value.toList ++ ' ' :: (Text.int millis).toList)) =
      [[], value.toList, (Text.int millis).toList] := by
    rw [Text.splitChars, if_pos rfl, Text.splitChars_append hblank, Text.splitChars_of_not_mem htime]
  have hlabels := readLabelSet_labels row (' ' :: (value.toList ++ ' ' :: (Text.int millis).toList)) (by simp)
  rw [Sample.read, htext, List.takeWhile_append_of_pos hmetric, List.dropWhile_append_of_pos hmetric, hbehind,
    List.dropWhile_cons_of_neg (by simp [hc]), List.takeWhile_cons_of_neg (by simp [hc]), ← hbehind, hlabels]
  simp only [Option.bind_eq_bind, Option.bind_some, hcut, Text.readInt_int hlow hhigh,
    String.ofList_toList, List.append_nil]

/-- The lines of a row, one for each field. -/
def rowLines (measurement : String) (keys values : List String) (row : Row) (millis : Int) : List String :=
  (keys.zip values).map fun (key, value) => line measurement key row value millis

section
variable {keys values : List String} {measurement : String} {millis : Int}

theorem length_rowLines (h : values.length = keys.length) :
    (rowLines measurement keys values row millis).length = keys.length := by
  rw [rowLines, List.length_map, List.length_zip, h, Nat.min_self]

theorem rowLines_getElem? {i : Nat} {key value : String} (hkey : keys[i]? = some key) (hvalue : values[i]? = some value) :
    (rowLines measurement keys values row millis)[i]? = some (line measurement key row value millis) := by
  have hpair : (keys.zip values)[i]? = some (key, value) := List.getElem?_zip_eq_some.2 ⟨hkey, hvalue⟩
  rw [rowLines, List.getElem?_map, hpair]
  rfl

end

theorem rowSamples_eq_ok {measurement : String} {keys lines : List String} {row : Row} :
    rowSamples measurement keys row = .ok lines ↔ ∃ time values, row.timestampAndValues = .ok (time, values) ∧
      values.length = keys.length ∧
      lines = rowLines measurement keys values row (time.tdiv 1000000) := by
  have hthen (time : Int) (values : List String) (hparts : row.timestampAndValues = .ok (time, values)) :
      rowSamples measurement keys row =
        if row.valueCount ≠ keys.length then .error (.valueCount measurement row.valueCount keys.length)
        else .ok (rowLines measurement keys values row (time.tdiv 1000000)) := by
    rw [rowSamples, hparts]
    split <;> rfl
  have hcount (time : Int) (values : List String) (hparts : row.timestampAndValues = .ok (time, values)) :
      row.valueCount = values.length := by
    obtain ⟨text, hsplit, -⟩ := Row.timestampAndValues_eq_ok.1 hparts
    exact Row.valueCount_of_split hsplit
  constructor
  · intro h
    cases hparts : row.timestampAndValues with
    | error fault =>
      rw [rowSamples, hparts] at h
      cases h
    | ok parts =>
      obtain ⟨time, values⟩ := parts
      rw [hthen time values hparts] at h
      split at h
      · cases h
      · rename_i hsame
        refine ⟨time, values, rfl, ?_, (Except.ok.inj h).symm⟩
        rw [← hcount time values hparts]
        exact Decidable.not_not.1 hsame
  · rintro ⟨time, values, hparts, hlength, rfl⟩
    rw [hthen time values hparts, if_neg]
    exact Decidable.not_not.2 ((hcount time values hparts).trans hlength)

theorem millis_bounds {time : Int} (hlow : -(Text.maxInt64 : Int) - 1 ≤ time) (hhigh : time ≤ Text.maxInt64) :
    -(Text.maxInt64 : Int) - 1 ≤ time.tdiv 1000000 ∧ time.tdiv 1000000 ≤ Text.maxInt64 := by
  rcases Int.le_total 0 time with hpos | hneg
  · rw [Int.tdiv_eq_ediv_of_nonneg hpos]
    omega
  · have hflip : time.tdiv 1000000 = -(-time).tdiv 1000000 := by rw [← Int.neg_tdiv, Int.neg_neg]
    rw [hflip, Int.tdiv_eq_ediv_of_nonneg (by omega)]
    omega

/-- Every line that is written for a row is one line, and is read, by the rules of the text form, as the sample it was
    written for, if its value has no blank and no line feed: a valid metric name, the tags of the row in their order with
    their keys as names and their values as they are, the value, and the time in milliseconds. So the values of tags can
    be told from the labels. -/
theorem lines_decode (row : Row) :
    (∀ measurement field, IsMetricName (name measurement ++ "_" ++ name field)) ∧
      readLabelSet (labels row).toList = some (row.tagPairs.map fun (key, value) => (name key, value), []) ∧
      (∀ (measurement : String) (keys lines : List String), rowSamples measurement keys row = .ok lines →
        ∃ time values, row.timestampAndValues = .ok (time, values) ∧ values.length = keys.length ∧
          lines.length = keys.length ∧
          ∀ (i : Nat) (key value : String), keys[i]? = some key → values[i]? = some value → ' ' ∉ value.toList → '\n' ∉ value.toList →
            ∃ text, lines[i]? = some (text ++ "\n") ∧ '\n' ∉ text.toList ∧
              Sample.read text = some {
                metric := name measurement ++ "_" ++ name key
                labels := row.tagPairs.map fun (key, value) => (name key, value)
                value := value
                time := time.tdiv 1000000 }) ∧
      ∀ other : Row, other.tagPairs.map (·.2) ≠ row.tagPairs.map (·.2) → labels other ≠ labels row := by
  refine ⟨isMetricName_join, readLabelSet_labels_nil row, ?_, ?_⟩
  · intro measurement keys lines h
    obtain ⟨time, values, hparts, hlength, rfl⟩ := rowSamples_eq_ok.1 h
    refine ⟨time, values, hparts, hlength, length_rowLines hlength, ?_⟩
    intro i key value hkey hvalue hblank hfeed
    obtain ⟨text, -, htime⟩ := Row.timestampAndValues_eq_ok.1 hparts
    obtain ⟨hlow, hhigh⟩ := Text.readInt_bounds htime
    obtain ⟨hlow, hhigh⟩ := millis_bounds hlow hhigh
    have hlacks : Lacks isFeed value := fun c hc => beq_eq_false_iff_ne.2 fun heq => hfeed (heq ▸ hc)
    refine ⟨lineText measurement key row value (time.tdiv 1000000), ?_, ?_, read_lineText hblank hlow hhigh _ _ _⟩
    · exact rowLines_getElem? hkey hvalue
    · exact (lacks_lineText hlacks _ _ _ _).not_mem rfl
  · intro other hne heq
    apply hne
    have hsame : other.tagPairs.map labelOf = row.tagPairs.map labelOf := by
      have h := readLabelSet_labels_nil other
      rw [heq, readLabelSet_labels_nil row] at h
      exact (Prod.mk.inj (Option.some.inj h)).1.symm
    have hvalues := congrArg (List.map (·.2)) hsame
    simpa [labelOf, Function.comp_def] using hvalues

/-- A row whose tags hold all that is special in labels, and a tag without a value. -/
def quotedRow : Row := ⟨"host=a\"b\\,up,1dc=\x7bx=\ny\x7d,é:=", "1451606400999999999,58.5,-2"⟩

/-- The second line of the row is read as the sample of its second value, and a row with another host has other
    labels. -/
theorem lines_decode_quoted :
    (∃ text, ["cpu_usage_user\x7bhost=\"a\\\"b\\\\\",_dc=\"\x7bx=\\ny\x7d\",_:=\"\"\x7d 58.5 1451606400999\n",
          "cpu__nd\x7bhost=\"a\\\"b\\\\\",_dc=\"\x7bx=\\ny\x7d\",_:=\"\"\x7d -2 1451606400999\n"][1]? =
            some (text ++ "\n") ∧ '\n' ∉ text.toList ∧
        Sample.read text = some ⟨"cpu__nd", [("host", "a\"b\\"), ("_dc", "\x7bx=\ny\x7d"), ("_:", "")], "-2", 1451606400999⟩) ∧
      labels ⟨"host=a\"b,up,1dc=\x7bx=\ny\x7d,é:=", ""⟩ ≠ labels quotedRow := by
  obtain ⟨-, -, hlines, hother⟩ := lines_decode quotedRow
  refine ⟨?_, hother _ (by decide)⟩
  obtain ⟨time, values, hparts, -, -, hread⟩ := hlines "cpu" ["usage_user", "2nd"] _ rfl
  obtain ⟨rfl, rfl⟩ : time = 1451606400999999999 ∧ values = ["58.5", "-2"] := by
    have hrow : quotedRow.timestampAndValues = .ok (1451606400999999999, ["58.5", "-2"]) := rfl
    rw [hrow] at hparts
    obtain ⟨rfl, rfl⟩ := Prod.mk.inj (Except.ok.inj hparts)
    exact ⟨rfl, rfl⟩
  exact hread 1 "2nd" "-2" rfl rfl (by decide) (by decide)

end Exposition
end IngestBench
