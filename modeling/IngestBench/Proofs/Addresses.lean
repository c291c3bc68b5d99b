import Mathlib.Data.List.TakeDrop
import Mathlib.Data.List.TakeWhile
import IngestBench.Proofs.LineText
import IngestBench.Web.Address

/-! Addresses whose text goes on. An address is read from the start of its text, so what is written behind it stays out
    of its scheme, and out of its authority where a slash comes first. Blanks at the end of a text are cut off; they
    come back when the text goes on. -/

namespace IngestBench

/-! ### Ends of texts -/

namespace Text

variable {p : Char → Bool} {sep : Char}

theorem forall_of_toNat_lt {P : Char → Prop} {n : Nat} (h : ∀ m < n, P (Char.ofNat m)) {c : Char}
    (hc : c.toNat < n) : P c := by
  have hP := h c.toNat hc
  rwa [Char.ofNat_toNat] at hP

theorem exists_dropEnd_append (p : Char → Bool) (cs : List Char) :
    ∃ tail, cs = dropEnd p cs ++ tail ∧ ∀ c ∈ tail, p c = true := by
  refine ⟨(cs.reverse.takeWhile p).reverse, ?_, fun c hc => ?_⟩
  · rw [dropEnd, ← List.reverse_append, List.takeWhile_append_dropWhile, List.reverse_reverse]
  · exact List.mem_takeWhile_imp (List.mem_reverse.1 hc)

theorem getLast?_dropEnd (p : Char → Bool) (cs : List Char) : ∀ c ∈ (dropEnd p cs).getLast?, p c = false := by
  intro c hc
  rw [dropEnd, List.getLast?_reverse] at hc
  have hnot := List.head?_dropWhile_not p cs.reverse
  rw [hc] at hnot
  exact hnot

theorem dropEnd_append_of_forall {tail : List Char} (h : ∀ c ∈ tail, p c = true) (cs : List Char) :
    dropEnd p (cs ++ tail) = dropEnd p cs := by
  rw [dropEnd, List.reverse_append, List.dropWhile_append_of_pos fun c hc => h c (List.mem_reverse.1 hc), dropEnd]

theorem dropEnd_append_of_last {front tail : List Char} (htail : ∀ c ∈ tail, p c = true)
    (hfront : ∀ c ∈ front.getLast?, p c = false) : dropEnd p (front ++ tail) = front := by
  rw [dropEnd_append_of_forall htail, dropEnd_eq_self hfront]

theorem dropStart_append {cs : List Char} (h : dropStart p cs ≠ []) (rest : List Char) :
    dropStart p (cs ++ rest) = dropStart p cs ++ rest := by
  rw [dropStart, List.dropWhile_append, if_neg (by rwa [List.isEmpty_iff])]
  rfl

theorem splitChars_append_sep (sep : Char) (cs rest : List Char) :
    splitChars sep (cs ++ sep :: rest) = splitChars sep cs ++ splitChars sep rest := by
  induction cs with
  | nil => simp [splitChars]
  | cons c cs ih =>
    obtain ⟨piece, pieces, hcs⟩ := List.exists_cons_of_ne_nil (splitChars_ne_nil sep cs)
    rw [List.cons_append, splitChars, splitChars, ih, hcs]
    split <;> rfl

/-- A text that goes on without a separator changes in its last piece. -/
theorem exists_splitChars_append (sep : Char) (cs : List Char) :
    ∃ pieces last, splitChars sep cs = pieces ++ [last] ∧
      ∀ tail, sep ∉ tail → splitChars sep (cs ++ tail) = pieces ++ [last ++ tail] := by
  induction cs with
  | nil => exact ⟨[], [], rfl, fun tail htail => splitChars_of_not_mem htail⟩
  | cons c cs ih =>
    obtain ⟨pieces, last, hcs, htail⟩ := ih
    by_cases hc : c = sep
    · refine ⟨[] :: pieces, last, ?_, fun tail h => ?_⟩
      · rw [splitChars, if_pos hc, hcs, List.cons_append]
      · rw [List.cons_append, splitChars, if_pos hc, htail tail h, List.cons_append]
    · cases pieces with
      | nil =>
        refine ⟨[], c :: last, ?_, fun tail h => ?_⟩
        · rw [splitChars, if_neg hc, hcs]
          rfl
        · rw [List.cons_append, splitChars, if_neg hc, htail tail h]
          rfl
      | cons piece pieces =>
        refine ⟨(c :: piece) :: pieces, last, ?_, fun tail h => ?_⟩
        · rw [splitChars, if_neg hc, hcs]
          rfl
        · rw [List.cons_append, splitChars, if_neg hc, htail tail h]
          rfl

theorem exists_mem_splitChars {cs : List Char} {c : Char} (h : c ∈ cs) (hc : c ≠ sep) :
    ∃ piece ∈ splitChars sep cs, c ∈ piece := by
  induction cs with
  | nil => cases h
  | cons d cs ih =>
    obtain ⟨first, rest, hcs⟩ := List.exists_cons_of_ne_nil (splitChars_ne_nil sep cs)
    rw [splitChars]
    rw [hcs] at ih ⊢
    split
    · rename_i hd
      obtain ⟨piece, hpiece, hmem⟩ := ih ((List.mem_cons.1 h).resolve_left fun heq => hc (heq.trans hd))
      exact ⟨piece, List.mem_cons_of_mem _ hpiece, hmem⟩
    · rcases List.mem_cons.1 h with rfl | h
      · exact ⟨_, List.mem_cons_self, List.mem_cons_self⟩
      · obtain ⟨piece, hpiece, hmem⟩ := ih h
        rcases List.mem_cons.1 hpiece with rfl | hpiece
        · exact ⟨_, List.mem_cons_self, List.mem_cons_of_mem _ hmem⟩
        · exact ⟨piece, List.mem_cons_of_mem _ hpiece, hmem⟩

theorem splitOnceChars_of_not_mem {cs : List Char} (h : sep ∉ cs) : splitOnceChars sep cs = none := by
  cases hcut : splitOnceChars sep cs with
  | none => rfl
  | some cut =>
    rw [(splitOnceChars_eq_some hcut).1] at h
    exact absurd (List.mem_append_right _ List.mem_cons_self) h

/-- The text before a cut; the whole text where nothing is cut. -/
theorem splitOnceChars_front (sep : Char) (cs : List Char) :
    ((splitOnceChars sep cs).map Prod.fst).getD cs = cs.takeWhile (· != sep) := by
  induction cs with
  | nil => rfl
  | cons c cs ih =>
    rw [splitOnceChars, List.takeWhile_cons]
    by_cases hc : c = sep
    · simp [hc]
    · rw [if_neg hc, if_pos (by simpa using hc), ← ih]
      cases splitOnceChars sep cs <;> rfl

end Text

namespace Web

/-! ### What is cut off -/

/-- Blanks and control characters, which are cut off at both ends of a text. -/
def isOuter (c : Char) : Bool := c.toNat ≤ 0x20

/-- Tabs and line ends, which are left out wherever they stand. -/
def isIgnored (c : Char) : Bool := c = '\t' || c = '\n' || c = '\r'

theorem isOuter_of_isIgnored {c : Char} (h : isIgnored c = true) : isOuter c = true := by
  simp only [isIgnored, Bool.or_eq_true, decide_eq_true_eq] at h
  rcases h with (rfl | rfl) | rfl <;> decide

theorem isIgnored_of_isOuter {c : Char} (h : isOuter c = false) : isIgnored c = false := by
  cases hc : isIgnored c with
  | false => rfl
  | true => exact absurd (isOuter_of_isIgnored hc) (Bool.eq_false_iff.1 h)

theorem tidy_eq (cs : List Char) :
    tidy cs = (Text.dropEnd isOuter (Text.dropStart isOuter cs)).filter (!isIgnored ·) := by
  refine List.filter_congr fun c _ => ?_
  simp only [isIgnored, Bool.not_or, Bool.decide_and, decide_not]
  rw [Bool.and_assoc]

theorem mem_of_mem_tidy {cs : List Char} {c : Char} (h : c ∈ tidy cs) : c ∈ cs := by
  have hinner := (List.mem_filter.1 h).1
  exact (List.dropWhile_suffix _).mem ((Text.dropEnd_isPrefix _ _).mem hinner)

theorem mem_tidy {cs : List Char} {c : Char} (h : c ∈ cs) (hc : isOuter c = false) : c ∈ tidy cs := by
  have hkept : (!isIgnored c) = true := by rw [isIgnored_of_isOuter hc, Bool.not_false]
  have hstart : c ∈ Text.dropStart isOuter cs := by
    rw [← List.takeWhile_append_dropWhile (p := isOuter) (l := cs)] at h
    rcases List.mem_append.1 h with h | h
    · exact absurd (List.mem_takeWhile_imp h) (Bool.eq_false_iff.1 hc)
    · exact h
  obtain ⟨tail, htext, htail⟩ := Text.exists_dropEnd_append isOuter (Text.dropStart isOuter cs)
  rw [htext] at hstart
  rw [tidy_eq]
  refine List.mem_filter.2 ⟨(List.mem_append.1 hstart).resolve_right fun h => ?_, hkept⟩
  exact absurd (htail c h) (Bool.eq_false_iff.1 hc)

/-- What lacks ignored characters and does not end in a blank stays behind a text that does not only consist of
    blanks. -/
theorem tidy_append {front rest : List Char} (hfront : Text.dropStart isOuter front ≠ [])
    (hrest : ∀ c ∈ rest, isIgnored c = false) (hlast : ∃ c ∈ rest.getLast?, isOuter c = false) :
    tidy (front ++ rest) = (Text.dropStart isOuter front).filter (!isIgnored ·) ++ rest := by
  obtain ⟨c, hc, houter⟩ := hlast
  have hkeep : Text.dropEnd isOuter (Text.dropStart isOuter front ++ rest) = Text.dropStart isOuter front ++ rest := by
    refine Text.dropEnd_eq_self fun d hd => ?_
    rw [List.getLast?_append, hc] at hd
    cases hd
    exact houter
  have hwhole : rest.filter (!isIgnored ·) = rest := by
    refine List.filter_eq_self.2 fun d hd => ?_
    rw [hrest d hd]
    rfl
  rw [tidy_eq, Text.dropStart_append hfront, hkeep, List.filter_append, hwhole]

/-- A text, tidied alone and with more behind it in place of the slashes at its end. -/
structure Outline (cs front blanks : List Char) (slashes : Nat) : Prop where
  alone : tidy cs = front ++ List.replicate slashes '/'
  continued : ∀ rest, (∀ c ∈ rest, isIgnored c = false) → (∃ c ∈ rest.getLast?, isOuter c = false) →
    tidy (Text.dropEnd (· == '/') cs ++ rest) = front ++ blanks ++ rest
  outer : ∀ c ∈ blanks, isOuter c = true ∧ isIgnored c = false
  /-- Blanks before slashes are not at the end of the text. -/
  atEnd : blanks = [] ∨ slashes = 0
  /-- The blanks that come back are those that were cut off, but for tabs and line ends. -/
  cutOff : blanks = [] ↔ Text.dropEnd isOuter cs = Text.dropEnd isIgnored cs

theorem exists_outline {cs : List Char} (hcs : Text.dropStart isOuter (Text.dropEnd (· == '/') cs) ≠ []) :
    ∃ front blanks slashes, Outline cs front blanks slashes := by
  obtain ⟨tail, htext, htail⟩ := Text.exists_dropEnd_append (· == '/') cs
  obtain ⟨slashes, rfl⟩ : ∃ n, tail = List.replicate n '/' :=
    ⟨_, List.eq_replicate_iff.2 ⟨rfl, fun c hc => beq_iff_eq.1 (htail c hc)⟩⟩
  obtain ⟨stem, hstem⟩ : ∃ stem, Text.dropEnd (· == '/') cs = stem := ⟨_, rfl⟩
  rw [hstem] at hcs htext
  cases slashes with
  | succ n =>
    have hlast : ∃ c ∈ (List.replicate (n + 1) '/').getLast?, isOuter c = false :=
      ⟨'/', by simp [List.getLast?_replicate], by decide⟩
    have hplain : ∀ c ∈ List.replicate (n + 1) '/', isIgnored c = false := by
      intro c hc
      rw [List.eq_of_mem_replicate hc]
      rfl
    have hend : ∀ c ∈ cs.getLast?, c = '/' := by
      simp [htext, List.getLast?_replicate, List.getLast?_append]
    have hkept : ∀ p : Char → Bool, p '/' = false → Text.dropEnd p cs = cs := by
      intro p hp
      refine Text.dropEnd_eq_self fun c hc => ?_
      rw [hend c hc, hp]
    exact ⟨_, [], n + 1,
      { alone := by rw [htext, tidy_append hcs hplain hlast]
        continued := fun rest hrest hrestLast => by
          rw [hstem, tidy_append hcs hrest hrestLast, List.append_nil]
        outer := fun c hc => (List.not_mem_nil hc).elim
        atEnd := .inl rfl
        cutOff := ⟨fun _ => (hkept _ rfl).trans (hkept _ rfl).symm, fun _ => rfl⟩ }⟩
  | zero =>
    rw [List.replicate_zero, List.append_nil] at htext
    subst htext
    -- The blanks at the start are cut off in any case; what stands behind them is what is read and its last blanks.
    obtain ⟨blank, hblank⟩ : ∃ blank, cs = blank ++ Text.dropStart isOuter cs :=
      ⟨_, (List.takeWhile_append_dropWhile).symm⟩
    obtain ⟨last, hinner, hlast⟩ := Text.exists_dropEnd_append isOuter (Text.dropStart isOuter cs)
    generalize hread : Text.dropEnd isOuter (Text.dropStart isOuter cs) = read at hinner
    have hne : read ≠ [] := by
      rintro rfl
      obtain ⟨c, rest, hstart⟩ := List.exists_cons_of_ne_nil hcs
      have hfirst := List.head?_dropWhile_not isOuter cs
      rw [← Text.dropStart, hstart] at hfirst
      have houter := hlast c (by rw [← List.nil_append last, ← hinner, hstart]; exact List.mem_cons_self)
      rw [hfirst] at houter
      cases houter
    have hend : ∀ c ∈ (blank ++ read).getLast?, isOuter c = false := by
      intro c hc
      have hsome : read.getLast?.isSome = true := by simpa using hne
      rw [List.getLast?_append, Option.or_of_isSome hsome, ← hread] at hc
      exact Text.getLast?_dropEnd _ _ c hc
    have hwhole : cs = blank ++ read ++ last := by
      rw [List.append_assoc, ← hinner, ← hblank]
    have hcut : Text.dropEnd isOuter cs = blank ++ read := by
      rw [hwhole]
      exact Text.dropEnd_append_of_last hlast hend
    refine ⟨read.filter (!isIgnored ·), last.filter (!isIgnored ·), 0,
      { alone := by rw [tidy_eq, hread, List.replicate_zero, List.append_nil]
        continued := fun rest hrest hrestLast => by
          rw [hstem, tidy_append hcs hrest hrestLast, hinner, List.filter_append]
        outer := ?_
        atEnd := .inr rfl
        cutOff := ?_ }⟩
    · intro c hc
      obtain ⟨hmem, hplain⟩ := List.mem_filter.1 hc
      exact ⟨hlast c hmem, by simpa using hplain⟩
    · rw [hcut]
      constructor
      · intro hnone
        have hignored : ∀ c ∈ last, isIgnored c = true := by
          intro c hc
          simpa using List.filter_eq_nil_iff.1 hnone c hc
        rw [hwhole]
        exact (Text.dropEnd_append_of_last hignored fun c hc => isIgnored_of_isOuter (hend c hc)).symm
      · intro hsame
        obtain ⟨tail, htail, hignored⟩ := Text.exists_dropEnd_append isIgnored cs
        rw [← hsame] at htail
        obtain rfl := List.append_cancel_left (hwhole.symm.trans htail)
        refine List.filter_eq_nil_iff.2 fun c hc => ?_
        simp [hignored c hc]

/-! ### Schemes -/

/-- Characters of a scheme behind its first letter. -/
def isSchemeChar (c : Char) : Bool := c.isAlphanum || c == '+' || c == '-' || c == '.'

theorem readScheme_eq_some_iff {cs after : List Char} {scheme : String} :
    readScheme cs = some (scheme, after) ↔ ∃ c name, cs = c :: name ++ ':' :: after ∧ c.isAlpha = true ∧
      (∀ d ∈ name, isSchemeChar d = true) ∧ scheme = String.ofList ((c :: name).map Char.toLower) := by
  constructor
  · intro h
    cases cs with
    | nil => cases h
    | cons c rest =>
      simp only [readScheme, List.span_eq_takeWhile_dropWhile] at h
      split at h
      · rename_i halpha
        split at h
        · rename_i after' htail
          obtain ⟨rfl, rfl⟩ := Prod.mk.inj (Option.some.inj h)
          refine ⟨c, rest.takeWhile isSchemeChar, ?_, halpha, fun d hd => ?_, rfl⟩
          · have hrest := (List.takeWhile_append_dropWhile (p := isSchemeChar) (l := rest)).symm
            rw [List.cons_append, ← htail]
            exact congrArg (c :: ·) hrest
          · exact List.mem_takeWhile_imp hd
        · cases h
      · cases h
  · rintro ⟨c, name, rfl, halpha, hname, rfl⟩
    have htake : (name ++ ':' :: after).takeWhile isSchemeChar = name := by
      rw [List.takeWhile_append_of_pos hname]
      exact List.append_nil name
    have hdrop : (name ++ ':' :: after).dropWhile isSchemeChar = ':' :: after := by
      rw [List.dropWhile_append_of_pos hname]
      rfl
    have hspan : (name ++ ':' :: after).span (fun c => c.isAlphanum || c == '+' || c == '-' || c == '.') =
        (name, ':' :: after) :=
      (List.span_eq_takeWhile_dropWhile _ _).trans (Prod.ext htake hdrop)
    rw [List.cons_append, readScheme, if_pos halpha, hspan]
    rfl

variable {cs rest after tail : List Char} {scheme : String}

theorem readScheme_append (h : readScheme cs = some (scheme, after)) (tail : List Char) :
    readScheme (cs ++ tail) = some (scheme, after ++ tail) := by
  obtain ⟨c, name, rfl, hrest⟩ := readScheme_eq_some_iff.1 h
  exact readScheme_eq_some_iff.2 ⟨c, name, by simp, hrest⟩

theorem exists_readScheme_of_append (htail : ':' ∉ tail) (h : readScheme (cs ++ tail) = some (scheme, after)) :
    ∃ rest, readScheme cs = some (scheme, rest) ∧ after = rest ++ tail := by
  obtain ⟨c, name, heq, hname⟩ := readScheme_eq_some_iff.1 h
  have hsplit : cs ++ tail = (c :: name ++ [':']) ++ after := by simp [heq]
  rcases List.append_eq_append_iff.1 hsplit with ⟨back, hfront, hback⟩ | ⟨rest, hfront, hrest⟩
  · rcases List.eq_nil_or_concat back with rfl | ⟨inner, d, rfl⟩
    · rw [List.append_nil] at hfront
      rw [List.nil_append] at hback
      exact ⟨[], readScheme_eq_some_iff.2 ⟨c, name, hfront.symm, hname⟩, hback.symm⟩
    · have hd : d = ':' := by
        have hlast : (c :: name ++ [':']).getLast? = (cs ++ inner.concat d).getLast? := congrArg List.getLast? hfront
        rw [List.getLast?_concat, List.concat_eq_append, ← List.append_assoc, List.getLast?_concat] at hlast
        exact (Option.some.inj hlast).symm
      exact absurd (by rw [hback, hd]; simp) htail
  · exact ⟨rest, readScheme_eq_some_iff.2 ⟨c, name, by simp [hfront], hname⟩, hrest⟩

/-! ### Addresses of web services -/

theorem splitTail_of_plain (hquery : '?' ∉ cs) (hfragment : '#' ∉ cs) : splitTail cs = (cs, none, none) := by
  rw [splitTail, Text.splitOnceChars_of_not_mem hfragment]
  dsimp only
  rw [Text.splitOnceChars_of_not_mem hquery]

theorem splitTail_front (cs : List Char) : (splitTail cs).1 = cs.takeWhile fun c => c != '?' && c != '#' := by
  have hfront : ((Text.splitOnceChars '?' (cs.takeWhile (· != '#'))).map Prod.fst).getD (cs.takeWhile (· != '#')) =
      cs.takeWhile fun c => c != '?' && c != '#' := by
    rw [Text.splitOnceChars_front, List.takeWhile_takeWhile]
    simp only [Bool.decide_and, Bool.decide_eq_true]
  rw [← hfront, ← Text.splitOnceChars_front '#', splitTail]
  cases Text.splitOnceChars '#' cs with
  | none => cases h : Text.splitOnceChars '?' cs <;> simp [h]
  | some cut => cases h : Text.splitOnceChars '?' cut.1 <;> simp [h]

theorem splitTail_append_front (h : '?' ∈ cs ∨ '#' ∈ cs) (tail : List Char) :
    (splitTail (cs ++ tail)).1 = (splitTail cs).1 := by
  rw [splitTail_front, splitTail_front, List.takeWhile_append, if_neg]
  -- The front ends inside the text: otherwise none of its characters would be a mark.
  intro hlength
  have hall := List.takeWhile_eq_self_iff.1
    ((List.takeWhile_prefix (fun c => c != '?' && c != '#') (l := cs)).eq_of_length hlength)
  rcases h with h | h <;> exact absurd (hall _ h) (by decide)

def isSlash (c : Char) : Bool := c = '/' || c = '\\'

/-- The part of a text behind the scheme that names authority and path, without the slashes before it. -/
def bodyText (rest : List Char) : List Char := (splitTail rest).1.dropWhile isSlash

def authorityText (rest : List Char) : List Char := (bodyText rest).takeWhile (!isSlash ·)

def pathText (rest : List Char) : List Char := (bodyText rest).dropWhile (!isSlash ·)

/-- An address that names a web service. -/
def webAddress (scheme : String) (rest : List Char) (authority : Authority) : Address where
  scheme
  authority := some authority
  route := .segments (readSegments true (pathText rest))
  query := (splitTail rest).2.1.map fun query => String.ofList (Part.specialQuery.encode query)
  fragment := (splitTail rest).2.2.map fun fragment => String.ofList (Part.fragment.encode fragment)

def IsWeb (scheme : String) : Prop := scheme = "http" ∨ scheme = "https"

theorem read_eq {text : String} (hscheme : readScheme (tidy text.toList) = some (scheme, rest)) (hweb : IsWeb scheme) :
    Address.read text = (readAuthority scheme (authorityText rest)).map (webAddress scheme rest) := by
  have hslash : (fun c : Char => (decide (c = '/') || decide (c = '\\'))) = isSlash := rfl
  have hother : (fun c : Char => (decide (c ≠ '/') && decide (c ≠ '\\'))) = (!isSlash ·) := by
    funext c
    simp [isSlash]
  have hspecial : isSpecial scheme = true := by
    rcases hweb with rfl | rfl <;> decide
  have hfile : scheme ≠ "file" := by
    rcases hweb with rfl | rfl <;> decide
  rw [Address.read, hscheme]
  simp only [hspecial, hfile, hslash, hother, List.span_eq_takeWhile_dropWhile, if_true, if_false]
  change (readAuthority scheme (authorityText rest) >>= fun authority => pure (webAddress scheme rest authority)) = _
  cases readAuthority scheme (authorityText rest) <;> rfl

/-! ### Levels of a path -/

/-- Whether a segment stands for a level instead of naming one. -/
def isDot (segment : String) : Bool := isDoubleDot segment || isSingleDot segment

/-- The levels that segments lead to from other levels; both are listed from the last level on. -/
def climb (done : List String) : List String → List String
  | [] => done
  | segment :: rest =>
    if isDoubleDot segment then climb (done.drop 1) rest
    else if isSingleDot segment then climb done rest
    else climb (segment :: done) rest

variable {done segments more : List String}

theorem climb_append (done segments more : List String) :
    climb done (segments ++ more) = climb (climb done segments) more := by
  induction segments generalizing done with
  | nil => rfl
  | cons segment rest ih =>
    simp only [List.cons_append, climb, ih]
    split
    · rfl
    · split <;> rfl

theorem resolveDots_append (hmore : more ≠ []) (done segments : List String) :
    resolveDots done (segments ++ more) = resolveDots (climb done segments) more := by
  induction segments generalizing done with
  | nil => rfl
  | cons segment rest ih =>
    obtain ⟨next, others, hnext⟩ : ∃ next others, rest ++ more = next :: others :=
      List.exists_cons_of_ne_nil fun h => hmore (List.append_eq_nil_iff.1 h).2
    rw [List.cons_append, climb, hnext, resolveDots, ← hnext, ih, ih, ih]
    · split
      · rfl
      · split <;> rfl
    · rintro ⟨⟩

/-- A segment at the end leads to its level, or into the level that it stands for. -/
theorem resolveDots_singleton (done : List String) (segment : String) :
    resolveDots done [segment] = (climb done [segment]).reverse ++ if isDot segment then [""] else [] := by
  by_cases hdouble : isDoubleDot segment = true
  · simp [resolveDots, climb, isDot, hdouble]
  · by_cases hsingle : isSingleDot segment = true <;> simp [resolveDots, climb, isDot, hdouble, hsingle]

theorem climb_of_plain (h : ∀ s ∈ segments, isDot s = false) (done : List String) :
    climb done segments = segments.reverse ++ done := by
  induction segments generalizing done with
  | nil => rfl
  | cons segment rest ih =>
    obtain ⟨hdouble, hsingle⟩ := Bool.or_eq_false_iff.1 (h segment List.mem_cons_self)
    rw [climb, hdouble, hsingle, if_neg Bool.false_ne_true, if_neg Bool.false_ne_true,
      ih fun s hs => h s (List.mem_cons_of_mem _ hs)]
    simp

theorem resolveDots_of_plain (hne : segments ≠ []) (h : ∀ s ∈ segments, isDot s = false) (done : List String) :
    resolveDots done segments = done.reverse ++ segments := by
  obtain ⟨front, last, rfl⟩ := (List.eq_nil_or_concat segments).resolve_left hne
  rw [List.concat_eq_append] at h ⊢
  rw [resolveDots_append (List.cons_ne_nil _ _), climb_of_plain fun s hs => h s (List.mem_append_left _ hs),
    resolveDots_singleton, climb_of_plain fun s hs => h s (List.mem_append_right _ hs),
    h last (List.mem_append_right _ List.mem_cons_self)]
  simp

/-- A point or the start of an escape: each text that stands for a level holds one. -/
def isDotMark (c : Char) : Bool := c == '.' || c == '%'

/-- The characters that texts that stand for levels are written with. -/
def isDotChar (c : Char) : Bool := isDotMark c || c == '2' || c == 'e'

/-- What texts that stand for levels are made of. -/
theorem of_isDot {segment : String} (h : isDot segment = true) :
    (∃ c ∈ segment.toList, isDotMark c.toLower = true) ∧ ∀ c ∈ segment.toList, isDotChar c.toLower = true := by
  have hdots : ∀ text ∈ ["..", ".%2e", "%2e.", "%2e%2e", ".", "%2e"],
      text.toList.any isDotMark = true ∧ text.toList.all isDotChar = true := by
    decide
  have hmem : String.ofList (segment.toList.map Char.toLower) ∈ ["..", ".%2e", "%2e.", "%2e%2e", ".", "%2e"] := by
    rw [isDot, isDoubleDot, isSingleDot, Bool.or_eq_true, List.contains_iff_mem, List.contains_iff_mem] at h
    exact List.mem_append.2 h
  obtain ⟨hmark, hchars⟩ := hdots _ hmem
  rw [String.toList_ofList, List.any_map, List.any_eq_true] at hmark
  rw [String.toList_ofList, List.all_map, List.all_eq_true] at hchars
  exact ⟨hmark, hchars⟩

/-! ### The text of a path -/

/-- Segments of a text between slashes, as they stand in a path. -/
def segmentTexts (cs : List Char) : List String :=
  (Text.splitChars '/' cs).map fun piece => String.ofList (Part.path.encode piece)

/-- A text with slashes for backslashes. -/
def withSlashes (cs : List Char) : List Char := cs.map fun c => if c = '\\' then '/' else c

/-- The texts of the segments of a path that is empty or starts with a slash. -/
def levelTexts (path : List Char) : List String :=
  if path = [] then [] else segmentTexts ((withSlashes path).drop 1)

/-- The levels that a path leads to if it goes on behind another slash. -/
def levels (path : List Char) : List String := (climb [] (levelTexts path)).reverse

/-- The text is empty or starts with a slash. -/
def IsRooted (path : List Char) : Prop := ∀ c ∈ path.head?, isSlash c = true

theorem segmentTexts_append (cs rest : List Char) :
    segmentTexts (cs ++ '/' :: rest) = segmentTexts cs ++ segmentTexts rest := by
  rw [segmentTexts, Text.splitChars_append_sep, List.map_append]
  rfl

theorem segmentTexts_ne_nil (cs : List Char) : segmentTexts cs ≠ [] := by
  simpa [segmentTexts] using Text.splitChars_ne_nil '/' cs

theorem withSlashes_append (cs rest : List Char) : withSlashes (cs ++ rest) = withSlashes cs ++ withSlashes rest :=
  List.map_append

theorem withSlashes_eq_self (h : '\\' ∉ cs) : withSlashes cs = cs := by
  refine (List.map_congr_left fun c hc => ?_).trans (List.map_id cs)
  exact if_neg fun heq => h (by rwa [heq] at hc)

theorem withSlashes_rooted {path : List Char} (h : IsRooted path) (hne : path ≠ []) :
    withSlashes path = '/' :: (withSlashes path).drop 1 := by
  obtain ⟨c, rest, rfl⟩ := List.exists_cons_of_ne_nil hne
  have hc : c = '/' ∨ c = '\\' := by simpa [isSlash] using h c rfl
  rcases hc with rfl | rfl <;> rfl

theorem readSegments_of_slash {body : List Char} (h : withSlashes cs = '/' :: body) :
    readSegments true cs = resolveDots [] (segmentTexts body) := by
  have hmap : cs.map (fun c => if c = '\\' then '/' else c) = '/' :: body := h
  rw [readSegments, if_pos rfl, hmap]
  rfl

theorem readSegments_eq {path : List Char} (h : IsRooted path) (hne : path ≠ []) :
    readSegments true path = resolveDots [] (levelTexts path) := by
  rw [readSegments_of_slash (withSlashes_rooted h hne), levelTexts, if_neg hne]

theorem readSegments_below {path : List Char} (h : IsRooted path) (hrest : '\\' ∉ rest) :
    readSegments true (path ++ '/' :: rest) = resolveDots (climb [] (levelTexts path)) (segmentTexts rest) := by
  have htail : withSlashes ('/' :: rest) = '/' :: rest := withSlashes_eq_self (by simp [hrest])
  by_cases hne : path = []
  · subst hne
    exact readSegments_of_slash htail
  · have htext : withSlashes (path ++ '/' :: rest) = '/' :: ((withSlashes path).drop 1 ++ '/' :: rest) := by
      rw [withSlashes_append, htail, withSlashes_rooted h hne]
      rfl
    rw [readSegments_of_slash htext, segmentTexts_append, resolveDots_append (segmentTexts_ne_nil rest), levelTexts,
      if_neg hne]

/-- A path that goes on behind a slash leads to its levels and to what follows. -/
theorem readSegments_below_of_plain {path : List Char} (h : IsRooted path) (hrest : '\\' ∉ rest)
    (hplain : ∀ s ∈ segmentTexts rest, isDot s = false) :
    readSegments true (path ++ '/' :: rest) = levels path ++ segmentTexts rest := by
  rw [readSegments_below h hrest, resolveDots_of_plain (segmentTexts_ne_nil rest) hplain, levels]

theorem segmentTexts_slashes (n : Nat) : segmentTexts (List.replicate n '/') = List.replicate (n + 1) "" := by
  induction n with
  | zero => rfl
  | succ n ih =>
    rw [List.replicate_succ, ← List.nil_append (_ :: _), segmentTexts_append, ih]
    rfl

/-- A path with slashes at its end leads to its levels, and then nowhere for some times. -/
theorem exists_readSegments_slashes {path : List Char} (h : IsRooted path) (n : Nat) :
    ∃ m, readSegments true (path ++ List.replicate n '/') = levels path ++ List.replicate m "" := by
  cases n with
  | zero =>
    rw [List.replicate_zero, List.append_nil]
    by_cases hne : path = []
    · exact ⟨1, by rw [hne]; rfl⟩
    · obtain ⟨front, last, htexts⟩ := (List.eq_nil_or_concat (levelTexts path)).resolve_left (by
        rw [levelTexts, if_neg hne]
        exact segmentTexts_ne_nil _)
      rw [List.concat_eq_append] at htexts
      rw [readSegments_eq h hne, levels, htexts, resolveDots_append (List.cons_ne_nil _ _), resolveDots_singleton,
        climb_append]
      exact ⟨if isDot last then 1 else 0, by split <;> rfl⟩
  | succ n =>
    have hplain : ∀ s ∈ segmentTexts (List.replicate n '/'), isDot s = false := by
      rw [segmentTexts_slashes]
      intro s hs
      rw [List.eq_of_mem_replicate hs]
      decide
    rw [List.replicate_succ, readSegments_below_of_plain h (by simp [List.mem_replicate]) hplain,
      segmentTexts_slashes]
    exact ⟨n + 1, rfl⟩

/-! ### Written paths -/

/-- The text of a path with these segments. -/
def routeText (segments : List String) : List Char := segments.flatMap fun s => '/' :: s.toList

theorem toList_write_segments (segments : List String) : (Route.segments segments).write.toList = routeText segments := by
  simp [Route.write, routeText, String.toList_join, List.flatMap_map]

theorem routeText_append (segments more : List String) :
    routeText (segments ++ more) = routeText segments ++ routeText more :=
  List.flatMap_append

theorem routeText_slashes (n : Nat) : routeText (List.replicate n "") = List.replicate n '/' := by
  induction n with
  | zero => rfl
  | succ n ih =>
    rw [List.replicate_succ, List.replicate_succ, ← ih]
    rfl

/-- Characters that stand in a path as they are. -/
def StaysInPath (c : Char) : Prop := c.toNat < 0x80 ∧ Part.path.encodes c = false

theorem encode_path_eq_self (h : ∀ c ∈ cs, StaysInPath c) : Part.path.encode cs = cs := by
  induction cs with
  | nil => rfl
  | cons c cs ih =>
    obtain ⟨hascii, hplain⟩ := h c List.mem_cons_self
    have hrest := ih fun d hd => h d (List.mem_cons_of_mem _ hd)
    rw [Part.encode] at hrest ⊢
    rw [List.flatMap_cons, hrest, if_neg (by simp [hplain, hascii])]
    rfl

theorem flatMap_splitChars (sep : Char) (cs : List Char) :
    (Text.splitChars sep cs).flatMap (sep :: ·) = sep :: cs := by
  induction cs with
  | nil => rfl
  | cons c cs ih =>
    obtain ⟨piece, pieces, hcs⟩ := List.exists_cons_of_ne_nil (Text.splitChars_ne_nil sep cs)
    rw [hcs, List.flatMap_cons] at ih
    rw [Text.splitChars, hcs]
    split
    · rename_i hc
      rw [List.flatMap_cons, List.flatMap_cons, ih, hc]
      rfl
    · exact congrArg (sep :: c :: ·) (List.cons.inj ih).2

theorem routeText_segmentTexts (h : ∀ c ∈ cs, StaysInPath c) : routeText (segmentTexts cs) = '/' :: cs := by
  have hchars : ∀ c ∈ '/' :: cs, StaysInPath c := by
    intro c hc
    rcases List.mem_cons.1 hc with rfl | hc
    · exact ⟨by decide, by decide⟩
    · exact h c hc
  have hpieces : ∀ piece ∈ Text.splitChars '/' cs, Part.path.encode piece = piece := by
    intro piece hpiece
    refine encode_path_eq_self fun c hc => hchars c ?_
    rw [← flatMap_splitChars]
    exact List.mem_flatMap.2 ⟨piece, hpiece, List.mem_cons_of_mem _ hc⟩
  rw [routeText, segmentTexts, List.flatMap_map, ← flatMap_splitChars, List.flatMap_def, List.flatMap_def]
  refine congrArg List.flatten (List.map_congr_left fun piece hpiece => ?_)
  rw [hpieces piece hpiece, String.toList_ofList]

/-! ### Blanks that come back -/

theorem length_routeText_resolveDots_le (done : List String) (segment : String) :
    (routeText (resolveDots done [segment])).length ≤ (routeText done.reverse).length + 1 + segment.toList.length := by
  have hdrop : (routeText (done.drop 1).reverse).length ≤ (routeText done.reverse).length := by
    cases done with
    | nil => exact Nat.le_refl _
    | cons last done =>
      rw [List.drop_one, List.tail_cons, List.reverse_cons, routeText_append, List.length_append]
      exact Nat.le_add_right _ _
  simp only [resolveDots]
  split
  · rw [routeText_append, List.length_append]
    have hone : (routeText [""]).length = 1 := rfl
    omega
  · split
    · rw [routeText_append, List.length_append]
      have hone : (routeText [""]).length = 1 := rfl
      omega
    · rw [routeText_append, List.length_append]
      simp [routeText]
      omega

theorem encode_path_append (cs rest : List Char) :
    Part.path.encode (cs ++ rest) = Part.path.encode cs ++ Part.path.encode rest :=
  List.flatMap_append

/-- The escape of a blank holds a digit that no dot is written with. -/
theorem exists_mem_encode_outer {c : Char} (h : isOuter c = true) :
    ∃ d ∈ Part.path.encode [c], isDotChar d.toLower = false := by
  have hall : (Part.path.encode [c]).all (fun d => isDotChar d.toLower) = false :=
    Text.forall_of_toNat_lt (P := fun c => (Part.path.encode [c]).all (fun d => isDotChar d.toLower) = false)
      (by decide +kernel) (Nat.lt_succ_of_le (of_decide_eq_true h))
  simpa using hall

theorem isSlash_of_isOuter {c : Char} (h : isOuter c = true) : isSlash c = false := by
  cases hc : isSlash c with
  | false => rfl
  | true =>
    simp only [isSlash, Bool.or_eq_true, decide_eq_true_eq] at hc
    rcases hc with rfl | rfl <;> cases h

theorem exists_levelTexts_append {path blanks : List Char} (h : IsRooted path) (hne : path ≠ [])
    (hblanks : ∀ c ∈ blanks, isOuter c = true) :
    ∃ front last, levelTexts path = front ++ [String.ofList (Part.path.encode last)] ∧
      levelTexts (path ++ blanks) = front ++ [String.ofList (Part.path.encode (last ++ blanks))] := by
  have hslash : ∀ c ∈ blanks, isSlash c = false := fun c hc => isSlash_of_isOuter (hblanks c hc)
  have htail : withSlashes blanks = blanks := withSlashes_eq_self fun hmem => by cases hslash _ hmem
  have hsep : '/' ∉ blanks := fun hmem => by cases hslash _ hmem
  have hdrop : (withSlashes (path ++ blanks)).drop 1 = (withSlashes path).drop 1 ++ blanks := by
    rw [withSlashes_append, htail, withSlashes_rooted h hne]
    rfl
  obtain ⟨pieces, last, hpieces, hlonger⟩ := Text.exists_splitChars_append '/' ((withSlashes path).drop 1)
  refine ⟨pieces.map fun piece => String.ofList (Part.path.encode piece), last, ?_, ?_⟩
  · rw [levelTexts, if_neg hne, segmentTexts, hpieces, List.map_append]
    rfl
  · rw [levelTexts, if_neg (by simp [hne]), hdrop, segmentTexts, hlonger _ hsep, List.map_append]
    rfl

/-- Blanks at the end of a path make the text of its last level longer. -/
theorem length_routeText_lt {path blanks : List Char} (h : IsRooted path) (hne : path ≠ [])
    (hblanks : ∀ c ∈ blanks, isOuter c = true) (hsome : blanks ≠ []) :
    (routeText (readSegments true path)).length < (routeText (levels (path ++ blanks))).length := by
  obtain ⟨front, last, hshort, hlong⟩ := exists_levelTexts_append h hne hblanks
  obtain ⟨c, more, rfl⟩ := List.exists_cons_of_ne_nil hsome
  obtain ⟨d, hd, hdigit⟩ := exists_mem_encode_outer (hblanks c List.mem_cons_self)
  have htext : Part.path.encode (last ++ c :: more) =
      Part.path.encode last ++ (Part.path.encode [c] ++ Part.path.encode more) := by
    rw [encode_path_append, ← List.singleton_append, encode_path_append]
  have hplain : isDot (String.ofList (Part.path.encode (last ++ c :: more))) = false := by
    refine Bool.eq_false_iff.2 fun hdot => Bool.eq_false_iff.1 hdigit ((of_isDot hdot).2 d ?_)
    rw [String.toList_ofList, htext]
    exact List.mem_append_right _ (List.mem_append_left _ hd)
  have hmore : 0 < (Part.path.encode [c]).length := List.length_pos_of_mem hd
  -- The longer segment names a level, while the shorter one may be a dot and take a level away.
  have hle := length_routeText_resolveDots_le (climb [] front) (String.ofList (Part.path.encode last))
  have hlevels : levels (path ++ c :: more) =
      (climb [] front).reverse ++ [String.ofList (Part.path.encode (last ++ c :: more))] := by
    rw [levels, hlong, climb_append, climb_of_plain (by simpa using hplain)]
    simp
  rw [readSegments_eq h hne, hshort, resolveDots_append (List.cons_ne_nil _ _), hlevels, routeText_append,
    List.length_append]
  simp only [routeText, List.flatMap_singleton, List.length_cons, String.toList_ofList, htext, List.length_append]
    at hle ⊢
  omega

end Web
end IngestBench
