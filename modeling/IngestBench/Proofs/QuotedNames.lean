import IngestBench.Target.Database

/-! Names of databases in statements. A store reads a name in double quotes up to the first quote that no backslash
    escapes, with the escapes undone. Statements hold the name as it is, so that they are read as statements about
    the database of this name iff the name is its own escaped form: it has no quotes, and its backslashes are read as
    they are. -/

namespace IngestBench
namespace Database

/-! ### Reading statements -/

section
variable (others : Char → Option (List Char))

/-- What a backslash with a character is read as. Both a quote and a backslash can be escaped; what else there is to
    escape is up to the store. -/
def escaped? (c : Char) : Option (List Char) := if c = '"' ∨ c = '\\' then some [c] else others c

/-- A name up to its closing quote, and the text after it. -/
def readName : List Char → Option (List Char × List Char)
  | [] => none
  | '"' :: rest => some ([], rest)
  | ['\\'] => none
  | '\\' :: c :: cs => do
    let text ← escaped? others c
    let (name, rest) ← readName cs
    return (text ++ name, rest)
  | c :: cs => do
    let (name, rest) ← readName cs
    return (c :: name, rest)

/-- The name of the database that a statement is about, and the text after it. -/
def readStatement (verb text : String) : Option (String × String) :=
  (Text.after? (verb ++ "\"").toList text.toList).bind fun cs =>
    (readName others cs).map fun x => (String.ofList x.1, String.ofList x.2)

/-- A name that is read as it is written. -/
structure IsPlain (name : List Char) : Prop where
  noQuote : '"' ∉ name
  backslash : ∀ before after, name = before ++ '\\' :: after →
    ∃ c rest, after = c :: rest ∧ escaped? others c = some ['\\', c]

end

variable {others : Char → Option (List Char)} {c : Char} {cs name rest : List Char}

/-! ### Plain names -/

theorem IsPlain.of_append (before : List Char) (h : IsPlain others (before ++ name)) : IsPlain others name where
  noQuote hmem := h.noQuote (List.mem_append_right _ hmem)
  backslash front after heq := h.backslash (before ++ front) after (by rw [heq, List.append_assoc])

theorem isPlain_nil : IsPlain others [] := ⟨nofun, fun before after h => by cases before <;> cases h⟩

theorem isPlain_cons (hquote : c ≠ '"') (hslash : c ≠ '\\') (h : IsPlain others name) :
    IsPlain others (c :: name) where
  noQuote := by simp [Ne.symm hquote, h.noQuote]
  backslash
    | [], _, heq => absurd (List.cons.inj heq).1 hslash
    | _ :: before, after, heq => h.backslash before after (List.cons.inj heq).2

theorem isPlain_escape (hescape : escaped? others c = some ['\\', c]) (h : IsPlain others name) :
    IsPlain others ('\\' :: c :: name) := by
  have hc : ¬(c = '"' ∨ c = '\\') := fun hc => by
    rw [escaped?, if_pos hc] at hescape
    cases hescape
  rw [not_or] at hc
  constructor
  · simp [Ne.symm hc.1, h.noQuote]
  · intro before after heq
    match before with
    | [] => exact ⟨c, name, (List.cons.inj heq).2.symm, hescape⟩
    | [_] => exact absurd (List.cons.inj (List.cons.inj heq).2).1 hc.2
    | _ :: _ :: before => exact h.backslash before after (List.cons.inj (List.cons.inj heq).2).2

/-- Without quotes and backslashes a name is plain to any store. -/
theorem isPlain_of_not_mem (hquote : '"' ∉ name) (hslash : '\\' ∉ name) : IsPlain others name where
  noQuote := hquote
  backslash before _ heq := absurd (heq ▸ List.mem_append_right before List.mem_cons_self) hslash

/-! ### Reading names -/

theorem readName_cons (hquote : c ≠ '"') (hslash : c ≠ '\\') :
    readName others (c :: cs) = (readName others cs).map fun x => (c :: x.1, x.2) := by
  rw [readName]
  · cases readName others cs <;> rfl
  all_goals simp_all

theorem readName_escape :
    readName others ('\\' :: c :: cs) =
      (escaped? others c).bind fun text => (readName others cs).map fun x => (text ++ x.1, x.2) := by
  rw [readName]
  cases escaped? others c <;> cases readName others cs <;> rfl

theorem ne_backslash (hlast : c = '\\' → cs = [] → False) (hmore : ∀ d ds, c = '\\' → cs = d :: ds → False) :
    c ≠ '\\' := fun hc => by
  cases cs with
  | nil => exact hlast hc rfl
  | cons d ds => exact hmore d ds hc rfl

theorem length_of_escaped? (hothers : ∀ c text, others c = some text → text.length ≤ 2) {text : List Char}
    (h : escaped? others c = some text) : text.length ≤ 2 := by
  unfold escaped? at h
  split at h
  · cases h
    exact Nat.le_succ 1
  · exact hothers c text h

/-- Reading gives no more characters than it takes. -/
theorem length_of_readName (hothers : ∀ c text, others c = some text → text.length ≤ 2)
    (h : readName others cs = some (name, rest)) : name.length + rest.length < cs.length := by
  induction cs using readName.induct generalizing name with
  | case1 | case3 => cases h
  | case2 cs =>
    cases h
    simp
  | case4 c cs ih =>
    rw [readName_escape, Option.bind_eq_some_iff] at h
    obtain ⟨text, htext, h⟩ := h
    obtain ⟨x, hx, heq⟩ := Option.map_eq_some_iff.1 h
    obtain ⟨rfl, rfl⟩ := Prod.mk.inj heq
    have hrest := ih hx
    have hle := length_of_escaped? hothers htext
    simp only [List.length_append, List.length_cons]
    omega
  | case5 c cs hquote hslash hescape ih =>
    have hne := ne_backslash hslash hescape
    rw [readName_cons hquote hne] at h
    obtain ⟨x, hx, heq⟩ := Option.map_eq_some_iff.1 h
    obtain ⟨rfl, rfl⟩ := Prod.mk.inj heq
    have hrest := ih hx
    simp only [List.length_cons]
    omega

/-- A name in quotes is read as it is written iff it is plain: an escape would make it shorter. -/
theorem readName_eq_iff (hothers : ∀ c text, others c = some text → text.length ≤ 2) (name rest : List Char) :
    readName others (name ++ '"' :: rest) = some (name, rest) ↔ IsPlain others name := by
  induction name using readName.induct with
  | case1 => exact ⟨fun _ => isPlain_nil, fun _ => rfl⟩
  | case2 cs => exact ⟨fun h => (by cases h), fun h => absurd List.mem_cons_self h.noQuote⟩
  | case3 =>
    constructor
    · intro h
      rw [List.cons_append, List.nil_append, readName_escape] at h
      obtain ⟨x, -, heq⟩ := Option.map_eq_some_iff.1 h
      cases (Prod.mk.inj heq).1
    · intro h
      obtain ⟨c, cs, hnil, -⟩ := h.backslash [] [] rfl
      cases hnil
  | case4 c cs ih =>
    rw [List.cons_append, List.cons_append, readName_escape]
    constructor
    · intro h
      obtain ⟨text, htext, h⟩ := Option.bind_eq_some_iff.1 h
      obtain ⟨⟨name, rest'⟩, hx, heq⟩ := Option.map_eq_some_iff.1 h
      obtain ⟨htake, rfl⟩ := Prod.mk.inj heq
      -- nothing that is read may be shorter than it is written, neither the escape nor the name behind it
      have hshort := length_of_escaped? hothers htext
      have hrest := length_of_readName hothers hx
      have hlength := congrArg List.length htake
      simp only [List.length_append, List.length_cons] at hrest hlength
      have hescape : text.length = ['\\', c].length := by
        show text.length = 2
        omega
      have htake : text ++ name = ['\\', c] ++ cs := htake
      obtain ⟨rfl, rfl⟩ := List.append_inj htake hescape
      exact isPlain_escape htext (ih.1 hx)
    · intro h
      obtain ⟨d, ds, heq, hescape⟩ := h.backslash [] (c :: cs) rfl
      obtain ⟨rfl, rfl⟩ := List.cons.inj heq
      rw [hescape, Option.bind_some, ih.2 (IsPlain.of_append ['\\', c] h)]
      rfl
  | case5 c cs hquote hslash hescape ih =>
    have hne := ne_backslash hslash hescape
    rw [List.cons_append, readName_cons hquote hne]
    constructor
    · intro h
      obtain ⟨⟨name, rest'⟩, hx, heq⟩ := Option.map_eq_some_iff.1 h
      cases heq
      exact isPlain_cons hquote hne (ih.1 hx)
    · intro h
      rw [ih.2 (IsPlain.of_append [c] h)]
      rfl

/-! ### Statements -/

theorem after?_append (lit rest : List Char) : Text.after? lit (lit ++ rest) = some rest := by
  induction lit with
  | nil => rfl
  | cons c lit ih => rw [List.cons_append, Text.after?, if_pos rfl, ih]

/-- A statement is read as the name that was put into its quotes, and the text that was put behind them, iff the name
    is read as it is written. -/
theorem readStatement_eq_iff (hothers : ∀ c text, others c = some text → text.length ≤ 2)
    (verb name clause : String) :
    readStatement others verb (verb ++ quoted name ++ clause) = some (name, clause) ↔
      IsPlain others name.toList := by
  have htext : (verb ++ quoted name ++ clause).toList =
      (verb ++ "\"").toList ++ (name.toList ++ '"' :: clause.toList) := by
    simp only [quoted, String.toList_append, List.append_assoc]
    rfl
  rw [← readName_eq_iff hothers name.toList clause.toList, readStatement, htext, after?_append, Option.bind_some]
  constructor
  · intro h
    obtain ⟨x, hx, heq⟩ := Option.map_eq_some_iff.1 h
    obtain ⟨hname, hrest⟩ := Prod.mk.inj heq
    rw [hx, ← hname, ← hrest, String.toList_ofList, String.toList_ofList]
  · intro h
    rw [h, Option.map_some, String.ofList_toList, String.ofList_toList]

/-- Whatever else a store lets a backslash escape, the statements that drop and create a database are about the
    database of this name, with nothing behind it but the replication, iff the name is plain: it has no quotes, and
    what its backslashes stand for is what is written. -/
theorem statements_name_iff_plain (others : Char → Option (List Char))
    (hothers : ∀ c text, others c = some text → text.length ≤ 2) (name : String) (replication : Nat) :
    (readStatement others "DROP DATABASE " (dropStatement name) = some (name, "") ↔ IsPlain others name.toList) ∧
    (readStatement others "CREATE DATABASE " (createStatement name replication) =
      some (name, " WITH REPLICATION " ++ Nat.repr replication) ↔ IsPlain others name.toList) := by
  have hdrop : dropStatement name = "DROP DATABASE " ++ quoted name ++ "" := String.append_empty.symm
  have hcreate : createStatement name replication =
      "CREATE DATABASE " ++ quoted name ++ (" WITH REPLICATION " ++ Nat.repr replication) := String.append_assoc
  rw [hdrop, hcreate]
  exact ⟨readStatement_eq_iff hothers _ name _, readStatement_eq_iff hothers _ name _⟩

/-- A store that lets a backslash escape the letter n, for a line feed, and an apostrophe besides. -/
def lineFeeds (c : Char) : Option (List Char) :=
  if c = 'n' then some ['\n'] else if c = '\x27' then some [c] else none

theorem length_of_lineFeeds (c : Char) (text : List Char) (h : lineFeeds c = some text) : text.length ≤ 2 := by
  unfold lineFeeds at h
  split at h
  · cases h
    exact Nat.le_succ 1
  · split at h
    · cases h
      exact Nat.le_succ 1
    · cases h

theorem statements_name_plain_bench :
    (∀ c text, lineFeeds c = some text → text.length ≤ 2) ∧
    readStatement lineFeeds "DROP DATABASE " (dropStatement "my bench") = some ("my bench", "") ∧
    readStatement lineFeeds "CREATE DATABASE " (createStatement "my bench" 2) =
      some ("my bench", " WITH REPLICATION 2") ∧
    readStatement lineFeeds "DROP DATABASE " (dropStatement "a\\n") ≠ some ("a\\n", "") := by
  have hplain : IsPlain lineFeeds "my bench".toList := isPlain_of_not_mem (by decide) (by decide)
  obtain ⟨hdrop, hcreate⟩ := statements_name_iff_plain lineFeeds length_of_lineFeeds "my bench" 2
  refine ⟨length_of_lineFeeds, hdrop.2 hplain, hcreate.2 hplain, fun h => ?_⟩
  have hslash := ((statements_name_iff_plain lineFeeds length_of_lineFeeds "a\\n" 1).1.1 h).backslash ['a'] ['n'] rfl
  obtain ⟨c, rest, heq, hescape⟩ := hslash
  cases heq
  cases hescape

/-- The check lets a name with quotes or backslashes pass, and the statements that are made of it are about another
    database: one statement becomes two, or none, or has a rest behind it that is no statement. -/
theorem quoted_name_drops_another :
    (({ RunSettings.standard 4 with database := "a\"; DROP DATABASE \"b" } : RunSettings).check = .ok () ∧
      readStatement lineFeeds "DROP DATABASE " (dropStatement "a\"; DROP DATABASE \"b") =
        some ("a", "; DROP DATABASE \"b\"")) ∧
    (({ RunSettings.standard 4 with database := "a\\" } : RunSettings).check = .ok () ∧
      readStatement lineFeeds "CREATE DATABASE " (createStatement "a\\" 1) = none) ∧
    ({ RunSettings.standard 4 with database := "a\"b" } : RunSettings).check = .ok () ∧
      readStatement lineFeeds "DROP DATABASE " (dropStatement "a\"b") = some ("a", "b\"") := by
  refine ⟨⟨?_, ?_⟩, ⟨?_, ?_⟩, ?_, ?_⟩
  · rfl
  · decide
  · rfl
  · decide
  · rfl
  · decide

end Database
end IngestBench
