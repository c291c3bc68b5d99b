import IngestBench.Proofs.SampleText

/-! The names of labels. The keys of tags become names as those of metrics do, so that a colon stays, and other
    characters become underscores, so that two keys can become one name. -/

namespace IngestBench
namespace Exposition

variable {start : Bool} {c : Char} {cs ds : List Char} {key : String}

/-- The name of a label; it holds no colon. -/
def IsLabelName (s : String) : Prop := IsName (fun _ => false) s

/-! ### Valid names -/

theorem mem_nameChars_of_colon (start : Bool) (h : ':' ∈ cs) : ':' ∈ nameChars start cs := by
  induction cs generalizing start with
  | nil => cases h
  | cons c cs ih =>
    rw [nameChars_cons]
    rcases List.mem_cons.1 h with rfl | h
    · have hkept : isKept start ':' = true := by cases start <;> decide
      rw [if_pos hkept]
      exact List.mem_cons_self
    · exact List.mem_cons_of_mem _ (ih _ h)

theorem mem_nameChars (h : c ∈ nameChars start cs) : c = '_' ∨ c ∈ cs := by
  induction cs generalizing start with
  | nil => cases h
  | cons d cs ih =>
    rw [nameChars_cons] at h
    rcases List.mem_cons.1 h with rfl | h
    · split
      · exact .inr List.mem_cons_self
      · exact .inl rfl
    · exact (ih h).imp_right (List.mem_cons_of_mem _)

theorem isLabelName_name_iff : IsLabelName (name key) ↔ key ≠ "" ∧ ':' ∉ key.toList := by
  have htext : (name key).toList = nameChars true key.toList := by simp [name]
  rw [IsLabelName, IsName, htext]
  constructor
  · rintro ⟨first, more, hname, hfirst, hmore⟩
    constructor
    · rintro rfl
      cases hname
    · intro hcolon
      have hmem := mem_nameChars_of_colon true hcolon
      rw [hname] at hmem
      rcases List.mem_cons.1 hmem with rfl | hmem
      · cases hfirst
      · cases hmore _ hmem
  · rintro ⟨hne, hcolon⟩
    obtain ⟨c, cs, hkey⟩ := List.exists_cons_of_ne_nil fun hnil => hne (String.toList_eq_nil_iff.1 hnil)
    have hnot {d : Char} (hd : d ∈ nameChars true key.toList) : d ≠ ':' := by
      rintro rfl
      rcases mem_nameChars hd with h | h
      · cases h
      · exact hcolon h
    rw [hkey, nameChars_cons] at hnot ⊢
    refine ⟨_, _, rfl, ?_, ?_⟩
    · have hfirst := hnot List.mem_cons_self
      split
      · rename_i hkept
        rw [if_pos hkept] at hfirst
        simpa [isKept, hfirst] using hkept
      · decide
    · intro d hd
      have hname := isNameChar_of_mem hd
      simpa [isNameChar, hnot (List.mem_cons_of_mem _ hd)] using hname

/-! ### Names that are alike -/

/-- Whether a character of a key shows as an underscore in the name. -/
def isScore (start : Bool) (c : Char) : Bool := c == '_' || !isKept start c

/-- Keys of the same length that differ only where both have characters that show as underscores. -/
def Alike (a b : String) : Prop :=
  a.toList.length = b.toList.length ∧ ∀ (i : Nat) (c d : Char), a.toList[i]? = some c → b.toList[i]? = some d →
    c = d ∨ isScore (i == 0) c = true ∧ isScore (i == 0) d = true

theorem length_nameChars (start : Bool) (cs : List Char) : (nameChars start cs).length = cs.length := by
  induction cs generalizing start with
  | nil => rfl
  | cons c cs ih => rw [nameChars_cons, List.length_cons, List.length_cons, ih]

theorem nameChars_getElem? (start : Bool) (cs : List Char) (i : Nat) :
    (nameChars start cs)[i]? = cs[i]?.map fun c => if isKept (start && i == 0) c then c else '_' := by
  induction cs generalizing start i with
  | nil => rfl
  | cons c cs ih =>
    rw [nameChars_cons]
    cases i with
    | zero => simp
    | succ i => simp [ih]

theorem shown_eq_iff {c d : Char} :
    (if isKept start c then c else '_') = (if isKept start d then d else '_') ↔
      c = d ∨ isScore start c = true ∧ isScore start d = true := by
  have hscore : isKept start '_' = true := by cases start <;> decide
  simp only [isScore, Bool.or_eq_true, beq_iff_eq, Bool.not_eq_true']
  by_cases hc : isKept start c = true <;> by_cases hd : isKept start d = true <;> simp [hc, hd]
  all_goals grind

theorem name_eq_iff {a b : String} : name a = name b ↔ Alike a b := by
  rw [name, name, String.ofList_inj]
  constructor
  · intro h
    have hlength := congrArg List.length h
    rw [length_nameChars, length_nameChars] at hlength
    refine ⟨hlength, ?_⟩
    intro i c d hc hd
    have hshown := congrArg (·[i]?) h
    simp only [nameChars_getElem?, hc, hd, Bool.true_and, Option.map_some, Option.some.injEq] at hshown
    exact shown_eq_iff.1 hshown
  · rintro ⟨hlength, hshown⟩
    refine List.ext_getElem? fun i => ?_
    rw [nameChars_getElem?, nameChars_getElem?, Bool.true_and]
    rcases Nat.lt_or_ge i a.toList.length with hi | hi
    · have hi' : i < b.toList.length := hlength ▸ hi
      rw [List.getElem?_eq_getElem hi, List.getElem?_eq_getElem hi']
      exact congrArg some
        (shown_eq_iff.2 (hshown i _ _ (List.getElem?_eq_getElem hi) (List.getElem?_eq_getElem hi')))
    · rw [List.getElem?_eq_none hi, List.getElem?_eq_none (hlength ▸ hi)]

/-! ### Sets of labels -/

/-- The names in a set of labels are valid exactly if no key is empty or has a colon, and they are distinct exactly if
    no two keys are alike. -/
theorem label_names_iff (row : Row) :
    ∃ set, readLabelSet (labels row).toList = some (set, []) ∧
      ((∀ label ∈ set, IsLabelName label.1) ↔ ∀ pair ∈ row.tagPairs, pair.1 ≠ "" ∧ ':' ∉ pair.1.toList) ∧
      ((set.map (·.1)).Nodup ↔ (row.tagPairs.map (·.1)).Pairwise fun a b => ¬Alike a b) := by
  refine ⟨_, readLabelSet_labels_nil row, ?_, ?_⟩
  · simp only [List.forall_mem_map, labelOf, isLabelName_name_iff]
  · simp only [List.map_map, List.Nodup, List.pairwise_map, Function.comp_def, labelOf, ne_eq, name_eq_iff]

/-- A key with a colon keeps it, and two keys that differ in a point and an underscore become one name. -/
theorem label_names_not_valid :
    let colon : Row := ⟨"a:b=1", "1000000,1"⟩
    let merged : Row := ⟨"a.b=1,a_b=2", "1000000,1"⟩
    (∀ pair ∈ colon.tagPairs ++ merged.tagPairs, pair.1 ≠ "") ∧ (colon.tagPairs.map (·.1)).Nodup ∧
      (merged.tagPairs.map (·.1)).Nodup ∧ readLabelSet (labels colon).toList = some ([("a:b", "1")], []) ∧
      ¬IsLabelName "a:b" ∧ readLabelSet (labels merged).toList = some ([("a_b", "1"), ("a_b", "2")], []) ∧
      ¬(["a_b", "a_b"] : List String).Nodup := by
  refine ⟨by decide, by decide, by decide, readLabelSet_labels_nil _, ?_, readLabelSet_labels_nil _, by decide⟩
  rintro ⟨first, more, htext, -, hmore⟩
  obtain ⟨rfl, rfl⟩ := List.cons.inj htext
  cases hmore ':' (by decide)

end Exposition
end IngestBench
