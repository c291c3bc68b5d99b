/-! Cutting text at a separator. Every cut keeps all characters: the pieces joined by the separator
    give the text back, so a record can be counted and rebuilt from its pieces. -/

namespace IngestBench
namespace Text

/-- The pieces of `cs` between the occurrences of `sep`; there is always at least one piece. -/
def splitChars (sep : Char) : List Char → List (List Char)
  | [] => [[]]
  | c :: cs =>
    if c = sep then [] :: splitChars sep cs
    else match splitChars sep cs with
      | [] => [[c]]
      | piece :: rest => (c :: piece) :: rest

/-- The pieces of a text between the occurrences of `sep`. -/
def split (sep : Char) (s : String) : List String :=
  (splitChars sep s.toList).map String.ofList

/-- The text before the first `sep` and the text after it, if `sep` occurs. -/
def splitOnceChars (sep : Char) : List Char → Option (List Char × List Char)
  | [] => none
  | c :: cs =>
    if c = sep then some ([], cs)
    else (splitOnceChars sep cs).map fun (before, after) => (c :: before, after)

/-- `splitOnceChars` on strings. -/
def splitOnce (sep : Char) (s : String) : Option (String × String) :=
  (splitOnceChars sep s.toList).map fun (before, after) => (String.ofList before, String.ofList after)

/-- The text without the characters of class `p` at its end. -/
def dropEnd (p : Char → Bool) (cs : List Char) : List Char :=
  (cs.reverse.dropWhile p).reverse

/-- The text without the characters of class `p` at its start. -/
def dropStart (p : Char → Bool) (cs : List Char) : List Char := cs.dropWhile p

/-- The rest of `cs` after the literal `lit`, if `cs` starts with it. -/
def after? : List Char → List Char → Option (List Char)
  | [], cs => some cs
  | _ :: _, [] => none
  | l :: lit, c :: cs => if l = c then after? lit cs else none

/-- Whether `lit` occurs somewhere in `cs`. -/
def occursIn (lit : List Char) : List Char → Bool
  | [] => lit.isEmpty
  | c :: cs => (after? lit (c :: cs)).isSome || occursIn lit cs

/-- Whether `lit` occurs somewhere in `s`. -/
def contains (s lit : String) : Bool := occursIn lit.toList s.toList

/-! ### The pieces hold the text -/

theorem splitChars_ne_nil (sep : Char) (cs : List Char) : splitChars sep cs ≠ [] := by
  cases cs with
  | nil => simp [splitChars]
  | cons c cs =>
    simp only [splitChars]
    split
    · simp
    · split <;> simp

theorem intercalate_splitChars (sep : Char) (cs : List Char) :
    [sep].intercalate (splitChars sep cs) = cs := by
  induction cs with
  | nil => rfl
  | cons c cs ih =>
    simp only [splitChars]
    have hne := splitChars_ne_nil sep cs
    cases hs : splitChars sep cs with
    | nil => exact absurd hs hne
    | cons piece rest =>
      rw [hs] at ih
      split
      · rename_i h
        subst h
        simpa [List.intercalate, List.intersperse] using ih
      · cases rest with
        | nil => simpa [List.intercalate, List.intersperse] using ih
        | cons q qs => simpa [List.intercalate, List.intersperse] using ih

end Text
end IngestBench
