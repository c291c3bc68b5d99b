import IngestBench.Text.Split

/-! The header of a data set: its tags with their types, and the fields of each measurement. Measurements
    are kept in the order of their names, each once. -/

namespace IngestBench

/-- A list of entries in ascending order of their keys, each key once. -/
abbrev Sorted (α : Type) := List (String × α)

namespace Sorted

variable {α : Type}

/-- The value at a key. -/
def find? (key : String) : Sorted α → Option α
  | [] => none
  | (k, v) :: rest => if k = key then some v else find? key rest

/-- Puts `f` of the old value at its place. -/
def update (key : String) (f : Option α → α) : Sorted α → Sorted α
  | [] => [(key, f none)]
  | (k, v) :: rest =>
    if k = key then (k, f (some v)) :: rest
    else if key < k then (key, f none) :: (k, v) :: rest
    else (k, v) :: update key f rest

/-- Puts a value at its place, over an old one. -/
def insert (key : String) (value : α) (entries : Sorted α) : Sorted α :=
  entries.update key fun _ => value

theorem find?_update_self (key : String) (f : Option α → α) (entries : Sorted α)
    (h : entries.Pairwise fun a b => a.1 < b.1) :
    (entries.update key f).find? key = some (f (entries.find? key)) := by
  induction entries with
  | nil => simp [update, find?]
  | cons e rest ih =>
    obtain ⟨k, v⟩ := e
    simp only [update, find?]
    by_cases hk : k = key
    · simp [hk, find?]
    · by_cases hlt : key < k
      · have hnone : find? key rest = none := by
          have hall : ∀ e ∈ rest, e.1 ≠ key := by
            intro e he heq
            have hke := (List.pairwise_cons.1 h).1 e he
            rw [heq] at hke
            exact absurd hke (String.lt_asymm hlt)
          clear ih h
          induction rest with
          | nil => rfl
          | cons e rest ih =>
            simp only [find?, hall e (by simp), if_false]
            exact ih fun e he => hall e (by simp [he])
        simp [hk, hlt, find?, hnone]
      · simp only [hk, hlt, if_false, find?]
        exact ih (List.pairwise_cons.1 h).2

end Sorted

/-- The header of a data set. -/
structure Header where
  tagKeys : List String
  tagTypes : List String
  fieldKeys : Sorted (List String)
  deriving Repr, DecidableEq

namespace Header

/-- The header that says nothing. -/
def empty : Header := ⟨[], [], []⟩

def isEmpty (h : Header) : Bool := h.tagKeys.isEmpty && h.fieldKeys.isEmpty

/-- The fields of a measurement. -/
def fields? (h : Header) (measurement : String) : Option (List String) :=
  h.fieldKeys.find? measurement

/-- The header with one more tag. -/
def withTag (h : Header) (key type : String) : Header :=
  { h with tagKeys := h.tagKeys ++ [key], tagTypes := h.tagTypes ++ [type] }

/-- The header with the fields of a measurement, over older ones. -/
def withMeasurement (h : Header) (measurement : String) (fields : List String) : Header :=
  { h with fieldKeys := h.fieldKeys.insert measurement fields }

/-- The text of a header: the tags, a line for each measurement, and a blank line. -/
def write (h : Header) (mark : String) : String :=
  let tags := (h.tagKeys.zip h.tagTypes).map fun (key, type) => "," ++ key ++ " " ++ type
  let measurements := h.fieldKeys.map fun (name, fields) => name ++ "," ++ ",".intercalate fields ++ "\n"
  mark ++ String.join tags ++ "\n" ++ String.join measurements ++ "\n"

end Header
end IngestBench
