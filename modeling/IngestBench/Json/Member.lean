import IngestBench.Json

/-! The parts of a JSON value, read leniently: what is missing or of another kind reads as nothing. -/

namespace IngestBench
namespace Json

/-- The member of a name, unless it is missing or null. -/
def member? (j : Json) (name : String) : Option Json :=
  match j with
  | .object entries =>
    match entries.find? (·.1 == name) with
    | some (_, .null) | none => none
    | some (_, value) => some value
  | _ => none

def member (j : Json) (name : String) : Json := (j.member? name).getD .null

def has (j : Json) (name : String) : Bool := (j.member? name).isSome

/-- The entries of an object. -/
def entries : Json → List (String × Json)
  | .object entries => entries
  | _ => []

/-- The items of an array. -/
def items : Json → List Json
  | .array items => items
  | _ => []

/-- The item of an array at a position. -/
def item (j : Json) (i : Nat) : Json := j.items.getD i .null

def text : Json → String
  | .string value => value
  | _ => ""

def isTrue : Json → Bool
  | .bool value => value
  | _ => false

/-- A whole number. -/
def int : Json → Int
  | .number text => text.toInt?.getD 0
  | _ => 0

def nat (j : Json) : Nat := j.int.toNat

end Json
end IngestBench
