import IngestBench.Decimal.Binary
import IngestBench.Text.Integer

/-! Numbers with a fixed count of decimal places, rounded from the exact value. -/

namespace IngestBench
namespace Decimal

/-- Which way the middle between two neighbours goes. -/
inductive Tie
  | toEven
  | up
  deriving Repr, DecidableEq

/-- The quotient of two whole numbers, rounded to the nearest whole number. -/
def roundDiv (num den : Nat) (tie : Tie) : Nat :=
  let q := num / den
  let r := num % den
  if 2 * r < den then q
  else if den < 2 * r then q + 1
  else match tie with
    | .up => q + 1
    | .toEven => if q % 2 = 0 then q else q + 1

/-- How amounts are written: the count of places and the rule for ties. -/
structure PlacesFormat where
  places : Nat
  tie : Tie

/-- Writes `units / 10 ^ places` positionally. -/
def writeUnits (places units : Nat) : String :=
  if places = 0 then Nat.repr units
  else
    let whole := units / Nat.pow 10 places
    Nat.repr whole ++ "." ++ Text.padded places (units % Nat.pow 10 places)

/-- The text of `x` with the format's count of places. -/
def PlacesFormat.write (f : PlacesFormat) (x : Float) : String :=
  match Binary.ofFloat x with
  | .nan => "NaN"
  | .infinite negative => if negative then "-inf" else "inf"
  | .finite negative m e =>
    let v := Ratio.ofPower m e
    let text := writeUnits f.places (roundDiv (v.num * Nat.pow 10 f.places) v.den f.tie)
    if negative then "-" ++ text else text

/-- The rounded quotient is at most half a unit away from the exact one. -/
theorem roundDiv_close (num den : Nat) (tie : Tie) (h : 0 < den) :
    2 * num ≤ 2 * (den * roundDiv num den tie) + den ∧
      2 * (den * roundDiv num den tie) ≤ 2 * num + den := by
  have hdm := Nat.div_add_mod num den
  have hlt := Nat.mod_lt num h
  have hs : den * (num / den + 1) = den * (num / den) + den := by rw [Nat.mul_add, Nat.mul_one]
  unfold roundDiv
  simp only
  split
  · omega
  · split
    · omega
    · cases tie with
      | up => simp only; omega
      | toEven =>
        simp only
        split <;> omega

end Decimal
end IngestBench
