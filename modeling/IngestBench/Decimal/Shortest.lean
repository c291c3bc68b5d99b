import IngestBench.Decimal.Binary
import IngestBench.Decimal.Places

/-! The fewest decimal digits that read back to the same floating-point number, and the layouts in
    which programs write them. -/

namespace IngestBench
namespace Decimal

/-- The decimal number `significand * 10 ^ scale`. -/
structure Digits where
  significand : Nat
  scale : Int
  deriving Repr, DecidableEq

/-- The real numbers that round to one floating-point number: those between `low` and `high`, with
    the ends if `closed`. -/
structure Interval where
  low : Ratio
  value : Ratio
  high : Ratio
  closed : Bool

/-- The interval around `mantissa * 2 ^ exponent`. Below a power of two the neighbours are closer,
    except at the smallest exponent; the ends round to an even mantissa. -/
def Interval.around (mantissa : Nat) (exponent : Int) : Interval where
  low :=
    if mantissa = Nat.pow 2 52 ∧ Binary.leastExponent < exponent then
      Ratio.ofPower (4 * mantissa - 1) (exponent - 2)
    else Ratio.ofPower (2 * mantissa - 1) (exponent - 1)
  value := Ratio.ofPower mantissa exponent
  high := Ratio.ofPower (2 * mantissa + 1) (exponent - 1)
  closed := mantissa % 2 == 0

/-- Whether `r` rounds to the interval's number. -/
def Interval.contains (i : Interval) (r : Ratio) : Bool :=
  (i.low.lt r || (i.closed && i.low.same r)) && (r.lt i.high || (i.closed && r.same i.high))

/-- The exponent of the first decimal digit of a positive fraction. -/
def leadingPlace (r : Ratio) : Int :=
  if r.den ≤ r.num then (digitCount (r.num / r.den) : Int) - 1
  else
    -- `r.den / r.num` is at least one; its digit count bounds the leading zeros from both sides
    let k := digitCount (r.den / r.num)
    if r.den ≤ r.num * Nat.pow 10 (k - 1) then -((k : Int) - 1) else -(k : Int)

/-- The nearer of the value's two neighbours on the grid of multiples of `10 ^ scale` that rounds to
    the interval's number, if one of them does. -/
def Interval.onGrid? (i : Interval) (tie : Tie) (scale : Int) : Option Digits :=
  let num := if scale < 0 then i.value.num * Nat.pow 10 scale.natAbs else i.value.num
  let den := if scale < 0 then i.value.den else i.value.den * Nat.pow 10 scale.toNat
  let below := num / den
  let inside (n : Nat) := n ≠ 0 && i.contains (Ratio.ofDecimal n scale)
  match inside below, inside (below + 1) with
  | true, true => some ⟨roundDiv num den tie, scale⟩
  | true, false => some ⟨below, scale⟩
  | false, true => some ⟨below + 1, scale⟩
  | false, false => none

/-- The first hit on the grids of `count`, `count + 1`, … digits, for at most `fuel` grids. -/
def Interval.search (i : Interval) (tie : Tie) (place : Int) : Nat → Nat → Digits
  | 0, count => ⟨0, place + 1 - count⟩
  | fuel + 1, count =>
    match i.onGrid? tie (place + 1 - count) with
    | some d => d
    | none => i.search tie place fuel (count + 1)

/-- The significand without trailing zeros. -/
def Digits.strip (d : Digits) : Nat → Digits
  | 0 => d
  | fuel + 1 =>
    if d.significand ≠ 0 ∧ d.significand % 10 = 0 then
      (⟨d.significand / 10, d.scale + 1⟩ : Digits).strip fuel
    else d

/-- The fewest digits that read back to the positive number `mantissa * 2 ^ exponent`; seventeen
    digits always do. -/
def shortest (mantissa : Nat) (exponent : Int) (tie : Tie) : Digits :=
  let i := Interval.around mantissa exponent
  (i.search tie (leadingPlace i.value) 17 1).strip 20

/-! ### Layouts -/

/-- How a number is written. The place of its first digit decides between positional notation and
    an exponent. -/
structure Layout where
  /-- Positional notation needs a first digit at this place or above; with none it always fits. -/
  lowest : Option Int
  /-- Positional notation needs a first digit at this place or below; with none it always fits. -/
  highest : Option Int
  /-- Whole numbers in positional notation end in `.0`. -/
  pointZero : Bool
  /-- Exponents that are not negative carry a plus sign. -/
  exponentPlus : Bool
  tie : Tie
  nan : String
  infinity : String
  negativeInfinity : String

/-- Writes `d` without an exponent. -/
def Layout.positional (l : Layout) (d : Digits) : String :=
  if 0 ≤ d.scale then
    let text := Nat.repr (d.significand * Nat.pow 10 d.scale.toNat)
    if l.pointZero then text ++ ".0" else text
  else writeUnits d.scale.natAbs d.significand

/-- Writes `d` as one digit, a fraction and an exponent. -/
def Layout.scientific (l : Layout) (d : Digits) : String :=
  let digits := Nat.repr d.significand
  let exponent := d.scale + digits.length - 1
  let first := String.ofList (digits.toList.take 1)
  let rest := String.ofList (digits.toList.drop 1)
  let mark := if exponent < 0 then "e-" else if l.exponentPlus then "e+" else "e"
  (if rest.isEmpty then first else first ++ "." ++ rest) ++ mark ++ Nat.repr exponent.natAbs

/-- The text of `x`. -/
def Layout.write (l : Layout) (x : Float) : String :=
  match Binary.ofFloat x with
  | .nan => l.nan
  | .infinite negative => if negative then l.negativeInfinity else l.infinity
  | .finite negative m e =>
    let text :=
      if m = 0 then if l.pointZero then "0.0" else "0"
      else
        let d := shortest m e l.tie
        let place := d.scale + digitCount d.significand - 1
        let fits := l.lowest.all (· ≤ place) && l.highest.all (place ≤ ·)
        if fits then l.positional d else l.scientific d
    if negative then "-" ++ text else text

/-- Plain numbers: always positional, whole numbers without a point. -/
def Layout.plain : Layout where
  lowest := none
  highest := none
  pointZero := false
  exponentPlus := false
  tie := .up
  nan := "NaN"
  infinity := "inf"
  negativeInfinity := "-inf"

/-- Numbers in reports for machines: an exponent from `1e16` up and below `1e-5`, whole numbers with
    `.0`, and no text for what is not a number. -/
def Layout.machine : Layout where
  lowest := some (-5)
  highest := some 15
  pointZero := true
  exponentPlus := true
  tie := .toEven
  nan := "null"
  infinity := "null"
  negativeInfinity := "null"

/-- The plain text of `x`. -/
def plain (x : Float) : String := Layout.plain.write x

end Decimal
end IngestBench
