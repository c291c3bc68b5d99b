import IngestBench.Decimal.Binary
import IngestBench.Decimal.Shortest
import IngestBench.Span

/-! The numbers in which rates and balances are kept. The rules for them are stated over any such numbers, so
    that they hold for floating-point numbers as the program uses them and for exact ones as well. -/

namespace IngestBench

/-- Numbers for rates and balances. They may hold values that compare with nothing. -/
class Quantity (ν : Type) where
  ofNat : Nat → ν
  /-- A length of time in seconds. -/
  ofSpan : Span → ν
  add : ν → ν → ν
  sub : ν → ν → ν
  mul : ν → ν → ν
  div : ν → ν → ν
  neg : ν → ν
  le : ν → ν → Bool
  /-- The lesser of two numbers; a value that compares with nothing gives way to the other. -/
  least : ν → ν → ν
  /-- Seconds as a length of time, to the nearest nanosecond; none for a value that is no length. -/
  toSpan? : ν → Option Span

namespace Span

/-- The quotient rounded to the nearest whole number, a half to the even neighbour. -/
def divNearest (num den : Nat) : Nat :=
  let q := num / den
  let twice := 2 * (num % den)
  if twice < den || (twice == den && q % 2 == 0) then q else q + 1

/-- The length of so many seconds, to the nearest nanosecond; none if they are negative, no number, or too
    many. -/
def ofFloat? (x : Float) : Option Span :=
  match Decimal.Binary.ofFloat x with
  | .finite negative mantissa exponent =>
    if negative && mantissa != 0 then none
    else
      let r := Decimal.Ratio.ofPower mantissa exponent
      let s : Span := ⟨divNearest (r.num * nanosPerSecond) r.den⟩
      if s.seconds ≤ Text.maxWord64 then some s else none
  | _ => none

end Span

instance : Quantity Float where
  ofNat := Float.ofNat
  ofSpan := Span.toFloat
  add := (· + ·)
  sub := (· - ·)
  mul := (· * ·)
  div := (· / ·)
  neg := Float.neg
  le a b := a ≤ b
  least a b := if a.isNaN then b else if b.isNaN then a else if b < a then b else a
  toSpan? := Span.ofFloat?

end IngestBench
