/-! What a binary floating-point number stands for: a whole mantissa times a power of two. All exact
    decimal work is done on this form, in whole numbers. -/

namespace IngestBench
namespace Decimal

/-- The meaning of a 64-bit floating-point number. -/
inductive Binary
  | nan
  | infinite (negative : Bool)
  /-- The number `mantissa * 2 ^ exponent`, negated if `negative`. -/
  | finite (negative : Bool) (mantissa : Nat) (exponent : Int)
  deriving Repr, DecidableEq

/-- The exponent of the last place of the smallest numbers. -/
def Binary.leastExponent : Int := -1074

/-- Reads sign, exponent and fraction from the bits of the number. -/
def Binary.ofBits (bits : Nat) : Binary :=
  let negative := bits / Nat.pow 2 63 % 2 == 1
  let biased : Nat := bits / Nat.pow 2 52 % 2048
  let fraction : Nat := bits % Nat.pow 2 52
  if biased = 2047 then
    if fraction = 0 then .infinite negative else .nan
  else if biased = 0 then .finite negative fraction leastExponent
  else .finite negative (Nat.pow 2 52 + fraction) ((biased : Int) - 1075)

/-- The meaning of `x`. -/
def Binary.ofFloat (x : Float) : Binary := Binary.ofBits x.toBits.toNat

/-- A non-negative fraction with a positive denominator. -/
structure Ratio where
  num : Nat
  den : Nat
  den_pos : 0 < den

/-- The fraction `mantissa * 2 ^ exponent`. -/
def Ratio.ofPower (mantissa : Nat) (exponent : Int) : Ratio :=
  if exponent < 0 then
    ⟨mantissa, Nat.pow 2 exponent.natAbs, Nat.pow_pos (by decide)⟩
  else
    ⟨mantissa * Nat.pow 2 exponent.toNat, 1, by decide⟩

/-- The fraction `significand * 10 ^ scale`. -/
def Ratio.ofDecimal (significand : Nat) (scale : Int) : Ratio :=
  if scale < 0 then
    ⟨significand, Nat.pow 10 scale.natAbs, Nat.pow_pos (by decide)⟩
  else
    ⟨significand * Nat.pow 10 scale.toNat, 1, by decide⟩

/-- Whether the first fraction is below the second. -/
def Ratio.lt (a b : Ratio) : Bool := a.num * b.den < b.num * a.den

/-- Whether the two fractions are the same number. -/
def Ratio.same (a b : Ratio) : Bool := a.num * b.den == b.num * a.den

/-- The number of decimal digits of `n`; zero has one digit. -/
def digitCount (n : Nat) : Nat :=
  let guess := Nat.log2 n * 30103 / 100000
  if n < Nat.pow 10 guess then guess
  else if n < Nat.pow 10 (guess + 1) then guess + 1
  else guess + 2

end Decimal
end IngestBench
