import IngestBench.Config.Checks
import IngestBench.Proofs.ExactNumbers

/-! Rates and balances as floating-point numbers without rounding: exact numbers, two infinities, and a value that is no
    number and compares with nothing. What a floating-point number is follows from its bits, and the check that a
    setting is above zero comes out alike on both sides. -/

namespace IngestBench

/-- An exact number, an infinity, or no number. -/
inductive Extended
  | nan
  | infinite (negative : Bool)
  | finite (q : ℚ)
  deriving DecidableEq

namespace Extended

/-! ### Arithmetic -/

def neg : Extended → Extended
  | nan => nan
  | infinite negative => infinite (!negative)
  | finite q => finite (-q)

/-- Infinities of both signs have no sum. -/
def add : Extended → Extended → Extended
  | finite p, finite q => finite (p + q)
  | infinite m, infinite n => if m = n then infinite m else nan
  | infinite m, finite _ => infinite m
  | finite _, infinite n => infinite n
  | _, _ => nan

/-- An infinity so many times; there is no such product with zero. -/
def scaled (negative : Bool) (q : ℚ) : Extended :=
  if q = 0 then nan else infinite (negative != decide (q < 0))

def mul : Extended → Extended → Extended
  | finite p, finite q => finite (p * q)
  | infinite m, infinite n => infinite (m != n)
  | infinite m, finite q => scaled m q
  | finite p, infinite n => scaled n p
  | _, _ => nan

/-- Zero is taken as one that was reached from above. -/
def div : Extended → Extended → Extended
  | finite p, finite q => if q = 0 then scaled false p else finite (p / q)
  | infinite m, finite q => infinite (m != decide (q < 0))
  | finite _, infinite _ => finite 0
  | _, _ => nan

def le : Extended → Extended → Bool
  | finite p, finite q => p ≤ q
  | infinite m, infinite n => m || !n
  | infinite m, finite _ => m
  | finite _, infinite n => !n
  | _, _ => false

/-- The lesser; what is no number gives way. -/
def least (x y : Extended) : Extended :=
  match x, y with
  | nan, y => y
  | x, nan => x
  | x, y => if le x y then x else y

instance : Quantity Extended where
  ofNat n := finite n
  ofSpan s := finite s.toRat
  add := add
  sub x y := add x (neg y)
  mul := mul
  div := div
  neg := neg
  le := le
  least := least
  toSpan?
    | finite q => Span.ofRat? q
    | _ => none

theorem least_finite (p q : ℚ) : least (finite p) (finite q) = finite (min p q) := by
  by_cases h : p ≤ q <;> simp [least, le, h, le_of_not_ge]

/-! ### Floating-point numbers -/

/-- The exact value of a fraction. -/
def ofRatio (negative : Bool) (r : Decimal.Ratio) : ℚ :=
  if negative then -(r.num / r.den : ℚ) else r.num / r.den

def ofBinary : Decimal.Binary → Extended
  | .nan => nan
  | .infinite negative => infinite negative
  | .finite negative mantissa exponent => finite (ofRatio negative (.ofPower mantissa exponent))

/-- What a floating-point number stands for. -/
def ofFloat (x : Float) : Extended := ofBinary (.ofFloat x)

end Extended

namespace Decimal

open Float.Model (UnpackedFloat Format)

theorem toNat_unpackExponent (b : BitVec 64) :
    (@UnpackedFloat.unpackExponent .binary64 b).toNat = b.toNat / 2 ^ 52 % 2048 := by
  simp [UnpackedFloat.unpackExponent, BitVec.extractLsb_toNat, Nat.shiftRight_eq_div_pow]

theorem toNat_unpackMantissa (b : BitVec 64) :
    (@UnpackedFloat.unpackMantissa .binary64 b).toNat = b.toNat % 2 ^ 52 := by
  simp [UnpackedFloat.unpackMantissa, BitVec.extractLsb_toNat, Nat.shiftRight_eq_div_pow]

theorem toNat_unpackSign (b : BitVec 64) :
    (@UnpackedFloat.unpackSign .binary64 b).toNat = b.toNat / 2 ^ 63 % 2 := by
  show (BitVec.extractLsb 63 63 b).toNat = _
  simp [BitVec.extractLsb_toNat, Nat.shiftRight_eq_div_pow]

/-- Whether a sign is that of the numbers below zero. -/
def isNegative (s : UnpackedFloat.Sign) : Bool := s == .negative

theorem isNegative_ofBitVec (b : BitVec 1) : isNegative (.ofBitVec b) = (b.toNat == 1) := by
  revert b
  decide

/-- What a floating-point number stands for, from its parts. -/
def Binary.ofUnpacked : UnpackedFloat → Binary
  | .notANumber => .nan
  | .infinity s => .infinite (isNegative s)
  | .zero s => .finite (isNegative s) 0 leastExponent
  | .finite s mantissa exponent _ => .finite (isNegative s) mantissa exponent

theorem Binary.ofUnpacked_zero (s : UnpackedFloat.Sign) :
    ofUnpacked (.zero s) = .finite (isNegative s) 0 leastExponent := rfl

theorem Binary.ofUnpacked_finite (s : UnpackedFloat.Sign) {mantissa : Nat} (exponent : Int) (h : 0 < mantissa) :
    ofUnpacked (.finite s mantissa exponent h) = .finite (isNegative s) mantissa exponent := rfl

/-- The bits are read as the model of floating-point numbers reads them. -/
theorem Binary.ofFloat_eq (x : Float) : Binary.ofFloat x = Binary.ofUnpacked x.toModel.unpack := by
  have hbits : x.toBits.toNat = x.toModel.toBits.toBitVec.toNat := rfl
  rw [ofFloat, ofBits, hbits, Float.Model.unpack]
  generalize x.toModel.toBits.toBitVec = b
  simp only [Nat.pow_eq, ← toNat_unpackExponent, ← toNat_unpackMantissa, ← toNat_unpackSign, ← isNegative_ofBitVec]
  -- both sides ask the same of the parts: one of their numbers, the other of their bits
  have hall : (@UnpackedFloat.unpackExponent .binary64 b).toNat = 2047 ↔
      @UnpackedFloat.unpackExponent .binary64 b = -1#11 := BitVec.toNat_inj (y := -1#11)
  have hleast : (@UnpackedFloat.unpackExponent .binary64 b).toNat = 0 ↔
      @UnpackedFloat.unpackExponent .binary64 b = 0#11 := BitVec.toNat_inj (y := 0#11)
  have hnone : (@UnpackedFloat.unpackMantissa .binary64 b).toNat = 0 ↔
      @UnpackedFloat.unpackMantissa .binary64 b = 0#52 := BitVec.toNat_inj (y := 0#52)
  simp only [hall, hleast, hnone]
  unfold UnpackedFloat.unpack
  dsimp only
  by_cases hones : @UnpackedFloat.unpackExponent .binary64 b = -1#11
  · rw [if_pos hones, if_pos hones]
    split <;> rfl
  · rw [if_neg hones, if_neg hones]
    by_cases hexponent : @UnpackedFloat.unpackExponent .binary64 b = 0#11
    · rw [if_pos hexponent, if_pos hexponent]
      by_cases hmantissa : @UnpackedFloat.unpackMantissa .binary64 b = 0#52
      · rw [dif_pos hmantissa, ofUnpacked_zero, hmantissa]
        rfl
      · rw [dif_neg hmantissa, ofUnpacked_finite]
        simp [hexponent, leastExponent, Format.exponentBias]
    · have himplicit : (1#1 ++ @UnpackedFloat.unpackMantissa .binary64 b).toNat =
          2 ^ 52 + (@UnpackedFloat.unpackMantissa .binary64 b).toNat := by
        have hlt := (@UnpackedFloat.unpackMantissa .binary64 b).isLt
        rw [BitVec.toNat_append]
        exact (Nat.two_pow_add_eq_or_of_lt hlt 1).symm
      rw [if_neg hexponent, if_neg hexponent, ofUnpacked_finite]
      simp [himplicit, Format.exponentBias]

theorem Ratio.ofPower_num_pos {mantissa : Nat} (h : 0 < mantissa) (exponent : Int) :
    0 < (ofPower mantissa exponent).num := by
  unfold ofPower
  split
  · exact h
  · exact Nat.mul_pos h (Nat.two_pow_pos _)

end Decimal

namespace Extended

theorem ofRatio_pos {r : Decimal.Ratio} (h : 0 < r.num) : 0 < ofRatio false r := by
  have hden := r.den_pos
  rw [ofRatio, if_neg Bool.false_ne_true]
  positivity

theorem ofRatio_eq_zero {r : Decimal.Ratio} (h : r.num = 0) (negative : Bool) : ofRatio negative r = 0 := by
  cases negative <;> simp [ofRatio, h]

@[simp] theorem le_zero_finite (q : ℚ) : Quantity.le (finite q) (Quantity.ofNat 0) = decide (q ≤ 0) := by
  simp [Quantity.le, Quantity.ofNat, le]

/-- The numbers that are not at or below zero: those above it, the infinity above it, and what is no number. -/
theorem le_zero_eq_false_iff {x : Extended} : Quantity.le x (Quantity.ofNat 0) = false ↔
    x = nan ∨ x = infinite false ∨ ∃ q, 0 < q ∧ x = finite q := by
  cases x with
  | nan => simp [Quantity.le, le]
  | infinite negative => simp [Quantity.le, Quantity.ofNat, le]
  | finite q => simp

/-- A floating-point number is at or below zero where what it stands for is. -/
theorem le_zero_ofFloat (x : Float) :
    Quantity.le (ofFloat x) (Quantity.ofNat 0) = Quantity.le x (Quantity.ofNat 0) := by
  have hzero : (Float.ofNat 0).toModel.unpack = .zero .positive := rfl
  have hle : Quantity.le x (Quantity.ofNat 0) = x.toModel.unpack.le (.zero .positive) := by
    rw [← hzero]
    show decide (decide (x.toModel.unpack.le (Float.ofNat 0).toModel.unpack = true) = true) = _
    simp only [Bool.decide_eq_true]
  rw [hle, ofFloat, Decimal.Binary.ofFloat_eq]
  cases x.toModel.unpack with
  | notANumber => rfl
  | infinity s => cases s <;> rfl
  | zero s =>
    have hnum : (Decimal.Ratio.ofPower 0 Decimal.Binary.leastExponent).num = 0 := rfl
    rw [Decimal.Binary.ofUnpacked_zero, ofBinary, ofRatio_eq_zero hnum, le_zero_finite]
    rfl
  | finite s m e hm =>
    have hpos := ofRatio_pos (Decimal.Ratio.ofPower_num_pos hm e)
    rw [Decimal.Binary.ofUnpacked_finite, ofBinary, le_zero_finite]
    cases s with
    | positive => exact decide_eq_false (not_le.2 hpos)
    | negative => exact decide_eq_true (neg_nonpos.2 hpos.le)

end Extended
end IngestBench
