import IngestBench.Text.Split

/-! Whole numbers in decimal. A reader names the first fault it meets from the left: a character
    that is no digit counts before the size of the number it would extend. -/

namespace IngestBench
namespace Text

/-- Why a text is not a whole number of the wanted range. -/
inductive IntegerFault
  | empty
  | invalidDigit
  | tooLarge
  | tooSmall
  deriving Repr, DecidableEq

/-- The wording of the fault. -/
def IntegerFault.message : IntegerFault → String
  | .empty => "cannot parse integer from empty string"
  | .invalidDigit => "invalid digit found in string"
  | .tooLarge => "number too large to fit in target type"
  | .tooSmall => "number too small to fit in target type"

/-- The value of a decimal digit. -/
def digit? (c : Char) : Option Nat :=
  if '0' ≤ c ∧ c ≤ '9' then some (c.toNat - '0'.toNat) else none

/-- The value of a hexadecimal digit. -/
def hexDigit? (c : Char) : Option Nat :=
  if '0' ≤ c ∧ c ≤ '9' then some (c.toNat - '0'.toNat)
  else if 'a' ≤ c ∧ c ≤ 'f' then some (c.toNat - 'a'.toNat + 10)
  else if 'A' ≤ c ∧ c ≤ 'F' then some (c.toNat - 'A'.toNat + 10)
  else none

/-- Extends `acc` by the digits of `cs` as long as the value stays within `limit`. -/
def readDigits (limit : Nat) (overflow : IntegerFault) : Nat → List Char → Except IntegerFault Nat
  | acc, [] => .ok acc
  | acc, c :: cs =>
    match digit? c with
    | none => .error .invalidDigit
    | some d =>
      let next := 10 * acc + d
      if limit < next then .error overflow else readDigits limit overflow next cs

/-- A whole number from zero to `limit`, with an optional plus sign. -/
def readNat (limit : Nat) (cs : List Char) : Except IntegerFault Nat :=
  match cs with
  | [] => .error .empty
  | ['+'] => .error .invalidDigit
  | '+' :: rest => readDigits limit .tooLarge 0 rest
  | _ => readDigits limit .tooLarge 0 cs

/-- A whole number from `-limit - 1` to `limit`, with an optional sign. -/
def readInt (limit : Nat) (cs : List Char) : Except IntegerFault Int :=
  match cs with
  | [] => .error .empty
  | ['+'] | ['-'] => .error .invalidDigit
  | '+' :: rest => (readDigits limit .tooLarge 0 rest).map Int.ofNat
  | '-' :: rest => (readDigits (limit + 1) .tooSmall 0 rest).map fun n => -(n : Int)
  | _ => (readDigits limit .tooLarge 0 cs).map Int.ofNat

/-- The largest signed 64-bit number. -/
def maxInt64 : Nat := UInt64.size / 2 - 1

/-- The largest unsigned 64-bit number. -/
def maxWord64 : Nat := UInt64.size - 1

/-- The largest unsigned 32-bit number. -/
def maxWord32 : Nat := UInt32.size - 1

/-- The decimal digits of `n`, at least `width` of them. -/
def padded (width n : Nat) : String :=
  let digits := Nat.repr n
  String.ofList (List.replicate (width - digits.length) '0') ++ digits

/-- The decimal text of a whole number. -/
def int (n : Int) : String :=
  if n < 0 then "-" ++ Nat.repr n.natAbs else Nat.repr n.natAbs

end Text
end IngestBench
