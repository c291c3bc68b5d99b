import IngestBench.Text.Integer

/-! Reading decimal text as a floating-point number, rounded to the nearest. -/

namespace IngestBench
namespace Decimal

/-- Why a text is no number. -/
inductive FloatFault
  | empty
  | invalid
  deriving Repr, DecidableEq

/-- The wording of the fault. -/
def FloatFault.message : FloatFault → String
  | .empty => "cannot parse float from empty string"
  | .invalid => "invalid float literal"

/-- The positive number `significand * 10 ^ scale`, rounded to nearest. Scales beyond every finite
    number are settled by the count of digits, so the powers stay small. -/
def nearest (significand : Nat) (scale : Int) : Float :=
  let place := scale + (Nat.repr significand).length
  if significand = 0 || place < -330 then 0
  else if 320 < place then 1.0 / 0.0
  else if scale < 0 then Float.ofScientific significand true scale.natAbs
  else Float.ofScientific significand false scale.toNat

/-- The leading decimal digits of `cs` and the rest. -/
def spanDigits (cs : List Char) : List Char × List Char :=
  cs.span fun c => (Text.digit? c).isSome

/-- The value of a run of digits; other characters count as zero. -/
def valueOf (cs : List Char) : Nat :=
  cs.foldl (fun n c => 10 * n + (Text.digit? c).getD 0) 0

/-- An exponent: a mark, an optional sign and digits up to the end. -/
def readExponent (cs : List Char) : Option Int :=
  match cs with
  | [] => some 0
  | c :: rest =>
    if c = 'e' ∨ c = 'E' then
      let (negative, digits) := match rest with
        | '+' :: ds => (false, ds)
        | '-' :: ds => (true, ds)
        | ds => (false, ds)
      let (run, tail) := spanDigits digits
      if run.isEmpty || !tail.isEmpty then none
      else some (if negative then -(valueOf run : Int) else valueOf run)
    else none

/-- An unsigned decimal number: digits, an optional point with more digits, an optional exponent;
    one digit at least before the exponent. -/
def readUnsigned (cs : List Char) : Option Float :=
  let (whole, rest) := spanDigits cs
  let (fraction, rest) := match rest with
    | '.' :: ds => spanDigits ds
    | _ => ([], rest)
  if whole.isEmpty && fraction.isEmpty then none
  else (readExponent rest).map fun e =>
    nearest (valueOf (whole ++ fraction)) (e - fraction.length)

/-- A number in any of the accepted spellings: decimal with an optional sign, or a name of infinity
    or of no number in any case. -/
def readFloat (cs : List Char) : Except FloatFault Float :=
  if cs.isEmpty then .error .empty
  else
    let (negative, body) := match cs with
      | '+' :: rest => (false, rest)
      | '-' :: rest => (true, rest)
      | _ => (false, cs)
    let lower := String.ofList (body.map Char.toLower)
    let magnitude : Option Float :=
      if lower = "nan" then some (0.0 / 0.0)
      else if lower = "inf" ∨ lower = "infinity" then some (1.0 / 0.0)
      else readUnsigned body
    match magnitude with
    | none => .error .invalid
    | some x => .ok (if negative then -x else x)

end Decimal
end IngestBench
