import IngestBench.Span
import IngestBench.Text.Blank

/-! Lengths of time as people write them: `2h 30m`, `1.5s`, `3years 2months`. A text is a row of numbers,
    each followed by a unit; the values add up. -/

namespace IngestBench
namespace Span

/-- The units of time. -/
inductive TimeUnit
  | nanosecond | microsecond | millisecond | second | minute | hour | day | week | month | year
  deriving Repr, DecidableEq

/-- The unit of a spelling. -/
def TimeUnit.ofName? : String → Option TimeUnit
  | "nanos" | "nsec" | "ns" => some .nanosecond
  | "usec" | "us" | "µs" => some .microsecond
  | "millis" | "msec" | "ms" => some .millisecond
  | "seconds" | "second" | "secs" | "sec" | "s" => some .second
  | "minutes" | "minute" | "min" | "mins" | "m" => some .minute
  | "hours" | "hour" | "hr" | "hrs" | "h" => some .hour
  | "days" | "day" | "d" => some .day
  | "weeks" | "week" | "wk" | "wks" | "w" => some .week
  | "months" | "month" | "M" => some .month
  | "years" | "year" | "yr" | "yrs" | "y" => some .year
  | _ => none

/-- Units below a second count nanoseconds, the others seconds. -/
def TimeUnit.inSeconds : TimeUnit → Bool
  | .nanosecond | .microsecond | .millisecond => false
  | _ => true

/-- The size in nanoseconds below a second, in seconds above. -/
def TimeUnit.size : TimeUnit → Nat
  | .nanosecond => 1
  | .microsecond => 1000
  | .millisecond => 1000000
  | .second => 1
  | .minute => 60
  | .hour => 3600
  | .day => 86400
  | .week => 604800
  | .month => 2630016
  | .year => 31557600

/-- What a fraction of the unit counts in: nanoseconds up to the minute, seconds above; there are no
    fractions of a nanosecond. -/
def TimeUnit.fractionSize? : TimeUnit → Option (Nat × Bool)
  | .nanosecond => none
  | .microsecond => some (1000, false)
  | .millisecond => some (1000000, false)
  | .second => some (1000000000, false)
  | .minute => some (60000000000, false)
  | u => some (u.size, true)

/-- Why a text is no length of time. -/
inductive Fault
  | empty
  | numberExpected (offset : Nat)
  | invalidCharacter (offset : Nat)
  | unitNeeded (value : Nat)
  | unknownUnit (unit : String)
  | tooLarge
  /-- The last carry into the seconds does not fit; the reader gives up without an answer. -/
  | overflow
  deriving Repr, DecidableEq

/-- The wording of the fault. -/
def Fault.message : Fault → String
  | .empty => "value was empty"
  | .numberExpected offset => s!"expected number at {offset}"
  | .invalidCharacter offset => s!"invalid character at {offset}"
  | .unitNeeded value => s!"time unit needed, for example {value}sec or {value}ms"
  | .unknownUnit unit => "unknown time unit \"" ++ unit ++ "\", supported units: ns, us/µs, ms, sec, min, " ++
      "hours, days, weeks, months, years (and few variations)"
  | .tooLarge => "number is too large or cannot be represented without a lack of precision " ++
      "(values below 1ns are not supported)"
  | .overflow => "overflow"

/-- A 64-bit number, or the fault that it is too large. -/
def word (n : Nat) : Except Fault Nat := if n ≤ Text.maxWord64 then .ok n else .error .tooLarge

/-- Adds seconds and nanoseconds to a sum. Nanoseconds beyond a second are carried; a carry of exactly
    one second happens last. -/
def addParts (sum : Span) (seconds nanos : Nat) : Except Fault Span := do
  let nanos ← word (sum.fraction + nanos)
  if nanosPerSecond < nanos then
    let seconds ← word (seconds + nanos / nanosPerSecond)
    let seconds ← word (sum.seconds + seconds)
    return ⟨seconds * nanosPerSecond + nanos % nanosPerSecond⟩
  else
    let seconds ← word (sum.seconds + seconds)
    if nanos = nanosPerSecond ∧ seconds = Text.maxWord64 then throw .overflow
    return ⟨seconds * nanosPerSecond + nanos⟩

/-- The digits after a point: `numerator / denominator`. -/
structure Portion where
  numerator : Nat
  denominator : Nat

/-- Adds `whole` units, and a part of one, to a sum. -/
def addUnits (sum : Span) (whole : Nat) (portion : Option Portion) (unit : String) :
    Except Fault Span := do
  let some u := TimeUnit.ofName? unit |
    throw (if unit.isEmpty then .unitNeeded whole else .unknownUnit unit)
  let amount ← word (whole * u.size)
  let sum ← if u.inSeconds then addParts sum amount 0 else addParts sum 0 amount
  match portion with
  | none => return sum
  | some p =>
    match u.fractionSize? with
    | none => throw .tooLarge
    | some (size, inSeconds) =>
      let scaled ← word (p.numerator * size)
      if scaled % p.denominator ≠ 0 then throw .tooLarge
      let amount := scaled / p.denominator
      if inSeconds then addParts sum amount 0 else addParts sum 0 amount

/-- Where a reader of a row of numbers and units stands. -/
inductive Position
  /-- A number must begin; `off` is where the search for it began. -/
  | start (off : Nat)
  /-- In the digits of a number. -/
  | whole (value : Nat)
  /-- After the point; `mark` is the last recorded offset. -/
  | part (value : Nat) (portion : Portion) (mark : Nat)
  /-- In the letters of a unit, held in reverse. -/
  | unit (value : Nat) (portion : Option Portion) (letters : List Char)

/-- Letters of units. -/
def isUnitLetter (c : Char) : Bool := c.isAlpha || c == 'µ'

/-- Reads on from a position; `off` is the offset in bytes of the next character and `sum` the length read
    so far. -/
def readFrom (sum : Span) (first : Bool) : Position → Nat → List Char → Except Fault Span
  | .start _, _, [] => if first then .error .empty else .ok sum
  | .start off0, off, c :: cs =>
    match Text.digit? c with
    | some d => readFrom sum false (.whole d) (off + c.utf8Size) cs
    | none =>
      if Text.isBlank c then readFrom sum first (.start off0) (off + c.utf8Size) cs
      else .error (.numberExpected off0)
  | .whole n, _, [] => addUnits sum n none ""
  | .whole n, off, c :: cs =>
    match Text.digit? c with
    | some d =>
      let next := 10 * n + d
      if next ≤ Text.maxWord64 then readFrom sum false (.whole next) (off + c.utf8Size) cs
      else .error .tooLarge
    | none =>
      if Text.isBlank c then readFrom sum false (.whole n) (off + c.utf8Size) cs
      else if isUnitLetter c then readFrom sum false (.unit n none [c]) (off + c.utf8Size) cs
      else if c = '.' then readFrom sum false (.part n ⟨0, 1⟩ off) (off + c.utf8Size) cs
      else .error (.invalidCharacter off)
  | .part n p mark, _, [] =>
    if p.denominator = 1 then .error (.invalidCharacter mark) else addUnits sum n (some p) ""
  | .part n p mark, off, c :: cs =>
    match Text.digit? c with
    | some d =>
      let portion : Portion := ⟨10 * p.numerator + d, 10 * p.denominator⟩
      if Text.maxWord64 < portion.denominator then .error .tooLarge
      else readFrom sum false (.part n portion (off + c.utf8Size)) (off + c.utf8Size) cs
    | none =>
      if Text.isBlank c then readFrom sum false (.part n p (off + c.utf8Size)) (off + c.utf8Size) cs
      else if isUnitLetter c then
        if p.denominator = 1 then .error (.invalidCharacter mark)
        else readFrom sum false (.unit n (some p) [c]) (off + c.utf8Size) cs
      else .error (.invalidCharacter mark)
  | .unit n p letters, _, [] => addUnits sum n p (String.ofList letters.reverse)
  | .unit n p letters, off, c :: cs =>
    match Text.digit? c with
    | some d => do
      let sum ← addUnits sum n p (String.ofList letters.reverse)
      readFrom sum false (.whole d) (off + c.utf8Size) cs
    | none =>
      if Text.isBlank c then do
        let sum ← addUnits sum n p (String.ofList letters.reverse)
        readFrom sum false (.start (off + c.utf8Size)) (off + c.utf8Size) cs
      else if isUnitLetter c then
        readFrom sum false (.unit n p (c :: letters)) (off + c.utf8Size) cs
      else .error (.invalidCharacter off)

/-- The length of time that a text names. A lone `0` needs no unit. -/
def ofHuman (text : String) : Except Fault Span :=
  if text = "0" then .ok zero else readFrom zero true (.start 0) 0 text.toList

/-- The text of a length: the units with a value other than zero, from years down to nanoseconds. -/
def human (s : Span) : String :=
  if s.nanos = 0 then "0s"
  else
    let secs := s.seconds
    let years := secs / 31557600
    let rest := secs % 31557600
    let months := rest / 2630016
    let rest := rest % 2630016
    let days := rest / 86400
    let rest := rest % 86400
    let counted (n : Nat) (name : String) : List String :=
      if n = 0 then [] else [Nat.repr n ++ name]
    let named (n : Nat) (name : String) : List String :=
      counted n (if 1 < n then name ++ "s" else name)
    let parts := named years "year" ++ named months "month" ++ named days "day" ++
      counted (rest / 3600) "h" ++ counted (rest % 3600 / 60) "m" ++ counted (rest % 60) "s" ++
      counted (s.fraction / 1000000) "ms" ++ counted (s.fraction / 1000 % 1000) "us" ++
      counted (s.fraction % 1000) "ns"
    " ".intercalate parts

end Span
end IngestBench
