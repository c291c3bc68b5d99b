import IngestBench.Span
import IngestBench.Text.Blank

/-! Points in time: seconds since the start of 1970 in universal time, and nanoseconds. A leap second is the
    second before it with a fraction of a second or more. -/

namespace IngestBench

/-- A point in time. -/
structure Stamp where
  seconds : Int
  /-- Below two seconds; a second or more inside a leap second. -/
  nanos : Nat
  deriving Repr, DecidableEq, Inhabited

namespace Stamp

def epoch : Stamp := ⟨0, 0⟩

/-! ### The calendar -/

/-- The days before a date, counted from the start of 1970. Years start in March, so that leap days come
    last. -/
def daysOfDate (year : Int) (month day : Nat) : Int :=
  let y := if month ≤ 2 then year - 1 else year
  let era := Int.fdiv y 400
  let yearOfEra := y - era * 400
  let shifted : Int := if 2 < month then month - 3 else month + 9
  let dayOfYear := Int.fdiv (153 * shifted + 2) 5 + day - 1
  let dayOfEra := yearOfEra * 365 + Int.fdiv yearOfEra 4 - Int.fdiv yearOfEra 100 + dayOfYear
  era * 146097 + dayOfEra - 719468

/-- The year, month and day of a count of days. -/
def dateOfDays (days : Int) : Int × Nat × Nat :=
  let z := days + 719468
  let era := Int.fdiv z 146097
  let dayOfEra := z - era * 146097
  let yearOfEra := Int.fdiv
    (dayOfEra - Int.fdiv dayOfEra 1460 + Int.fdiv dayOfEra 36524 - Int.fdiv dayOfEra 146096) 365
  let dayOfYear := dayOfEra - (365 * yearOfEra + Int.fdiv yearOfEra 4 - Int.fdiv yearOfEra 100)
  let shifted := Int.fdiv (5 * dayOfYear + 2) 153
  let day := dayOfYear - Int.fdiv (153 * shifted + 2) 5 + 1
  let month := if shifted < 10 then shifted + 3 else shifted - 9
  let year := yearOfEra + era * 400
  (if month ≤ 2 then year + 1 else year, month.toNat, day.toNat)

def isLeapYear (year : Int) : Bool :=
  year % 4 == 0 && (year % 100 != 0 || year % 400 == 0)

def daysInMonth (year : Int) : Nat → Nat
  | 4 | 6 | 9 | 11 => 30
  | 2 => if isLeapYear year then 29 else 28
  | _ => 31

def secondsPerDay : Nat := 86400

/-- The first second that a date can name. -/
def leastSeconds : Int := daysOfDate (-262143) 1 1 * secondsPerDay

/-- The last second that a date can name. -/
def greatestSeconds : Int := daysOfDate 262142 12 31 * secondsPerDay + 86399

/-- Whether a point in time has a date. -/
def inRange (s : Stamp) : Bool := leastSeconds ≤ s.seconds && s.seconds ≤ greatestSeconds

/-! ### Order and arithmetic -/

/-- Whether `a` is before `b`. -/
def before (a b : Stamp) : Bool :=
  a.seconds < b.seconds || (a.seconds == b.seconds && a.nanos < b.nanos)

/-- Whether `a` is not after `b`. -/
def upTo (a b : Stamp) : Bool := !b.before a

/-- The point in time a span later, without regard to the range of dates. A span that leaves a leap second
    counts from the second before it. -/
def later (s : Stamp) (span : Span) : Stamp :=
  let nanos := s.nanos + span.fraction
  if Span.nanosPerSecond ≤ s.nanos && span.seconds == 0 && nanos < 2 * Span.nanosPerSecond then
    ⟨s.seconds, nanos⟩
  else
    let nanos := s.nanos % Span.nanosPerSecond + span.fraction
    ⟨s.seconds + span.seconds + (nanos / Span.nanosPerSecond : Nat), nanos % Span.nanosPerSecond⟩

/-- The point in time a span later, if it has a date. -/
def later? (s : Stamp) (span : Span) : Option Stamp :=
  let t := s.later span
  if t.inRange then some t else none

/-- The nanoseconds since the start of 1970, if they fit a signed 64-bit number. -/
def nanosSinceEpoch? (s : Stamp) : Option Int :=
  let n := s.seconds * Span.nanosPerSecond + s.nanos
  if -(Text.maxInt64 : Int) - 1 ≤ n ∧ n ≤ Text.maxInt64 then some n else none

/-! ### Writing -/

/-- Year, month and day with hyphens; years outside 0 to 9999 carry a sign. -/
def writeDate (days : Int) : String :=
  let (year, month, day) := dateOfDays days
  let yearText :=
    if 0 ≤ year ∧ year ≤ 9999 then Text.padded 4 year.toNat
    else (if year < 0 then "-" else "+") ++ Text.padded 4 year.natAbs
  yearText ++ "-" ++ Text.padded 2 month ++ "-" ++ Text.padded 2 day

/-- Hours, minutes and seconds, and three, six or nine digits of the fraction if it is not zero. -/
def writeTime (secondOfDay nanos : Nat) : String :=
  let leap := nanos / Span.nanosPerSecond
  let part := nanos % Span.nanosPerSecond
  let fraction :=
    if part = 0 then ""
    else if part % 1000000 = 0 then "." ++ Text.padded 3 (part / 1000000)
    else if part % 1000 = 0 then "." ++ Text.padded 6 (part / 1000)
    else "." ++ Text.padded 9 part
  Text.padded 2 (secondOfDay / 3600) ++ ":" ++ Text.padded 2 (secondOfDay / 60 % 60) ++ ":" ++
    Text.padded 2 (secondOfDay % 60 + leap) ++ fraction

/-- Date and time with a text between them and a mark of the time zone. -/
def writeWith (between zone : String) (s : Stamp) : String :=
  let days := Int.fdiv s.seconds secondsPerDay
  let secondOfDay := (s.seconds - days * secondsPerDay).toNat
  writeDate days ++ between ++ writeTime secondOfDay s.nanos ++ zone

/-- The form for data: `2016-01-01T00:00:00Z`. -/
def write (s : Stamp) : String := s.writeWith "T" "Z"

/-- The form for messages: `2016-01-01 00:00:00 UTC`. -/
def describe (s : Stamp) : String := s.writeWith " " " UTC"

/-! ### Reading -/

/-- The value of one to `most` leading digits, and the rest. -/
def takeNumber (most : Nat) (cs : List Char) : Option (Nat × List Char) :=
  let digits := (cs.take most).takeWhile Char.isDigit
  if digits.isEmpty then none
  else some (digits.foldl (fun n c => 10 * n + (c.toNat - '0'.toNat)) 0, cs.drop digits.length)

/-- The text after blanks and one given character. -/
def takeMark (mark : Char) (cs : List Char) : Option (List Char) :=
  match cs.dropWhile Text.isBlank with
  | c :: rest => if c = mark then some rest else none
  | [] => none

/-- A number after blanks. -/
def takeField (most : Nat) (cs : List Char) : Option (Nat × List Char) :=
  takeNumber most (cs.dropWhile Text.isBlank)

/-- A year: four digits at most, or any count after a sign. -/
def takeYear (cs : List Char) : Option (Int × List Char) :=
  match cs.dropWhile Text.isBlank with
  | '-' :: rest => (takeNumber rest.length rest).map fun (n, rest) => (-(n : Int), rest)
  | '+' :: rest => (takeNumber rest.length rest).map fun (n, rest) => ((n : Int), rest)
  | rest => (takeNumber 4 rest).map fun (n, rest) => ((n : Int), rest)

/-- The nanoseconds of a fraction, if one follows; digits beyond the ninth are passed over. -/
def takeFraction (cs : List Char) : Option (Nat × List Char) :=
  match cs with
  | '.' :: rest => do
    let digits := (rest.take 9).takeWhile Char.isDigit
    let (n, _) ← takeNumber 9 rest
    return (n * Nat.pow 10 (9 - digits.length), rest.dropWhile Char.isDigit)
  | _ => some (0, cs)

/-- Two digits as a number. -/
def twoDigits (cs : List Char) : Option (Nat × List Char) :=
  match cs with
  | a :: b :: rest => if a.isDigit && b.isDigit then takeNumber 2 (a :: b :: rest) else none
  | _ => none

/-- The offset of a time zone in seconds: a name of universal time, or a sign, hours and minutes. -/
def takeZone (cs : List Char) : Option (Int × List Char) :=
  match cs with
  | 'Z' :: rest | 'z' :: rest => some (0, rest)
  | u :: t :: c :: rest =>
    if u.toUpper = 'U' ∧ t.toUpper = 'T' ∧ c.toUpper = 'C' then some (0, rest)
    else if u = '+' ∨ u = '-' ∨ u = '−' then do
      let (hours, rest) ← twoDigits (t :: c :: rest)
      let (minutes, rest) ← twoDigits (rest.dropWhile fun c => c = ':' || Text.isBlank c)
      if 59 < minutes then none
      let offset : Int := hours * 3600 + minutes * 60
      return (if u = '+' then offset else -offset, rest)
    else none
  | _ => none

/-- The point in time that a text names: date, `T` or a blank, time, and time zone. -/
def read (text : String) : Option Stamp := do
  let (year, cs) ← takeYear text.toList
  let cs ← takeMark '-' cs
  let (month, cs) ← takeField 2 cs
  let cs ← takeMark '-' cs
  let (day, cs) ← takeField 2 cs
  let cs ← match cs with
    | 't' :: rest | 'T' :: rest | ' ' :: rest => some rest
    | _ => none
  let (hour, cs) ← takeField 2 cs
  let cs ← takeMark ':' cs
  let (minute, cs) ← takeField 2 cs
  let cs ← takeMark ':' cs
  let (second, cs) ← takeField 2 cs
  let (nanos, cs) ← takeFraction cs
  let (offset, cs) ← takeZone (cs.dropWhile Text.isBlank)
  if !(cs.dropWhile Text.isBlank).isEmpty then none
  if month < 1 || 12 < month || day < 1 || daysInMonth year month < day then none
  if 23 < hour || 59 < minute || 60 < second then none
  if offset ≤ -86400 || 86400 ≤ offset then none
  let leap := second == 60
  let local' : Stamp := {
    seconds := daysOfDate year month day * secondsPerDay + hour * 3600 + minute * 60 +
      (if leap then 59 else second)
    nanos := if leap then Span.nanosPerSecond + nanos else nanos }
  let s : Stamp := { local' with seconds := local'.seconds - offset }
  if local'.inRange && s.inRange then some s else none

end Stamp
end IngestBench
