import IngestBench.Text.Integer

/-! Lengths of time in whole nanoseconds. Seconds fit 64 bits. -/

namespace IngestBench

/-- A length of time. -/
structure Span where
  nanos : Nat
  deriving Repr, DecidableEq, Inhabited

namespace Span

def nanosPerSecond : Nat := 1000000000

def nanosPerMilli : Nat := 1000000

def zero : Span := ⟨0⟩

def ofSeconds (n : Nat) : Span := ⟨n * nanosPerSecond⟩

def ofMillis (n : Nat) : Span := ⟨n * nanosPerMilli⟩

def isZero (s : Span) : Bool := s.nanos == 0

/-- The whole seconds. -/
def seconds (s : Span) : Nat := s.nanos / nanosPerSecond

/-- The nanoseconds beyond the whole seconds. -/
def fraction (s : Span) : Nat := s.nanos % nanosPerSecond

instance : Add Span := ⟨fun a b => ⟨a.nanos + b.nanos⟩⟩

/-- The length in seconds as a floating-point number: the two parts are converted and then added. -/
def toFloat (s : Span) : Float :=
  Float.ofNat s.seconds + Float.ofNat s.fraction / 1000000000.0

/-- The technical text of a length: one number in the largest unit that keeps it at one or above,
    with the digits that are needed. -/
def technical (s : Span) : String :=
  let decimal (whole part places : Nat) (unit : String) : String :=
    let digits := (Text.padded places part).toList
    let kept := (digits.reverse.dropWhile (· == '0')).reverse
    if part = 0 || places = 0 then Nat.repr whole ++ unit
    else Nat.repr whole ++ "." ++ String.ofList kept ++ unit
  if 0 < s.seconds then decimal s.seconds s.fraction 9 "s"
  else if 1000000 ≤ s.nanos then decimal (s.nanos / 1000000) (s.nanos % 1000000) 6 "ms"
  else if 1000 ≤ s.nanos then decimal (s.nanos / 1000) (s.nanos % 1000) 3 "µs"
  else decimal s.nanos 0 0 "ns"

end Span
end IngestBench
