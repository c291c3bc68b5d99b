import IngestBench.Clock
import IngestBench.Quantity

/-! A limiter of rates: a bucket of tokens that fills with time. A caller that takes more than there is leaves a
    debt and waits until it is repaid, so that the rate in the long run does not depend on the sizes taken. -/

namespace IngestBench

/-- A bucket of tokens. -/
structure TokenBucket (ν : Type) where
  /-- The balance when the bucket was last refilled; below zero in debt. -/
  tokens : ν
  refilled : Time
  capacity : ν
  /-- Tokens that come in each second. -/
  rate : ν
  deriving Repr

namespace TokenBucket

variable {ν : Type} [Quantity ν]

/-- A full bucket. -/
def full (rate : ν) (capacity : Nat) (now : Time) : TokenBucket ν :=
  ⟨Quantity.ofNat capacity, now, Quantity.ofNat capacity, rate⟩

/-- The bucket with what came in until now; it never holds more than its capacity. -/
def refill (b : TokenBucket ν) (now : Time) : TokenBucket ν :=
  let gained := Quantity.mul (Quantity.ofSpan (now.since b.refilled)) b.rate
  { b with tokens := Quantity.least (Quantity.add b.tokens gained) b.capacity, refilled := now }

/-- The bucket without so many tokens. -/
def spend (b : TokenBucket ν) (permits : Nat) : TokenBucket ν :=
  { b with tokens := Quantity.sub b.tokens (Quantity.ofNat permits) }

/-- How long it takes until the bucket is out of debt; none if that is no length of time. -/
def debtTime (b : TokenBucket ν) : Option Span :=
  if Quantity.le (Quantity.ofNat 0) b.tokens then some Span.zero
  else Quantity.toSpan? (Quantity.div (Quantity.neg b.tokens) b.rate)

/-- Takes tokens, and says how long to wait before they may be used. -/
def reserve (b : TokenBucket ν) (permits : Nat) (now : Time) : Option (Span × TokenBucket ν) :=
  let b := (b.refill now).spend permits
  b.debtTime.map fun wait => (wait, b)

/-- Takes tokens; the time from which they may be used. -/
def acquire (b : TokenBucket ν) (permits : Nat) (now : Time) : Option (Time × TokenBucket ν) :=
  (b.reserve permits now).map fun (wait, b) => (now + wait.nanos, b)

/-- Takes tokens if there are enough right now. -/
def tryTake (b : TokenBucket ν) (permits : Nat) (now : Time) : Bool × TokenBucket ν :=
  let b := b.refill now
  if Quantity.le (Quantity.ofNat permits) b.tokens then (true, b.spend permits) else (false, b)

/-- The balance now. -/
def available (b : TokenBucket ν) (now : Time) : ν × TokenBucket ν :=
  let b := b.refill now
  (b.tokens, b)

end TokenBucket
end IngestBench
