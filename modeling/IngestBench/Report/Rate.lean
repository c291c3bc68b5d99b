import IngestBench.Decimal.Places
import IngestBench.Span

/-! Rates, and the amounts of reports. -/

namespace IngestBench
namespace Report

/-- A count for each second; zero if no time has passed. -/
def rate (count : Nat) (elapsed : Span) : Float :=
  let seconds := elapsed.toFloat
  if 0.0 < seconds then Float.ofNat count / seconds else 0.0

/-- Amounts in reports have a fixed count of places, and a half goes to the even neighbour. -/
def places (n : Nat) : Decimal.PlacesFormat := ⟨n, .toEven⟩

/-- Rates and lengths of back-off have two places. -/
def amount (x : Float) : String := (places 2).write x

end Report
end IngestBench
