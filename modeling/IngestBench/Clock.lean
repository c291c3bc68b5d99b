import IngestBench.Span

/-! The clock of a run. Time is counted in nanoseconds from its start; sleepers wake at whole milliseconds. -/

namespace IngestBench

/-- Nanoseconds since the start of the clock. -/
abbrev Time := Nat

namespace Time

/-- The first whole millisecond at or after a point in time. -/
def roundUp (t : Time) : Time :=
  (t + (Span.nanosPerMilli - 1)) / Span.nanosPerMilli * Span.nanosPerMilli

/-- The time that has passed since `start`; none if it lies ahead. -/
def since (t start : Time) : Span := ⟨t - start⟩

end Time
end IngestBench
