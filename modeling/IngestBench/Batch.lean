import IngestBench.Failure

/-! Batches of points: what the rest of a run knows of them. -/

namespace IngestBench

/-- How much a batch holds: points, and values in them. -/
structure Counts where
  rows : Nat
  metrics : Nat
  deriving Repr, DecidableEq, Inhabited

namespace Counts

def zero : Counts := ⟨0, 0⟩

instance : Add Counts := ⟨fun a b => ⟨a.rows + b.rows, a.metrics + b.metrics⟩⟩

/-- The sum, unless one of its parts does not fit 64 bits. -/
def add? (a b : Counts) : Option Counts :=
  let sum := a + b
  if sum.rows ≤ Text.maxWord64 ∧ sum.metrics ≤ Text.maxWord64 then some sum else none

end Counts

/-- A container that points are appended to until it is sent. -/
class Batch (β : Type) (π : outParam Type) where
  empty : β
  counts : β → Counts
  /-- Takes a point in, or refuses it and says why. -/
  append : β → π → Except Failure β
  /-- Forgets all points, so that the batch can be filled again. -/
  reset : β → β

/-- A point with the bytes that decide its partition. -/
class Keyed (π : Type) where
  key : π → List UInt8

end IngestBench
