import IngestBench.Failure
import IngestBench.Stop

/-! A source for rehearsals: points in a list, between which stops are asked for. -/

namespace IngestBench
namespace Rehearsal

/-- What stands in the list. -/
inductive FeedItem (π : Type)
  | point (point : π)
  /-- Reading fails here. -/
  | fault (failure : Failure)
  /-- A stop is asked for; reading goes on. -/
  | stop (level : StopLevel)

/-- What is left of the list, and the level that was asked for so far. -/
structure Feed (π : Type) where
  items : List (FeedItem π)
  stop : Stop

namespace Feed

variable {π : Type}

/-- Reads the next point. -/
def readFrom (stop : Stop) : List (FeedItem π) → Except Failure (Option π) × Feed π
  | [] => (.ok none, ⟨[], stop⟩)
  | .point p :: rest => (.ok (some p), ⟨rest, stop⟩)
  | .fault failure :: rest => (.error failure, ⟨rest, stop⟩)
  | .stop level :: rest => readFrom (stop.raise level) rest

def read (f : Feed π) : Except Failure (Option π) × Feed π := readFrom f.stop f.items

end Feed
end Rehearsal
end IngestBench
