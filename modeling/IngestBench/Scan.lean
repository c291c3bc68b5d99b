import IngestBench.Batch
import IngestBench.Pool

/-! The scan of a source. Points are read one by one, each is appended to the batch of its partition, and a batch
    is handed on as soon as it is full. At the end of the source, at the limit, or when the run is stopped, the
    batches that hold something are handed on in the order of their partitions. -/

namespace IngestBench

/-- What a scan did. -/
structure ScanStats where
  pointsRead : Nat
  batchesSent : Nat
  /-- A stop was asked for before the source was exhausted. -/
  cancelled : Bool
  limitReached : Bool
  /-- All workers had gone. -/
  queueClosed : Bool
  deriving Repr, DecidableEq, Inhabited

namespace ScanStats

def zero : ScanStats := ⟨0, 0, false, false, false⟩

end ScanStats

namespace Scan

/-- What is scanned, and how. -/
structure Plan (σ π : Type) where
  /-- Reads the next point; none at the end. -/
  read : σ → Except Failure (Option π) × σ
  /-- The partition of a point. -/
  partition : π → Nat
  partitions : Nat
  /-- How many points make a full batch. -/
  batchSize : Nat
  /-- The most points to read. -/
  limit : Option Nat

namespace Plan

variable {σ π : Type}

/-- There is at least one partition. -/
def slotCount (p : Plan σ π) : Nat := max p.partitions 1

/-- A batch holds at least one point. -/
def fullSize (p : Plan σ π) : Nat := max p.batchSize 1

/-- Whether so many points are all that may be read. -/
def isLimit (p : Plan σ π) (pointsRead : Nat) : Bool := p.limit.any (· ≤ pointsRead)

end Plan

/-- What a scan does next. -/
inductive Phase (π β : Type)
  /-- Takes a batch for each partition. -/
  | opening
  /-- Looks for reasons to read no more. -/
  | deciding
  | reading
  | placing (point : π)
  /-- Trades the full batch of a partition for a new one. -/
  | trading (partition : Nat)
  /-- Hands a batch on; after the last point `flushing` holds. -/
  | sending (partition : Nat) (batch : β) (flushing : Bool)
  /-- Turns to the batch of a partition after the last point. -/
  | flushing (partition : Nat)
  | finished (fault : Option Failure)

end Scan

/-- A scan. -/
structure Scan (σ π β : Type) where
  source : σ
  /-- The batches in the order of their partitions; after the last point, those that are still to be flushed. -/
  slots : List β
  stats : ScanStats
  phase : Scan.Phase π β

namespace Scan

variable {σ π β : Type}

/-- A scan that has not begun. -/
def start (source : σ) : Scan σ π β := ⟨source, [], .zero, .opening⟩

/-- A scan that has nothing to do. -/
def exhausted (source : σ) : Scan σ π β := ⟨source, [], .zero, .finished none⟩

/-- Ends the scan, and drops the batches that were not handed on. -/
def finish (s : Scan σ π β) (fault : Option Failure) : Scan σ π β :=
  { s with slots := [], phase := .finished fault }

/-- Takes a point into one of the batches. -/
def place [Batch β π] (point : π) : Nat → List β → Except Failure (List β)
  | _, [] => .ok []
  | 0, batch :: rest => (Batch.append batch point).map (· :: rest)
  | n + 1, batch :: rest => (place point n rest).map (batch :: ·)

/-- The count of points in one of the batches. -/
def rowsAt [Batch β π] (slots : List β) (partition : Nat) : Nat :=
  (slots[partition]?).elim 0 fun b => (Batch.counts b).rows

/-- The next move of the scan, with the pool that batches come from; none while a batch has to be handed on, and
    at the end. -/
def advance [Batch β π] (plan : Plan σ π) (stop : Bool) (s : Scan σ π β) (pool : Pool β) :
    Option (Scan σ π β × Pool β) :=
  match s.phase with
  | .opening =>
    if s.slots.length < plan.slotCount then
      let (batch, pool) := pool.get fun _ => Batch.empty
      some ({ s with slots := s.slots ++ [batch] }, pool)
    else some ({ s with phase := .deciding }, pool)
  | .deciding =>
    if stop then some ({ s with stats := { s.stats with cancelled := true }, phase := .flushing 0 }, pool)
    else if plan.isLimit s.stats.pointsRead then
      some ({ s with stats := { s.stats with limitReached := true }, phase := .flushing 0 }, pool)
    else some ({ s with phase := .reading }, pool)
  | .reading =>
    match plan.read s.source with
    | (.error fault, source) => some ({ s with source }.finish (some fault), pool)
    | (.ok none, source) => some ({ s with source, phase := .flushing 0 }, pool)
    | (.ok (some point), source) =>
      let stats := { s.stats with pointsRead := s.stats.pointsRead + 1 }
      some ({ s with source, stats, phase := .placing point }, pool)
  | .placing point =>
    let partition := plan.partition point
    if partition < plan.slotCount then
      match place point partition s.slots with
      | .error fault => some (s.finish (some fault), pool)
      | .ok slots =>
        let phase := if plan.fullSize ≤ rowsAt slots partition then .trading partition else .deciding
        some ({ s with slots, phase }, pool)
    else some (s.finish (some (.internal (.partition partition plan.slotCount))), pool)
  | .trading partition =>
    match s.slots[partition]? with
    | none => some ({ s with phase := .deciding }, pool)
    | some batch =>
      let (fresh, pool) := pool.get fun _ => Batch.empty
      some ({ s with slots := s.slots.set partition fresh, phase := .sending partition batch false }, pool)
  | .flushing partition =>
    match s.slots with
    | [] => some (s.finish none, pool)
    | batch :: rest =>
      if (Batch.counts batch).rows = 0 then
        some ({ s with slots := rest, phase := .flushing (partition + 1) }, pool.put (Batch.reset batch))
      else some ({ s with slots := rest, phase := .sending partition batch true }, pool)
  | .sending _ _ _ | .finished _ => none

/-- The batch that has to be handed on, with its partition. -/
def offered (s : Scan σ π β) : Option (Nat × β) :=
  match s.phase with
  | .sending partition batch _ => some (partition, batch)
  | _ => none

/-- The batch was taken. -/
def sent (s : Scan σ π β) : Scan σ π β :=
  match s.phase with
  | .sending partition _ flushing =>
    { s with
      stats := { s.stats with batchesSent := s.stats.batchesSent + 1 }
      phase := if flushing then .flushing (partition + 1) else .deciding }
  | _ => s

/-- The batch was refused, as all workers had gone. -/
def turnedAway (s : Scan σ π β) : Scan σ π β :=
  { s with stats := { s.stats with queueClosed := true } }.finish none

/-- The result, once there is one. -/
def result? (s : Scan σ π β) : Option (Except Failure ScanStats) :=
  match s.phase with
  | .finished none => some (.ok s.stats)
  | .finished (some fault) => some (.error fault)
  | _ => none

/-- Runs a scan on its own, for at most `fuel` moves: every batch is taken, or every batch is refused. `stop` says
    whether a stop was asked for by the time the source got into a state. The batches that were taken come with
    their partitions, latest first. -/
def play [Batch β π] (plan : Plan σ π) (stop : σ → Bool) (receiving : Bool) :
    Nat → Scan σ π β → Pool β → List (Nat × β) → Scan σ π β × Pool β × List (Nat × β)
  | 0, s, pool, taken => (s, pool, taken)
  | fuel + 1, s, pool, taken =>
    match s.offered with
    | some (partition, batch) =>
      if receiving then play plan stop receiving fuel s.sent pool ((partition, batch) :: taken)
      else play plan stop receiving fuel s.turnedAway pool taken
    | none =>
      match s.advance plan (stop s.source) pool with
      | some (s, pool) => play plan stop receiving fuel s pool taken
      | none => (s, pool, taken)

end Scan
end IngestBench
