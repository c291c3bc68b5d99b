import IngestBench.Counters
import IngestBench.Queue
import IngestBench.Scan
import IngestBench.Worker

/-! The state of a run: a scan that hands batches on through queues, workers that send them, and what all of them
    share. -/

namespace IngestBench
namespace Run

/-- How a run is carried out. -/
structure Plan (σ π : Type) where
  scan : Scan.Plan σ π
  /-- Whether each worker has a queue of its own. -/
  dedicated : Bool
  /-- Whether batches are sent, or only counted. -/
  sending : Bool
  policy : RetryPolicy

/-- A queue with the workers in line for it. Only the first in line takes batches out; a worker that finds none
    stays in front until there is one. -/
structure Channel (β : Type) where
  queue : Queue β
  line : List Nat

namespace Channel

variable {β : Type}

def new (capacity : Nat) : Channel β := ⟨.new capacity, []⟩

/-- A worker goes to the end of the line. -/
def enter (c : Channel β) (worker : Nat) : Channel β := { c with line := c.line ++ [worker] }

/-- A worker leaves the line. -/
def leave (c : Channel β) (worker : Nat) : Channel β := { c with line := c.line.filter (· != worker) }

/-- Whether it is a worker's turn. -/
def isFirst (c : Channel β) (worker : Nat) : Bool := c.line.head? == some worker

end Channel

/-- The state of a run. Workers and queues are known by their positions. -/
structure State (σ π β ν : Type) where
  now : Time
  stopping : Stopping
  scan : Scan σ π β
  channels : List (Channel β)
  workers : List (Worker β)
  /-- Batches that can be filled again. -/
  pool : Pool β
  counters : Counters
  gauge : Backoff.Gauge
  bucket : Option (TokenBucket ν)
  /-- Whether the end of the scan was noticed. -/
  scanJoined : Bool
  /-- The workers whose end was noticed, in that order. -/
  joined : List Nat

/-- The queues of a run. -/
def channelsFor {β : Type} (workers capacity : Nat) (dedicated : Bool) : List (Channel β) :=
  List.replicate (if dedicated then max workers 1 else 1) (.new capacity)

/-- The position of a worker's queue. -/
def channelIndex (dedicated : Bool) (worker : Nat) : Nat := if dedicated then worker else 0

namespace State

variable {σ π β ν : Type}

/-- A run before its first step. -/
def start (source : σ) (workers capacity : Nat) (dedicated : Bool) (bucket : Option (TokenBucket ν)) :
    State σ π β ν where
  now := 0
  stopping := .none
  scan := .start source
  channels := channelsFor workers capacity dedicated
  workers := (List.range (max workers 1)).map .start
  pool := .empty Pool.standardRoom
  counters := .zero
  gauge := .empty
  bucket := bucket
  scanJoined := false
  joined := []

def setWorker (s : State σ π β ν) (i : Nat) (w : Worker β) : State σ π β ν :=
  { s with workers := s.workers.set i w }

def setChannel (s : State σ π β ν) (i : Nat) (c : Channel β) : State σ π β ν :=
  { s with channels := s.channels.set i c }

/-- Changes one of the queues. -/
def updateChannel (s : State σ π β ν) (i : Nat) (f : Channel β → Channel β) : State σ π β ν :=
  { s with channels := s.channels.modify i f }

/-- Changes all queues. -/
def updateQueues (s : State σ π β ν) (f : Queue β → Queue β) : State σ π β ν :=
  { s with channels := s.channels.map fun c => { c with queue := f c.queue } }

/-- Whether a stop is forced. -/
def isForced (s : State σ π β ν) : Bool := s.stopping.level.isForced

/-- What the attempts of a worker share with the run. -/
def surroundings (s : State σ π β ν) (w : Worker β) : Retry.Surroundings ν :=
  ⟨s.now, s.stopping.level, s.bucket, w.sender.tracker⟩

/-- Whether all workers and the scan have ended, and this was noticed. -/
def isOver (s : State σ π β ν) : Bool :=
  s.scanJoined && (List.range s.workers.length).all s.joined.contains

/-- What counters and gauge show now. -/
def snapshot (s : State σ π β ν) : Snapshot := s.counters.snapshot s.gauge s.now

end State
end Run
end IngestBench
