import IngestBench.Rehearsal
import IngestBench.Target.Connection
import IngestBench.Target.Database

/-! Loading a store with the points that the settings name: the source is opened, the database is prepared if the
    store has any to prepare, and the points are sent. -/

namespace IngestBench

/-! ### Sources -/

/-- Points of a file, or of a simulation. -/
inductive PointSource (φ : Type)
  | file (source : φ)
  | simulation (source : SimulationSource)

namespace PointSource

variable {φ π : Type}

/-- A failure in place of a breakdown. -/
def failureOf : Breakdown → Failure
  | .failed failure => failure
  | .overflow => .internal (.crashed "date out of range")

/-- Reads the next point; `read` reads files, and `point` makes points of readings. -/
def next (read : φ → Except Failure (Option π) × φ) (point : Reading → π) :
    PointSource φ → Except Failure (Option π) × PointSource φ
  | .file source =>
    let (result, source) := read source
    (result, .file source)
  | .simulation source =>
    let (result, source) := source.next point
    (result.mapError failureOf, .simulation source)

/-- The header of the points; `read` reads it from a file. -/
def headers (read : φ → Except Failure Header × φ) : PointSource φ → Except Breakdown Header × PointSource φ
  | .file source =>
    let (result, source) := read source
    (result.mapError .failed, .file source)
  | .simulation source =>
    let (result, source) := source.headers
    (result, .simulation source)

end PointSource

namespace Load

/-- What a load needs of the world outside. -/
structure World (ω : Type) where
  /-- The lines of a place that points are read from, or why there are none. -/
  lines : String → Except Failure Input
  network : Web.Network ω
  state : ω

/-- The failure of a place that cannot be opened. -/
def cannotOpen (location reason : String) : Failure :=
  .io ("cannot open '" ++ location ++ "': " ++ reason)

/-- Opens the source that the settings name; `file` makes a source of lines. -/
def openSource {φ ω : Type} (settings : SourceSettings) (world : World ω) (file : Input → φ) :
    Except Breakdown (PointSource φ) :=
  match settings.kind with
  | .file =>
    match world.lines settings.location with
    | .ok lines => .ok (.file (file lines))
    | .error failure => .error (.failed failure)
  | .simulator => (Simulation.ofUseCase settings.simulator).map fun s => .simulation ⟨s⟩

/-- How long the network takes for an answer, on the clock of the load. -/
def responseTime : Span := .ofMillis 1

/-- A network with the connections of the workers. -/
structure Traffic (ω : Type) where
  state : ω
  connections : List (Nat × Target.Connection)

/-- A store that is reached over a network. -/
def store {ω β : Type} [Payload β] (t : Target) (settings : Settings) (header : Header) (network : Web.Network ω) :
    Rehearsal.Store (Traffic ω) β where
  connect worker traffic :=
    match t.connect settings.target worker settings.run.database header with
    | .ok connection => (.ok (), { traffic with connections := (worker, connection) :: traffic.connections })
    | .error failure => (.error failure, traffic)
  write worker _ batch traffic :=
    let connection := (traffic.connections.find? (·.1 == worker)).map (·.2)
    let (result, state) := t.send settings.target network connection batch traffic.state
    ((result, responseTime), { traffic with state })
  disconnect _ traffic := (.ok (), traffic)

/-- Prepares the database, if the store has databases and the settings ask for it. -/
def prepare {ω : Type} (t : Target) (settings : Settings) (network : Web.Network ω) (s : ω) :
    Except Failure Unit × ω :=
  match t, settings.target.urlFor? 0 with
  | .influx, some base =>
    if Run.preparesDatabase settings.run then
      (Database.keeper network base settings.target.replication).prepare settings.run.database
        settings.run.abortOnExist s
    else (.ok (), s)
  | _, _ => (.ok (), s)

/-- The limiter that all workers share, if there is one. -/
def bucket (settings : TargetSettings) : Option (TokenBucket Float) :=
  if settings.limiter.enabled then some (.full settings.limiter.maxRate settings.limiter.bucketSize 0) else none

/-- Loads points of one kind. None if the load is not over after `fuel` steps. -/
def run {φ π β ω : Type} [Batch β π] [Keyed π] [Payload β] (t : Target) (settings : Settings) (world : World ω)
    (fuel : Nat) (file : Input → φ) (readHeader : φ → Except Failure Header × φ)
    (read : φ → Except Failure (Option π) × φ) (point : Reading → π) : Option (Except Breakdown Summary) :=
  match prepare t settings world.network world.state with
  | (.error failure, _) => some (.error (.failed failure))
  | (.ok _, state) =>
    match openSource settings.source world file with
    | .error e => some (.error e)
    | .ok source =>
      match source.headers readHeader with
      | (.error e, _) => some (.error e)
      | (.ok header, source) =>
        let r : Rehearsal _ π β Float (Traffic ω) :=
          .ofSettings settings.run ⟨settings.target.backoff, none⟩ .none (bucket settings.target)
            (PointSource.next read point) source (store t settings header world.network) ⟨state, []⟩ fuel
        (Run.outcome r.run).map fun result => result.mapError .failed

end Load

/-- Loads a store. -/
def Target.load {ω : Type} (t : Target) (settings : Settings) (world : Load.World ω) (fuel : Nat) :
    Option (Except Breakdown Summary) :=
  match t.format with
  | .line => Load.run (β := LineBatch) t settings world fuel LineSource.mk LineSource.headers LineSource.next Reading.toLine
  | .record =>
    Load.run (β := RecordBatch) t settings world fuel RecordSource.ofInput RecordSource.headers RecordSource.next Reading.toRecord

end IngestBench
