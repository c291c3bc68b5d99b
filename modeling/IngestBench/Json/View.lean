import IngestBench.Config.Fault
import IngestBench.Counters
import IngestBench.Header
import IngestBench.Json.Writer
import IngestBench.Record
import IngestBench.Scan
import IngestBench.Span.Human
import IngestBench.Target.Registry
import IngestBench.Worker

/-! Values of a run as JSON values. -/

namespace IngestBench

/-! ### Failures -/

/-- One word for the kind of failure. -/
def Failure.kind : Failure → String
  | .backpressure => "Backpressure"
  | .parse _ => "Parse"
  | .send _ | .gaveUp _ _ => "Send"
  | .setup _ => "Setup"
  | .config _ => "Config"
  | .io _ => "Io"
  | .worker _ _ => "Worker"
  | .cancelled => "Cancelled"
  | .internal _ => "Internal"

/-- One word for the kind of fault. -/
def Target.Fault.kind : Target.Fault → String
  | .unknown _ _ => "UnknownTarget"
  | .alreadyRegistered _ => "AlreadyRegistered"
  | .load _ => "Load"

/-- A failure by its kind, its stage and its wording. -/
def Json.ofFailure (kind stage message : String) : Json :=
  .object [("error", kind), ("stage", stage), ("message", message)]

def Failure.json (f : Failure) : Json := .ofFailure f.kind f.stage f.message

def Target.Fault.json (f : Target.Fault) : Json := .ofFailure f.kind f.stage f.message

/-- A fault of settings; documents that cannot be read have no wording of their own. -/
def Config.Fault.json (f : Config.Fault) : Json :=
  match f with
  | .unreadable _ => .object [("error", "Read"), ("message", f.message)]
  | .document => .object [("error", "Yaml")]
  | .override _ _ => .object [("error", "Env"), ("message", f.message)]
  | .invalid domain _ => .object [("error", "Invalid"), ("domain", domain), ("message", f.message)]
  | .overflow => .object [("error", "panic")]

/-- A breakdown; one that is no failure has no wording. -/
def Breakdown.json : Breakdown → Json
  | .failed failure => failure.json
  | .overflow => .object [("error", "panic")]

/-! ### Points -/

def Line.json (l : Line) : Json := l.text

def Record.json (r : Record) : Json :=
  .object [("m", r.measurement), ("tags", r.row.tags), ("fields", r.row.fields)]

def Header.json (h : Header) : Json :=
  .object [("tag_keys", .ofStrings h.tagKeys), ("tag_types", .ofStrings h.tagTypes),
    ("field_keys", .object (h.fieldKeys.map fun (k, v) => (k, .ofStrings v))), ("is_empty", h.isEmpty)]

/-! ### Reports -/

def BackoffSummary.json (b : BackoffSummary) : Json :=
  .object [("worker", b.worker), ("total", b.total.human), ("episodes", b.episodes)]

def Snapshot.json (s : Snapshot) : Json :=
  .object [("rows", s.counters.rows), ("metrics", s.counters.metrics), ("batches", s.counters.batches),
    ("active_workers", s.counters.activeWorkers), ("backing_off_workers", s.backingOff),
    ("backoff", s.backoff.human)]

def ScanStats.json (s : ScanStats) : Json :=
  .object [("points_read", s.pointsRead), ("batches_sent", s.batchesSent), ("cancelled", s.cancelled),
    ("limit_reached", s.limitReached), ("queue_closed", s.queueClosed)]

end IngestBench
