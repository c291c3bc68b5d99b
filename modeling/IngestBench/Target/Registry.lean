import IngestBench.Failure
import IngestBench.Simulation.Formats

/-! The stores that can be loaded, by name. -/

namespace IngestBench

/-- A kind of store. -/
inductive Target
  | influx
  | victoriaMetrics
  | prometheus
  deriving Repr, DecidableEq, Inhabited

namespace Target

def all : List Target := [.influx, .victoriaMetrics, .prometheus]

def name : Target → String
  | .influx => "influx"
  | .victoriaMetrics => "victoriametrics"
  | .prometheus => "prometheus"

def description : Target → String
  | .influx => "InfluxDB 1.x, line protocol over HTTP with database creation"
  | .victoriaMetrics => "VictoriaMetrics, line protocol over HTTP"
  | .prometheus => "Prometheus text exposition pushed to an import endpoint"

/-- The format of the points that a store takes. -/
def format : Target → PointFormat
  | .influx | .victoriaMetrics => .line
  | .prometheus => .record

/-- Why a target cannot be used. -/
inductive Fault
  | unknown (name : String) (available : List String)
  | alreadyRegistered (name : String)
  | load (failure : Failure)
  deriving Repr, DecidableEq

/-- The wording of the fault. -/
def Fault.message : Fault → String
  | .unknown name available =>
    s!"unknown target '{name}' (available: " ++ ", ".intercalate available ++ ")"
  | .alreadyRegistered name => s!"target '{name}' is already registered"
  | .load failure => failure.message

/-- The stage that failed. -/
def Fault.stage : Fault → String
  | .unknown _ _ | .alreadyRegistered _ => "config"
  | .load failure => failure.stage

/-- The failures behind a fault, in words. -/
def Fault.causes : Fault → List String
  | .load failure => failure.causes
  | _ => []

/-- Targets in the order of their names. -/
abbrev Registry := Sorted Target

namespace Registry

def names (r : Registry) : List String := r.map (·.1)

/-- Adds a target whose name is not taken. -/
def register (r : Registry) (t : Target) : Except Fault Registry :=
  if (r.find? t.name).isSome then .error (.alreadyRegistered t.name)
  else .ok (r.insert t.name t)

/-- The registry of all targets. -/
def builtin : Registry := all.foldl (fun r t => r.insert t.name t) []

/-- The target of a name. -/
def get (r : Registry) (name : String) : Except Fault Target :=
  match r.find? name with
  | some t => .ok t
  | none => .error (.unknown name r.names)

end Registry
end Target
end IngestBench
