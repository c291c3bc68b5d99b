import IngestBench.Decimal.Shortest
import IngestBench.Line
import IngestBench.Record
import IngestBench.Simulation

/-! Simulated readings in the two formats for points, as points and as text that can be replayed. -/

namespace IngestBench

/-- The formats of points. -/
inductive PointFormat
  | line
  | record
  deriving Repr, DecidableEq

namespace Reading

/-- `key=value` for each tag. -/
def tagTexts (r : Reading) : List String := r.tags.map fun (key, value) => key ++ "=" ++ value

/-- The reading as a line; without fields the second column is missing. -/
def toLine (r : Reading) : Line :=
  let tags := String.join (r.tagTexts.map fun t => "," ++ t)
  let fields := r.fields.map fun (key, value) => key ++ "=" ++ Decimal.plain value
  let columns := if fields.isEmpty then "" else " " ++ ",".intercalate fields
  ⟨r.measurement ++ tags ++ columns ++ " " ++ Text.int r.nanos⟩

/-- The reading as a record. -/
def toRecord (r : Reading) : Record :=
  let values := String.join (r.fields.map fun (_, value) => "," ++ Decimal.plain value)
  ⟨r.measurement, ⟨",".intercalate r.tagTexts, Text.int r.nanos ++ values⟩⟩

end Reading

/-- The line as it stands in a file. -/
def Line.write (line : Line) : String := line.text ++ "\n"

/-- The record as it stands in a file. -/
def Record.write (r : Record) : String :=
  tagsMark ++ "," ++ r.row.tags ++ "\n" ++ r.measurement ++ "," ++ r.row.fields ++ "\n"

namespace PointFormat

/-- What stands in a file before the points. -/
def writeHeader (format : PointFormat) (header : Header) : String :=
  match format with
  | .line => ""
  | .record => header.write tagsMark

/-- A reading as it stands in a file. -/
def write (format : PointFormat) (r : Reading) : String :=
  match format with
  | .line => r.toLine.write
  | .record => r.toRecord.write

end PointFormat

namespace Simulation

/-- The file of a simulation: its text and the count of its points. -/
def generate (s : Simulation) (format : PointFormat) : Except Breakdown (String × Nat) := do
  let readings ← s.readings
  return (format.writeHeader header ++ String.join (readings.map format.write), readings.length)

end Simulation

/-- Points straight from a simulation. -/
structure SimulationSource where
  simulation : Simulation

namespace SimulationSource

def headers (s : SimulationSource) : Except Breakdown Header × SimulationSource :=
  (.ok Simulation.header, s)

/-- The next point, in a format given by `point`. -/
def next {π : Type} (point : Reading → π) (s : SimulationSource) :
    Except Breakdown (Option π) × SimulationSource :=
  match s.simulation.nextReading with
  | .ok (r, simulation) => (.ok (r.map point), ⟨simulation⟩)
  | .error e => (.error e, s)

end SimulationSource
end IngestBench
