import IngestBench.Batch
import IngestBench.Header
import IngestBench.Input

/-! Points as lines of three columns, `measurement,tag=v field=v,… timestamp`. Values are never read: a batch is
    its lines, one row each, with as many metrics as the second column has parts. -/

namespace IngestBench

/-- A point as one line of text. -/
structure Line where
  text : String
  deriving Repr, DecidableEq, Inhabited

namespace Line

/-- The first column: measurement and tags. -/
def seriesKey (line : Line) : String := (Text.split ' ' line.text).headD ""

instance : Keyed Line := ⟨fun line => line.seriesKey.toUTF8.toList⟩

/-- The count of parts in the second of exactly three columns. -/
def metrics (line : Line) : Except ParseFault Nat :=
  match Text.splitChars ' ' line.text.toList with
  | [_, fields, _] => .ok (Text.splitChars ',' fields).length
  | columns => .error (.columns columns.length)

end Line

/-- Lines that go to a store in one request. -/
structure LineBatch where
  body : String
  rows : Nat
  metrics : Nat
  deriving Repr, DecidableEq, Inhabited

namespace LineBatch

def empty : LineBatch := ⟨"", 0, 0⟩

/-- Takes a line in, if it has three columns. -/
def append (b : LineBatch) (line : Line) : Except Failure LineBatch :=
  match line.metrics with
  | .error fault => .error (.parse fault)
  | .ok n => .ok ⟨b.body ++ line.text ++ "\n", b.rows + 1, b.metrics + n⟩

instance : Batch LineBatch Line where
  empty := empty
  counts b := ⟨b.rows, b.metrics⟩
  append := append
  reset _ := empty

end LineBatch

/-- Replays lines from an input. It has no header. -/
structure LineSource where
  input : Input

namespace LineSource

def headers (s : LineSource) : Except Failure Header × LineSource := (.ok Header.empty, s)

/-- The next line that is not empty. -/
def next (s : LineSource) : Except Failure (Option Line) × LineSource :=
  match s.input.readFilled with
  | (.ok line, rest) => (.ok (line.map Line.mk), ⟨rest⟩)
  | (.error fault, rest) => (.error (.parse fault), ⟨rest⟩)

end LineSource
end IngestBench
