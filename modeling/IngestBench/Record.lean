import IngestBench.Batch
import IngestBench.Header
import IngestBench.Input
import IngestBench.Text.Blank

/-! Points as two lines, `tags,host=a` and `cpu,1451606400000000000,58,2`: the second names a measurement, a time
    in nanoseconds and one value for each field that the header lists. -/

namespace IngestBench

/-- What a point says beside its measurement. -/
structure Row where
  tags : String
  fields : String
  deriving Repr, DecidableEq, Inhabited

/-- A point of a measurement. -/
structure Record where
  measurement : String
  row : Row
  deriving Repr, DecidableEq, Inhabited

namespace Row

/-- The tags with a value, in order. -/
def tagPairs (row : Row) : List (String × String) :=
  (Text.split ',' row.tags).filterMap (Text.splitOnce '=')

/-- The time and the values. -/
def timestampAndValues (row : Row) : Except ParseFault (Int × List String) :=
  match Text.split ',' row.fields with
  | [] => .error (.timestamp "" .empty)
  | time :: values =>
    match Text.readInt Text.maxInt64 time.toList with
    | .ok t => .ok (t, values)
    | .error fault => .error (.timestamp time fault)

/-- The count of values. -/
def valueCount (row : Row) : Nat := (Text.splitChars ',' row.fields.toList).length - 1

end Row

namespace Record

instance : Keyed Record := ⟨fun r => r.row.tags.toUTF8.toList⟩

/-- The tags of a tags line. -/
def readTags (line : String) : Except ParseFault String :=
  match Text.splitOnce ',' line with
  | some (mark, rest) => if mark = tagsMark then .ok rest else .error (.tagsLine line)
  | none => if line = tagsMark then .ok "" else .error (.tagsLine line)

/-- The point of a tags line and a data line. -/
def read (tagsLine dataLine : String) : Except ParseFault Record := do
  let tags ← readTags tagsLine
  match Text.splitOnce ',' dataLine with
  | some (measurement, fields) => return ⟨measurement, ⟨tags, fields⟩⟩
  | none => throw (.valuesMissing dataLine)

/-- Whether a point fits a header: a known measurement, a time, and a value for each field. -/
def check (r : Record) (header : Header) : Except ParseFault Unit := do
  let some fields := header.fields? r.measurement | throw (.unknownMeasurement r.measurement)
  let _ ← r.row.timestampAndValues
  if r.row.valueCount ≠ fields.length then
    throw (.valueCount r.measurement r.row.valueCount fields.length)

end Record

/-- Points that go to a store in one request, in a table for each measurement. A table stays when its rows
    are gone. -/
structure RecordBatch where
  tables : Sorted (Array Row)
  rows : Nat
  metrics : Nat
  deriving Repr, DecidableEq, Inhabited

namespace RecordBatch

def empty : RecordBatch := ⟨[], 0, 0⟩

/-- The tables that have rows, in order of their names. -/
def pending (b : RecordBatch) : List (String × List Row) :=
  (b.tables.filter fun (_, rows) => !rows.isEmpty).map fun (name, rows) => (name, rows.toList)

/-- Takes a point in, if it has a time and at least one value. -/
def append (b : RecordBatch) (r : Record) : Except Failure RecordBatch :=
  match r.row.timestampAndValues with
  | .error fault => .error (.parse fault)
  | .ok _ =>
    if r.row.valueCount = 0 then .error (.parse (.emptyRow r.measurement))
    else .ok {
      tables := b.tables.update r.measurement fun rows => (rows.getD #[]).push r.row
      rows := b.rows + 1
      metrics := b.metrics + r.row.valueCount }

/-- Forgets the rows and keeps the tables. -/
def reset (b : RecordBatch) : RecordBatch :=
  ⟨b.tables.map fun (name, _) => (name, #[]), 0, 0⟩

instance : Batch RecordBatch Record where
  empty := empty
  counts b := ⟨b.rows, b.metrics⟩
  append := append
  reset := reset

end RecordBatch

/-! ### Replay -/

namespace Header

/-- The tags of the first line of a header. -/
def readTagLine (line : String) : Except ParseFault Header :=
  let line := Text.trim line
  match Text.split ',' line with
  | [] => .error (.headerStart line)
  | mark :: tags =>
    if mark ≠ tagsMark then .error (.headerStart line)
    else tags.foldlM (fun header tag =>
      match Text.splitOnce ' ' tag with
      | some (key, type) => .ok (header.withTag key type)
      | none => .error (.headerTag tag)) Header.empty

/-- The lines of the measurements, up to a blank line. -/
def readMeasurements (header : Header) : Input → Except ParseFault Header × Input
  | [] => (.error .headerOpen, [])
  | .malformed :: rest => (.error .notUtf8, rest)
  | .text content :: rest =>
    let line := Text.trim content
    if line.isEmpty then (.ok header, rest)
    else match Text.split ',' line with
      | [] => readMeasurements header rest
      | name :: fields => readMeasurements (header.withMeasurement name fields) rest

/-- Reads a header from the start of an input. -/
def read (input : Input) : Except ParseFault Header × Input :=
  match input.readLine with
  | (.error fault, rest) => (.error fault, rest)
  | (.ok none, rest) => (.error .headerMissing, rest)
  | (.ok (some line), rest) =>
    match readTagLine line with
    | .error fault => (.error fault, rest)
    | .ok header => header.readMeasurements rest

end Header

/-- Replays points from an input that starts with a header. The header is read once, before the first
    point. -/
structure RecordSource where
  input : Input
  header : Option Header

namespace RecordSource

def ofInput (input : Input) : RecordSource := ⟨input, none⟩

def headers (s : RecordSource) : Except Failure Header × RecordSource :=
  match s.header with
  | some header => (.ok header, s)
  | none =>
    match Header.read s.input with
    | (.ok header, rest) => (.ok header, ⟨rest, some header⟩)
    | (.error fault, rest) => (.error (.parse fault), ⟨rest, none⟩)

/-- The next point of an input behind its header. A point whose lines are faulty is passed over. -/
def nextRecord (header : Header) (input : Input) : Except ParseFault (Option Record) × Input :=
  match input.readFilled with
  | (.error fault, rest) => (.error fault, rest)
  | (.ok none, rest) => (.ok none, rest)
  | (.ok (some tags), rest) =>
    match rest.readLine with
    | (.error fault, rest) => (.error fault, rest)
    | (.ok none, rest) => (.error (.dataLineMissing tags), rest)
    | (.ok (some data), rest) =>
      (do
        let record ← Record.read tags data
        record.check header
        return some record, rest)

/-- The next point that fits the header. -/
def next (s : RecordSource) : Except Failure (Option Record) × RecordSource :=
  match s.headers with
  | (.error failure, s) => (.error failure, s)
  | (.ok header, s) =>
    match nextRecord header s.input with
    | (.ok record, rest) => (.ok record, { s with input := rest })
    | (.error fault, rest) => (.error (.parse fault), { s with input := rest })

end RecordSource
end IngestBench
