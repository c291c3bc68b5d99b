import IngestBench.Record

/-! The text form that import endpoints read: one sample a line, `name\x7blabel="value"} value time`. Names hold
    letters, digits, `_` and `:`; label values are quoted. -/

namespace IngestBench
namespace Exposition

/-- A name in which every other character has become an underscore. -/
def nameChars (start : Bool) : List Char → List Char
  | [] => []
  | c :: cs =>
    let valid := c.isAlpha || c == '_' || c == ':' || (!start && c.isDigit)
    (if valid then c else '_') :: nameChars false cs

/-- A name as it may stand in a sample. -/
def name (s : String) : String := String.ofList (nameChars true s.toList)

/-- A label value with backslashes, quotes and line feeds escaped. -/
def quoteChars (cs : List Char) : List Char :=
  cs.flatMap fun c =>
    if c = '\\' then ['\\', '\\']
    else if c = '"' then ['\\', '"']
    else if c = '\n' then ['\\', 'n']
    else [c]

/-- The labels of a row in braces; nothing if there are none. -/
def labels (row : Row) : String :=
  let pairs := row.tagPairs.map fun (key, value) =>
    name key ++ "=\"" ++ String.ofList (quoteChars value.toList) ++ "\""
  if pairs.isEmpty then "" else "\x7b" ++ ",".intercalate pairs ++ "\x7d"

/-- The samples of a row, one for each field. -/
def rowSamples (measurement : String) (fields : List String) (row : Row) :
    Except ParseFault (List String) := do
  let (time, values) ← row.timestampAndValues
  if row.valueCount ≠ fields.length then
    throw (.valueCount measurement row.valueCount fields.length)
  let millis := time.tdiv 1000000
  let labels := labels row
  return (fields.zip values).map fun (field, value) =>
    name measurement ++ "_" ++ name field ++ labels ++ " " ++ value ++ " " ++ Text.int millis ++ "\n"

/-- The samples of a table. -/
def tableSamples (header : Header) (table : String × List Row) : Except ParseFault (List String) := do
  let some fields := header.fields? table.1 | throw (.unknownMeasurement table.1)
  let samples ← table.2.mapM (rowSamples table.1 fields)
  return samples.flatten

/-- The samples of a batch, table by table. -/
def samples (header : Header) (batch : RecordBatch) : Except ParseFault (List String) := do
  let tables ← batch.pending.mapM (tableSamples header)
  return tables.flatten

/-- The text of a batch and the count of its samples. -/
def render (header : Header) (batch : RecordBatch) : Except Failure (String × Nat) :=
  match samples header batch with
  | .ok lines => .ok (String.join lines, lines.length)
  | .error fault => .error (.parse fault)

end Exposition
end IngestBench
