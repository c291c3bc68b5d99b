import IngestBench.Config
import IngestBench.Yaml.Node

/-! Settings from a document. A document has an entry for each setting that differs from the standard; entries
    of other names are passed over, but no setting may be given twice. An empty value stands for a mapping without
    entries. -/

namespace IngestBench
namespace Config

open Yaml (Node)

/-- What a part of a document gives, or why it gives nothing. -/
abbrev Decoded (α : Type) := Except Fault α

/-! ### Single values -/

namespace Decode

def refuse {α : Type} : Decoded α := .error .document

/-- The text of a plain scalar; numbers and switches must be plain. A block that is tagged as the wanted kind
    counts as plain. -/
def plain? (kind : String) : Node → Option String
  | .scalar text .plain _ => some text
  | .scalar text .literal (some tag) => if tag = "tag:yaml.org,2002:" ++ kind then some text else none
  | _ => none

/-- Any scalar is a text. -/
def text : Node → Decoded String
  | .scalar text _ _ => .ok text
  | _ => refuse

def switch (n : Node) : Decoded Bool :=
  match plain? "bool" n with
  | some "true" | some "True" | some "TRUE" => .ok true
  | some "false" | some "False" | some "FALSE" => .ok false
  | _ => refuse

/-- The digits of a number in a base, at least one. -/
def digits (base : Nat) (cs : List Char) : Option Nat := do
  if cs.isEmpty then failure
  let values ← cs.mapM fun c => (Text.hexDigit? c).filter (· < base)
  return values.foldl (fun n d => base * n + d) 0

/-- A whole number in decimal, or with a mark of base 16, 8 or 2. Decimal numbers do not begin with a zero. -/
def readWhole (cs : List Char) : Option Nat :=
  let unsigned := match cs with
    | '+' :: rest => rest
    | _ => cs
  match unsigned with
  | '0' :: 'x' :: rest => digits 16 rest
  | '0' :: 'o' :: rest => digits 8 rest
  | '0' :: 'b' :: rest => digits 2 rest
  | '0' :: _ :: _ => none
  | _ => digits 10 unsigned

def whole (limit : Nat) (n : Node) : Decoded Nat :=
  match (plain? "int" n).bind (fun s => readWhole s.toList) with
  | some value => if value ≤ limit then .ok value else refuse
  | none => refuse

/-- A number that is finite, or a name of infinity or of no number; the latter has no sign. -/
def readNumber (s : String) : Option Float :=
  let (signed, unsigned) := match s.toList with
    | '+' :: rest => (rest.head?.any fun c => c == '+' || c == '-', String.ofList rest)
    | _ => (false, s)
  if signed then none
  else if [".inf", ".Inf", ".INF"].contains unsigned then some (1.0 / 0.0)
  else if ["-.inf", "-.Inf", "-.INF"].contains s then some (-1.0 / 0.0)
  else if [".nan", ".NaN", ".NAN"].contains s then some (0.0 / 0.0)
  else match Decimal.readFloat unsigned.toList with
    | .ok x => if x.isFinite then some x else none
    | .error _ => none

def number (n : Node) : Decoded Float :=
  match (plain? "float" n).bind readNumber with
  | some x => .ok x
  | none => refuse

def span (n : Node) : Decoded Span := do
  match Span.ofHuman (← text n) with
  | .ok s => return s
  | .error .overflow => throw .overflow
  | .error _ => refuse

def stamp (n : Node) : Decoded Stamp := do
  match Stamp.read (← text n) with
  | some s => return s
  | none => refuse

/-- The plain words for nothing. -/
def isNothing (s : String) : Bool := s.isEmpty || ["~", "null", "Null", "NULL"].contains s

/-- A value that may be left out by a word for nothing. -/
def optional {α : Type} (read : Node → Decoded α) : Node → Decoded (Option α)
  | .scalar text .plain none => if isNothing text then .ok none else some <$> read (.scalar text .plain none)
  | .scalar text .plain (some "tag:yaml.org,2002:null") =>
    if isNothing text && !text.isEmpty then .ok none else refuse
  | n => some <$> read n

/-- A sequence; an empty value has no items. -/
def list {α : Type} (read : Node → Decoded α) : Node → Decoded (List α)
  | .sequence _ items => items.mapM read
  | .scalar "" .plain _ => .ok []
  | _ => refuse

/-- One of some words, as a scalar or as a tag of nothing. -/
def word {α : Type} (choices : List α) (name : α → String) (n : Node) : Decoded α := do
  let own (tag : Option String) : Option String := do
    match (← tag).toList with
    | '!' :: rest => return if rest.isEmpty then "!" else String.ofList rest
    | _ => failure
  let given ← match n with
    | .scalar text style tag =>
      match own tag with
      | some word => if style = .plain ∧ isNothing text then pure word else refuse
      | none => pure text
    | _ => refuse
  match choices.find? (name · == given) with
  | some choice => return choice
  | none => refuse

/-! ### Entries -/

/-- How the entry of a name changes a part of the settings; nothing for names of no setting. -/
abbrev Entries (σ : Type) := String → Option (Node → σ → Decoded σ)

/-- The entry whose value is read by `read` and put into the settings by `put`. -/
def entry {σ α : Type} (read : Node → Decoded α) (put : α → σ → σ) : Option (Node → σ → Decoded σ) :=
  some fun n s => do return put (← read n) s

/-- Goes through the entries of a mapping; `seen` are the names of settings so far. -/
def entriesFrom {σ : Type} (known : Entries σ) : List (Node × Node) → List String → σ → Decoded σ
  | [], _, s => .ok s
  | (key, value) :: rest, seen, s => do
    let name ← text key
    match known name with
    | none => entriesFrom known rest seen s
    | some put =>
      if seen.contains name then refuse
      else entriesFrom known rest (name :: seen) (← put value s)

/-- Changes settings by a mapping. -/
def part {σ : Type} (known : Entries σ) (n : Node) (s : σ) : Decoded σ :=
  match n with
  | .mapping _ entries => entriesFrom known entries [] s
  | .scalar "" .plain _ => .ok s
  | _ => refuse

/-- The entry of a part within a part, which starts from its standard. -/
def nested {σ τ : Type} (known : Entries τ) (standard : τ) (put : τ → σ → σ) :
    Option (Node → σ → Decoded σ) :=
  entry (fun n => part known n standard) put

end Decode

open Decode

def runEntries : Entries RunSettings
  | "db_name" => entry text fun v s => { s with database := v }
  | "batch_size" => entry (whole Text.maxWord64) fun v s => { s with batchSize := v }
  | "workers" => entry (whole Text.maxWord64) fun v s => { s with workers := v }
  | "partitions" => entry (whole Text.maxWord64) fun v s => { s with partitions := v }
  | "limit" => entry (whole Text.maxWord64) fun v s => { s with limit := v }
  | "hash_workers" => entry switch fun v s => { s with hashWorkers := v }
  | "do_load" => entry switch fun v s => { s with sending := v }
  | "do_create_db" => entry switch fun v s => { s with createDatabase := v }
  | "do_abort_on_exist" => entry switch fun v s => { s with abortOnExist := v }
  | "reporting_period" => entry span fun v s => { s with reportingPeriod := v }
  | "max_run_time" => entry (optional span) fun v s => { s with maxRunTime := v }
  | "shutdown_grace" => entry span fun v s => { s with shutdownGrace := v }
  | "channel_capacity" => entry (whole Text.maxWord64) fun v s => { s with queueCapacity := v }
  | _ => none

def fileEntries : Entries SourceSettings
  | "location" => entry text fun v s => { s with location := v }
  | _ => none

def simulatorEntries : Entries Simulation.Settings
  | "use_case" => entry text fun v s => { s with useCase := v }
  | "scale" => entry (whole Text.maxWord64) fun v s => { s with scale := v }
  | "seed" => entry (whole Text.maxWord64) fun v s => { s with seed := v }
  | "timestamp_start" => entry stamp fun v s => { s with start := v }
  | "timestamp_end" => entry stamp fun v s => { s with stop := v }
  | "log_interval" => entry span fun v s => { s with interval := v }
  | "max_data_points" => entry (whole Text.maxWord64) fun v s => { s with maxPoints := v }
  | _ => none

def sourceEntries : Entries SourceSettings
  | "type" => entry (word [.file, .simulator] SourceKind.name) fun v s => { s with kind := v }
  | "file" => some (part fileEntries)
  | "simulator" => nested simulatorEntries .standard fun v s => { s with simulator := v }
  | _ => none

def limiterEntries : Entries (LimiterSettings Float)
  | "enabled" => entry switch fun v s => { s with enabled := v }
  | "max_rate" => entry number fun v s => { s with maxRate := v }
  | "bucket_size" => entry (whole Text.maxWord64) fun v s => { s with bucketSize := v }
  | _ => none

def targetEntries : Entries TargetSettings
  | "name" => entry text fun v s => { s with name := v }
  | "urls" => entry (list text) fun v s => { s with urls := v }
  | "write_path" => entry (optional text) fun v s => { s with writePath := v }
  | "backoff" => entry span fun v s => { s with backoff := v }
  | "gzip" => entry switch fun v s => { s with gzip := v }
  | "consistency" => entry text fun v s => { s with consistency := v }
  | "replication_factor" => entry (whole Text.maxWord32) fun v s => { s with replication := v }
  | "timeout" => entry span fun v s => { s with timeout := v }
  | "limiter" => nested limiterEntries .standard fun v s => { s with limiter := v }
  | _ => none

def logEntries : Entries LogSettings
  | "level" => entry (word LogLevel.all LogLevel.name) fun v s => { s with level := v }
  | "format" => entry (word LogFormat.all LogFormat.name) fun v s => { s with format := v }
  | "include_location" => entry switch fun v s => { s with includeLocation := v }
  | _ => none

def entries (processors : Nat) : Entries Settings
  | "runner" => nested runEntries (.standard processors) fun v s => { s with run := v }
  | "data_source" => nested sourceEntries .standard fun v s => { s with source := v }
  | "target" => nested targetEntries .standard fun v s => { s with target := v }
  | "logging" => nested logEntries .standard fun v s => { s with log := v }
  | _ => none

end Config

/-- The settings of a document. -/
def Settings.ofDocument (processors : Nat) (text : String) : Except Config.Fault Settings :=
  match Yaml.Node.ofText? text with
  | some node => Config.Decode.part (Config.entries processors) node (.standard processors)
  | none => .error .document

end IngestBench
