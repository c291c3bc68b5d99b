import IngestBench.Config.Document

/-! Settings from environment variables, which go before those of a document. The variables are taken in a fixed
    order, so that of two faults the first is reported. -/

namespace IngestBench
namespace Config

/-- The values of environment variables. -/
abbrev Environment := String → Option String

/-- A variable and what its text changes. -/
structure Override where
  name : String
  put : String → Settings → Except Misfit Settings

namespace Override

/-- A variable whose text is read by `read`. -/
def reading {α : Type} (name : String) (read : String → Except Misfit α) (put : α → Settings → Settings) :
    Override :=
  ⟨name, fun text s => do return put (← read text) s⟩

def text (name : String) (put : String → Settings → Settings) : Override := reading name .ok put

def whole (name : String) (put : Nat → Settings → Settings) : Override :=
  reading name (fun t => (Text.readNat Text.maxWord64 (Text.trimChars t.toList)).mapError .integer) put

def number (name : String) (put : Float → Settings → Settings) : Override :=
  reading name (fun t => (Decimal.readFloat (Text.trimChars t.toList)).mapError .float) put

def switch (name : String) (put : Bool → Settings → Settings) : Override :=
  reading name (fun t => match Text.trim t with
    | "true" => .ok true
    | "false" => .ok false
    | _ => .error .switch) put

def span (name : String) (put : Span → Settings → Settings) : Override :=
  reading name (fun t => (Span.ofHuman (Text.trim t)).mapError .span) put

/-- A variable with one of some words, which are not trimmed. -/
def word {α : Type} (name : String) (ofText? : String → Option α) (put : α → Settings → Settings) : Override :=
  reading name (fun t => match ofText? t with
    | some value => .ok value
    | none => .error (.word t)) put

/-- The variables that change settings of a run. -/
def run : List Override := [
  text "DB_NAME" fun v s => { s with run.database := v },
  whole "BATCH_SIZE" fun v s => { s with run.batchSize := v },
  whole "WORKERS" fun v s => { s with run.workers := v },
  whole "PARTITIONS" fun v s => { s with run.partitions := v },
  whole "LIMIT" fun v s => { s with run.limit := v },
  switch "HASH_WORKERS" fun v s => { s with run.hashWorkers := v },
  switch "DO_LOAD" fun v s => { s with run.sending := v },
  switch "DO_CREATE_DB" fun v s => { s with run.createDatabase := v },
  span "REPORTING_PERIOD" fun v s => { s with run.reportingPeriod := v },
  span "MAX_RUN_TIME" fun v s => { s with run.maxRunTime := some v }]

/-- The variables that change settings of the source of points. -/
def source : List Override := [
  word "DATA_SOURCE" (fun t => SourceKind.ofName? (lowered t)) fun v s => { s with source.kind := v },
  text "FILE" fun v s => { s with source.location := v },
  whole "SCALE" fun v s => { s with source.simulator.scale := v },
  whole "SEED" fun v s => { s with source.simulator.seed := v }]

/-- Addresses between commas; blank ones are left out. -/
def addresses (text : String) : List String :=
  ((Text.split ',' text).map Text.trim).filter (!·.isEmpty)

/-- The variables that change settings of the target. A rate also turns the limiter on. -/
def target : List Override := [
  text "TARGET" fun v s => { s with target.name := v },
  text "URLS" fun v s => { s with target.urls := addresses v },
  span "BACKOFF" fun v s => { s with target.backoff := v },
  switch "GZIP" fun v s => { s with target.gzip := v },
  number "LIMITER_MAX_RATE" fun v s =>
    { s with target.limiter := { s.target.limiter with enabled := true, maxRate := v } }]

/-- The variables that change settings of the log. -/
def log : List Override := [
  word "LOG_LEVEL" LogLevel.ofText? fun v s => { s with log.level := v },
  word "LOG_FORMAT" LogFormat.ofText? fun v s => { s with log.format := v }]

/-- All variables in their order. -/
def all : List Override := run ++ source ++ target ++ log

/-- Changes settings by a variable if it is set. Its full name begins with the name of the program. -/
def apply (program : String) (env : Environment) (s : Settings) (o : Override) : Except Fault Settings :=
  match env (program ++ "_" ++ o.name) with
  | none => .ok s
  | some text => (o.put text s).mapError fun
    | .span .overflow => .overflow
    | misfit => .override o.name misfit

end Override

/-- The name with which variables begin. -/
def programName : String := "TSBENCH"

end Config

namespace Settings

/-- Changes settings by the environment. -/
def withEnvironment (program : String) (env : Config.Environment) (s : Settings) : Except Config.Fault Settings :=
  Config.Override.all.foldlM (Config.Override.apply program env) s

/-- Settings from a document, if there is one, and from the environment; they have passed all checks. -/
def load (processors : Nat) (program : String) (env : Config.Environment) (document : Option String) :
    Except Config.Fault Settings := do
  let s ← match document with
    | some text => ofDocument processors text
    | none => pure (standard processors)
  let s ← s.withEnvironment program env
  s.check
  return s

end Settings
end IngestBench
