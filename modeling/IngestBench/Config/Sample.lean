import IngestBench.Config.Document
import IngestBench.Decimal.Shortest

/-! Settings written as a document, for a file to start from. -/

namespace IngestBench
namespace Config
namespace Sample

open Yaml (Node)

/-- A text as a scalar: plain if it is read back as that, else in quotes. -/
def scalar (s : String) : String :=
  match Node.ofText? s with
  | some (.scalar t .plain none) => if t = s then s else "'" ++ s ++ "'"
  | _ => "'" ++ s ++ "'"

/-- The blanks before an entry. -/
def indent (depth : Nat) : String := String.ofList (List.replicate (2 * depth) ' ')

/-- The name of a part. -/
def heading (depth : Nat) (name : String) : String := indent depth ++ name ++ ":\n"

/-- The entry of a value. -/
def entry (depth : Nat) (name value : String) : String :=
  indent depth ++ name ++ ": " ++ scalar value ++ "\n"

def whole (depth : Nat) (name : String) (n : Nat) : String := entry depth name (Nat.repr n)

def switch (depth : Nat) (name : String) (b : Bool) : String :=
  entry depth name (if b then "true" else "false")

/-- An item of a sequence; it stands as deep as the name of the sequence. -/
def item (depth : Nat) (value : String) : String := indent depth ++ "- " ++ scalar value ++ "\n"

def run (s : RunSettings) : String :=
  heading 0 "runner" ++ entry 1 "db_name" s.database ++ whole 1 "batch_size" s.batchSize ++
    whole 1 "workers" s.workers ++ whole 1 "partitions" s.partitions ++ whole 1 "limit" s.limit ++
    switch 1 "hash_workers" s.hashWorkers ++ switch 1 "do_load" s.sending ++
    switch 1 "do_create_db" s.createDatabase ++ switch 1 "do_abort_on_exist" s.abortOnExist ++
    entry 1 "reporting_period" s.reportingPeriod.human ++
    (s.maxRunTime.map fun t => entry 1 "max_run_time" t.human).getD "" ++
    entry 1 "shutdown_grace" s.shutdownGrace.human ++ whole 1 "channel_capacity" s.queueCapacity

def source (s : SourceSettings) : String :=
  heading 0 "data_source" ++ entry 1 "type" s.kind.name ++
    heading 1 "file" ++ entry 2 "location" s.location ++
    heading 1 "simulator" ++ entry 2 "use_case" s.simulator.useCase ++ whole 2 "scale" s.simulator.scale ++
    whole 2 "seed" s.simulator.seed ++ entry 2 "timestamp_start" s.simulator.start.write ++
    entry 2 "timestamp_end" s.simulator.stop.write ++ entry 2 "log_interval" s.simulator.interval.human ++
    whole 2 "max_data_points" s.simulator.maxPoints

def target (s : TargetSettings) : String :=
  heading 0 "target" ++ entry 1 "name" s.name ++
    heading 1 "urls" ++ String.join (s.urls.map (item 1)) ++
    (s.writePath.map (entry 1 "write_path")).getD "" ++
    entry 1 "backoff" s.backoff.human ++ switch 1 "gzip" s.gzip ++ entry 1 "consistency" s.consistency ++
    whole 1 "replication_factor" s.replication ++ entry 1 "timeout" s.timeout.human ++
    heading 1 "limiter" ++ switch 2 "enabled" s.limiter.enabled ++
    entry 2 "max_rate" (Decimal.Layout.machine.write s.limiter.maxRate) ++ whole 2 "bucket_size" s.limiter.bucketSize

def log (s : LogSettings) : String :=
  heading 0 "logging" ++ entry 1 "level" s.level.name ++ entry 1 "format" s.format.name ++
    switch 1 "include_location" s.includeLocation

end Sample
end Config

/-- The settings as a document. -/
def Settings.document (s : Settings) : String :=
  Config.Sample.run s.run ++ Config.Sample.source s.source ++ Config.Sample.target s.target ++
    Config.Sample.log s.log

end IngestBench
