import IngestBench.Config
import IngestBench.Json.Writer

/-! Settings as JSON values, under the names that documents use. Lengths of time are texts, and so is the rate of
    the limiter, as it need not be a number that JSON knows. -/

namespace IngestBench

/-- A member for a value that may be missing. -/
private def memberIf {α : Type} (name : String) (f : α → Json) (value : Option α) : List (String × Json) :=
  (value.map fun x => (name, f x)).toList

def RunSettings.json (s : RunSettings) : Json :=
  .object ([("db_name", (s.database : Json)), ("batch_size", s.batchSize), ("workers", s.workers),
    ("partitions", s.partitions), ("limit", s.limit), ("hash_workers", s.hashWorkers), ("do_load", s.sending),
    ("do_create_db", s.createDatabase), ("do_abort_on_exist", s.abortOnExist),
    ("reporting_period", s.reportingPeriod.human), ("shutdown_grace", s.shutdownGrace.human),
    ("channel_capacity", s.queueCapacity)] ++ memberIf "max_run_time" (fun t : Span => t.human) s.maxRunTime)

def Simulation.Settings.json (s : Simulation.Settings) : Json :=
  .object [("use_case", s.useCase), ("scale", s.scale), ("seed", s.seed), ("timestamp_start", s.start.write),
    ("timestamp_end", s.stop.write), ("log_interval", s.interval.human), ("max_data_points", s.maxPoints)]

def SourceSettings.json (s : SourceSettings) : Json :=
  .object [("type", s.kind.name), ("file", .object [("location", s.location)]), ("simulator", s.simulator.json)]

def TargetSettings.json (s : TargetSettings) : Json :=
  .object ([("name", (s.name : Json)), ("urls", .ofStrings s.urls), ("backoff", s.backoff.human), ("gzip", s.gzip),
    ("consistency", s.consistency), ("replication_factor", s.replication), ("timeout", s.timeout.human),
    ("limiter", .object [("enabled", s.limiter.enabled), ("max_rate", Decimal.plain s.limiter.maxRate),
      ("bucket_size", s.limiter.bucketSize)])] ++ memberIf "write_path" .string s.writePath)

def LogSettings.json (s : LogSettings) : Json :=
  .object [("level", s.level.name), ("format", s.format.name), ("include_location", s.includeLocation)]

def Settings.json (s : Settings) : Json :=
  .object [("runner", s.run.json), ("data_source", s.source.json), ("target", s.target.json),
    ("logging", s.log.json)]

end IngestBench
