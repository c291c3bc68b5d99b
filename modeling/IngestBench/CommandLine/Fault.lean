import IngestBench.CommandLine.Host
import IngestBench.Target.Registry
import IngestBench.Text.Quoted

/-! Why a command did not do what it was asked for. -/

namespace IngestBench
namespace CommandLine

/-- Where settings come from. -/
inductive Origin
  | document (path : String)
  | environment
  /-- The flags, on top of settings that are in order. -/
  | flags
  /-- A document that was only to be checked. -/
  | checked (path : String)
  deriving Repr, DecidableEq

/-- What is said of settings that cannot be used. -/
def Origin.complaint : Origin → String
  | .document path => "Failed to load configuration from " ++ Text.quoted path
  | .environment => "Failed to load configuration from environment"
  | .flags => "Invalid configuration after applying flags"
  | .checked path => "Configuration " ++ Text.quoted path ++ " is invalid"

/-- What was to be done to a file. -/
inductive FileTask
  | create (path : String)
  | fill (path : String)
  | makeDirectory
  | writeSample
  deriving Repr, DecidableEq

/-- What is said of a task that was not done. -/
def FileTask.complaint : FileTask → String
  | .create path => "Failed to create " ++ Text.quoted path
  | .fill path => "Failed to write " ++ Text.quoted path
  | .makeDirectory => "Failed to create output directory"
  | .writeSample => "Failed to write configuration file"

inductive Fault
  | settings (origin : Origin) (fault : Config.Fault)
  | logLevel (text : String)
  | target (fault : Target.Fault)
  | noDocument (path : String)
  | outputTaken (path : String)
  | file (task : FileTask) (fault : FileFault)
  /-- A sum or a date that does not fit, after which there is no answer at all. -/
  | overflow
  /-- A load that is not over when it should be. -/
  | unfinished
  deriving Repr, DecidableEq

namespace Fault

/-- The wording of the fault, from the outside to its cause. -/
def message : Fault → String
  | .settings origin fault => ": ".intercalate (origin.complaint :: fault.message :: fault.causes)
  | .logLevel text => LogLevel.unknownMessage text
  | .target fault => ": ".intercalate (fault.message :: fault.causes)
  | .noDocument path => "Configuration file not found: " ++ Text.quoted path
  | .outputTaken path => "Output file already exists: " ++ Text.quoted path ++ ". Use --force to overwrite."
  | .file task fault => task.complaint ++ ": " ++ fault.message
  | .overflow => "overflow"
  | .unfinished => "the run did not end"

/-- The stage that failed. -/
def stage : Fault → String
  | .settings _ _ => "config"
  | .target fault => fault.stage
  | _ => "cli"

/-- The line that reports the fault. -/
def describe (f : Fault) : String := "error: [" ++ f.stage ++ "] " ++ f.message

def ofSettings (origin : Origin) : Config.Fault → Fault
  | .overflow => .overflow
  | fault => .settings origin fault

def ofBreakdown : Breakdown → Fault
  | .failed failure => .target (.load failure)
  | .overflow => .overflow

end Fault
end CommandLine
end IngestBench
