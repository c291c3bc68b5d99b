import IngestBench.Decimal.Reader
import IngestBench.Span.Human
import IngestBench.Stamp
import IngestBench.Web.Host

/-! What can be wrong with settings. -/

namespace IngestBench
namespace Config

/-- What is wrong with a value that could be read. -/
inductive Flaw
  | empty (field : String)
  /-- A number that is zero or below. -/
  | notPositive (field value : String)
  /-- A length of time that is zero. -/
  | zero (field : String)
  | noUrls
  | url (field : String) (fault : Web.Fault)
  | scheme (field found : String)
  | writePath (path : String)
  | choice (field value : String) (choices : List String)
  | window (start stop : Stamp)
  deriving Repr, DecidableEq

def Flaw.message : Flaw → String
  | .empty field => s!"{field} cannot be empty"
  | .notPositive field value => s!"{field} must be greater than 0, got {value}"
  | .zero field => s!"{field} must be greater than 0"
  | .noUrls => "At least one url must be configured"
  | .url field fault => s!"{field} has invalid URL format: " ++ fault.message
  | .scheme field found => s!"{field} scheme '{found}' not supported (only http/https)"
  | .writePath path => s!"write_path must start with '/', got '{path}'"
  | .choice field value choices =>
    s!"{field} has invalid value '{value}'. Valid choices: " ++ ", ".intercalate choices
  | .window start stop =>
    "timestamp_end (" ++ stop.describe ++ ") must be after timestamp_start (" ++ start.describe ++ ")"

/-- Why the text of an environment variable is not a value. -/
inductive Misfit
  | integer (fault : Text.IntegerFault)
  | float (fault : Decimal.FloatFault)
  | switch
  | span (fault : Span.Fault)
  /-- A word that is not one of those allowed. -/
  | word (text : String)
  deriving Repr, DecidableEq

def Misfit.message : Misfit → String
  | .integer fault => fault.message
  | .float fault => fault.message
  | .switch => "provided string was not `true` or `false`"
  | .span fault => fault.message
  | .word text => text

/-- Why there are no settings. -/
inductive Fault
  | unreadable (text : String)
  /-- A document of wrong form, or with a value of the wrong kind. -/
  | document
  | override (name : String) (reason : Misfit)
  | invalid (domain : String) (flaw : Flaw)
  /-- A length of time whose sum does not fit; the reader gives up without an answer. -/
  | overflow
  deriving Repr, DecidableEq

def Fault.message : Fault → String
  | .unreadable text => "cannot read config file: " ++ text
  | .document => "cannot parse config"
  | .override name reason => s!"invalid environment override: Invalid {name}: " ++ reason.message
  | .invalid domain flaw => s!"invalid {domain} config: " ++ flaw.message
  | .overflow => "overflow"

/-- The failures behind a fault, in words. -/
def Fault.causes : Fault → List String
  | .unreadable text => [text]
  | _ => []

end Config
end IngestBench
