import IngestBench.Text.Split

/-! How much is logged, and in which form. -/

namespace IngestBench

/-- How much is logged. -/
inductive LogLevel
  | error | warn | info | debug | trace
  deriving Repr, DecidableEq, Inhabited

/-- The form of a log. -/
inductive LogFormat
  | json | text | compact | pretty
  deriving Repr, DecidableEq, Inhabited

/-- The text with its letters in lower case. Only the letters of ASCII change: no other letter becomes one of
    a name that is looked for. -/
def lowered (s : String) : String := String.ofList (s.toList.map Char.toLower)

namespace LogLevel

def name : LogLevel → String
  | .error => "error"
  | .warn => "warn"
  | .info => "info"
  | .debug => "debug"
  | .trace => "trace"

def all : List LogLevel := [.error, .warn, .info, .debug, .trace]

/-- The level of a name in any case; there is a second name for warnings. -/
def ofText? (text : String) : Option LogLevel :=
  let word := lowered text
  if word = "warning" then some .warn else all.find? (·.name == word)

/-- What is said of a text that names no level. -/
def unknownMessage (text : String) : String := s!"Invalid log level: {text}"

end LogLevel

namespace LogFormat

def name : LogFormat → String
  | .json => "json"
  | .text => "text"
  | .compact => "compact"
  | .pretty => "pretty"

def all : List LogFormat := [.json, .text, .compact, .pretty]

/-- The form of a name in any case. -/
def ofText? (text : String) : Option LogFormat := all.find? (·.name == lowered text)

/-- What is said of a text that names no form. -/
def unknownMessage (text : String) : String := s!"Invalid log format: {text}"

end LogFormat
end IngestBench
