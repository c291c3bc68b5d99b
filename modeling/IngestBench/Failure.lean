import IngestBench.Span
import IngestBench.Text.Integer
import IngestBench.Web.Host

/-! Failures of a load run: each says what went wrong and in which stage. -/

namespace IngestBench

/-- Why an input record cannot be read. -/
inductive ParseFault
  /-- A line without exactly three columns. -/
  | columns (found : Nat)
  | notUtf8
  | tagsLine (line : String)
  | valuesMissing (line : String)
  | dataLineMissing (tags : String)
  | unknownMeasurement (name : String)
  | timestamp (text : String) (fault : Text.IntegerFault)
  | valueCount (measurement : String) (found listed : Nat)
  | emptyRow (measurement : String)
  | headerMissing
  | headerStart (line : String)
  | headerTag (tag : String)
  | headerOpen
  /-- A fault that a source of points words itself. -/
  | described (text : String)
  deriving Repr, DecidableEq

/-- Why a batch did not reach the store. -/
inductive SendFault
  | unreachable (url : String)
  | answered (url status body : String)
  /-- A fault that a writer words itself. -/
  | described (text : String)
  deriving Repr, DecidableEq

/-- Why the database could not be prepared. -/
inductive SetupFault
  | unreachable (url : String)
  | listing (status body : String)
  | unreadableListing
  | statement (action status body : String)
  | exists (database : String)
  /-- A fault that a creator words itself. -/
  | described (text : String)
  deriving Repr, DecidableEq

/-- Why a run cannot be set up from its settings. -/
inductive SetFault
  | unknownUseCase (name : String)
  | noHosts
  | interval (length : Span)
  | noUrls
  | url (text : String) (fault : Web.Fault)
  /-- A fault that a part of the run words itself. -/
  | described (text : String)
  deriving Repr, DecidableEq

/-- Misuse of one part of the program by another. -/
inductive InternalFault
  | partition (index count : Nat)
  | notConnected (writer : String)
  /-- A task that ended without its result. -/
  | crashed (text : String)
  | described (text : String)
  deriving Repr, DecidableEq

/-- What can stop a step of a run. -/
inductive Failure
  /-- The store asks for a pause; the only failure after which a batch is sent again. -/
  | backpressure
  | parse (fault : ParseFault)
  | send (fault : SendFault)
  /-- A batch was sent as often as allowed. -/
  | gaveUp (attempts : Nat) (last : Failure)
  | setup (fault : SetupFault)
  | config (fault : SetFault)
  | io (text : String)
  /-- A failure inside a worker. -/
  | worker (number : Nat) (cause : Failure)
  | cancelled
  | internal (fault : InternalFault)
  deriving Repr, DecidableEq, Inhabited

/-- The first column of a header and of a tags line. -/
def tagsMark : String := "tags"

def ParseFault.message : ParseFault → String
  | .columns found => s!"line does not have 3 tuples, has {found}"
  | .notUtf8 => "input is not valid UTF-8: stream did not contain valid UTF-8"
  | .tagsLine line => s!"data file in invalid format; got '{line}' expected '{tagsMark}'"
  | .valuesMissing line => s!"data line has no values: '{line}'"
  | .dataLineMissing tags => s!"data line missing after '{tags}'"
  | .unknownMeasurement name => s!"no field keys for measurement '{name}'"
  | .timestamp text fault => s!"invalid timestamp '{text}': " ++ fault.message
  | .valueCount measurement found listed =>
    s!"'{measurement}' row has {found} values, header lists {listed} fields"
  | .emptyRow measurement => s!"'{measurement}' row has no values"
  | .headerMissing => "ended too soon, no tags or cols read"
  | .headerStart line => s!"input header in wrong format. got '{line}', expected '{tagsMark}'"
  | .headerTag tag => s!"tag header has invalid format: '{tag}'"
  | .headerOpen => "ended too soon, header block is not terminated"
  | .described text => text

/-- A request that found no one to answer it. -/
def unreachableMessage (url : String) : String :=
  s!"request to {url} failed: error sending request for url ({url})"

def SendFault.message : SendFault → String
  | .unreachable url => unreachableMessage url
  | .answered url status body => s!"{url} returned {status}: {body}"
  | .described text => text

def SetupFault.message : SetupFault → String
  | .unreachable url => unreachableMessage url
  | .listing status body => s!"listing databases returned {status}: {body}"
  | .unreadableListing => "cannot parse database listing"
  | .statement action status body => s!"{action} returned non-200 code {status}: {body}"
  | .exists database => s!"database '{database}' exists and abort on exist is set"
  | .described text => text

def SetFault.message : SetFault → String
  | .unknownUseCase name => s!"unknown use case '{name}'"
  | .noHosts => "simulator scale must be at least 1"
  | .interval length => "invalid log interval " ++ length.technical
  | .noUrls => "no target urls configured"
  | .url text fault => s!"invalid URL '{text}': " ++ fault.message
  | .described text => text

def InternalFault.message : InternalFault → String
  | .partition index count => s!"indexer returned partition {index} of {count}"
  | .notConnected writer => s!"{writer} writer used before connect"
  | .crashed text => s!"task panicked: {text}"
  | .described text => text

namespace Failure

/-- The wording of the failure. -/
def message : Failure → String
  | .backpressure => "backend requested backoff"
  | .parse fault => "parse error: " ++ fault.message
  | .send fault => "send error: " ++ fault.message
  | .gaveUp attempts last => s!"send error: gave up after {attempts} attempts: " ++ last.message
  | .setup fault => "database setup error: " ++ fault.message
  | .config fault => "configuration error: " ++ fault.message
  | .io text => "I/O error: " ++ text
  | .worker number cause => s!"worker {number}: " ++ cause.message
  | .cancelled => "run cancelled"
  | .internal fault => "internal error: " ++ fault.message

/-- The failures behind this one, outermost first, in words. -/
def causes : Failure → List String
  | .io text => [text]
  | .worker _ cause => cause.message :: cause.causes
  | _ => []

/-- The stage of the run that failed. -/
def stage : Failure → String
  | .backpressure | .send _ | .gaveUp _ _ => "send"
  | .parse _ => "parse"
  | .setup _ => "setup"
  | .config _ => "config"
  | .io _ => "io"
  | .worker _ cause => cause.stage
  | .cancelled => "cancel"
  | .internal _ => "internal"

/-- Whether the store asked for a pause. -/
def isBackpressure : Failure → Bool
  | .backpressure => true
  | _ => false

/-- Whether sending the same batch again can help. -/
def isRetryable (f : Failure) : Bool := f.isBackpressure

/-- Whether the failure only says that the run was stopped. -/
def isCancelled : Failure → Bool
  | .cancelled => true
  | .worker _ cause => cause.isCancelled
  | _ => false

/-- The failure as one of a worker; the first worker to be named stays. -/
def inWorker (number : Nat) : Failure → Failure
  | .worker n cause => .worker n cause
  | f => .worker number f

theorem stage_inWorker (number : Nat) (f : Failure) : (f.inWorker number).stage = f.stage := by
  cases f <;> rfl

end Failure

/-- What ends a computation without its result: a failure that is reported, or a sum or a date that does
    not fit, after which there is no answer at all. -/
inductive Breakdown
  | failed (failure : Failure)
  | overflow
  deriving Repr, DecidableEq

end IngestBench
