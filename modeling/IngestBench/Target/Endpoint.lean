import IngestBench.Config
import IngestBench.Target.Registry
import IngestBench.Web.Exchange

/-! Where the batches of a worker go, and what the answers of a store mean. -/

namespace IngestBench

/-- The address of a path below a base. -/
def endpoint (base path : String) : Except Failure Web.Address :=
  let joined := Web.joinText base path
  (Web.Address.read joined).mapError fun fault => .config (.url joined fault)

/-- The failure of a request that was answered, but neither taken nor pushed back. -/
def refusal (address : Web.Address) (response : Web.Response) : Failure :=
  .send (.answered address.write (Web.statusText response.status) (Text.trim response.body))

namespace Target

/-- The path for batches where the settings name none. -/
def defaultPath : Target → String
  | .influx | .victoriaMetrics => "/write"
  | .prometheus => "/api/v1/import/prometheus"

/-- The address for the batches of a worker. -/
def endpointFor (t : Target) (settings : TargetSettings) (worker : Nat) : Except Failure Web.Address :=
  match settings.urlFor? worker with
  | none => .error (.config .noUrls)
  | some base => endpoint base (settings.writePath.getD t.defaultPath)

/-- Texts of answers that ask for a pause. -/
def pauseMarks : List String :=
  ["hinted handoff queue not empty", "engine: cache maximum memory size exceeded",
   "cache-max-memory-size exceeded"]

/-- Whether an answer asks for a pause. -/
def asksForPause (t : Target) (response : Web.Response) : Bool :=
  match t with
  | .influx => response.status == 503 || pauseMarks.any (Text.contains response.body)
  | .victoriaMetrics | .prometheus => response.status == 429 || response.status == 503

/-- Whether an answer says that a batch was taken. -/
def accepts (t : Target) (response : Web.Response) : Bool :=
  match t with
  | .influx | .victoriaMetrics => response.status == 204
  | .prometheus => Web.isSuccess response.status

/-- What an answer means for the batch that was sent. -/
def judge (t : Target) (address : Web.Address) : Web.Reply → Except Failure Unit
  | .unreachable => .error (.send (.unreachable address.write))
  | .answered response =>
    if t.accepts response then .ok ()
    else if t.asksForPause response then .error .backpressure
    else .error (refusal address response)

end Target
end IngestBench
