import IngestBench.Exposition
import IngestBench.Line
import IngestBench.Target.Endpoint

/-! The connection of a worker to a store: it knows where batches go and what their rows mean. -/

namespace IngestBench

/-- A batch that can be the body of a request. -/
class Payload (β : Type) where
  /-- The body, given the header of the data. -/
  body : β → Header → Except Failure String

instance : Payload LineBatch := ⟨fun b _ => .ok b.body⟩

instance : Payload RecordBatch := ⟨fun b header => (Exposition.render header b).map (·.1)⟩

namespace Target

structure Connection where
  address : Web.Address
  header : Header

/-- Connects a worker to its endpoint. Some stores take the database and the consistency with each batch. -/
def connect (t : Target) (settings : TargetSettings) (worker : Nat) (database : String) (header : Header) :
    Except Failure Connection := do
  let address ← t.endpointFor settings worker
  let address := match t with
    | .influx => address.withPairs [("db", database), ("consistency", settings.consistency)]
    | .victoriaMetrics | .prometheus => address
  return ⟨address, header⟩

/-- The type of the content of a batch. -/
def contentType : Target → String
  | .influx => "text/plain; charset=utf-8"
  | .victoriaMetrics => "text/plain"
  | .prometheus => "text/plain; version=0.0.4"

/-- The request that carries a batch; only a worker that has connected can make one. -/
def request {β : Type} [Payload β] (t : Target) (settings : TargetSettings) (connection : Option Connection)
    (batch : β) : Except Failure Web.Request := do
  let some c := connection | throw (.internal (.notConnected t.name))
  let body ← Payload.body batch c.header
  return { method := .post, address := c.address, contentType := some t.contentType
           compressed := settings.gzip, body := body }

/-- Sends a batch and reads the answer. -/
def send {β ω : Type} [Payload β] (t : Target) (settings : TargetSettings) (network : Web.Network ω)
    (connection : Option Connection) (batch : β) (s : ω) : Except Failure Unit × ω :=
  match t.request settings connection batch with
  | .error failure => (.error failure, s)
  | .ok request =>
    let (reply, s) := network request s
    (t.judge request.address reply, s)

end Target
end IngestBench
