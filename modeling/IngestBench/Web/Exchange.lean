import IngestBench.Web.Address
import IngestBench.Web.Status

/-! Requests and what comes of them. -/

namespace IngestBench
namespace Web

inductive Method
  | get
  | post
  deriving Repr, DecidableEq

def Method.name : Method → String
  | .get => "GET"
  | .post => "POST"

structure Request where
  method : Method
  address : Address
  contentType : Option String
  /-- Whether the body is compressed on its way. -/
  compressed : Bool
  body : String
  deriving Repr, DecidableEq

structure Response where
  status : Nat
  body : String
  deriving Repr, DecidableEq

/-- What comes of a request. -/
inductive Reply
  | answered (response : Response)
  /-- No one answered. -/
  | unreachable
  deriving Repr, DecidableEq

/-- What carries requests, with a state `ω` of its own. -/
abbrev Network (ω : Type) := Request → ω → Reply × ω

/-- A network on which no one answers. -/
def noNetwork : Network Unit := fun _ s => (.unreachable, s)

/-- Whether a status says that all went well. -/
def isSuccess (status : Nat) : Bool := 200 ≤ status && status < 300

end Web
end IngestBench
