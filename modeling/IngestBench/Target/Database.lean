import IngestBench.Json
import IngestBench.Run.Preparation
import IngestBench.Target.Endpoint

/-! Databases of a store that is asked in statements: which there are, and how one is dropped or created. -/

namespace IngestBench
namespace Database

/-! ### Statements -/

/-- A name in double quotes. -/
def quoted (name : String) : String := "\"" ++ name ++ "\""

def showStatement : String := "SHOW DATABASES"

def dropStatement (name : String) : String := "DROP DATABASE " ++ quoted name

def createStatement (name : String) (replication : Nat) : String :=
  "CREATE DATABASE " ++ quoted name ++ " WITH REPLICATION " ++ Nat.repr replication

/-- A request below the path for statements. -/
def request (method : Web.Method) (base : String) (pairs : List (String × String)) :
    Except Failure Web.Request := do
  let address ← endpoint base "/query"
  return { method := method, address := address.withPairs pairs, contentType := none
           compressed := false, body := "" }

/-- The request for the list of databases. -/
def listRequest (base : String) : Except Failure Web.Request :=
  request .get base [("q", showStatement)]

/-- The request that carries out a statement. -/
def changeRequest (base statement : String) : Except Failure Web.Request :=
  request .post base [("consistency", "all"), ("q", statement)]

def unreachable (r : Web.Request) : Failure := .setup (.unreachable r.address.write)

/-- What the answer to a statement means; `action` names the statement in messages. -/
def judgeChange (action : String) (r : Web.Request) : Web.Reply → Except Failure Unit
  | .unreachable => .error (unreachable r)
  | .answered response =>
    if response.status = 200 then .ok ()
    else .error (.setup (.statement action (Web.statusText response.status) (Text.trim response.body)))

/-! ### Listings -/

/-- The part of a name of an object with one known part, which may be missing. An array stands for an object with
    its parts in order. -/
def part? (name : String) : Json → Option (Option Json)
  | .object entries =>
    match entries.filter (·.1 == name) with
    | [] => some none
    | [(_, value)] => some (some value)
    | _ => none
  | .array [] => some none
  | .array [value] => some (some value)
  | _ => none

/-- The items of a part; a missing part has none. -/
def items? (name : String) (j : Json) : Option (List Json) := do
  match ← part? name j with
  | none => return []
  | some (.array items) => return items
  | some _ => failure

/-- The cells of a row. -/
def cells? : Json → Option (List String)
  | .array items => items.mapM fun
    | .string s => some s
    | _ => none
  | _ => none

/-- The rows of all series of all results. -/
def rows? (j : Json) : Option (List (List (List (List String)))) := do
  (← items? "results" j).mapM fun result => do
    (← items? "series" result).mapM fun series => do
      (← items? "values" series).mapM cells?

/-- The database that belongs to the store itself. -/
def internalName : String := "_internal"

/-- The databases of a listing: the first cell of each row of the first series of the first result. -/
def names? (text : String) : Option (List String) := do
  let results ← rows? (← Json.read text)
  let rows := (results.head? >>= List.head?).getD []
  return (rows.filterMap List.head?).filter (· != internalName)

/-- What the answer to the request for a list means. -/
def judgeList (r : Web.Request) : Web.Reply → Except Failure (List String)
  | .unreachable => .error (unreachable r)
  | .answered response =>
    if response.status ≠ 200 then
      .error (.setup (.listing (Web.statusText response.status) (Text.trim response.body)))
    else match names? response.body with
      | some names => .ok names
      | none => .error (.setup .unreadableListing)

/-! ### A store through its requests -/

variable {ω : Type}

/-- Sends a request, unless it cannot be made, and judges the reply. -/
def ask {α : Type} (network : Web.Network ω) (request : Except Failure Web.Request)
    (judge : Web.Request → Web.Reply → Except Failure α) (s : ω) : Except Failure α × ω :=
  match request with
  | .error failure => (.error failure, s)
  | .ok request =>
    let (reply, s) := network request s
    (judge request reply, s)

/-- The databases of a store. -/
def list (network : Web.Network ω) (base : String) : ω → Except Failure (List String) × ω :=
  ask network (listRequest base) judgeList

def drop (network : Web.Network ω) (base name : String) : ω → Except Failure Unit × ω :=
  ask network (changeRequest base (dropStatement name)) (judgeChange "drop db")

def create (network : Web.Network ω) (base : String) (replication : Nat) (name : String) :
    ω → Except Failure Unit × ω :=
  ask network (changeRequest base (createStatement name replication)) (judgeChange "create db")

/-- Whether there is a database of exactly this name. -/
def contains (network : Web.Network ω) (base name : String) (s : ω) : Except Failure Bool × ω :=
  let (names, s) := list network base s
  (names.map (·.contains name), s)

/-- What manages the databases of a store. -/
def keeper (network : Web.Network ω) (base : String) (replication : Nat) : Run.Keeper ω where
  open' := fun s => (.ok (), s)
  contains := contains network base
  remove := drop network base
  create := create network base replication
  close := id

end Database
end IngestBench
