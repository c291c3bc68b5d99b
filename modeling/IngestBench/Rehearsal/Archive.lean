import IngestBench.Run.Preparation

/-! Databases for rehearsals: one database is there or not, and one kind of request may fail. -/

namespace IngestBench
namespace Rehearsal

/-- Databases that note what they are asked, latest first. -/
structure Archive where
  present : Bool
  /-- The request that fails; empty if none does. -/
  failing : String
  asked : List String

namespace Archive

/-- Notes a request and answers it. -/
def ask {α : Type} (request name : String) (answer : α) (a : Archive) : Except Failure α × Archive :=
  (if a.failing == request then .error (.setup (.described (request ++ " failed"))) else .ok answer,
    { a with asked := (if name.isEmpty then request else request ++ " " ++ name) :: a.asked })

def keeper : Run.Keeper Archive where
  open' := ask "init" "" ()
  contains name a := a.ask "exists" name a.present
  remove name := ask "remove" name ()
  create name := ask "create" name ()
  close a := { a with asked := "close" :: a.asked }

end Archive
end Rehearsal
end IngestBench
