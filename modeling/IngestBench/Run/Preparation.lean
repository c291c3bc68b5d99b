import IngestBench.Failure

/-! Preparation of the database before a run: one of the same name is removed, unless that is forbidden, and a new
    one is created. -/

namespace IngestBench
namespace Run

/-- What manages the databases of a store, with a state `κ` of its own. -/
structure Keeper (κ : Type) where
  open' : κ → Except Failure Unit × κ
  contains : String → κ → Except Failure Bool × κ
  remove : String → κ → Except Failure Unit × κ
  create : String → κ → Except Failure Unit × κ
  close : κ → κ

namespace Keeper

variable {κ : Type}

/-- Removes a database that is in the way and creates a new one. -/
def replace (keeper : Keeper κ) (name : String) (abortOnExist : Bool) (s : κ) : Except Failure Unit × κ :=
  match keeper.contains name s with
  | (.error failure, s) => (.error failure, s)
  | (.ok false, s) => keeper.create name s
  | (.ok true, s) =>
    if abortOnExist then (.error (.setup (.exists name)), s)
    else match keeper.remove name s with
      | (.error failure, s) => (.error failure, s)
      | (.ok _, s) => keeper.create name s

/-- Prepares the database. A keeper that was opened is closed, whatever happens. -/
def prepare (keeper : Keeper κ) (name : String) (abortOnExist : Bool) (s : κ) : Except Failure Unit × κ :=
  match keeper.open' s with
  | (.error failure, s) => (.error failure, s)
  | (.ok _, s) =>
    let (result, s) := keeper.replace name abortOnExist s
    (result, keeper.close s)

end Keeper
end Run
end IngestBench
