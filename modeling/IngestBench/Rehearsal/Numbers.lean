import IngestBench.Batch

/-! Batches of numbers, for rehearsals. Points are numbers with a partition, and negative ones are refused. -/

namespace IngestBench
namespace Rehearsal

structure Numbers where
  values : List Int
  deriving Repr, DecidableEq

instance : Batch Numbers (Nat × Int) where
  empty := ⟨[]⟩
  counts b := ⟨b.values.length, b.values.length⟩
  append b point :=
    if point.2 < 0 then .error (.parse (.described s!"negative value {point.2}")) else .ok ⟨b.values ++ [point.2]⟩
  reset _ := ⟨[]⟩

end Rehearsal
end IngestBench
