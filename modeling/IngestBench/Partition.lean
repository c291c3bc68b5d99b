import IngestBench.Batch

/-! Sending points to partitions by a hash of their keys. -/

namespace IngestBench
namespace Partition

/-- The 32-bit Fowler–Noll–Vo hash, first variant: multiply, then combine with the byte. -/
def fnv1 (bytes : List UInt8) : UInt32 :=
  bytes.foldl (fun hash byte => hash * 0x01000193 ^^^ byte.toUInt32) 0x811c9dc5

/-- The count of partitions in use; there is at least one. -/
def effective (partitions : Nat) : Nat := max partitions 1

/-- The partition of a key by its hash. -/
def hashed (partitions : Nat) (key : List UInt8) : Nat :=
  (fnv1 key).toNat % effective partitions

/-- The partition of a point: by hash when there is more than one. -/
def of {π : Type} [Keyed π] (partitions : Nat) (point : π) : Nat :=
  if 1 < partitions then hashed partitions (Keyed.key point) else 0

theorem hashed_lt (partitions : Nat) (key : List UInt8) : hashed partitions key < effective partitions :=
  Nat.mod_lt _ (by unfold effective; omega)

end Partition
end IngestBench
