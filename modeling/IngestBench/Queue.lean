/-! Bounded queues between the scan of a source and the workers. -/

namespace IngestBench

/-- A queue: first in, first out. -/
structure Queue (β : Type) where
  items : List β
  capacity : Nat
  /-- The receiving side takes no more; what is queued can still be taken out. -/
  closed : Bool
  /-- The sending side is gone. -/
  ended : Bool
  deriving Repr

namespace Queue

variable {β : Type}

/-- A queue for at least one item. -/
def new (capacity : Nat) : Queue β := ⟨[], max capacity 1, false, false⟩

/-- What becomes of an item that is offered. -/
inductive Offer (β : Type)
  | accepted (queue : Queue β)
  /-- There is no room now. -/
  | full
  /-- There will be no room: no one takes items out any more. -/
  | refused

/-- Puts an item at the end. -/
def offer (q : Queue β) (item : β) : Offer β :=
  if q.closed then .refused
  else if q.items.length < q.capacity then .accepted { q with items := q.items ++ [item] }
  else .full

/-- What is found at the front of a queue. -/
inductive Front (β : Type)
  | item (item : β) (rest : Queue β)
  /-- Nothing now, but more may come. -/
  | empty
  /-- Nothing, and nothing will come. -/
  | exhausted

/-- Looks at the front. -/
def front (q : Queue β) : Front β :=
  match q.items with
  | item :: rest => .item item { q with items := rest }
  | [] => if q.closed || q.ended then .exhausted else .empty

/-- Takes no more items in. -/
def close (q : Queue β) : Queue β := { q with closed := true }

/-- The sending side goes away. -/
def finish (q : Queue β) : Queue β := { q with ended := true }

/-- The last receiver goes away, and with it what is queued. -/
def abandon (q : Queue β) : Queue β := { q with items := [], closed := true }

/-- The queue that takes a partition, of so many queues. -/
def route (queues partition : Nat) : Nat := partition % queues

end Queue
end IngestBench
