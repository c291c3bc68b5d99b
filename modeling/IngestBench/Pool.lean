/-! A pool of objects that are used again. The object put back last is handed out first; an object beyond the
    pool's room is dropped. -/

namespace IngestBench

/-- The idle objects, latest first, and how many objects were made and handed out again. -/
structure Pool (α : Type) where
  idle : List α
  maxIdle : Nat
  created : Nat
  reused : Nat
  deriving Repr, Inhabited

namespace Pool

variable {α : Type}

/-- The room of a pool if nothing else is said. -/
def standardRoom : Nat := 1024

/-- A pool without objects. -/
def empty (maxIdle : Nat) : Pool α := ⟨[], maxIdle, 0, 0⟩

/-- Hands out an idle object, or makes one; `make` is given the number of objects made before. -/
def get (make : Nat → α) (p : Pool α) : α × Pool α :=
  match p.idle with
  | x :: rest => (x, { p with idle := rest, reused := p.reused + 1 })
  | [] => (make p.created, { p with created := p.created + 1 })

/-- Takes an object back, if there is room. -/
def put (x : α) (p : Pool α) : Pool α :=
  if p.idle.length < p.maxIdle then { p with idle := x :: p.idle } else p

/-- Room and counts in one line. -/
def describe (p : Pool α) : String :=
  "Pool \x7b max_idle: " ++ Nat.repr p.maxIdle ++ ", stats: PoolStats \x7b created: " ++ Nat.repr p.created ++
    ", reused: " ++ Nat.repr p.reused ++ ", idle: " ++ Nat.repr p.idle.length ++ " \x7d \x7d"

theorem length_idle_put_le (x : α) (p : Pool α) (h : p.idle.length ≤ p.maxIdle) :
    (p.put x).idle.length ≤ (p.put x).maxIdle := by
  unfold put
  split
  · simp only [List.length_cons]; omega
  · exact h

end Pool
end IngestBench
