import IngestBench.Clock
import IngestBench.Failure

/-! Stores for rehearsals. A scripted store answers each attempt of a worker with the next cue of the worker's
    script, and writes down what it was sent. -/

namespace IngestBench
namespace Rehearsal

/-- A store as workers see it, with a state `τ` of its own. -/
structure Store (τ β : Type) where
  connect : Nat → τ → Except Failure Unit × τ
  /-- The answer to a batch that a worker sends at a time, and how long the answer takes. -/
  write : Nat → Time → β → τ → (Except Failure Unit × Span) × τ
  disconnect : Nat → τ → Except Failure Unit × τ

/-- An answer, and how long it takes. -/
structure Cue where
  answer : Except Failure Unit
  takes : Span

namespace Cue

/-- The word for an answer. -/
def word : Except Failure Unit → String
  | .ok _ => "ok"
  | .error .backpressure => "bp"
  | .error .cancelled => "cancelled"
  | .error _ => "fatal"

/-- The answer of a word. -/
def answerOf : String → Except Failure Unit
  | "bp" => .error .backpressure
  | "fatal" => .error (.send (.described "rejected"))
  | "cancelled" => .error .cancelled
  | _ => .ok ()

/-- A batch is taken at once. -/
def take : Cue := ⟨.ok (), .zero⟩

end Cue

/-- An attempt that a scripted store has seen. -/
structure Attempt (β : Type) where
  worker : Nat
  time : Time
  answer : Except Failure Unit
  batch : β

/-- A scripted store. -/
structure Script (β : Type) where
  /-- What is left of the scripts, in the order of the workers. -/
  cues : List (List Cue)
  /-- The cue when a script is over. -/
  rest : Cue
  /-- Workers that are not let in. -/
  barred : List Nat
  /-- Workers whose connections do not close well. -/
  stuck : List Nat
  /-- The attempts, latest first. -/
  seen : List (Attempt β)

namespace Script

variable {β : Type}

/-- The next cue for a worker. -/
def cueFor (s : Script β) (worker : Nat) : Cue := ((s.cues[worker]?.getD []).head?).getD s.rest

/-- Answers an attempt. -/
def write (worker : Nat) (now : Time) (batch : β) (s : Script β) : (Except Failure Unit × Span) × Script β :=
  let cue := s.cueFor worker
  ((cue.answer, cue.takes),
    { s with
      cues := s.cues.modify worker List.tail
      seen := ⟨worker, now, cue.answer, batch⟩ :: s.seen })

def connect (worker : Nat) (s : Script β) : Except Failure Unit × Script β :=
  (if s.barred.contains worker then .error (.config (.described "cannot connect")) else .ok (), s)

def disconnect (worker : Nat) (s : Script β) : Except Failure Unit × Script β :=
  (if s.stuck.contains worker then .error (.send (.described "cannot disconnect")) else .ok (), s)

/-- The store that plays a script. -/
def store : Store (Script β) β := ⟨connect, write, disconnect⟩

/-- The attempts of a worker, oldest first. -/
def attemptsOf (s : Script β) (worker : Nat) : List (Attempt β) :=
  (s.seen.filter (·.worker == worker)).reverse

end Script
end Rehearsal
end IngestBench
