import IngestBench.Clock

/-! Stopping a run. A graceful stop ends the reading of points and lets queued batches drain; a forced stop also
    gives up batches that are still being sent again. Levels only rise. -/

namespace IngestBench

/-- How urgent a stop is. -/
inductive StopLevel
  | graceful
  | forced
  deriving Repr, DecidableEq, Inhabited

namespace StopLevel

def name : StopLevel → String
  | .graceful => "graceful"
  | .forced => "forced"

def ofName? (name : String) : Option StopLevel := [graceful, forced].find? (·.name == name)

/-- Whether a level is at least as urgent as another. -/
def covers : StopLevel → StopLevel → Bool
  | .graceful, .forced => false
  | _, _ => true

theorem covers_refl (l : StopLevel) : l.covers l = true := by cases l <;> rfl

end StopLevel

/-- Why a request to stop has no effect, or cannot be made. -/
inductive StopFault
  /-- The level in force is at least as urgent. -/
  | already (level : StopLevel)
  /-- Interrupts cannot be listened for. -/
  | handler (text : String)
  deriving Repr, DecidableEq

/-- The wording of the fault. -/
def StopFault.message : StopFault → String
  | .already level => s!"Shutdown already at {level.name} level"
  | .handler text => s!"Failed to listen for interrupt signal: {text}"

/-- The level in force; none while the run goes on. -/
abbrev Stop := Option StopLevel

namespace Stop

/-- Whether a level, or a more urgent one, is in force. -/
def reached (s : Stop) (level : StopLevel) : Bool := s.any (·.covers level)

def isStopping (s : Stop) : Bool := s.isSome

def isForced (s : Stop) : Bool := s.reached .forced

/-- Asks for a level; granted if it is more urgent than the one in force. -/
def request (s : Stop) (level : StopLevel) : Except StopFault Stop :=
  match s with
  | none => .ok (some level)
  | some current => if current.covers level then .error (.already current) else .ok (some level)

/-- The level in force after a request. -/
def raise (s : Stop) (level : StopLevel) : Stop :=
  match s.request level with
  | .ok s => s
  | .error _ => s

theorem reached_raise_of_reached {s : Stop} {l : StopLevel} (level : StopLevel) (h : s.reached l = true) :
    (s.raise level).reached l = true := by
  rcases s with _ | _ | _ <;> cases level <;> cases l <;> first | rfl | exact h

end Stop

/-- A timer that asks for a stop. -/
inductive StopTimer
  /-- Asks for a graceful stop. -/
  | stop (due : Time)
  /-- Waits for any stop, and gives it some time before it asks for a forced one. -/
  | grace (length : Span)
  /-- Asks for a forced stop. -/
  | force (due : Time)
  deriving Repr, DecidableEq

namespace StopTimer

/-- When the timer goes off, if that is known. -/
def due? : StopTimer → Option Time
  | .stop due | .force due => some due
  | .grace _ => none

/-- The level that the timer asks for. -/
def level : StopTimer → StopLevel
  | .stop _ => .graceful
  | .grace _ | .force _ => .forced

/-- The timer once a stop is in force. -/
def arm (now : Time) : StopTimer → StopTimer
  | .grace length => .force (now + length.nanos)
  | timer => timer

end StopTimer

/-- The level in force and the timers that may raise it. -/
structure Stopping where
  level : Stop
  timers : List StopTimer
  deriving Repr, DecidableEq

namespace Stopping

def none : Stopping := ⟨.none, []⟩

/-- Sets a new level in force; a timer that waited for a stop begins to count. -/
def enter (s : Stopping) (level : Stop) (now : Time) : Stopping :=
  { level, timers := if level.isStopping then s.timers.map (·.arm now) else s.timers }

/-- Asks for a level. -/
def request (s : Stopping) (level : StopLevel) (now : Time) : Except StopFault Stopping :=
  (s.level.request level).map fun l => s.enter l now

/-- The state after a request whose answer does not matter. -/
def raise (s : Stopping) (level : StopLevel) (now : Time) : Stopping := s.enter (s.level.raise level) now

/-- Starts a timer that asks for a graceful stop after a time. -/
def stopAfter (s : Stopping) (length : Span) (now : Time) : Stopping :=
  { s with timers := s.timers ++ [.stop (now + length.nanos)] }

/-- Starts a timer that forces a stop when it has been in force for a time. -/
def escalateAfter (s : Stopping) (length : Span) (now : Time) : Stopping :=
  let timer : StopTimer := .grace length
  { s with timers := s.timers ++ [if s.level.isStopping then timer.arm now else timer] }

/-- Plans a request for a time; one for the start is made at once. -/
def plan (s : Stopping) (level : StopLevel) (due : Time) : Stopping :=
  if due = 0 then s.raise level 0
  else
    let timer : StopTimer := match level with
      | .graceful => .stop due
      | .forced => .force due
    { s with timers := s.timers ++ [timer] }

/-- The first timer that is due, and the others. -/
def takeDue (now : Time) : List StopTimer → Option (StopTimer × List StopTimer)
  | [] => .none
  | timer :: rest =>
    if timer.due?.any (· ≤ now) then some (timer, rest)
    else (takeDue now rest).map fun (found, others) => (found, timer :: others)

/-- Lets a timer that is due ask for its level. -/
def fire (s : Stopping) (now : Time) : Option Stopping :=
  (takeDue now s.timers).map fun (timer, others) => Stopping.raise { s with timers := others } timer.level now

/-- When the next timer goes off. -/
def nextDue (s : Stopping) : Option Time := (s.timers.filterMap StopTimer.due?).min?

end Stopping
end IngestBench
