import IngestBench.Clock

/-! Time spent backing off. A worker says when it starts and when it stops to back off; an observer turns this
    into periods, and a gauge shows the sum over all workers while the run goes on. -/

namespace IngestBench

/-- How long, and how often, a worker backed off. -/
structure BackoffSummary where
  worker : Nat
  total : Span
  episodes : Nat
  deriving Repr, DecidableEq, Inhabited

namespace Backoff

/-- The periods that are over, and the workers that are backing off now with the time they started. -/
structure Gauge where
  completed : Span
  pending : List (Nat × Time)
  deriving Repr, DecidableEq

namespace Gauge

def empty : Gauge := ⟨Span.zero, []⟩

/-- The time of all periods until now, also of those that are not over. -/
def total (g : Gauge) (now : Time) : Span :=
  g.pending.foldl (fun sum (_, start) => sum + now.since start) g.completed

/-- The count of workers that are backing off. -/
def backingOff (g : Gauge) : Nat := g.pending.length

/-- A worker starts to back off, unless it does so already. -/
def start (g : Gauge) (worker : Nat) (now : Time) : Gauge :=
  if g.pending.any (·.1 == worker) then g else { g with pending := g.pending ++ [(worker, now)] }

/-- A worker stops to back off. -/
def stop (g : Gauge) (worker : Nat) (now : Time) : Gauge :=
  match g.pending.find? (·.1 == worker) with
  | some (_, start) =>
    { completed := g.completed + now.since start
      pending := g.pending.filter (·.1 != worker) }
  | none => g

end Gauge

/-- What an observer of one worker has seen. -/
structure Observer where
  worker : Nat
  started : Option Time
  total : Span
  episodes : Nat
  deriving Repr, DecidableEq

namespace Observer

def new (worker : Nat) : Observer := ⟨worker, none, Span.zero, 0⟩

/-- Takes in that the worker backs off, or that it does not. Only changes count. -/
def observe (o : Observer) (backingOff : Bool) (at' : Time) : Observer :=
  match backingOff, o.started with
  | true, none => { o with started := some at' }
  | false, some start =>
    { o with started := none, total := o.total + at'.since start, episodes := o.episodes + 1 }
  | _, _ => o

section
variable {o : Observer} {backingOff : Bool} {time : Time}

@[simp] theorem worker_observe : (o.observe backingOff time).worker = o.worker := by
  unfold observe
  split <;> rfl

@[simp] theorem isSome_observe : (o.observe backingOff time).started.isSome = backingOff := by
  obtain ⟨worker, started, total, episodes⟩ := o
  cases backingOff <;> cases started <;> rfl

/-- A report of what the observer knows changes nothing. -/
theorem observe_same (h : o.started.isSome = backingOff) : o.observe backingOff time = o := by
  obtain ⟨worker, started, total, episodes⟩ := o
  subst h
  cases started <;> rfl

end

/-- What `observe` means for the gauge of all workers. -/
def report (o : Observer) (backingOff : Bool) (now : Time) (g : Gauge) : Gauge :=
  match backingOff, o.started with
  | true, none => g.start o.worker now
  | false, some _ => g.stop o.worker now
  | _, _ => g

/-- The sum when nothing more is reported; a period that is not over ends now. -/
def close (o : Observer) (now : Time) : BackoffSummary :=
  match o.started with
  | some start => ⟨o.worker, o.total + now.since start, o.episodes + 1⟩
  | none => ⟨o.worker, o.total, o.episodes⟩

/-- What `close` means for the gauge of all workers. -/
def leave (o : Observer) (now : Time) (g : Gauge) : Gauge :=
  if o.started.isSome then g.stop o.worker now else g

/-- All that an observer makes of a list of reports, closed at a given time. -/
def summarize (worker : Nat) (events : List (Bool × Time)) (closing : Time) : BackoffSummary :=
  (events.foldl (fun o (backingOff, at') => o.observe backingOff at') (new worker)).close closing

end Observer

/-- A worker's observer with the reports that it has not yet seen, oldest first. -/
structure Tracker where
  observer : Observer
  reports : List (Bool × Time)
  deriving Repr, DecidableEq

namespace Tracker

def new (worker : Nat) : Tracker := ⟨.new worker, []⟩

/-- How many reports can wait for the observer. -/
def capacity : Nat := 100

/-- Reports a state of the worker; none while there is no room for the report. -/
def tell (t : Tracker) (backingOff : Bool) (now : Time) : Option Tracker :=
  if t.reports.length < capacity then some { t with reports := t.reports ++ [(backingOff, now)] } else none

/-- The observer takes in the oldest report. -/
def see (t : Tracker) (now : Time) (g : Gauge) : Option (Tracker × Gauge) :=
  match t.reports with
  | [] => none
  | (backingOff, at') :: rest =>
    some (⟨t.observer.observe backingOff at', rest⟩, t.observer.report backingOff now g)

/-- The observer ends, once it has seen all reports. -/
def finish (t : Tracker) (now : Time) (g : Gauge) : Option (BackoffSummary × Gauge) :=
  if t.reports.isEmpty then some (t.observer.close now, t.observer.leave now g) else none

/-- Reports a state that the observer takes in at once. -/
def note (t : Tracker) (backingOff : Bool) (now : Time) (g : Gauge) : Tracker × Gauge :=
  (⟨t.observer.observe backingOff now, t.reports⟩, t.observer.report backingOff now g)

end Tracker
end Backoff
end IngestBench
