import IngestBench.Backoff
import Mathlib.Algebra.BigOperators.Group.List.Basic
import Mathlib.Algebra.GroupWithZero.Nat
import Mathlib.Algebra.Order.BigOperators.Group.List
import Mathlib.Algebra.Order.Group.Nat
import Mathlib.Data.Finset.Card
import Mathlib.Data.List.Induction
import Mathlib.Data.List.Nodup
import Mathlib.Logic.Relation

/-! The gauge of all workers. Each worker has an observer that takes in its reports one by one, whenever it comes to
    it. The gauge goes by the time at which it does; the sums that the observers come to go by the time of the
    reports. -/

namespace IngestBench

theorem Span.nanos_add (a b : Span) : (a + b).nanos = a.nanos + b.nanos := rfl

namespace Backoff

section

variable {o o' : Observer} {os before after : List Observer} {g : Gauge} {backingOff : Bool} {now later : Time}
  {worker : Nat}

/-! ### One observer -/

/-- To take in a report changes nothing about the sum until then. -/
theorem Observer.close_observe : ((o.observe backingOff now).close now).total.nanos = (o.close now).total.nanos := by
  obtain ⟨worker, started, total, episodes⟩ := o
  cases backingOff <;> cases started <;>
    simp only [Observer.observe, Observer.close, Time.since, Span.nanos_add, Nat.sub_self, Nat.add_zero]

/-- An observer of a worker that does not back off comes to the same sum whenever it ends. -/
theorem Observer.close_observe_false : ((o.observe false now).close later).total = (o.close now).total := by
  obtain ⟨worker, started, total, episodes⟩ := o
  cases started <;> rfl

theorem Observer.close_mono (h : now ≤ later) : (o.close now).total.nanos ≤ (o.close later).total.nanos := by
  obtain ⟨worker, started, total, episodes⟩ := o
  cases started with
  | none => exact le_rfl
  | some start => exact Nat.add_le_add_left (Nat.sub_le_sub_right h start) _

@[simp] theorem Observer.worker_close : (o.close now).worker = o.worker := by
  unfold Observer.close
  split <;> rfl

/-- An observer leaves the gauge like one that takes in that its worker does not back off. -/
theorem Observer.leave_eq : o.leave now g = o.report false now g := by
  obtain ⟨worker, started, total, episodes⟩ := o
  cases started <;> rfl

/-! ### One gauge -/

/-- The period that is not over, as a gauge keeps it. -/
def Observer.pending? (o : Observer) : Option (Nat × Time) := o.started.map (o.worker, ·)

theorem Observer.pending?_of_none (h : o.started = none) : o.pending? = none := by rw [pending?, h]; rfl

theorem Observer.pending?_of_some {start : Time} (h : o.started = some start) :
    o.pending? = some (o.worker, start) := by
  rw [pending?, h]
  rfl

/-- A gauge shows some observers: the periods that they have summed up, and those that are not over. -/
structure Gauge.Shows (g : Gauge) (os : List Observer) : Prop where
  completed : g.completed.nanos = (os.map (·.total.nanos)).sum
  pending : g.pending.Perm (os.filterMap Observer.pending?)

theorem Gauge.total_eq (g : Gauge) (now : Time) :
    (g.total now).nanos = g.completed.nanos + (g.pending.map (now - ·.2)).sum := by
  obtain ⟨completed, pending⟩ := g
  simp only [total]
  induction pending generalizing completed with
  | nil => rfl
  | cons p pending ih => rw [List.foldl_cons, ih, Span.nanos_add, List.map_cons, List.sum_cons, Nat.add_assoc]; rfl

theorem Gauge.start_eq (h : ∀ p ∈ g.pending, p.1 ≠ worker) :
    g.start worker now = { g with pending := g.pending ++ [(worker, now)] } := by
  refine if_neg fun hany => ?_
  obtain ⟨p, hp, heq⟩ := List.any_eq_true.1 hany
  exact h p hp (eq_of_beq heq)

theorem Gauge.stop_eq {start : Time} {p q : List (Nat × Time)} (hg : g.pending = p ++ (worker, start) :: q)
    (h : ∀ x ∈ p ++ q, x.1 ≠ worker) : g.stop worker now = ⟨g.completed + now.since start, p ++ q⟩ := by
  have hp : ∀ x ∈ p, (x.1 != worker) = true := fun x hx => bne_iff_ne.2 (h x (List.mem_append_left _ hx))
  have hq : ∀ x ∈ q, (x.1 != worker) = true := fun x hx => bne_iff_ne.2 (h x (List.mem_append_right _ hx))
  have hnone : p.find? (·.1 == worker) = none :=
    List.find?_eq_none.2 fun x hx heq => bne_iff_ne.1 (hp x hx) (eq_of_beq heq)
  have hfind : g.pending.find? (·.1 == worker) = some (worker, start) := by
    rw [hg, List.find?_append, hnone, List.find?_cons_of_pos (by simp)]
    rfl
  have hfilter : g.pending.filter (·.1 != worker) = p ++ q := by
    rw [hg, List.filter_append, List.filter_cons_of_neg (by simp), List.filter_eq_self.2 hp, List.filter_eq_self.2 hq]
  simp only [stop, hfind, hfilter]

namespace Gauge.Shows

theorem total_eq (h : g.Shows os) (now : Time) :
    (g.total now).nanos = (os.map fun o => (o.close now).total.nanos).sum := by
  rw [Gauge.total_eq, h.completed, (h.pending.map _).sum_eq]
  clear h
  induction os with
  | nil => rfl
  | cons o os ih =>
    simp only [List.map_cons, List.sum_cons]
    rw [← ih]
    cases ho : o.started with
    | none =>
      rw [List.filterMap_cons_none (Observer.pending?_of_none ho)]
      simp only [Observer.close, ho]
      omega
    | some start =>
      rw [List.filterMap_cons_some (Observer.pending?_of_some ho)]
      simp only [Observer.close, ho, List.map_cons, List.sum_cons, Time.since, Span.nanos_add]
      omega

theorem backingOff_eq (h : g.Shows os) : g.backingOff = os.countP (·.started.isSome) := by
  rw [Gauge.backingOff, h.pending.length_eq]
  clear h
  induction os with
  | nil => rfl
  | cons o os ih =>
    cases ho : o.started with
    | none => rw [List.filterMap_cons_none (Observer.pending?_of_none ho), List.countP_cons_of_neg (by simp [ho]), ih]
    | some start =>
      rw [List.filterMap_cons_some (Observer.pending?_of_some ho), List.countP_cons_of_pos (by simp [ho]),
        List.length_cons, ih]

theorem pending_ne {p : Nat × Time} (hp : p ∈ os.filterMap Observer.pending?) (hw : worker ∉ os.map (·.worker)) :
    p.1 ≠ worker := by
  rintro rfl
  obtain ⟨o, ho, hpending⟩ := List.mem_filterMap.1 hp
  obtain ⟨start, -, rfl⟩ := Option.map_eq_some_iff.1 hpending
  exact hw (List.mem_map_of_mem ho)

theorem start (h : g.Shows (before ++ o :: after)) (hw : o.worker ∉ (before ++ after).map (·.worker))
    (ho : o.started = none) : (g.start o.worker now).Shows (before ++ o.observe true now :: after) := by
  have hobserve : o.observe true now = { o with started := some now } := by
    simp only [Observer.observe, ho]
  have hnew : (o.observe true now).pending? = some (o.worker, now) := by
    rw [hobserve]
    rfl
  have hpending : g.pending.Perm ((before ++ after).filterMap Observer.pending?) := by
    have hperm := h.pending
    rwa [List.filterMap_append, List.filterMap_cons_none (Observer.pending?_of_none ho),
      ← List.filterMap_append] at hperm
  rw [Gauge.start_eq fun p hp => pending_ne (hpending.subset hp) hw]
  refine ⟨by simpa [hobserve] using h.completed, ?_⟩
  rw [List.filterMap_append, List.filterMap_cons_some hnew]
  rw [List.filterMap_append] at hpending
  exact (List.perm_append_singleton _ _).trans ((hpending.cons _).trans List.perm_middle.symm)

theorem stop (h : g.Shows (before ++ o :: after)) (hw : o.worker ∉ (before ++ after).map (·.worker)) {start : Time}
    (ho : o.started = some start) : (g.stop o.worker now).Shows (before ++ o.observe false now :: after) := by
  have hobserve : o.observe false now =
      { o with started := none, total := o.total + now.since start, episodes := o.episodes + 1 } := by
    simp only [Observer.observe, ho]
  have hnew : (o.observe false now).pending? = none := by
    rw [hobserve]
    rfl
  have hperm : g.pending.Perm ((o.worker, start) :: (before ++ after).filterMap Observer.pending?) := by
    have hperm := h.pending
    rw [List.filterMap_append, List.filterMap_cons_some (Observer.pending?_of_some ho)] at hperm
    rw [List.filterMap_append]
    exact hperm.trans List.perm_middle
  obtain ⟨p, q, hpq⟩ := List.append_of_mem (hperm.symm.subset List.mem_cons_self)
  have hrest : (p ++ q).Perm ((before ++ after).filterMap Observer.pending?) :=
    (List.perm_middle.symm.trans (hpq ▸ hperm)).cons_inv
  rw [Gauge.stop_eq hpq fun x hx => pending_ne (hrest.subset hx) hw]
  refine ⟨?_, ?_⟩
  · have hcompleted := h.completed
    simp only [List.map_append, List.map_cons, List.sum_append, List.sum_cons, hobserve, Span.nanos_add]
      at hcompleted ⊢
    omega
  · rwa [List.filterMap_append, List.filterMap_cons_none hnew, ← List.filterMap_append]

/-- What an observer takes in, the gauge shows. -/
theorem report (h : g.Shows (before ++ o :: after)) (hw : o.worker ∉ (before ++ after).map (·.worker))
    (hworker : o'.worker = o.worker) (hstarted : o'.started.isSome = o.started.isSome) :
    (o'.report backingOff now g).Shows (before ++ o.observe backingOff now :: after) := by
  unfold Observer.report
  rw [hworker]
  cases ho : o.started with
  | none =>
    rw [ho] at hstarted
    rw [Option.isSome_eq_false_iff.1 hstarted |> Option.isNone_iff_eq_none.1]
    cases backingOff with
    | true => exact h.start hw ho
    | false =>
      have hsame : o.observe false now = o := by simp only [Observer.observe, ho]
      exact hsame.symm ▸ h
  | some start =>
    rw [ho] at hstarted
    obtain ⟨start', hstart'⟩ := Option.isSome_iff_exists.1 hstarted
    rw [hstart']
    cases backingOff with
    | true =>
      have hsame : o.observe true now = o := by simp only [Observer.observe, ho]
      exact hsame.symm ▸ h
    | false => exact h.stop hw ho

/-- The total does not change at the moment when a report is seen. -/
theorem total_report (h : g.Shows (before ++ o :: after)) (hw : o.worker ∉ (before ++ after).map (·.worker))
    (hworker : o'.worker = o.worker) (hstarted : o'.started.isSome = o.started.isSome) :
    ((o'.report backingOff now g).total now).nanos = (g.total now).nanos := by
  rw [(h.report hw hworker hstarted).total_eq, h.total_eq]
  simp only [List.map_append, List.map_cons, Observer.close_observe]

end Gauge.Shows

end

/-! ### All observers -/

/-- A report with the time at which it was made, and the time at which it was seen. -/
structure Sighting where
  backingOff : Bool
  sent : Time
  seen : Time

/-- An observer with what it has seen, and in the end its sum. -/
inductive Watcher
  | watching (tracker : Tracker) (sightings : List Sighting)
  | ended (summary : BackoffSummary) (sightings : List Sighting) (closing : Time)

namespace Watcher

def worker : Watcher → Nat
  | watching t _ => t.observer.worker
  | ended summary _ _ => summary.worker

def sightings : Watcher → List Sighting
  | watching _ l => l
  | ended _ l _ => l

/-- Whether a period is not over: the last that was seen of the worker is that it backs off. -/
def backingOff : Watcher → Bool
  | watching _ l => l.getLast?.any (·.backingOff)
  | ended .. => false

/-- Whether the observer has ended. -/
def hasEnded : Watcher → Bool
  | watching .. => false
  | ended .. => true

/-- The sum that an observer came to, or comes to if it ends now. -/
def summary (x : Watcher) (now : Time) : BackoffSummary :=
  match x with
  | watching t _ => t.observer.close now
  | ended summary _ _ => summary

end Watcher

/-- All observers of a run, their gauge, and the time. -/
structure Watch where
  now : Time
  gauge : Gauge
  watchers : List Watcher

namespace Watch

/-- Nothing has been reported. -/
def start (workers : List Nat) (now : Time) : Watch :=
  ⟨now, .empty, workers.map fun worker => .watching (.new worker) []⟩

/-- Time passes, a worker reports to its observer, an observer sees its oldest report, or it ends. -/
inductive Step : Watch → Watch → Prop
  | pass {now later : Time} {g : Gauge} {watchers : List Watcher} : now ≤ later →
    Step ⟨now, g, watchers⟩ ⟨later, g, watchers⟩
  | tell {now at' : Time} {g : Gauge} {before after : List Watcher} {t t' : Tracker} {l : List Sighting}
      {backingOff : Bool} : t.tell backingOff at' = some t' →
    Step ⟨now, g, before ++ .watching t l :: after⟩ ⟨now, g, before ++ .watching t' l :: after⟩
  | see {now sent : Time} {g g' : Gauge} {before after : List Watcher} {t t' : Tracker} {l : List Sighting}
      {backingOff : Bool} {rest : List (Bool × Time)} :
    t.reports = (backingOff, sent) :: rest → t.see now g = some (t', g') →
    Step ⟨now, g, before ++ .watching t l :: after⟩
      ⟨now, g', before ++ .watching t' (l ++ [⟨backingOff, sent, now⟩]) :: after⟩
  | finish {now : Time} {g g' : Gauge} {before after : List Watcher} {t : Tracker} {l : List Sighting}
      {summary : BackoffSummary} : t.finish now g = some (summary, g') →
    Step ⟨now, g, before ++ .watching t l :: after⟩ ⟨now, g', before ++ .ended summary l now :: after⟩

end Watch

/-! ### What every step keeps -/

/-- An observer of a worker that has taken in some reports. -/
def Observer.heard (worker : Nat) (reports : List (Bool × Time)) : Observer :=
  reports.foldl (fun o (backingOff, at') => o.observe backingOff at') (.new worker)

theorem Observer.heard_append (worker : Nat) (reports : List (Bool × Time)) (backingOff : Bool) (at' : Time) :
    heard worker (reports ++ [(backingOff, at')]) = (heard worker reports).observe backingOff at' :=
  List.foldl_append

@[simp] theorem Observer.worker_heard (worker : Nat) (reports : List (Bool × Time)) :
    (heard worker reports).worker = worker := by
  induction reports using List.reverseRecOn with
  | nil => rfl
  | append_singleton reports report ih =>
    obtain ⟨backingOff, at'⟩ := report
    rw [heard_append, worker_observe, ih]

theorem Observer.isSome_heard (worker : Nat) (reports : List (Bool × Time)) :
    (heard worker reports).started.isSome = reports.getLast?.any (·.1) := by
  rcases List.eq_nil_or_concat' reports with rfl | ⟨before, ⟨backingOff, at'⟩, rfl⟩
  · rfl
  · rw [heard_append, isSome_observe, List.getLast?_concat]
    rfl

namespace Watcher

def sent (l : List Sighting) : List (Bool × Time) := l.map fun s => (s.backingOff, s.sent)

def seen (l : List Sighting) : List (Bool × Time) := l.map fun s => (s.backingOff, s.seen)

/-- The observer as the gauge shows it: it goes by the time at which the reports are seen, and ends like one that sees
    that the worker does not back off. -/
def shown : Watcher → Observer
  | watching t l => .heard t.observer.worker (seen l)
  | ended summary l closing => (Observer.heard summary.worker (seen l)).observe false closing

/-- The sum goes by the time of the reports. -/
def Faithful : Watcher → Prop
  | watching t l => t.observer = .heard t.observer.worker (sent l)
  | ended summary l closing => summary = Observer.summarize summary.worker (sent l) closing

variable {x : Watcher}

theorem Faithful.isSome {t : Tracker} {l : List Sighting} (h : (watching t l).Faithful) :
    t.observer.started.isSome = (watching t l).backingOff := by
  have ht : t.observer = .heard t.observer.worker (sent l) := h
  rw [ht, Observer.isSome_heard, sent, List.getLast?_map, Option.any_map]
  rfl

@[simp] theorem worker_shown : x.shown.worker = x.worker := by
  cases x <;> simp [shown, worker]

theorem isSome_shown : x.shown.started.isSome = x.backingOff := by
  cases x with
  | watching t l =>
    rw [shown, Observer.isSome_heard, seen, List.getLast?_map, Option.any_map]
    rfl
  | ended summary l closing => exact Observer.isSome_observe

end Watcher

namespace Watch

/-- There is one observer for each worker, the gauge shows them all, and what they have summed up is true. -/
structure Sound (workers : List Nat) (w : Watch) : Prop where
  workers : w.watchers.map Watcher.worker = workers
  shows : w.gauge.Shows (w.watchers.map Watcher.shown)
  faithful : ∀ x ∈ w.watchers, x.Faithful

variable {workers : List Nat} {w w' : Watch} {now : Time}

theorem sound_start (workers : List Nat) (now : Time) : (start workers now).Sound workers := by
  have hnone : ∀ x ∈ (start workers now).watchers, ∃ worker, x = .watching (.new worker) [] := fun x hx => by
    obtain ⟨worker, -, rfl⟩ := List.mem_map.1 hx
    exact ⟨worker, rfl⟩
  constructor
  case workers =>
    rw [start, List.map_map]
    exact List.map_id workers
  case shows =>
    refine ⟨?_, ?_⟩
    · refine (List.sum_eq_zero fun n hn => ?_).symm
      obtain ⟨o, ho, rfl⟩ := List.mem_map.1 hn
      obtain ⟨x, hx, rfl⟩ := List.mem_map.1 ho
      obtain ⟨worker, rfl⟩ := hnone x hx
      rfl
    · have hempty : ((start workers now).watchers.map Watcher.shown).filterMap Observer.pending? = [] := by
        rw [List.filterMap_eq_nil_iff, List.forall_mem_map]
        rintro x hx
        obtain ⟨worker, rfl⟩ := hnone x hx
        rfl
      rw [hempty]
      exact .refl _
  case faithful =>
    intro x hx
    obtain ⟨worker, rfl⟩ := hnone x hx
    rfl

theorem Sound.watching {g : Gauge} {before after : List Watcher} {t : Tracker} {l : List Sighting}
    (h : Sound workers ⟨now, g, before ++ .watching t l :: after⟩) : (Watcher.watching t l).Faithful :=
  h.faithful _ (List.mem_append_right _ List.mem_cons_self)

theorem Sound.set {g g' : Gauge} {before after : List Watcher} {x x' : Watcher}
    (h : Sound workers ⟨now, g, before ++ x :: after⟩) (hworker : x'.worker = x.worker)
    (hshows : g'.Shows (before.map Watcher.shown ++ x'.shown :: after.map Watcher.shown)) (hfaithful : x'.Faithful) :
    Sound workers ⟨now, g', before ++ x' :: after⟩ := by
  refine ⟨?_, ?_, ?_⟩
  · simpa only [List.map_append, List.map_cons, hworker] using h.workers
  · simpa only [List.map_append, List.map_cons] using hshows
  · intro y hy
    rcases List.mem_append.1 hy with hy | hy
    · exact h.faithful y (List.mem_append_left _ hy)
    · rcases List.mem_cons.1 hy with rfl | hy
      · exact hfaithful
      · exact h.faithful y (List.mem_append_right _ (List.mem_cons_of_mem _ hy))

/-- The gauge shows what one observer takes in, and its total is the same as before. -/
theorem Sound.report (hnodup : workers.Nodup) {g : Gauge} {before after : List Watcher} {x : Watcher}
    (h : Sound workers ⟨now, g, before ++ x :: after⟩) {o : Observer} (ho : o.worker = x.worker)
    (hstarted : o.started.isSome = x.backingOff) (backingOff : Bool) :
    (o.report backingOff now g).Shows
        (before.map Watcher.shown ++ x.shown.observe backingOff now :: after.map Watcher.shown) ∧
      ((o.report backingOff now g).total now).nanos = (g.total now).nanos := by
  have hshows := h.shows
  simp only [List.map_append, List.map_cons] at hshows
  have hworker := ho.trans Watcher.worker_shown.symm
  have hopen := hstarted.trans Watcher.isSome_shown.symm
  have hother : x.shown.worker ∉ (before.map Watcher.shown ++ after.map Watcher.shown).map (·.worker) := by
    rw [← h.workers, List.map_append, List.map_cons, List.nodup_middle, List.nodup_cons] at hnodup
    simpa [List.map_map, Function.comp_def] using hnodup.1
  exact ⟨hshows.report hother hworker hopen, hshows.total_report hother hworker hopen⟩

theorem Sound.step (hnodup : workers.Nodup) (h : w.Sound workers) (hstep : Step w w') : w'.Sound workers := by
  cases hstep with
  | pass hlater => exact ⟨h.workers, h.shows, h.faithful⟩
  | @tell now at' g before after t t' l backingOff htell =>
    have ht := h.watching
    unfold Tracker.tell at htell
    split at htell
    · cases htell
      have hshows := h.shows
      rw [List.map_append, List.map_cons] at hshows
      exact h.set rfl hshows ht
    · cases htell
  | @see now sent g g' before after t t' l backingOff rest hreports hsee =>
    have ht := h.watching
    have hshows := (h.report hnodup rfl ht.isSome backingOff).1
    obtain ⟨o, reports⟩ := t
    cases hreports
    cases hsee
    have hshown : (Watcher.watching ⟨o.observe backingOff sent, rest⟩ (l ++ [⟨backingOff, sent, now⟩])).shown =
        (Watcher.watching ⟨o, (backingOff, sent) :: rest⟩ l).shown.observe backingOff now := by
      simp only [Watcher.shown, Watcher.seen, List.map_append, List.map_cons, List.map_nil, Observer.worker_observe,
        Observer.heard_append]
    refine h.set Observer.worker_observe (hshown ▸ hshows) ?_
    simp only [Watcher.Faithful, Watcher.sent, List.map_append, List.map_cons, List.map_nil, Observer.worker_observe,
      Observer.heard_append]
    exact congrArg (·.observe backingOff sent) ht
  | @finish now g g' before after t l summary hfinish =>
    have ht := h.watching
    have hshows := (h.report hnodup rfl ht.isSome false).1
    obtain ⟨o, reports⟩ := t
    cases reports with
    | cons report rest => cases hfinish
    | nil =>
      cases hfinish
      have hshown : (Watcher.ended (o.close now) l now).shown =
          (Watcher.watching ⟨o, []⟩ l).shown.observe false now := by
        simp only [Watcher.shown, Observer.worker_close]
      refine h.set Observer.worker_close (Observer.leave_eq ▸ hshown ▸ hshows) ?_
      simp only [Watcher.Faithful, Observer.worker_close]
      exact congrArg (·.close now) ht

/-- What holds of the observers whenever reports come in, and whoever goes first. -/
theorem sound_of_run (hnodup : workers.Nodup) (h : Relation.ReflTransGen Step (start workers now) w) :
    w.Sound workers := by
  induction h with
  | refl => exact sound_start workers now
  | tail _ hstep ih => exact ih.step hnodup hstep

/-! ### What the gauge shows -/

/-- The total grows while time passes, and stays as it is when a report is seen. -/
theorem Sound.total_le (hnodup : workers.Nodup) (h : w.Sound workers) (hstep : Step w w') :
    (w.gauge.total w.now).nanos ≤ (w'.gauge.total w'.now).nanos := by
  cases hstep with
  | @pass now later g watchers hlater =>
    rw [h.shows.total_eq, h.shows.total_eq]
    exact List.sum_le_sum fun o _ => Observer.close_mono hlater
  | tell => exact le_rfl
  | @see now sent g g' before after t t' l backingOff rest hreports hsee =>
    have ht := h.watching
    have htotal := (h.report hnodup rfl ht.isSome backingOff).2
    obtain ⟨o, reports⟩ := t
    cases hreports
    cases hsee
    exact htotal.ge
  | @finish now g g' before after t l summary hfinish =>
    have ht := h.watching
    have htotal := (h.report hnodup rfl ht.isSome false).2
    obtain ⟨o, reports⟩ := t
    cases reports with
    | cons report rest => cases hfinish
    | nil =>
      cases hfinish
      rw [← Observer.leave_eq] at htotal
      exact htotal.ge

theorem Sound.total_mono (hnodup : workers.Nodup) (h : w.Sound workers) (hrun : Relation.ReflTransGen Step w w') :
    (w.gauge.total w.now).nanos ≤ (w'.gauge.total w'.now).nanos := by
  have hall : w'.Sound workers ∧ (w.gauge.total w.now).nanos ≤ (w'.gauge.total w'.now).nanos := by
    induction hrun with
    | refl => exact ⟨h, le_rfl⟩
    | tail _ hstep ih => exact ⟨ih.1.step hnodup hstep, ih.2.trans (ih.1.total_le hnodup hstep)⟩
  exact hall.2

/-- The count is that of the workers whose period is not over. -/
theorem Sound.backingOff_eq (hnodup : workers.Nodup) (h : w.Sound workers) :
    w.gauge.backingOff = ((w.watchers.filter (·.backingOff)).map Watcher.worker).toFinset.card := by
  have hsub : ((w.watchers.filter (·.backingOff)).map Watcher.worker).Sublist (w.watchers.map Watcher.worker) :=
    List.filter_sublist.map _
  rw [List.toFinset_card_of_nodup (hnodup.sublist (h.workers ▸ hsub)), List.length_map,
    ← List.countP_eq_length_filter, h.shows.backingOff_eq, List.countP_map]
  exact List.countP_congr fun x _ => by rw [Function.comp_apply, Watcher.isSome_shown]

/-- The total is the sum of what the observers come to, if they see each report when it is made. -/
theorem Sound.total_eq (h : w.Sound workers) (hprompt : ∀ x ∈ w.watchers, ∀ s ∈ x.sightings, s.seen = s.sent) :
    (w.gauge.total w.now).nanos = (w.watchers.map fun x => (x.summary w.now).total.nanos).sum := by
  rw [h.shows.total_eq, List.map_map]
  refine congrArg List.sum (List.map_congr_left fun x hx => ?_)
  have hsame : Watcher.seen x.sightings = Watcher.sent x.sightings :=
    List.map_congr_left fun s hs => by rw [hprompt x hx s hs]
  have hfaithful := h.faithful x hx
  cases x with
  | watching t l =>
    have ht : t.observer = .heard t.observer.worker (Watcher.seen l) := hfaithful.trans (congrArg _ hsame.symm)
    simp only [Function.comp_apply, Watcher.shown, Watcher.summary, ← ht]
  | ended summary l closing =>
    have hsummary : summary = (Observer.heard summary.worker (Watcher.seen l)).close closing :=
      hfaithful.trans (congrArg (Observer.close · closing) (congrArg _ hsame.symm))
    simp only [Function.comp_apply, Watcher.shown, Watcher.summary, Observer.close_observe_false, ← hsummary]

/-- The gauge of a run, whenever reports come in and whoever goes first. Its total never falls. It counts the
    workers whose period is not over, and none once all observers have ended. Where each report is seen when it is
    made, the total is what the observers come to, and in the end what they came to. -/
theorem gauge_of_run {workers : List Nat} (hnodup : workers.Nodup) {now : Time} {w w' : Watch}
    (h : Relation.ReflTransGen Step (start workers now) w) (h' : Relation.ReflTransGen Step w w') :
    w.watchers.map Watcher.worker = workers ∧
      (w.gauge.total w.now).nanos ≤ (w'.gauge.total w'.now).nanos ∧
      w.gauge.backingOff = ((w.watchers.filter (·.backingOff)).map Watcher.worker).toFinset.card ∧
      ((∀ x ∈ w.watchers, x.hasEnded = true) → w.gauge.backingOff = 0) ∧
      ((∀ x ∈ w.watchers, ∀ s ∈ x.sightings, s.seen = s.sent) →
        (w.gauge.total w.now).nanos = (w.watchers.map fun x => (x.summary w.now).total.nanos).sum) := by
  have hw := sound_of_run hnodup h
  refine ⟨hw.workers, hw.total_mono hnodup h', hw.backingOff_eq hnodup, fun hover => ?_, hw.total_eq⟩
  have hnone : w.watchers.filter (·.backingOff) = [] := List.filter_eq_nil_iff.2 fun x hx => by
    have hended := hover x hx
    cases x with
    | watching => cases hended
    | ended => exact Bool.false_ne_true
  rw [hw.backingOff_eq hnodup, hnone]
  rfl

/-- One of two workers backs off, and still does when both observers end three nanoseconds later. -/
theorem gauge_of_two : ([0, 1] : List Nat).Nodup ∧ ∃ w w' : Watch,
    Relation.ReflTransGen Step (start [0, 1] 0) w ∧ Relation.ReflTransGen Step w w' ∧
      w.gauge.backingOff = 1 ∧ w'.watchers = [.ended ⟨0, ⟨3⟩, 1⟩ [⟨true, 0, 0⟩] 3, .ended ⟨1, ⟨0⟩, 0⟩ [] 3] ∧
      (w.gauge.total w.now).nanos ≤ (w'.gauge.total w'.now).nanos := by
  have htell : Step (start [0, 1] 0)
      ⟨0, .empty, [.watching ⟨.new 0, [(true, 0)]⟩ [], .watching (.new 1) []]⟩ :=
    @Step.tell 0 0 .empty [] [.watching (.new 1) []] _ _ _ _ rfl
  have hsee : Step ⟨0, .empty, [.watching ⟨.new 0, [(true, 0)]⟩ [], .watching (.new 1) []]⟩
      ⟨0, ⟨.zero, [(0, 0)]⟩, [.watching ⟨⟨0, some 0, .zero, 0⟩, []⟩ [⟨true, 0, 0⟩], .watching (.new 1) []]⟩ :=
    @Step.see 0 0 .empty _ [] [.watching (.new 1) []] _ _ _ _ _ rfl rfl
  have hpass : Step
      ⟨0, ⟨.zero, [(0, 0)]⟩, [.watching ⟨⟨0, some 0, .zero, 0⟩, []⟩ [⟨true, 0, 0⟩], .watching (.new 1) []]⟩
      ⟨3, ⟨.zero, [(0, 0)]⟩, [.watching ⟨⟨0, some 0, .zero, 0⟩, []⟩ [⟨true, 0, 0⟩], .watching (.new 1) []]⟩ :=
    .pass (by decide)
  have hfirst : Step
      ⟨3, ⟨.zero, [(0, 0)]⟩, [.watching ⟨⟨0, some 0, .zero, 0⟩, []⟩ [⟨true, 0, 0⟩], .watching (.new 1) []]⟩
      ⟨3, ⟨⟨3⟩, []⟩, [.ended ⟨0, ⟨3⟩, 1⟩ [⟨true, 0, 0⟩] 3, .watching (.new 1) []]⟩ :=
    @Step.finish 3 _ _ [] [.watching (.new 1) []] _ _ _ rfl
  have hsecond : Step ⟨3, ⟨⟨3⟩, []⟩, [.ended ⟨0, ⟨3⟩, 1⟩ [⟨true, 0, 0⟩] 3, .watching (.new 1) []]⟩
      ⟨3, ⟨⟨3⟩, []⟩, [.ended ⟨0, ⟨3⟩, 1⟩ [⟨true, 0, 0⟩] 3, .ended ⟨1, ⟨0⟩, 0⟩ [] 3]⟩ :=
    @Step.finish 3 _ _ [.ended ⟨0, ⟨3⟩, 1⟩ [⟨true, 0, 0⟩] 3] [] _ _ _ rfl
  have hopen := (Relation.ReflTransGen.single htell).tail hsee
  have hend := ((Relation.ReflTransGen.single hpass).tail hfirst).tail hsecond
  exact ⟨by decide, _, _, hopen, hend, rfl, rfl, (gauge_of_run (by decide) hopen hend).2.1⟩

end Watch
end Backoff
end IngestBench
