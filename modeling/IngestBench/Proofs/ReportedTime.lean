import IngestBench.Proofs.Gauges
import IngestBench.Proofs.PushBacks
import Mathlib.Algebra.BigOperators.Intervals

/-! The time that a worker backs off, read off its reports. An observer looks for changes and remembers when a period
    began; what it comes to are the times between each report that the worker backs off and the next report, whatever
    that one says. A report that repeats what is known changes nothing. -/

namespace IngestBench
namespace Backoff

variable {o : Observer} {worker : Nat} {reports : List (Bool × Time)} {report : Bool × Time} {backingOff : Bool}
  {time closing : Time} {i : Nat}

/-! ### Reports by number -/

/-- Whether a report says that the worker backs off. -/
def saysBackingOff (reports : List (Bool × Time)) (i : Nat) : Bool := reports[i]?.any (·.1)

/-- The time of a report; behind the last one, the time of the end. -/
def timeOf (reports : List (Bool × Time)) (closing : Time) (i : Nat) : Time := (reports[i]?.map (·.2)).getD closing

/-- The times from the reports that the worker backs off to the next reports, and from the last one to the end. -/
def reportedTime (reports : List (Bool × Time)) (closing : Time) : Nat :=
  ∑ i ∈ Finset.range reports.length with saysBackingOff reports i,
    (timeOf reports closing (i + 1) - timeOf reports closing i)

/-- How many reports say that the worker backs off, and are the first one or come after one that says it does not. -/
def reportedEpisodes (reports : List (Bool × Time)) : Nat :=
  {i ∈ Finset.range reports.length |
    saysBackingOff reports i ∧ (i = 0 ∨ saysBackingOff reports (i - 1) = false)}.card

theorem saysBackingOff_concat_of_lt (h : i < reports.length) :
    saysBackingOff (reports ++ [report]) i = saysBackingOff reports i := by
  rw [saysBackingOff, List.getElem?_append_left h, saysBackingOff]

theorem saysBackingOff_concat_length : saysBackingOff (reports ++ [report]) reports.length = report.1 := by
  rw [saysBackingOff, List.getElem?_concat_length]
  rfl

/-- Up to the last report, the reports before it end when it is made. -/
theorem timeOf_concat (h : i ≤ reports.length) :
    timeOf (reports ++ [report]) closing i = timeOf reports report.2 i := by
  rcases Nat.lt_or_eq_of_le h with hlt | rfl
  · rw [timeOf, List.getElem?_append_left hlt, timeOf, List.getElem?_eq_getElem hlt]
    rfl
  · rw [timeOf, List.getElem?_concat_length, timeOf, List.getElem?_eq_none (Nat.le_refl _)]
    rfl

theorem timeOf_length : timeOf reports closing reports.length = closing := by
  rw [timeOf, List.getElem?_eq_none (Nat.le_refl _)]
  rfl

/-- What the last report adds: the time until the end. -/
theorem reportedTime_concat (reports : List (Bool × Time)) (backingOff : Bool) (time closing : Time) :
    reportedTime (reports ++ [(backingOff, time)]) closing =
      reportedTime reports time + if backingOff then closing - time else 0 := by
  have hlength : (reports ++ [(backingOff, time)]).length = reports.length + 1 := List.length_append
  simp only [reportedTime, Finset.sum_filter]
  rw [hlength, Finset.sum_range_succ, saysBackingOff_concat_length, timeOf_concat (Nat.le_refl _), timeOf_length,
    ← hlength, timeOf_length]
  refine congrArg (· + _) (Finset.sum_congr rfl fun i hi => ?_)
  have hlt := Finset.mem_range.1 hi
  rw [saysBackingOff_concat_of_lt hlt, timeOf_concat hlt, timeOf_concat (Nat.le_of_lt hlt)]

/-- What the last report adds: one, if it is a change to backing off. -/
theorem reportedEpisodes_concat (reports : List (Bool × Time)) (backingOff : Bool) (time : Time) :
    reportedEpisodes (reports ++ [(backingOff, time)]) =
      reportedEpisodes reports + if backingOff && !reports.getLast?.any (·.1) then 1 else 0 := by
  have hlength : (reports ++ [(backingOff, time)]).length = reports.length + 1 := List.length_append
  simp only [reportedEpisodes, Finset.card_filter]
  rw [hlength, Finset.sum_range_succ, saysBackingOff_concat_length]
  refine congrArg₂ (· + ·) (Finset.sum_congr rfl fun i hi => ?_) ?_
  · have hlt := Finset.mem_range.1 hi
    rw [saysBackingOff_concat_of_lt hlt, saysBackingOff_concat_of_lt (by omega)]
  · rw [List.getLast?_eq_getElem?]
    cases reports with
    | nil => simp
    | cons first rest =>
      rw [saysBackingOff_concat_of_lt (by simp), saysBackingOff]
      simp

/-! ### What an observer makes of them -/

theorem Observer.mem_of_started_heard {start : Time} (h : (heard worker reports).started = some start) :
    start ∈ reports.map Prod.snd := by
  induction reports using List.reverseRecOn with
  | nil => cases h
  | append_singleton reports report ih =>
    obtain ⟨backingOff, time⟩ := report
    rw [heard_append] at h
    rw [List.map_append, List.mem_append]
    cases hstarted : (heard worker reports).started with
    | none =>
      cases backingOff <;> simp only [observe, hstarted] at h
      · cases h
      · exact .inr (List.mem_singleton.2 (Option.some.inj h).symm)
    | some begun =>
      cases backingOff <;> simp only [observe, hstarted] at h
      · cases h
      · exact .inl (ih (hstarted.trans h))

/-- An observer that goes on after a report adds the time since then, if the report says that the worker backs off,
    also where the period began before it. -/
theorem Observer.total_observe (hstart : ∀ start, o.started = some start → start ≤ time) (hend : time ≤ closing) :
    ((o.observe backingOff time).close closing).total.nanos =
      (o.close time).total.nanos + if backingOff then closing - time else 0 := by
  obtain ⟨worker, started, total, episodes⟩ := o
  cases started with
  | none => cases backingOff <;> rfl
  | some start =>
    have hbegun := hstart start rfl
    cases backingOff with
    | false => rfl
    | true =>
      simp only [observe, close, Time.since, Span.nanos_add, if_true]
      rw [Nat.add_assoc, Nat.add_comm (time - start), Nat.sub_add_sub_cancel hend hbegun]

theorem Observer.episodes_observe : ((o.observe backingOff time).close closing).episodes =
    (o.close time).episodes + if backingOff && !o.started.isSome then 1 else 0 := by
  obtain ⟨worker, started, total, episodes⟩ := o
  cases started <;> cases backingOff <;> rfl

theorem Observer.close_heard (h : (reports.map Prod.snd ++ [closing]).Pairwise (· ≤ ·)) :
    (heard worker reports).close closing = ⟨worker, ⟨reportedTime reports closing⟩, reportedEpisodes reports⟩ := by
  -- The last report is taken off: the observer of those before it ends when that report is made.
  induction reports using List.reverseRecOn generalizing closing with
  | nil => rfl
  | append_singleton reports report ih =>
    obtain ⟨backingOff, time⟩ := report
    rw [List.map_append] at h
    obtain ⟨htimes, -, hends⟩ := List.pairwise_append.1 h
    have hend : time ≤ closing :=
      hends time (List.mem_append_right _ List.mem_cons_self) closing List.mem_cons_self
    have hstart : ∀ start, (heard worker reports).started = some start → start ≤ time := fun start hstarted =>
      (List.pairwise_append.1 htimes).2.2 start (mem_of_started_heard hstarted) time List.mem_cons_self
    have hworker : (((heard worker reports).observe backingOff time).close closing).worker = worker := by
      rw [worker_close, worker_observe, worker_heard]
    have htotal : (((heard worker reports).observe backingOff time).close closing).total.nanos = _ :=
      total_observe hstart hend
    have hepisodes : (((heard worker reports).observe backingOff time).close closing).episodes = _ := episodes_observe
    rw [ih htimes] at htotal hepisodes
    rw [isSome_heard] at hepisodes
    rw [heard_append, reportedTime_concat, reportedEpisodes_concat, ← htotal, ← hepisodes]
    exact congrArg (BackoffSummary.mk · _ _) hworker

/-- A report that repeats what was reported last changes nothing about what is heard after it. In front of all
    reports, that is one that the worker does not back off. -/
theorem Observer.heard_repeat (worker : Nat) (before after : List (Bool × Time)) (time : Time) :
    heard worker (before ++ (before.getLast?.any (·.1), time) :: after) = heard worker (before ++ after) := by
  induction after using List.reverseRecOn with
  | nil => rw [heard_append, observe_same (isSome_heard worker before), List.append_nil]
  | append_singleton after report ih =>
    obtain ⟨backingOff, later⟩ := report
    rw [← List.cons_append, ← List.append_assoc, ← List.append_assoc, heard_append, heard_append, ih]

/-- Any reports can have been made to an observer that has seen them all. -/
theorem Tracker.exists_told (worker : Nat) (reports : List (Bool × Time)) :
    ∃ t, Told worker reports t ∧ t.reports = [] := by
  induction reports using List.reverseRecOn with
  | nil => exact ⟨.new worker, .new, rfl⟩
  | append_singleton reports report ih =>
    obtain ⟨backingOff, time⟩ := report
    obtain ⟨⟨observer, unseen⟩, htold, hseen⟩ := ih
    obtain rfl : unseen = [] := hseen
    have htell : Tracker.tell ⟨observer, []⟩ backingOff time = some ⟨observer, [(backingOff, time)]⟩ := rfl
    have hsee : Tracker.see ⟨observer, [(backingOff, time)]⟩ time .empty =
      some (⟨observer.observe backingOff time, []⟩, observer.report backingOff time .empty) := rfl
    exact ⟨_, (htold.tell htell).see hsee, rfl⟩

/-- Whatever was reported, an observer that has seen it all ends with the time that the worker reported to back off,
    and with the count of the changes to backing off. It comes to the same however late it sees the reports, and when
    at any time a report is put in that repeats what was reported last. -/
theorem summary_of_reports (worker : Nat) (reports : List (Bool × Time)) (closing : Time)
    (htimes : (reports.map Prod.snd ++ [closing]).Pairwise (· ≤ ·)) :
    Observer.summarize worker reports closing =
        ⟨worker, ⟨reportedTime reports closing⟩, reportedEpisodes reports⟩ ∧
      (∀ t g, Tracker.Told worker reports t → t.reports = [] →
        (t.finish closing g).map Prod.fst = some (Observer.summarize worker reports closing)) ∧
      ∀ before after time, reports = before ++ after →
        Observer.summarize worker (before ++ (before.getLast?.any (·.1), time) :: after) closing =
          Observer.summarize worker reports closing := by
  refine ⟨Observer.close_heard htimes, fun t g htold hseen => ?_, fun before after time hsplit => ?_⟩
  · obtain ⟨⟨summary, g'⟩, hfinish⟩ : ∃ ending, t.finish closing g = some ending := by
      rw [Tracker.finish, hseen]
      exact ⟨_, rfl⟩
    rw [hfinish, Option.map_some, htold.summary_eq hfinish]
  · rw [hsplit]
    exact congrArg (·.close closing) (Observer.heard_repeat worker before after time)

/-- Two periods, the first of them reported twice, the second one still open at the end. -/
theorem summary_of_reports_two_periods :
    ([3, 5, 8, 9, 12] : List Time).Pairwise (· ≤ ·) ∧
      Observer.summarize 0 [(true, 3), (true, 5), (false, 8), (true, 9)] 12 = ⟨0, ⟨8⟩, 2⟩ ∧
      Observer.summarize 0 [(true, 3), (true, 5), (false, 8), (false, 40), (true, 9)] 12 = ⟨0, ⟨8⟩, 2⟩ ∧
      ∃ t, Tracker.Told 0 [(true, 3), (true, 5), (false, 8), (true, 9)] t ∧
        (t.finish 12 .empty).map Prod.fst = some ⟨0, ⟨8⟩, 2⟩ := by
  have htimes : ([3, 5, 8, 9, 12] : List Time).Pairwise (· ≤ ·) := by decide
  obtain ⟨hsum, hfinish, hrepeat⟩ := summary_of_reports 0 [(true, 3), (true, 5), (false, 8), (true, 9)] 12 htimes
  have hvalue : Observer.summarize 0 [(true, 3), (true, 5), (false, 8), (true, 9)] 12 = ⟨0, ⟨8⟩, 2⟩ :=
    hsum.trans (by decide)
  obtain ⟨t, htold, hseen⟩ := Tracker.exists_told 0 [(true, 3), (true, 5), (false, 8), (true, 9)]
  exact ⟨htimes, hvalue, (hrepeat [(true, 3), (true, 5), (false, 8)] [(true, 9)] 40 rfl).trans hvalue, t, htold,
    (hfinish t .empty htold hseen).trans (congrArg some hvalue)⟩

end Backoff
end IngestBench
