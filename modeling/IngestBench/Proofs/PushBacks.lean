import IngestBench.Rehearsal.Numbers
import IngestBench.Rehearsal.Solo
import Mathlib.Algebra.BigOperators.Group.List.Basic
import Mathlib.Algebra.GroupWithZero.Nat

/-! Push-backs. A sender on its own sends a batch again until the store takes it. The clock moves only while the sender
    is idle or pauses, so that the time it reports as back-off is the time of its pauses, to the nanosecond. -/

namespace IngestBench

/-! ### Late observers -/

namespace Backoff

/-- A tracker that was told some reports, some of which its observer may have seen. -/
inductive Tracker.Told (worker : Nat) : List (Bool × Time) → Tracker → Prop
  | new : Told worker [] (.new worker)
  | tell {reports : List (Bool × Time)} {t u : Tracker} {backingOff : Bool} {now : Time} : Told worker reports t →
      t.tell backingOff now = some u → Told worker (reports ++ [(backingOff, now)]) u
  | see {reports : List (Bool × Time)} {t u : Tracker} {now : Time} {g g' : Gauge} : Told worker reports t →
      t.see now g = some (u, g') → Told worker reports u

variable {worker : Nat} {reports : List (Bool × Time)} {t u : Tracker} {now : Time} {g g' : Gauge}

/-- What the observer makes of what it has seen and of what it has still to see. -/
theorem Tracker.Told.foldl_eq (h : Told worker reports t) :
    t.reports.foldl (fun o (backingOff, at') => o.observe backingOff at') t.observer =
      reports.foldl (fun o (backingOff, at') => o.observe backingOff at') (.new worker) := by
  induction h with
  | new => rfl
  | tell _ htell ih =>
    simp only [Tracker.tell] at htell
    split at htell
    · cases htell
      simp only [List.foldl_append, ih]
    · cases htell
  | @see _ t u _ _ _ _ hsee ih =>
    obtain ⟨observer, reports⟩ := t
    cases reports with
    | nil => cases hsee
    | cons report rest =>
      cases hsee
      exact ih

/-- However late an observer sees the reports, its sum is what they say. A sender on its own lets its observer see each
    report at once; an observer that lags comes to the same sum. -/
theorem Tracker.Told.summary_eq (h : Told worker reports t) {summary : BackoffSummary}
    (hfinish : t.finish now g = some (summary, g')) : summary = Observer.summarize worker reports now := by
  obtain ⟨observer, unseen⟩ := t
  cases unseen with
  | cons report rest => cases hfinish
  | nil =>
    cases hfinish
    exact congrArg (·.close now) h.foldl_eq

end Backoff

namespace Rehearsal

variable {ν τ β : Type}

/-! ### Scripts -/

/-- The store asks for a pause, at once. -/
def Cue.pushBack : Cue := ⟨.error .backpressure, .zero⟩

namespace Script

/-- The batches that the store was sent by a worker, oldest first. -/
def sentBy (s : Script β) (worker : Nat) : List β := (s.attemptsOf worker).map (·.batch)

/-- A store has taken some batches of a worker, and has these cues left for it. -/
structure Went (worker : Nat) (batches : List β) (rest : List Cue) (s t : Script β) : Prop where
  cues : t.cues[worker]? = some rest
  sent : t.sentBy worker = s.sentBy worker ++ batches
  doors : t.barred = s.barred ∧ t.stuck = s.stuck

variable {worker : Nat} {batches more : List β} {rest rest' : List Cue} {s t u : Script β}

theorem Went.refl (h : s.cues[worker]? = some rest) : Went worker [] rest s s :=
  ⟨h, (List.append_nil _).symm, rfl, rfl⟩

theorem Went.trans (h : Went worker batches rest s t) (h' : Went worker more rest' t u) :
    Went worker (batches ++ more) rest' s u where
  cues := h'.cues
  sent := by rw [h'.sent, h.sent, List.append_assoc]
  doors := ⟨h'.doors.1.trans h.doors.1, h'.doors.2.trans h.doors.2⟩

theorem write_eq {cue : Cue} (h : s.cues[worker]? = some (cue :: rest)) (now : Time) (batch : β) :
    (s.write worker now batch).1 = (cue.answer, cue.takes) ∧ Went worker [batch] rest s (s.write worker now batch).2 := by
  have hcue : s.cueFor worker = cue := by simp [cueFor, h]
  refine ⟨by simp [write, hcue], ?_, ?_, rfl, rfl⟩
  · simp [write, h]
  · simp [write, sentBy, attemptsOf]

end Script

/-! ### Steps of a trial -/

namespace Solo

variable [Quantity ν] {wake : Time → Time} {policy : RetryPolicy} {permits : Nat} {call : Call τ}

namespace Trial

/-- So many steps lead from one state to another. -/
inductive Steps (wake : Time → Time) (policy : RetryPolicy) (permits : Nat) (call : Call τ) :
    Nat → Trial ν τ → Trial ν τ → Prop
  | refl {t : Trial ν τ} : Steps wake policy permits call 0 t t
  | head {n : Nat} {t u v : Trial ν τ} : t.next wake policy permits call = some u →
      Steps wake policy permits call n u v → Steps wake policy permits call (n + 1) t v

variable {n m fuel : Nat} {t u v : Trial ν τ}

theorem Steps.trans (h : Steps wake policy permits call n t u) (h' : Steps wake policy permits call m u v) :
    Steps wake policy permits call (n + m) t v := by
  induction h with
  | refl => rwa [Nat.zero_add]
  | head hnext _ ih =>
    rw [Nat.add_right_comm]
    exact .head hnext (ih h')

/-- With fuel for all steps, a run gets to where nothing more happens. -/
theorem Steps.run_eq (h : Steps wake policy permits call n t u) (hover : u.next wake policy permits call = none)
    (hfuel : n ≤ fuel) : run wake policy permits call fuel t = u := by
  induction h generalizing fuel with
  | refl =>
    cases fuel with
    | zero => rfl
    | succ fuel => rw [run, hover]
  | head hnext _ ih =>
    cases fuel with
    | zero => cases hfuel
    | succ fuel =>
      rw [run, hnext]
      exact ih hover (Nat.le_of_succ_le_succ hfuel)

end Trial

/-! ### Moves of a sender -/

omit [Quantity ν] in
/-- A sender at a point in time, with an observer that has seen all reports. -/
def standing (s : Solo ν) (now : Time) (o : Backoff.Observer) (g : Backoff.Gauge) : Solo ν :=
  { s with now, gauge := g, sender := { s.sender with tracker := some ⟨o, []⟩ } }

/-- A sender without a limiter that looks at stops, while none is forced. -/
structure Calm (s : Solo ν) : Prop where
  bucket : s.bucket = none
  heeding : s.sender.heeding = true
  level : s.stopping.level.isForced = false

/-- No timer goes off by then. -/
def Still (s : Solo ν) (time : Time) : Prop := ∀ due, s.stopping.nextDue = some due → time < due

omit [Quantity ν] in
theorem tick_standing {s : Solo ν} {now due : Time} {o : Backoff.Observer} {g : Backoff.Gauge} (hstill : s.Still due)
    (hle : now ≤ due) : (s.standing now o g).tick id due = s.standing due o g := by
  simp only [tick, standing, Option.map_id, id_eq]
  cases hnext : s.stopping.nextDue with
  | none => simp [Nat.max_eq_right hle]
  | some time => simp [Nat.max_eq_right hle, Nat.not_le.2 (hstill time hnext)]

section
variable {s : Solo ν} {now due : Time} {o : Backoff.Observer} {g : Backoff.Gauge} {n : Nat} {store store' : τ}
  {delay : Span} {answer : Except Failure Unit}

open Trial

/-- An attempt that takes no time. -/
theorem steps_attempt (hs : s.Calm) (hcall : call n now store = ((answer, .zero), store')) :
    Steps id policy permits call 3 ⟨s.standing now o g, store, .charging n, none⟩
      ⟨s.standing now o g, store', Retry.judge policy n answer, none⟩ := by
  refine .head (u := ⟨s.standing now o g, store, .calling n, none⟩) ?_ (.head
    (u := ⟨s.standing now o g, store', .calling n, some (now, answer)⟩) ?_ (.head ?_ .refl))
  · simp [next, Retry.interrupt, Retry.advance, Retry.charge, surroundings, standing, absorb, hs.bucket,
      Backoff.Tracker.see]
  · simp [next, Retry.interrupt, Retry.advance, standing, hcall, Span.zero]
  · simp [next, Retry.interrupt, Retry.advance, standing]

/-- A push-back is reported, and the pause begins. -/
theorem steps_telling (hs : s.Calm) : Steps id policy permits call 2 ⟨s.standing now o g, store, .telling n, none⟩
    ⟨s.standing now (o.observe true now) (o.report true now g), store, .sleeping n (now + policy.delay.nanos), none⟩ := by
  refine .head (u := ⟨s.standing now (o.observe true now) (o.report true now g), store, .pausing n, none⟩) ?_
    (.head ?_ .refl)
  · simp [next, Retry.interrupt, Retry.advance, Retry.Surroundings.tell, surroundings, standing, absorb,
      Backoff.Tracker.tell, Backoff.Tracker.capacity, Backoff.Tracker.see]
  · simp [next, Retry.interrupt, Retry.advance, Retry.pause, surroundings, standing, absorb, hs.heeding, hs.level,
      Backoff.Tracker.see]

/-- The pause ends, unless a timer goes off. -/
theorem steps_sleeping (hs : s.Calm) (hstill : s.Still due) (hle : now ≤ due) :
    ∃ k, k ≤ 2 ∧ Steps id policy permits call k ⟨s.standing now o g, store, .sleeping n due, none⟩
      ⟨s.standing due o g, store, .charging (n + 1), none⟩ := by
  have hcall : next id policy permits call ⟨s.standing due o g, store, .sleeping n due, none⟩ =
      some ⟨s.standing due o g, store, .charging (n + 1), none⟩ := by
    simp [next, Retry.interrupt, Retry.advance, surroundings, standing, absorb, hs.heeding, hs.level,
      Backoff.Tracker.see]
  rcases Nat.eq_or_lt_of_le hle with rfl | hlt
  · exact ⟨1, by decide, .head hcall .refl⟩
  · have hlate : ¬due ≤ now := Nat.not_le.2 hlt
    have htick : next id policy permits call ⟨s.standing now o g, store, .sleeping n due, none⟩ =
        some ⟨(s.standing now o g).tick id due, store, .sleeping n due, none⟩ := by
      simp [next, Retry.interrupt, Retry.advance, Retry.due?, surroundings, standing, hs.heeding, hs.level, hlate]
    rw [tick_standing hstill hle] at htick
    exact ⟨2, by decide, .head htick (.head hcall .refl)⟩

omit [Quantity ν] in
/-- A sender after a forced stop. -/
def halted (s : Solo ν) : Solo ν := { s with stopping := ⟨some .forced, []⟩ }

omit [Quantity ν] in
theorem tick_halted (hs : s.Calm) {time : Time} (htimers : s.stopping.timers = [.force time]) (hafter : now < time)
    (hbefore : time < due) : (s.standing now o g).tick id due = s.halted.standing time o g := by
  obtain ⟨start, ⟨level, timers⟩, bucket, gauge, sender⟩ := s
  cases htimers
  have hlevel : level.raise .forced = some .forced := by
    rcases level with _ | _ | _
    · rfl
    · rfl
    · cases hs.level
  simp [tick, standing, halted, Stopping.nextDue, StopTimer.due?, Nat.le_of_lt hbefore,
    Nat.max_eq_right (Nat.le_of_lt hafter), Stopping.fire, Stopping.takeDue, StopTimer.level, Stopping.raise,
    Stopping.enter, hlevel]

/-- A forced stop ends the pause. -/
theorem steps_cut (hs : s.Calm) {time : Time} (htimers : s.stopping.timers = [.force time]) (hafter : now < time)
    (hbefore : time < due) : Steps id policy permits call 2 ⟨s.standing now o g, store, .sleeping n due, none⟩
      ⟨s.halted.standing time o g, store, .settling (.refused (.cancelled n)), none⟩ := by
  have hlate : ¬due ≤ now := Nat.not_le.2 (Nat.lt_trans hafter hbefore)
  have htick : next id policy permits call ⟨s.standing now o g, store, .sleeping n due, none⟩ =
      some ⟨(s.standing now o g).tick id due, store, .sleeping n due, none⟩ := by
    simp [next, Retry.interrupt, Retry.advance, Retry.due?, surroundings, standing, hs.heeding, hs.level, hlate]
  rw [tick_halted hs htimers hafter hbefore] at htick
  refine .head htick (.head ?_ .refl)
  simp [next, Retry.interrupt, surroundings, standing, halted, hs.heeding, Stop.isForced, Stop.reached,
    StopLevel.covers]

/-- The end of the attempts is reported. -/
theorem steps_settling {result : Retry.Result} : Steps id policy permits call 1
    ⟨s.standing now o g, store, .settling result, none⟩
    ⟨s.standing now (o.observe false now) (o.report false now g), store, .settled result, none⟩ := by
  refine .head ?_ .refl
  simp [next, Retry.interrupt, Retry.advance, Retry.Surroundings.tell, surroundings, standing, absorb,
    Backoff.Tracker.tell, Backoff.Tracker.capacity, Backoff.Tracker.see]

end

omit [Quantity ν] in
theorem Still.mono {s : Solo ν} {time earlier : Time} (h : s.Still time) (hle : earlier ≤ time) : s.Still earlier :=
  fun due hdue => Nat.lt_of_le_of_lt hle (h due hdue)

omit [Quantity ν] in
theorem still_of_force {s : Solo ν} {time earlier : Time} (htimers : s.stopping.timers = [.force time])
    (h : earlier < time) : s.Still earlier := fun due hdue => by
  have hsame : due = time := by simpa [Stopping.nextDue, htimers, StopTimer.due?] using hdue.symm
  exact hsame ▸ h

/-! ### One batch -/

section
variable {s : Solo ν} {now : Time} {o : Backoff.Observer} {g : Backoff.Gauge} {n worker fuel : Nat} {delay : Span}
  {batch : β} {script : Script β} {rest : List Cue}

/-- An observer that has seen some periods more. -/
def grown (o : Backoff.Observer) (nanos episodes : Nat) : Backoff.Observer :=
  { o with total := o.total + ⟨nanos⟩, episodes := o.episodes + episodes }

/-- The observer after a batch that was pushed back so often, and up to some time. -/
def after (o : Backoff.Observer) (pushBacks : Nat) (start time : Time) : Backoff.Observer :=
  if pushBacks = 0 then o else grown o (time - start) 1

theorem grown_zero (o : Backoff.Observer) : grown o 0 0 = o := rfl

theorem grown_new (worker nanos episodes : Nat) :
    grown (.new worker) nanos episodes = ⟨worker, none, ⟨nanos⟩, episodes⟩ := by
  simp only [grown, Backoff.Observer.new, Nat.zero_add]
  congr 1
  exact congrArg Span.mk (Nat.zero_add nanos)

theorem grown_grown (o : Backoff.Observer) (a b m n : Nat) : grown (grown o a m) b n = grown o (a + b) (m + n) := by
  simp only [grown, Nat.add_assoc]
  congr 1
  exact congrArg Span.mk (Nat.add_assoc ..)

theorem after_eq (o : Backoff.Observer) (k : Nat) (start : Time) (nanos : Nat) :
    after o k start (start + k * nanos) = grown o (nanos * k) (if 0 < k then 1 else 0) := by
  cases k with
  | zero => rfl
  | succ k => rw [after, if_neg (Nat.succ_ne_zero k), if_pos (Nat.succ_pos k), Nat.add_sub_cancel_left, Nat.mul_comm]

theorem observe_false_eq (hstarted : o.started = none) (pushBacks : Nat) (start time : Time) :
    (if pushBacks = 0 then o else o.observe true start).observe false time = after o pushBacks start time := by
  obtain ⟨worker, started, total, episodes⟩ := o
  cases hstarted
  by_cases h : pushBacks = 0
  · simp [h, after, Backoff.Observer.observe]
  · simp only [h, after, Backoff.Observer.observe, if_false]
    rfl

open Trial

/-- A scripted store takes the attempts at a batch. -/
def sends (worker : Nat) (batch : β) : Call (Script β) := fun _ now => Script.write worker now batch

theorem steps_write {answer : Except Failure Unit} (hs : s.Calm)
    (hcues : script.cues[worker]? = some (⟨answer, .zero⟩ :: rest)) : ∃ script', Steps id policy permits
      (sends worker batch) 3 ⟨s.standing now o g, script, .charging n, none⟩
      ⟨s.standing now o g, script', Retry.judge policy n answer, none⟩ ∧ script.Went worker [batch] rest script' := by
  obtain ⟨hanswer, hwent⟩ := Script.write_eq hcues now batch
  exact ⟨_, steps_attempt hs (Prod.ext hanswer rfl), hwent⟩

/-- Push-backs, one after the other. -/
theorem steps_pushBacks (hs : s.Calm) (k : Nat) (hstill : s.Still (now + k * delay.nanos))
    (hcues : script.cues[worker]? = some (List.replicate k Cue.pushBack ++ rest)) :
    ∃ m g' script', m ≤ 7 * k ∧ Steps id ⟨delay, none⟩ permits (sends worker batch) m
      ⟨s.standing now o g, script, .charging n, none⟩
      ⟨s.standing (now + k * delay.nanos) (if k = 0 then o else o.observe true now) g', script', .charging (n + k),
        none⟩ ∧ script.Went worker (List.replicate k batch) rest script' := by
  induction k generalizing now o g n script with
  | zero => exact ⟨0, g, script, Nat.le_refl _, by simpa using Steps.refl, .refl hcues⟩
  | succ k ih =>
    have hsum : now + (k + 1) * delay.nanos = now + delay.nanos + k * delay.nanos := by
      rw [Nat.succ_mul, Nat.add_comm (k * _), Nat.add_assoc]
    rw [hsum] at hstill ⊢
    obtain ⟨between, hattempt, hwent⟩ := steps_write hs hcues
    have hattempt : Steps id ⟨delay, none⟩ permits (sends worker batch) 3
      ⟨s.standing now o g, script, .charging n, none⟩ ⟨s.standing now o g, between, .telling n, none⟩ := hattempt
    have htelling := hattempt.trans (steps_telling hs)
    obtain ⟨j, hj, hsleeping⟩ := steps_sleeping hs (hstill.mono (Nat.le_add_right _ _))
      (Nat.le_add_right now delay.nanos)
    obtain ⟨m, g', script', hm, hsteps, hwent'⟩ := ih hstill hwent.cues
    refine ⟨3 + 2 + j + m, g', script', by omega, ?_, hwent.trans hwent'⟩
    -- Only the first push-back begins a period.
    have hobserver : (if k = 0 then o.observe true now else (o.observe true now).observe true (now + delay.nanos)) =
        if k + 1 = 0 then o else o.observe true now := by
      rw [Backoff.Observer.observe_same Backoff.Observer.isSome_observe, ite_self, if_neg (Nat.succ_ne_zero k)]
    rw [hobserver, Nat.add_right_comm n] at hsteps
    exact (htelling.trans hsleeping).trans hsteps

omit [Quantity ν] in
theorem standing_self (htracker : s.sender.tracker = some ⟨o, []⟩) : s.standing s.now o s.gauge = s := by
  obtain ⟨now, stopping, bucket, gauge, worker, heeding, connected, tracker, sends, backoffs⟩ := s
  cases htracker
  rfl

/-- Attempts that come to their end in time. -/
theorem process_of_steps {m : Nat} {t : Solo ν} {store store' : τ} {result : Retry.Result} {counts : Counts}
    (h : Steps id policy counts.metrics call m ⟨s, store, .first, none⟩ ⟨t, store', .settled result, none⟩)
    (hfuel : m ≤ fuel) : s.process id policy true counts call fuel store =
      some (verdict counts result, { t with sender := t.sender.count result }, store') := by
  have hrun := h.run_eq rfl hfuel
  simp only [process, attempt, hrun, if_true]
  rfl

/-- A batch that is pushed back so often, and then accepted. -/
theorem process_eq (hs : s.Calm) (htracker : s.sender.tracker = some ⟨o, []⟩) (hstarted : o.started = none)
    (counts : Counts) (k : Nat) (hstill : s.Still (s.now + k * delay.nanos))
    (hcues : script.cues[worker]? = some (List.replicate k Cue.pushBack ++ .take :: rest)) (hfuel : 7 * k + 4 ≤ fuel) :
    ∃ g t script', t = s.standing (s.now + k * delay.nanos) (after o k s.now (s.now + k * delay.nanos)) g ∧
      s.process id ⟨delay, none⟩ true counts (sends worker batch) fuel script =
        some (.ok counts, { t with sender := t.sender.count (.accepted (1 + k)) }, script') ∧
      script.Went worker (List.replicate (k + 1) batch) rest script' := by
  obtain ⟨m, g, between, hm, hsteps, hwent⟩ := steps_pushBacks hs k hstill hcues
  obtain ⟨script', hattempt, hwent'⟩ := steps_write hs hwent.cues
  have hattempt : Steps id ⟨delay, none⟩ counts.metrics (sends worker batch) 3
      ⟨s.standing (s.now + k * delay.nanos) (if k = 0 then o else o.observe true s.now) g, between, .charging (1 + k),
        none⟩
      ⟨s.standing (s.now + k * delay.nanos) (if k = 0 then o else o.observe true s.now) g, script',
        .settling (.accepted (1 + k)), none⟩ := hattempt
  have hall := (hsteps.trans hattempt).trans steps_settling
  rw [standing_self htracker, observe_false_eq hstarted] at hall
  exact ⟨_, _, script', rfl, process_of_steps hall (by omega), List.replicate_succ' ▸ hwent.trans hwent'⟩

/-- A batch whose last pause a forced stop cuts short. -/
theorem process_cut (hs : s.Calm) (htracker : s.sender.tracker = some ⟨o, []⟩) (hstarted : o.started = none)
    (counts : Counts) (k : Nat) {time : Time} (htimers : s.stopping.timers = [.force time])
    (hafter : s.now + k * delay.nanos < time) (hbefore : time < s.now + k * delay.nanos + delay.nanos)
    (hcues : script.cues[worker]? = some (List.replicate (k + 1) Cue.pushBack ++ rest)) (hfuel : 7 * k + 8 ≤ fuel) :
    ∃ g script', s.process id ⟨delay, none⟩ true counts (sends worker batch) fuel script =
        some (.error (.failed .cancelled), s.halted.standing time (after o (k + 1) s.now time) g, script') ∧
      script.Went worker (List.replicate (k + 1) batch) rest script' := by
  rw [List.replicate_succ', List.append_assoc] at hcues
  obtain ⟨m, g, between, hm, hsteps, hwent⟩ :
      ∃ m g script', m ≤ 7 * k ∧ Steps id ⟨delay, none⟩ counts.metrics (sends worker batch) m
        ⟨s.standing s.now o s.gauge, script, .charging 1, none⟩
        ⟨s.standing (s.now + k * delay.nanos) (if k = 0 then o else o.observe true s.now) g, script', .charging (1 + k),
          none⟩ ∧ script.Went worker (List.replicate k batch) (Cue.pushBack :: rest) script' :=
    steps_pushBacks hs k (still_of_force htimers hafter) hcues
  obtain ⟨script', hattempt, hwent'⟩ := steps_write hs hwent.cues
  have hattempt : Steps id ⟨delay, none⟩ counts.metrics (sends worker batch) 3
      ⟨s.standing (s.now + k * delay.nanos) (if k = 0 then o else o.observe true s.now) g, between, .charging (1 + k),
        none⟩
      ⟨s.standing (s.now + k * delay.nanos) (if k = 0 then o else o.observe true s.now) g, script', .telling (1 + k),
        none⟩ := hattempt
  have hall := (((hsteps.trans hattempt).trans (steps_telling hs)).trans
    (steps_cut hs htimers hafter hbefore)).trans steps_settling
  -- Whether or not the batch was pushed back before, the period began with its first push-back.
  have hobserver : (if k = 0 then o else o.observe true s.now).observe true (s.now + k * delay.nanos) =
      if k + 1 = 0 then o else o.observe true s.now := by
    rw [if_neg (Nat.succ_ne_zero k)]
    split
    · next hk => rw [hk, Nat.zero_mul, Nat.add_zero]
    · exact Backoff.Observer.observe_same Backoff.Observer.isSome_observe
  rw [standing_self htracker, hobserver, observe_false_eq hstarted] at hall
  exact ⟨_, script', process_of_steps hall (by omega), List.replicate_succ' ▸ hwent.trans hwent'⟩

end

/-! ### Batch after batch -/

/-- A batch for a sender: how long the sender is idle before it comes, and how often the store pushes it back. -/
structure Job (β : Type) where
  idle : Span
  batch : β
  pushBacks : Nat

namespace Job

/-- What the store answers before it takes the batch, and that it takes it. -/
def cues (j : Job β) : List Cue := List.replicate j.pushBacks .pushBack ++ [.take]

/-- The attempts at a batch that is accepted in the end. -/
def attempts (j : Job β) : List β := List.replicate (j.pushBacks + 1) j.batch

def idleTime (jobs : List (Job β)) : Nat := (jobs.map (·.idle.nanos)).sum

/-- All push-backs. -/
def allPushBacks (jobs : List (Job β)) : Nat := (jobs.map (·.pushBacks)).sum

/-- The batches that are pushed back at all. -/
def periods (jobs : List (Job β)) : Nat := jobs.countP (0 < ·.pushBacks)

variable (jobs : List (Job β)) (j : Job β)

theorem idleTime_concat : idleTime (jobs ++ [j]) = idleTime jobs + j.idle.nanos := by simp [idleTime]

theorem allPushBacks_concat : allPushBacks (jobs ++ [j]) = allPushBacks jobs + j.pushBacks := by simp [allPushBacks]

theorem periods_concat (h : 0 < j.pushBacks) : periods (jobs ++ [j]) = periods jobs + 1 := by simp [periods, h]

end Job

variable {π : Type} [Batch β π]

/-- The sender is idle for some time, and then sends a batch. -/
def takeJob (policy : RetryPolicy) (worker fuel : Nat) (j : Job β) (s : Solo ν) (script : Script β) :
    Option (Except Breakdown Counts × Solo ν × Script β) :=
  (s.sleep id (s.now + j.idle.nanos)).process id policy true (Batch.counts j.batch) (sends worker j.batch) fuel script

/-- The sender sends batches, one after the other. -/
def processAll (policy : RetryPolicy) (worker fuel : Nat) :
    List (Job β) → Solo ν → Script β → Option (List (Except Breakdown Counts) × Solo ν × Script β)
  | [], s, script => some ([], s, script)
  | j :: jobs, s, script =>
    (takeJob policy worker fuel j s script).bind fun (result, s, script) =>
      (processAll policy worker fuel jobs s script).map fun (results, s, script) => (result :: results, s, script)

/-- The life of a sender: it is set up, sends batches, and is closed. None if it is not let in. -/
def serve (policy : RetryPolicy) (worker fuel : Nat) (jobs : List (Job β)) (s : Solo ν) (script : Script β) :
    Option (List (Except Breakdown Counts) × Except Failure BackoffSummary × Solo ν × Script β) :=
  match s.setUp worker (some (Script.connect worker)) script with
  | (.error _, _, _) => none
  | (.ok _, s, script) =>
    (processAll policy worker fuel jobs s script).map fun (results, s, script) =>
      (results, s.close (Script.disconnect worker) script)

/-- A sender between two batches. -/
structure Resting (s : Solo ν) (o : Backoff.Observer) : Prop extends Calm s where
  tracker : s.sender.tracker = some ⟨o, []⟩
  started : o.started = none

section
variable {s : Solo ν} {o : Backoff.Observer} {worker fuel : Nat} {delay : Span} {script : Script β} {rest : List Cue}
  {j : Job β} {jobs : List (Job β)}

omit [Quantity ν] in
theorem sleep_eq {time : Time} (hstill : s.Still time) (hle : s.now ≤ time) :
    s.sleep id time = { s with now := time } := by
  have hsleep : ∀ (l : List Nat) (u : Solo ν), u = { s with now := u.now } → u.now ≤ time →
      let v := l.foldl (fun s _ => s.tick id time) u
      v = { s with now := v.now } ∧ v.now ≤ time := by
    intro l
    induction l with
    | nil => exact fun u hu hnow => ⟨hu, hnow⟩
    | cons _ l ih =>
      intro u hu hnow
      have htick : u.tick id time = { s with now := time } := by
        rw [hu]
        simp only [tick, Option.map_id, id_eq]
        cases hnext : s.stopping.nextDue with
        | none => simp [Nat.max_eq_right hnow]
        | some due => simp [Nat.max_eq_right hnow, Nat.not_le.2 (hstill due hnext)]
      rw [List.foldl_cons, htick]
      exact ih _ rfl (Nat.le_refl _)
  obtain ⟨hfold, hnow⟩ := hsleep (List.range s.stopping.timers.length) s rfl hle
  rw [sleep, hfold]
  simp only [Nat.max_eq_right hnow]

/-- A batch after an idle time. -/
theorem takeJob_eq (hs : s.Resting o) (hstill : s.Still (s.now + j.idle.nanos + delay.nanos * j.pushBacks))
    (hcues : script.cues[worker]? = some (j.cues ++ rest)) (hfuel : 7 * j.pushBacks + 4 ≤ fuel) :
    ∃ t script', takeJob ⟨delay, none⟩ worker fuel j s script = some (.ok (Batch.counts j.batch), t, script') ∧
      t.Resting (grown o (delay.nanos * j.pushBacks) (if 0 < j.pushBacks then 1 else 0)) ∧
      t.now = s.now + j.idle.nanos + delay.nanos * j.pushBacks ∧ t.stopping = s.stopping ∧
      t.sender.connected = s.sender.connected ∧ script.Went worker j.attempts rest script' := by
  have hidle : s.sleep id (s.now + j.idle.nanos) = { s with now := s.now + j.idle.nanos } :=
    sleep_eq (hstill.mono (Nat.le_add_right _ _)) (Nat.le_add_right _ _)
  have hcalm : Calm { s with now := s.now + j.idle.nanos } := ⟨hs.bucket, hs.heeding, hs.level⟩
  rw [Job.cues, List.append_assoc] at hcues
  rw [Nat.mul_comm delay.nanos] at hstill
  obtain ⟨g, t, script', ht, hprocess, hwent⟩ := process_eq (s := { s with now := s.now + j.idle.nanos }) hcalm
    hs.tracker hs.started (Batch.counts j.batch) j.pushBacks hstill hcues hfuel
  rw [after_eq] at ht
  rw [takeJob, hidle]
  refine ⟨_, script', hprocess, ?_, ?_, ?_, ?_, hwent⟩
  · rw [ht]
    exact ⟨⟨hs.bucket, hs.heeding, hs.level⟩, rfl, hs.started⟩
  · rw [ht, Nat.mul_comm delay.nanos]
    rfl
  · rw [ht]
    rfl
  · rw [ht]
    rfl

theorem processAll_eq (hs : s.Resting o)
    (hstill : s.Still (s.now + Job.idleTime jobs + delay.nanos * Job.allPushBacks jobs))
    (hcues : script.cues[worker]? = some (jobs.flatMap Job.cues ++ rest))
    (hfuel : ∀ j ∈ jobs, 7 * j.pushBacks + 4 ≤ fuel) :
    ∃ t script', processAll ⟨delay, none⟩ worker fuel jobs s script =
        some (jobs.map fun j => .ok (Batch.counts j.batch), t, script') ∧
      t.Resting (grown o (delay.nanos * Job.allPushBacks jobs) (Job.periods jobs)) ∧
      t.now = s.now + Job.idleTime jobs + delay.nanos * Job.allPushBacks jobs ∧ t.stopping = s.stopping ∧
      t.sender.connected = s.sender.connected ∧ script.Went worker (jobs.flatMap Job.attempts) rest script' := by
  induction jobs generalizing s o script with
  | nil =>
    refine ⟨s, script, rfl, ?_, rfl, rfl, rfl, .refl hcues⟩
    simpa [Job.allPushBacks, Job.periods, grown_zero] using hs
  | cons j jobs ih =>
    have hsum : s.now + Job.idleTime (j :: jobs) + delay.nanos * Job.allPushBacks (j :: jobs) =
        s.now + j.idle.nanos + delay.nanos * j.pushBacks + Job.idleTime jobs + delay.nanos * Job.allPushBacks jobs := by
      simp only [Job.idleTime, Job.allPushBacks, List.map_cons, List.sum_cons, Nat.mul_add]
      rw [← Nat.add_assoc s.now, Nat.add_add_add_comm, ← Nat.add_assoc]
    rw [hsum] at hstill ⊢
    rw [List.flatMap_cons, List.append_assoc] at hcues
    obtain ⟨t, between, htake, ht, hnow, hstopping, hconnected, hwent⟩ := takeJob_eq hs
      (hstill.mono (Nat.le_trans (Nat.le_add_right _ _) (Nat.le_add_right _ _))) hcues (hfuel j List.mem_cons_self)
    rw [← hnow] at hstill ⊢
    have hstill : t.Still (t.now + Job.idleTime jobs + delay.nanos * Job.allPushBacks jobs) := fun due hdue =>
      hstill due (hstopping ▸ hdue)
    obtain ⟨u, script', hall, hu, hnow', hstopping', hconnected', hwent'⟩ := ih ht hstill hwent.cues
      fun j hj => hfuel j (List.mem_cons_of_mem _ hj)
    refine ⟨u, script', ?_, ?_, hnow', hstopping'.trans hstopping, hconnected'.trans hconnected, hwent.trans hwent'⟩
    · rw [processAll, htake]
      simp only [Option.bind_some, hall, Option.map_some, List.map_cons]
    · rw [grown_grown] at hu
      convert hu using 2
      · simp only [Job.allPushBacks, List.map_cons, List.sum_cons, Nat.mul_add]
      · simp only [Job.periods, List.countP_cons, decide_eq_true_eq]
        omega

omit [Quantity ν] in
/-- A sender with a connection is closed. -/
theorem close_eq (htracker : s.sender.tracker = some ⟨o, []⟩) (hstarted : o.started = none)
    (hconnected : s.sender.connected = true) (hstuck : script.stuck.contains worker = false) :
    ∃ t, s.close (Script.disconnect worker) script = (.ok ⟨o.worker, o.total, o.episodes⟩, t, script) ∧
      t.now = s.now := by
  have hsum : s.backoff = ⟨o.worker, o.total, o.episodes⟩ := by
    rw [backoff, htracker, Option.elim_some, Backoff.Observer.close, hstarted]
  rw [close, hsum, hconnected, if_pos rfl, Script.disconnect, hstuck]
  exact ⟨_, rfl, rfl⟩

theorem processAll_append (policy : RetryPolicy) (jobs more : List (Job β)) (s : Solo ν) (script : Script β) :
    processAll policy worker fuel (jobs ++ more) s script =
      (processAll policy worker fuel jobs s script).bind fun (results, s, script) =>
        (processAll policy worker fuel more s script).map fun (results', s, script) =>
          (results ++ results', s, script) := by
  induction jobs generalizing s script with
  | nil =>
    simp only [List.nil_append, processAll, Option.bind_some]
    exact Option.map_id'.symm
  | cons j jobs ih =>
    simp only [List.cons_append, processAll, ih]
    cases takeJob policy worker fuel j s script with
    | none => rfl
    | some x =>
      simp only [Option.bind_some]
      cases processAll policy worker fuel jobs x.2.1 x.2.2 with
      | none => rfl
      | some y => simp only [Option.bind_some, Option.map_some, Option.map_map]; rfl

/-- A batch after an idle time, whose last pause a forced stop cuts short. -/
theorem takeJob_cut (hs : s.Resting o) {time : Time} (htimers : s.stopping.timers = [.force time])
    (hpushed : 0 < j.pushBacks) (hafter : s.now + j.idle.nanos + delay.nanos * (j.pushBacks - 1) < time)
    (hbefore : time < s.now + j.idle.nanos + delay.nanos * (j.pushBacks - 1) + delay.nanos)
    (hcues : script.cues[worker]? = some (j.cues ++ rest)) (hfuel : 7 * j.pushBacks + 4 ≤ fuel) :
    ∃ t script', takeJob ⟨delay, none⟩ worker fuel j s script = some (.error (.failed .cancelled), t, script') ∧
      t.sender.tracker = some ⟨grown o (time - (s.now + j.idle.nanos)) 1, []⟩ ∧ t.now = time ∧
      t.sender.connected = s.sender.connected ∧
      script.Went worker (List.replicate j.pushBacks j.batch) (.take :: rest) script' := by
  obtain ⟨idle, batch, pushBacks⟩ := j
  obtain ⟨k, rfl⟩ : ∃ k, pushBacks = k + 1 := Nat.exists_eq_succ_of_ne_zero (Nat.ne_of_gt hpushed)
  rw [Nat.add_sub_cancel, Nat.mul_comm] at hafter hbefore
  rw [Job.cues, List.append_assoc] at hcues
  have hidle : s.sleep id (s.now + idle.nanos) = { s with now := s.now + idle.nanos } :=
    sleep_eq (still_of_force htimers (Nat.lt_of_le_of_lt (Nat.le_add_right _ _) hafter)) (Nat.le_add_right _ _)
  have hcalm : Calm { s with now := s.now + idle.nanos } := ⟨hs.bucket, hs.heeding, hs.level⟩
  have hfuel : 7 * (k + 1) + 4 ≤ fuel := hfuel
  have henough : 7 * k + 8 ≤ fuel := by omega
  obtain ⟨g, script', hprocess, hwent⟩ := process_cut (s := { s with now := s.now + idle.nanos }) hcalm hs.tracker
    hs.started (Batch.counts batch) k htimers hafter hbefore hcues henough
  rw [takeJob, hidle]
  refine ⟨_, script', hprocess, ?_, ?_, ?_, hwent⟩ <;> rfl

theorem total_of_cut {start pause before time : Nat} (h : start + pause < time) :
    before + (time - start) = before + pause + (time - (start + pause)) := by
  omega

/-- The sender counts its pauses, to the nanosecond. Each batch is sent once more than it is pushed back, and comes to
    its own counts; the back-off is the time of all pauses, in as many periods as batches were pushed back, however long
    the sender was idle in between. A forced stop in the last pause ends it, and its time is counted up to the stop. -/
theorem serve_eq (s : Solo ν) (script : Script β) (worker : Nat) (delay : Span) (fuel : Nat) (jobs : List (Job β))
    (rest : List Cue) (hbucket : s.bucket = none) (hlevel : s.stopping.level.isForced = false)
    (hbarred : script.barred.contains worker = false) (hstuck : script.stuck.contains worker = false)
    (hcues : script.cues[worker]? = some (jobs.flatMap Job.cues ++ rest))
    (hfuel : ∀ j ∈ jobs, 7 * j.pushBacks + 4 ≤ fuel) :
    (s.Still (s.now + Job.idleTime jobs + delay.nanos * Job.allPushBacks jobs) → ∃ t script',
      serve ⟨delay, none⟩ worker fuel jobs s script = some (jobs.map fun j => .ok (Batch.counts j.batch),
        .ok ⟨worker, ⟨delay.nanos * Job.allPushBacks jobs⟩, Job.periods jobs⟩, t, script') ∧
      t.now = s.now + Job.idleTime jobs + delay.nanos * Job.allPushBacks jobs ∧
      script'.sentBy worker = script.sentBy worker ++ jobs.flatMap Job.attempts ∧
      (jobs.flatMap Job.attempts).length = (jobs.map (·.pushBacks + 1)).sum) ∧
    (∀ (before : List (Job β)) (last : Job β) (time : Time), jobs = before ++ [last] → 0 < last.pushBacks →
      s.stopping.timers = [.force time] →
      let start := s.now + Job.idleTime jobs + delay.nanos * (Job.allPushBacks jobs - 1)
      start < time → time < start + delay.nanos → ∃ t script',
        serve ⟨delay, none⟩ worker fuel jobs s script =
          some ((before.map fun j => .ok (Batch.counts j.batch)) ++ [.error (.failed .cancelled)],
            .ok ⟨worker, ⟨delay.nanos * (Job.allPushBacks jobs - 1) + (time - start)⟩, Job.periods jobs⟩, t, script') ∧
        t.now = time ∧ script'.sentBy worker =
          script.sentBy worker ++ before.flatMap Job.attempts ++ List.replicate last.pushBacks last.batch) := by
  have hconnect : script.connect worker = (.ok (), script) := by rw [Script.connect, hbarred]; rfl
  have hset : ∃ u : Solo ν, s.setUp worker (some (Script.connect worker)) script = (.ok (), u, script) ∧
      u.Resting (.new worker) ∧ u.now = s.now ∧ u.stopping = s.stopping ∧ u.sender.connected = true := by
    rw [setUp, hconnect]
    exact ⟨_, rfl, ⟨⟨hbucket, rfl, hlevel⟩, rfl, rfl⟩, rfl, rfl, rfl⟩
  obtain ⟨u, hsetUp, hu, hnow, hstopping, hconnected⟩ := hset
  constructor
  · intro hstill
    rw [← hnow] at hstill ⊢
    obtain ⟨t, script', hall, ht, hnow', -, hconnected', hwent⟩ := processAll_eq hu
      (fun due hdue => hstill due (hstopping ▸ hdue)) hcues hfuel
    have hstuck' : script'.stuck.contains worker = false := hwent.doors.2 ▸ hstuck
    obtain ⟨v, hclose, hv⟩ := close_eq ht.tracker ht.started (hconnected'.trans hconnected) hstuck'
    refine ⟨v, script', ?_, hv.trans hnow', hwent.sent, ?_⟩
    · simp only [serve, hsetUp, hall, Option.map_some, hclose]
      rw [show (grown (.new worker) (delay.nanos * Job.allPushBacks jobs) (Job.periods jobs)) =
        ⟨worker, none, ⟨delay.nanos * Job.allPushBacks jobs⟩, Job.periods jobs⟩ from grown_new _ _ _]
    · rw [List.length_flatMap]
      simp [Job.attempts]
  · intro before last time hjobs hpushed htimers start hafter hbefore
    rw [← hstopping] at htimers
    rw [hjobs, List.flatMap_append, List.flatMap_singleton, List.append_assoc] at hcues
    -- The time before the last batch, and how long it is pushed back before the last pause.
    have hpauses : Job.allPushBacks jobs - 1 = Job.allPushBacks before + (last.pushBacks - 1) := by
      rw [hjobs, Job.allPushBacks_concat]
      exact Nat.add_sub_assoc hpushed _
    have hstart : start = u.now + Job.idleTime before + delay.nanos * Job.allPushBacks before + last.idle.nanos +
        delay.nanos * (last.pushBacks - 1) := by
      rw [show start = s.now + Job.idleTime jobs + delay.nanos * (Job.allPushBacks jobs - 1) from rfl, hpauses, hjobs,
        Job.idleTime_concat, Nat.mul_add, hnow, ← Nat.add_assoc s.now, Nat.add_right_comm (s.now + _), ← Nat.add_assoc]
      exact Nat.add_right_comm _ _ _
    rw [hstart] at hafter hbefore
    have hstill := still_of_force htimers
      (Nat.lt_of_le_of_lt (Nat.le_trans (Nat.le_add_right _ _) (Nat.le_add_right _ _)) hafter)
    obtain ⟨t, between, hall, ht, hnow', hstopping', hconnected', hwent⟩ := processAll_eq hu hstill hcues
      fun j hj => hfuel j (by simp [hjobs, hj])
    rw [← hnow'] at hafter hbefore
    obtain ⟨v, script', hlast, htracker, hv, hconnectedv, hwent'⟩ := takeJob_cut ht (hstopping' ▸ htimers) hpushed
      hafter hbefore hwent.cues (hfuel last (by simp [hjobs]))
    have hstuck' : script'.stuck.contains worker = false := (hwent.trans hwent').doors.2 ▸ hstuck
    obtain ⟨x, hclose, hx⟩ := close_eq htracker ht.started ((hconnectedv.trans hconnected').trans hconnected) hstuck'
    refine ⟨x, script', ?_, hx.trans hv, (hwent.trans hwent').sent.trans (List.append_assoc ..).symm⟩
    have hboth : processAll ⟨delay, none⟩ worker fuel jobs u script =
        some ((before.map fun j => .ok (Batch.counts j.batch)) ++ [.error (.failed .cancelled)], v, script') := by
      rw [hjobs, processAll_append, hall]
      simp only [Option.bind_some, processAll, hlast, Option.map_some]
    simp only [serve, hsetUp, hboth, Option.map_some, hclose]
    have htotal : delay.nanos * Job.allPushBacks before + (time - (t.now + last.idle.nanos)) =
        delay.nanos * (Job.allPushBacks jobs - 1) + (time - start) := by
      rw [hpauses, Nat.mul_add, hstart, ← hnow']
      exact total_of_cut hafter
    rw [grown_grown, grown_new, htotal, hjobs, Job.periods_concat _ _ hpushed]

end

/-! ### Three batches -/

def threeJobs : List (Job Numbers) := [⟨⟨7⟩, ⟨[1]⟩, 2⟩, ⟨⟨0⟩, ⟨[2, 3]⟩, 0⟩, ⟨⟨5⟩, ⟨[4]⟩, 1⟩]

def threeScript : Script Numbers := ⟨[threeJobs.flatMap Job.cues], .take, [], [], []⟩

/-- A sender that is forced to stop at a time, if at all. -/
def stopped (time : Option Time) : Solo Float :=
  { Solo.idle none with stopping := ⟨none, time.toList.map .force⟩ }

/-- Three pauses of a microsecond, of which a forced stop may cut the last one to 488 nanoseconds. -/
theorem serve_eq_three_batches :
    (∃ t script', serve ⟨⟨1000⟩, none⟩ 0 20 threeJobs (stopped none) threeScript =
        some ([.ok ⟨1, 1⟩, .ok ⟨2, 2⟩, .ok ⟨1, 1⟩], .ok ⟨0, ⟨3000⟩, 2⟩, t, script') ∧ t.now = 3012 ∧
      script'.sentBy 0 = [⟨[1]⟩, ⟨[1]⟩, ⟨[1]⟩, ⟨[2, 3]⟩, ⟨[4]⟩, ⟨[4]⟩]) ∧
    (∃ t script', serve ⟨⟨1000⟩, none⟩ 0 20 threeJobs (stopped (some 2500)) threeScript =
        some ([.ok ⟨1, 1⟩, .ok ⟨2, 2⟩, .error (.failed .cancelled)], .ok ⟨0, ⟨2488⟩, 2⟩, t, script') ∧ t.now = 2500 ∧
      script'.sentBy 0 = [⟨[1]⟩, ⟨[1]⟩, ⟨[1]⟩, ⟨[2, 3]⟩, ⟨[4]⟩]) := by
  have hfuel : ∀ j ∈ threeJobs, 7 * j.pushBacks + 4 ≤ 20 := by decide
  obtain ⟨hcalm, -⟩ := serve_eq (stopped none) threeScript 0 ⟨1000⟩ 20 threeJobs [] rfl rfl rfl rfl rfl hfuel
  obtain ⟨-, hcut⟩ := serve_eq (stopped (some 2500)) threeScript 0 ⟨1000⟩ 20 threeJobs [] rfl rfl rfl rfl rfl hfuel
  obtain ⟨t, script', hserve, hnow, hsent, -⟩ := hcalm nofun
  obtain ⟨u, script₂, hserve', hnow', hsent'⟩ :=
    hcut (threeJobs.take 2) ⟨⟨5⟩, ⟨[4]⟩, 1⟩ 2500 rfl (by decide) rfl (by decide) (by decide)
  exact ⟨⟨t, script', hserve, hnow, hsent⟩, u, script₂, hserve', hnow', hsent'⟩

end Solo
end Rehearsal
end IngestBench
