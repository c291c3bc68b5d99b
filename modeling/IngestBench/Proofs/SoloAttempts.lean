import IngestBench.Proofs.Attempts
import IngestBench.Rehearsal.Solo
import Mathlib.Logic.Relation

/-! A sender on its own comes to the end of its attempts. No stop is planned, its observer keeps up, and whoever waits
    for a time wakes at that time or later. So something happens until the attempts are over, each step brings them
    nearer to their end, and what the store has seen is what the history of the attempts says. -/

namespace IngestBench
namespace Rehearsal
namespace Solo

open Retry

variable {ν : Type} [Quantity ν]

/-- A limiter before and after it was charged. -/
def Charged (permits : Nat) (b c : TokenBucket ν) : Prop := ∃ wait now, b.reserve permits now = some (wait, c)

/-- Charged again and again, the limiter comes to ask for a wait that is no length of time. -/
def Breaks (permits : Nat) (b : TokenBucket ν) : Prop :=
  ∃ c now, Relation.ReflTransGen (Charged permits) b c ∧ c.reserve permits now = none

omit [Quantity ν] in
/-- A store that answers by a script and notes the attempts that it sees. -/
def recorded (script : Nat → Except Failure Unit) (takes : Nat → Time → Span) : Call (List Nat) :=
  fun n now seen => ((script n, takes n now), seen ++ [n])

/-- The attempts in a log. -/
def calls (log : List Deed) : List Nat :=
  log.filterMap fun
    | .call n => some n
    | _ => none

theorem calls_deeds (permits : Nat) (now : Time) (p q : Phase) : calls (deeds permits now p q) = [] := by
  cases p <;> cases q <;> rfl

/-! ### Going on -/

/-- The observer keeps up: reports find room. -/
def HasRoom (tracker : Option Backoff.Tracker) : Prop :=
  ∀ t, tracker = some t → t.reports.length < Backoff.Tracker.capacity

/-- What holds of a sender's attempts while no stop is planned and its observer keeps up. The store has seen the calls
    of the log, and one more while its answer is on its way. -/
structure Going (policy : RetryPolicy) (permits : Nat) (script : Nat → Except Failure Unit)
    (bucket : Option (TokenBucket ν)) (log : List Deed) (t : Trial ν (List Nat)) : Prop where
  history : History ν policy permits script false log t.phase
  unforced : t.solo.surroundings.stop.isForced = false
  timers : t.solo.stopping.timers = []
  room : HasRoom t.solo.sender.tracker
  seen : t.reply = none → t.store = calls log
  reply : ∀ due answer, t.reply = some (due, answer) →
    ∃ n, t.phase = .calling n ∧ answer = script n ∧ t.store = calls log ++ [n]
  charged : ∀ b, t.solo.bucket = some b → ∃ b₀, bucket = some b₀ ∧ Relation.ReflTransGen (Charged permits) b₀ b
  overflow : t.phase = .settled .overflow → ∃ b₀, bucket = some b₀ ∧ Breaks permits b₀

variable {policy : RetryPolicy} {permits N fuel : Nat} {script : Nat → Except Failure Unit}
  {takes : Nat → Time → Span} {wake : Time → Time} {bucket : Option (TokenBucket ν)} {log : List Deed}
  {t : Trial ν (List Nat)} {q : Phase} {e : Surroundings ν}

omit [Quantity ν] in
theorem tick_of_no_timers {s : Solo ν} (h : s.stopping.timers = []) (limit : Time) :
    s.tick wake limit = { s with now := max s.now limit } := by
  simp [tick, Stopping.nextDue, h]

omit [Quantity ν] in
theorem absorb_kept (s : Solo ν) (e : Surroundings ν) :
    (s.absorb e).stopping = s.stopping ∧ (s.absorb e).sender.heeding = s.sender.heeding ∧
      (s.absorb e).now = s.now ∧ (s.absorb e).bucket = e.bucket := by
  unfold absorb
  cases e.tracker with
  | none => exact ⟨rfl, rfl, rfl, rfl⟩
  | some tracker =>
    dsimp only
    split <;> exact ⟨rfl, rfl, rfl, rfl⟩

omit [Quantity ν] in
/-- The observer takes in as many reports as are made. -/
theorem room_absorb {s : Solo ν} (hs : HasRoom s.sender.tracker)
    (he : ∀ t, e.tracker = some t → t.reports.length ≤ Backoff.Tracker.capacity) :
    HasRoom (s.absorb e).sender.tracker := by
  unfold absorb
  cases htracker : e.tracker with
  | none => exact hs
  | some tracker =>
    obtain ⟨observer, reports⟩ := tracker
    have hle := he _ htracker
    cases reports with
    | nil =>
      rintro t ⟨⟩
      exact Nat.succ_pos _
    | cons report rest =>
      rintro t ⟨⟩
      exact hle

omit [Quantity ν] in
theorem exists_tell (h : HasRoom e.tracker) (backingOff : Bool) : ∃ e', e.tell backingOff = some e' := by
  unfold Surroundings.tell
  cases htracker : e.tracker with
  | none => exact ⟨e, rfl⟩
  | some tracker => simp [Backoff.Tracker.tell, h tracker htracker]

omit [Quantity ν] in
theorem room_tell {e' : Surroundings ν} {backingOff : Bool} (h : HasRoom e.tracker)
    (htell : e.tell backingOff = some e') :
    ∀ t, e'.tracker = some t → t.reports.length ≤ Backoff.Tracker.capacity := by
  unfold Surroundings.tell at htell
  cases htracker : e.tracker with
  | none =>
    rw [htracker] at htell
    cases htell
    intro t ht
    cases htracker.symm.trans ht
  | some tracker =>
    simp only [htracker, Backoff.Tracker.tell, h tracker htracker, if_true, Option.map_some] at htell
    cases htell
    rintro t ⟨⟩
    rw [List.length_append]
    exact h tracker htracker

omit [Quantity ν] in
theorem bucket_tell {e' : Surroundings ν} {backingOff : Bool} (htell : e.tell backingOff = some e') :
    e'.bucket = e.bucket := by
  unfold Surroundings.tell at htell
  split at htell
  · cases htell
    rfl
  · obtain ⟨_, -, rfl⟩ := Option.map_eq_some_iff.1 htell
    rfl

theorem kept_of_charge {e' : Surroundings ν} (h : Deed.act e (.charge permits) = some e') :
    e'.tracker = e.tracker ∧ ∀ b, e'.bucket = some b → ∃ b₀, e.bucket = some b₀ ∧ Charged permits b₀ b := by
  simp only [Deed.act] at h
  cases hb : e.bucket with
  | none =>
    simp only [hb] at h
    cases h
    exact ⟨rfl, fun b hb' => by cases hb.symm.trans hb'⟩
  | some b₀ =>
    simp only [hb, Option.map_eq_some_iff] at h
    obtain ⟨⟨wait, b⟩, hreserve, rfl⟩ := h
    refine ⟨rfl, fun c hc => ⟨b₀, rfl, wait, e.now, ?_⟩⟩
    cases hc
    exact hreserve

theorem deeds_cases (permits : Nat) (now : Time) (p q : Phase) :
    deeds permits now p q = [] ∨ deeds permits now p q = [.charge permits] ∨
      (∃ backingOff, deeds permits now p q = [.report backingOff]) ∨
      ∃ length, deeds permits now p q = [.sleep length] := by
  cases p <;> cases q <;> simp [deeds]

/-- A move charges the limiter that there is at most once, and leaves at most one report more. -/
theorem kept_of_advance {p : Phase} {e' : Surroundings ν} (h : HasRoom e.tracker)
    (hmove : advance policy permits p e = some (q, e')) :
    (∀ t, e'.tracker = some t → t.reports.length ≤ Backoff.Tracker.capacity) ∧
      ∀ b, e'.bucket = some b → ∃ b₀, e.bucket = some b₀ ∧ Relation.ReflTransGen (Charged permits) b₀ b := by
  have hroom : ∀ t, e.tracker = some t → t.reports.length ≤ Backoff.Tracker.capacity :=
    fun t ht => Nat.le_of_lt (h t ht)
  have hact := act_of_advance hmove
  rcases deeds_cases permits e.now p q with hdeeds | hdeeds | ⟨backingOff, hdeeds⟩ | ⟨length, hdeeds⟩ <;>
    rw [hdeeds] at hact
  · cases hact
    exact ⟨hroom, fun b hb => ⟨b, hb, .refl⟩⟩
  · rw [List.foldlM_cons] at hact
    obtain ⟨e₁, hcharge, heq⟩ := Option.bind_eq_some_iff.1 hact
    cases heq
    obtain ⟨htracker, hbucket⟩ := kept_of_charge hcharge
    refine ⟨htracker ▸ hroom, fun b hb => ?_⟩
    obtain ⟨b₀, hb₀, hcharged⟩ := hbucket b hb
    exact ⟨b₀, hb₀, .single hcharged⟩
  · rw [List.foldlM_cons] at hact
    obtain ⟨e₁, htell, heq⟩ := Option.bind_eq_some_iff.1 hact
    cases heq
    exact ⟨room_tell h htell, fun b hb => ⟨b, bucket_tell htell ▸ hb, .refl⟩⟩
  · cases hact
    exact ⟨hroom, fun b hb => ⟨b, hb, .refl⟩⟩

theorem interrupt_of_unforced {stop : Stop} (h : stop.isForced = false) (p : Phase) :
    Retry.interrupt stop p = none := by
  cases p <;> simp [Retry.interrupt, h]

omit [Quantity ν] in
theorem surroundings_absorb (s : Solo ν) (e : Surroundings ν) :
    (s.absorb e).surroundings.stop = s.surroundings.stop := by
  obtain ⟨hstopping, hheeding, -, -⟩ := absorb_kept s e
  simp only [surroundings, hstopping, hheeding]

theorem judge_ne_settled (policy : RetryPolicy) (n : Nat) (reply : Except Failure Unit) (result : Result) :
    judge policy n reply ≠ .settled result := by
  unfold judge
  cases reply with
  | ok => simp
  | error f =>
    dsimp only
    split
    · simp
    · split <;> simp

namespace Going

variable {t : Trial ν (List Nat)}

theorem reply_eq_none (h : Going policy permits script bucket log t) (hcalling : ∀ n, t.phase ≠ .calling n) :
    t.reply = none := by
  cases hreply : t.reply with
  | none => rfl
  | some x =>
    obtain ⟨n, hphase, -⟩ := h.reply x.1 x.2 hreply
    exact absurd hphase (hcalling n)

theorem move (h : Going policy permits script bucket log t)
    (hmove : advance policy permits t.phase t.solo.surroundings = some (q, e)) (call : Call (List Nat)) :
    t.next wake policy permits call = some { t with phase := q, solo := t.solo.absorb e } ∧
      Going policy permits script bucket (log ++ deeds permits t.solo.now t.phase q)
        { t with phase := q, solo := t.solo.absorb e } := by
  obtain ⟨hstopping, -, -, hbucket⟩ := absorb_kept t.solo e
  obtain ⟨hroom, hcharged⟩ := kept_of_advance h.room hmove
  have hnone : t.reply = none := h.reply_eq_none fun n hphase => by
    rw [hphase] at hmove
    cases hmove
  have hcalls : calls (log ++ deeds permits t.solo.now t.phase q) = calls log := by
    rw [calls, List.filterMap_append]
    exact (congrArg (_ ++ ·) (calls_deeds permits t.solo.now t.phase q)).trans (List.append_nil _)
  constructor
  · simp only [Trial.next, interrupt_of_unforced h.unforced, hmove]
  · exact {
      history := .move h.history (by simp [h.unforced]) hmove
      unforced := by rw [surroundings_absorb]; exact h.unforced
      timers := by rw [hstopping]; exact h.timers
      room := room_absorb h.room hroom
      seen := fun _ => (h.seen hnone).trans hcalls.symm
      reply := fun due answer hreply => by cases hnone.symm.trans hreply
      charged := fun b hb => by
        obtain ⟨b₁, hb₁, hlater⟩ := hcharged b (hbucket ▸ hb)
        obtain ⟨b₀, hb₀, hbefore⟩ := h.charged b₁ hb₁
        exact ⟨b₀, hb₀, hbefore.trans hlater⟩
      overflow := fun hover => by
        obtain rfl : q = .settled .overflow := hover
        obtain ⟨b, hb, hreserve⟩ := h.history.stands.reserve_of_overflow hmove
        obtain ⟨b₀, hb₀, hbefore⟩ := h.charged b hb
        exact ⟨b₀, hb₀, b, _, hbefore, hreserve⟩ }

theorem wait (h : Going policy permits script bucket log t) (now : Time) :
    Going policy permits script bucket log { t with solo := { t.solo with now } } :=
  ⟨h.history, h.unforced, h.timers, h.room, h.seen, h.reply, h.charged, h.overflow⟩

theorem call {n : Nat} (h : Going policy permits script bucket log t) (hphase : t.phase = .calling n)
    (hnone : t.reply = none) (due : Time) :
    Going policy permits script bucket log { t with store := t.store ++ [n], reply := some (due, script n) } :=
  { h with
    seen := nofun
    reply := fun due' answer hreply => by
      cases hreply
      exact ⟨n, hphase, rfl, congrArg (· ++ [n]) (h.seen hnone)⟩ }

theorem arrive {n : Nat} {due : Time} {reply : Except Failure Unit} (h : Going policy permits script bucket log t)
    (hphase : t.phase = .calling n) (hreply : t.reply = some (due, reply)) :
    Going policy permits script bucket (log ++ [.call n])
      { t with phase := judge policy n reply, reply := none } := by
  obtain ⟨n', hphase', rfl, hstore⟩ := h.reply due reply hreply
  cases hphase.symm.trans hphase'
  have hhistory := h.history
  rw [hphase] at hhistory
  refine { h with
    history := .answer hhistory rfl
    seen := fun _ => ?_
    reply := nofun
    overflow := fun hover => absurd hover (judge_ne_settled policy n (script n) .overflow) }
  rw [hstore, calls, calls, List.filterMap_append]
  rfl

end Going

/-! ### Coming to an end -/

/-- How far the attempts are from their end, when they end with attempt `last` at the latest. -/
def distance (last : Nat) (now : Time) (reply : Option (Time × Except Failure Unit)) : Phase → Nat
  | .charging n => 10 * (last - n) + 10
  | .throttled n due => 10 * (last - n) + if due ≤ now then 8 else 9
  | .calling n =>
    10 * (last - n) + match reply with
      | none => 7
      | some (due, _) => if due ≤ now then 5 else 6
  | .telling n => 10 * (last - n) + 4
  | .pausing n => 10 * (last - n) + 3
  | .sleeping n due => 10 * (last - n) + if due ≤ now then 1 else 2
  | .settling _ => 1
  | .settled _ => 0

theorem distance_move {forced : Bool} {fails : Failure → Prop} {last : Nat} {now : Time} {p : Phase}
    (hmove : Move forced fails p q) (hcalling : ∀ n, p ≠ .calling n)
    (hsleeping : ∀ n due, p = .sleeping n due → n < last) :
    distance last now none q < distance last now none p := by
  cases hmove with
  | accept | refuse | exhaust | pushBack => exact absurd rfl (hcalling _)
  | wake | cutShort =>
    have hlt := hsleeping _ _ rfl
    simp only [distance]
    split <;> omega
  | release | throttle | pause =>
    simp only [distance]
    split <;> omega
  | _ =>
    simp only [distance]
    omega

theorem distance_judge {last : Nat} {now due : Time} {n : Nat} {reply reply' : Except Failure Unit}
    (hdue : due ≤ now) :
    distance last now none (judge policy n reply) < distance last now (some (due, reply')) (.calling n) := by
  have hcalling : distance last now (some (due, reply')) (.calling n) = 10 * (last - n) + 5 := by
    simp only [distance, if_pos hdue]
  rw [hcalling]
  unfold judge
  split
  · simp only [distance]
    omega
  · split
    · simp only [distance]
      omega
    · split <;> simp only [distance] <;> omega

theorem not_due_of_advance {p : Phase} {due : Time} (hphase : due? p = some due)
    (hnone : advance policy permits p e = none) : ¬due ≤ e.now := by
  intro hle
  cases p with
  | throttled _ _ | sleeping _ _ =>
    cases hphase
    simp [advance, hle] at hnone
  | _ => cases hphase

theorem distance_due {last : Nat} {now later due : Time} {reply : Option (Time × Except Failure Unit)} {p : Phase}
    (hphase : due? p = some due) (hlate : ¬due ≤ now) (hlater : due ≤ later) :
    distance last later reply p < distance last now reply p := by
  cases p with
  | throttled _ _ | sleeping _ _ =>
    cases hphase
    simp only [distance, if_pos hlater, if_neg hlate]
    omega
  | _ => cases hphase

theorem Going.next_waiting {last : Nat} {due : Time} (h : Going policy permits script bucket log t)
    (hwake : ∀ time, time ≤ wake time) (hnone : advance policy permits t.phase t.solo.surroundings = none)
    (hphase : due? t.phase = some due) (call : Call (List Nat)) :
    ∃ u, t.next wake policy permits call = some u ∧ Going policy permits script bucket log u ∧
      distance last u.solo.now u.reply u.phase < distance last t.solo.now t.reply t.phase := by
  have hlater : due ≤ max t.solo.now (wake due) := Nat.le_trans (hwake due) (Nat.le_max_right _ _)
  refine ⟨_, ?_, h.wait (max t.solo.now (wake due)), distance_due hphase (not_due_of_advance hphase hnone) hlater⟩
  have hquiet := interrupt_of_unforced h.unforced t.phase
  simp only [Trial.next, hquiet, hnone]
  split
  · rename_i hcalling _
    rw [hcalling] at hphase
    cases hphase
  · rename_i hcalling _
    rw [hcalling] at hphase
    cases hphase
  · rw [hphase, Option.map_some, tick_of_no_timers h.timers]

theorem Going.next_calling {last n : Nat} (h : Going policy permits script bucket log t)
    (hphase : t.phase = .calling n) :
    ∃ u log', t.next wake policy permits (recorded script takes) = some u ∧
      Going policy permits script bucket log' u ∧
      distance last u.solo.now u.reply u.phase < distance last t.solo.now t.reply t.phase := by
  cases hreply : t.reply with
  | none =>
    refine ⟨_, _, ?_, h.call hphase hreply (wake (t.solo.now + (takes n t.solo.now).nanos)), ?_⟩
    · simp only [Trial.next, hphase, hreply, Retry.interrupt, advance, recorded]
    · rw [hphase]
      simp only [distance]
      split <;> omega
  | some x =>
    obtain ⟨due, reply⟩ := x
    by_cases hdue : due ≤ t.solo.now
    · refine ⟨_, _, ?_, h.arrive hphase hreply, ?_⟩
      · simp only [Trial.next, hphase, hreply, Retry.interrupt, advance, if_pos hdue]
      · rw [hphase]
        exact distance_judge hdue
    · refine ⟨_, _, ?_, h.wait (max t.solo.now due), ?_⟩
      · simp only [Trial.next, hphase, hreply, Retry.interrupt, advance, if_neg hdue, tick_of_no_timers h.timers]
      · have hlater : due ≤ max t.solo.now due := Nat.le_max_right _ _
        rw [hphase, hreply]
        simp only [distance, if_pos hlater, if_neg hdue]
        omega

/-- Until the attempts are over something happens, and it brings them nearer to their end. -/
theorem Going.next {last : Nat} (h : Going policy permits script bucket log t) (takes : Nat → Time → Span)
    (hlast : ¬Pushed policy script last)
    (hwake : ∀ time, time ≤ wake time) (hover : ∀ result, t.phase ≠ .settled result) :
    ∃ u log', t.next wake policy permits (recorded script takes) = some u ∧
      Going policy permits script bucket log' u ∧
      distance last u.solo.now u.reply u.phase < distance last t.solo.now t.reply t.phase := by
  by_cases hcalling : ∃ n, t.phase = .calling n
  · obtain ⟨n, hphase⟩ := hcalling
    exact h.next_calling hphase
  have hcalling : ∀ n, t.phase ≠ .calling n := fun n hphase => hcalling ⟨n, hphase⟩
  cases hmove : advance policy permits t.phase t.solo.surroundings with
  | some x =>
    -- a pause is followed by another attempt, so that the last attempt is still to come
    obtain ⟨q, e⟩ := x
    obtain ⟨hnext, hgoing⟩ := h.move hmove (recorded script takes)
    refine ⟨_, _, hnext, hgoing, ?_⟩
    have hnone : t.reply = none := h.reply_eq_none hcalling
    have hcases : Move _ (fun _ => False) _ _ := move_of_advance hmove
    rw [show (t.solo.absorb e).now = t.solo.now from (absorb_kept t.solo e).2.2.1, hnone]
    refine distance_move hcases hcalling fun n due hphase => ?_
    have hstands := h.history.stands
    rw [hphase] at hstands
    cases hstands with
    | sleeping hpushed =>
      exact Nat.lt_of_not_le fun hle => hlast fun i hpos hi => hpushed i hpos (Nat.le_trans hi hle)
  | none =>
    -- only the clock keeps attempts from moving, as there is room for each report
    cases hphase : t.phase with
    | throttled _ due | sleeping _ due =>
      have hdue : due? t.phase = some due := by
        rw [hphase]
        rfl
      obtain ⟨u, hnext, hgoing, hnear⟩ := h.next_waiting hwake hmove hdue (recorded script takes)
      exact ⟨u, log, hnext, hgoing, hphase ▸ hnear⟩
    | telling _ | settling _ =>
      rw [hphase] at hmove
      have htell := exists_tell (e := t.solo.surroundings) h.room
      cases (Option.map_eq_none_iff.1 hmove).symm.trans (htell _).choose_spec
    | charging _ | pausing _ =>
      rw [hphase] at hmove
      cases hmove
    | calling n => exact absurd hphase (hcalling n)
    | settled result => exact absurd hphase (hover result)

theorem run_of_settled {result : Result} (h : t.phase = .settled result) (call : Call (List Nat)) (fuel : Nat) :
    Trial.run wake policy permits call fuel t = t := by
  have hnext : t.next wake policy permits call = none := by
    simp only [Trial.next, h, Retry.interrupt, advance, due?, Option.map_none]
  cases fuel with
  | zero => rfl
  | succ fuel => rw [Trial.run, hnext]

theorem Going.run {last : Nat} (h : Going policy permits script bucket log t) (takes : Nat → Time → Span)
    (hlast : ¬Pushed policy script last) (hwake : ∀ time, time ≤ wake time)
    (hfuel : distance last t.solo.now t.reply t.phase ≤ fuel) :
    ∃ u log' result, Trial.run wake policy permits (recorded script takes) fuel t = u ∧
      Going policy permits script bucket log' u ∧ u.phase = .settled result := by
  induction fuel generalizing t log with
  | zero =>
    by_cases hover : ∃ result, t.phase = .settled result
    · obtain ⟨result, hphase⟩ := hover
      exact ⟨t, log, result, rfl, h, hphase⟩
    · obtain ⟨u, -, -, -, hnear⟩ := h.next takes hlast hwake fun result hphase => hover ⟨result, hphase⟩
      omega
  | succ fuel ih =>
    by_cases hover : ∃ result, t.phase = .settled result
    · obtain ⟨result, hphase⟩ := hover
      exact ⟨t, log, result, run_of_settled hphase _ _, h, hphase⟩
    · obtain ⟨u, log', hnext, hgoing, hnear⟩ :=
        h.next takes hlast hwake fun result hphase => hover ⟨result, hphase⟩
      obtain ⟨v, log'', result, hrun, hgoing', hphase⟩ := ih hgoing (by omega)
      refine ⟨v, log'', result, ?_, hgoing', hphase⟩
      rw [Trial.run, hnext]
      exact hrun

theorem calls_append (log more : List Deed) : calls (log ++ more) = calls log ++ calls more := List.filterMap_append

/-- A store that pushes a batch back twice. -/
def twice (n : Nat) : Except Failure Unit := if n ≤ 2 then .error .backpressure else .ok ()

end Solo
end Rehearsal
end IngestBench
