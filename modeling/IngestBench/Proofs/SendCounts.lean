import IngestBench.Proofs.Attempts
import IngestBench.Rehearsal.Solo
import Mathlib.Algebra.Order.BigOperators.Group.List
import Mathlib.Algebra.Order.Group.Nat
import Mathlib.Data.List.Induction

/-! The counts of a sender against the answers that it got. The attempts at a batch are counted when they have ended
    well, all of them at once. A batch that was refused or given up has been sent as well, and adds nothing; so the
    counts are those of the batches that were accepted, and of all attempts only where no attempt was in vain. Counters
    of fixed width show the same counts as long as they do not overflow. -/

namespace IngestBench
namespace Rehearsal
namespace Solo

open Retry

variable {ν τ : Type}

/-! ### Answers -/

/-- The answer to an attempt. -/
abbrev Answer := Except Failure Unit

/-- A store that notes its answers. -/
def noting (call : Call τ) : Call (τ × List Answer) := fun n now s =>
  ((call n now s.1).1, (call n now s.1).2, s.2 ++ [(call n now s.1).1.1])

/-- All answers so far were push-backs. -/
def AllPushedBack (answers : List Answer) : Prop := ∀ a ∈ answers, PushedBack a

/-- The answers to attempts that ended in a result. -/
inductive Told : List Answer → Result → Prop
  | accepted {before : List Answer} : AllPushedBack before →
      Told (before ++ [.ok ()]) (.accepted (before.length + 1))
  | refused {before : List Answer} {failure : Failure} {fault : RetryFault} : AllPushedBack before →
      (∀ n ∈ (Result.refused fault).attempts?, n = before.length + 1) → Told (before ++ [.error failure]) (.refused fault)
  | overflow {answers : List Answer} : AllPushedBack answers → Told answers .overflow

/-- The answers to attempts that are in a phase; the last one may still be on its way. -/
inductive Heard : List Answer → Option (Time × Answer) → Phase → Prop
  | charging {answers : List Answer} : AllPushedBack answers → Heard answers none (.charging (answers.length + 1))
  | throttled {answers : List Answer} {due : Time} : AllPushedBack answers →
      Heard answers none (.throttled (answers.length + 1) due)
  | calling {answers : List Answer} : AllPushedBack answers → Heard answers none (.calling (answers.length + 1))
  | arriving {answers : List Answer} {due : Time} {a : Answer} : AllPushedBack answers →
      Heard (answers ++ [a]) (some (due, a)) (.calling (answers.length + 1))
  | telling {before : List Answer} {f : Failure} : AllPushedBack (before ++ [.error f]) →
      Heard (before ++ [.error f]) none (.telling (before.length + 1))
  | pausing {before : List Answer} {f : Failure} : AllPushedBack (before ++ [.error f]) →
      Heard (before ++ [.error f]) none (.pausing (before.length + 1))
  | sleeping {before : List Answer} {f : Failure} {due : Time} : AllPushedBack (before ++ [.error f]) →
      Heard (before ++ [.error f]) none (.sleeping (before.length + 1) due)
  | settling {answers : List Answer} {result : Result} : Told answers result → Heard answers none (.settling result)
  | settled {answers : List Answer} {result : Result} : Told answers result → Heard answers none (.settled result)

theorem AllPushedBack.of_append {before after : List Answer} (h : AllPushedBack (before ++ after)) :
    AllPushedBack before :=
  fun a ha => h a (List.mem_append_left _ ha)

theorem AllPushedBack.concat {answers : List Answer} {a : Answer} (h : AllPushedBack answers) (ha : PushedBack a) :
    AllPushedBack (answers ++ [a]) := by
  intro b hb
  rcases List.mem_append.1 hb with hb | hb
  · exact h b hb
  · rw [List.mem_singleton.1 hb]
    exact ha

variable {answers : List Answer} {reply : Option (Time × Answer)} {p q : Phase} {policy : RetryPolicy}

/-- A move that waits for no answer leaves the answers as they are. -/
theorem Heard.move {forced : Bool} (h : Heard answers reply p) (hmove : Move forced (fun _ => False) p q)
    (hcalling : ∀ n, p ≠ .calling n) : Heard answers reply q := by
  cases h with
  | charging hback =>
    cases hmove with
    | call => exact .calling hback
    | throttle => exact .throttled hback
    | overflow => exact .settled (.overflow hback)
  | throttled hback =>
    cases hmove
    exact .calling hback
  | calling | arriving => exact absurd rfl (hcalling _)
  | telling hback =>
    cases hmove
    exact .pausing hback
  | pausing hback =>
    cases hmove with
    | pause => exact .sleeping hback
    | cancel => exact .settling (.refused hback.of_append fun _ hn => (Option.some.inj hn).symm)
  | @sleeping before f due hback =>
    cases hmove with
    | cutShort => exact .settling (.refused hback.of_append fun _ hn => (Option.some.inj hn).symm)
    | wake =>
      have hcharging := Heard.charging hback
      rwa [List.length_append, List.length_singleton] at hcharging
  | settling htold =>
    cases hmove
    exact .settled htold
  | settled => cases hmove

theorem Heard.judge {n : Nat} {due : Time} {a : Answer} (h : Heard answers (some (due, a)) (.calling n)) :
    Heard answers none (judge policy n a) := by
  cases h with
  | arriving hback =>
    cases a with
    | ok => exact .settling (.accepted hback)
    | error f =>
      rw [Retry.judge]
      cases hretryable : f.isRetryable with
      | false => exact .settling (.refused hback fun n hn => by cases hn)
      | true =>
        cases policy.allowsMore _ with
        | true => exact .telling (hback.concat ⟨f, rfl, hretryable⟩)
        | false => exact .settling (.refused hback fun _ hn => (Option.some.inj hn).symm)

/-- The attempts of a result are those that were answered. -/
theorem Told.attempts_eq {result : Result} (h : Told answers result) : ∀ n ∈ result.attempts?, n = answers.length := by
  intro n hn
  cases h with
  | accepted =>
    cases hn
    rw [List.length_append, List.length_singleton]
  | refused _ hnumber => rw [hnumber n hn, List.length_append, List.length_singleton]
  | overflow => cases hn

/-- At most one attempt has yet to be answered. -/
theorem Heard.attempts_le (h : Heard answers reply p) : ∀ n ∈ p.attempts?, n ≤ answers.length + 1 := by
  intro n hn
  cases h with
  | charging | throttled | calling =>
    cases hn
    exact Nat.le_refl _
  | arriving | telling | pausing | sleeping =>
    cases hn
    rw [List.length_append]
    omega
  | settling htold | settled htold => exact Nat.le_succ_of_le (Nat.le_of_eq (htold.attempts_eq n hn))

/-! ### Attempts leave the counts alone -/

/-- The counts of the sender are the same. -/
def SameCounts (s t : Solo ν) : Prop := t.sender.sends = s.sender.sends ∧ t.sender.backoffs = s.sender.backoffs

theorem SameCounts.refl (s : Solo ν) : SameCounts s s := ⟨rfl, rfl⟩

theorem SameCounts.trans {s t u : Solo ν} (h : SameCounts s t) (h' : SameCounts t u) : SameCounts s u :=
  ⟨h'.1.trans h.1, h'.2.trans h.2⟩

theorem sameCounts_absorb (s : Solo ν) (e : Surroundings ν) : SameCounts s (s.absorb e) := by
  unfold absorb
  cases e.tracker with
  | none => exact .refl s
  | some tracker =>
    dsimp only
    split <;> exact ⟨rfl, rfl⟩

theorem sameCounts_tick (wake : Time → Time) (limit : Time) (s : Solo ν) : SameCounts s (s.tick wake limit) := by
  unfold tick
  split
  · dsimp only
    split <;> exact ⟨rfl, rfl⟩
  · exact ⟨rfl, rfl⟩

variable [Quantity ν] {wake : Time → Time} {permits fuel : Nat}

/-- What the next thing that happens to attempts can be. -/
theorem Trial.next_cases {call : Call τ} {t u : Trial ν τ} (h : t.next wake policy permits call = some u) :
    (∃ forced q e, Move forced (fun _ => False) t.phase q ∧ (∀ n, t.phase ≠ .calling n) ∧
      (e = t.solo ∨ ∃ e', e = t.solo.absorb e') ∧ u = { t with phase := q, solo := e }) ∨
    (∃ n, t.phase = .calling n ∧ t.reply = none ∧
      u = { t with
        store := (call n t.solo.now t.store).2
        reply := some (wake (t.solo.now + (call n t.solo.now t.store).1.2.nanos),
          (call n t.solo.now t.store).1.1) }) ∨
    (∃ n due a, t.phase = .calling n ∧ t.reply = some (due, a) ∧
      u = { t with phase := Retry.judge policy n a, reply := none }) ∨
    ∃ limit, u = { t with solo := t.solo.tick wake limit } := by
  simp only [Trial.next] at h
  split at h
  · next q hcut =>
    cases h
    refine .inl ⟨_, q, t.solo, move_of_interrupt hcut, fun n hphase => ?_, .inl rfl, rfl⟩
    rw [hphase] at hcut
    cases hcut
  · split at h
    · next q e hmove =>
      cases h
      refine .inl ⟨_, q, _, move_of_advance hmove, fun n hphase => ?_, .inr ⟨e, rfl⟩, rfl⟩
      rw [hphase] at hmove
      cases hmove
    · split at h
      · next n hphase hreply =>
        cases h
        exact .inr (.inl ⟨n, hphase, hreply, rfl⟩)
      · next n due a hphase hreply =>
        split at h
        · cases h
          exact .inr (.inr (.inl ⟨n, due, a, hphase, hreply, rfl⟩))
        · cases h
          exact .inr (.inr (.inr ⟨due, rfl⟩))
      · obtain ⟨due, -, rfl⟩ := Option.map_eq_some_iff.1 h
        exact .inr (.inr (.inr ⟨wake due, rfl⟩))

/-- Whatever happens to attempts, their phase fits the answers that the store has noted, and nothing is counted. -/
theorem Heard.next {call : Call τ} {t u : Trial ν (τ × List Answer)} (h : Heard t.store.2 t.reply t.phase)
    (hnext : t.next wake policy permits (noting call) = some u) :
    Heard u.store.2 u.reply u.phase ∧ SameCounts t.solo u.solo := by
  obtain ⟨_, q, e, hmove, hcalling, he, rfl⟩ | ⟨n, hphase, hreply, rfl⟩ | ⟨n, due, a, hphase, hreply, rfl⟩ |
    ⟨limit, rfl⟩ := Trial.next_cases hnext
  · refine ⟨h.move hmove hcalling, ?_⟩
    obtain rfl | ⟨e', rfl⟩ := he
    · exact .refl _
    · exact sameCounts_absorb _ _
  · obtain ⟨solo, ⟨store, answers⟩, phase, reply⟩ := t
    dsimp only at hphase hreply h
    subst hphase hreply
    cases h with
    | calling hback => exact ⟨.arriving hback, .refl _⟩
  · rw [hphase, hreply] at h
    exact ⟨h.judge, .refl _⟩
  · exact ⟨h, sameCounts_tick _ _ _⟩

theorem Heard.run (wake : Time → Time) (policy : RetryPolicy) (permits : Nat) (call : Call τ) (fuel : Nat)
    {t : Trial ν (τ × List Answer)} (h : Heard t.store.2 t.reply t.phase) :
    Heard (Trial.run wake policy permits (noting call) fuel t).store.2
        (Trial.run wake policy permits (noting call) fuel t).reply
        (Trial.run wake policy permits (noting call) fuel t).phase ∧
      SameCounts t.solo (Trial.run wake policy permits (noting call) fuel t).solo := by
  induction fuel generalizing t with
  | zero => exact ⟨h, .refl _⟩
  | succ fuel ih =>
    rw [Trial.run]
    split
    · next u hnext =>
      obtain ⟨hheard, hsame⟩ := h.next hnext
      obtain ⟨hheard', hsame'⟩ := ih hheard
      exact ⟨hheard', hsame.trans hsame'⟩
    · exact ⟨h, .refl _⟩

theorem Heard.told {result : Result} (h : Heard answers reply (.settled result)) : Told answers result := by
  cases h with
  | settled htold => exact htold

/-- The result of all attempts at a batch fits the answers, and nothing is counted before it. -/
theorem told_of_attempt {call : Call τ} {s t : Solo ν} {store store' : τ} {result : Result}
    (h : s.attempt wake policy permits (noting call) fuel (store, []) = some (result, t, store', answers)) :
    Told answers result ∧ SameCounts s t := by
  have hfirst : Heard [] none Phase.first := .charging fun a ha => by cases ha
  have hstart : Heard (⟨s, (store, []), .first, none⟩ : Trial ν (τ × List Answer)).store.2 none .first := hfirst
  obtain ⟨hheard, hsame⟩ := hstart.run wake policy permits call fuel
  obtain ⟨r, hresult, heq⟩ := Option.map_eq_some_iff.1 h
  rw [Prod.mk.injEq, Prod.mk.injEq] at heq
  obtain ⟨rfl, rfl, hstore⟩ := heq
  unfold Trial.result? at hresult
  split at hresult
  · next hphase =>
    cases hresult
    rw [hphase, hstore] at hheard
    exact ⟨hheard.told, hsame⟩
  · cases hresult

/-! ### Batches -/

/-- A batch that was given to a sender: the answers to its attempts, and what it came to. -/
structure Dealing where
  answers : List Answer
  outcome : Except Breakdown Counts

namespace Dealing

/-- Whether the batch was accepted. -/
def accepted (d : Dealing) : Bool := d.outcome.isOk

/-- How often the batch was sent. -/
def writes (d : Dealing) : Nat := d.answers.length

/-- How often the batch was sent again. -/
def resends (d : Dealing) : Nat := d.answers.length - 1

/-- A batch is sent again after a push-back and not otherwise; it is accepted if its last answer says so. One that
    was never sent broke off where it had to wait for the limiter. -/
structure Lawful (d : Dealing) : Prop where
  pushedBack : AllPushedBack d.answers.dropLast
  accepted_iff : d.accepted = true ↔ d.answers.getLast? = some (.ok ())
  sent : d.answers = [] → d.outcome = .error .overflow

end Dealing

/-- Batches that were given to a sender since it was set up and connected. Between them time may pass, stops may be
    asked for, and the limiter may be used by others. -/
inductive Served (τ : Type) (wake : Time → Time) (policy : RetryPolicy) : List Dealing → Solo ν → Prop
  | start {s : Solo ν} {worker : Nat} : s.sender = (Sender.idle.setUp worker).opened → Served τ wake policy [] s
  | meanwhile {dealt : List Dealing} {s t : Solo ν} : Served τ wake policy dealt s → SameCounts s t →
      Served τ wake policy dealt t
  | batch {dealt : List Dealing} {s t : Solo ν} {counts : Counts} {call : Call τ} {fuel : Nat} {store store' : τ}
      {answers : List Answer} {outcome : Except Breakdown Counts} : Served τ wake policy dealt s →
      s.process wake policy true counts (noting call) fuel (store, []) = some (outcome, t, store', answers) →
      Served τ wake policy (dealt ++ [⟨answers, outcome⟩]) t

/-- The sum of a measure over the accepted ones. -/
def overAccepted (measure : Dealing → Nat) (dealt : List Dealing) : Nat :=
  ((dealt.filter (·.accepted)).map measure).sum

theorem overAccepted_concat (measure : Dealing → Nat) (dealt : List Dealing) (d : Dealing) :
    overAccepted measure (dealt ++ [d]) =
      overAccepted measure dealt + if d.accepted then measure d else 0 := by
  unfold overAccepted
  cases hd : d.accepted <;> simp [hd]

theorem overAccepted_mono {measure measure' : Dealing → Nat} (h : ∀ d, measure d ≤ measure' d) (dealt : List Dealing) :
    overAccepted measure dealt ≤ overAccepted measure' dealt := List.sum_le_sum fun d _ => h d

theorem sum_eq_overAccepted_add (measure : Dealing → Nat) (dealt : List Dealing) :
    (dealt.map measure).sum = overAccepted measure dealt + ((dealt.filter (!·.accepted)).map measure).sum := by
  induction dealt with
  | nil => rfl
  | cons d dealt ih =>
    unfold overAccepted at ih ⊢
    cases hd : d.accepted <;> simp [hd, ih] <;> omega

/-- All is summed up over the accepted ones iff the others have nothing to add. -/
theorem overAccepted_eq_sum_iff (measure : Dealing → Nat) (dealt : List Dealing) :
    overAccepted measure dealt = (dealt.map measure).sum ↔ ∀ d ∈ dealt, d.accepted = true ∨ measure d = 0 := by
  rw [sum_eq_overAccepted_add, Nat.left_eq_add, List.sum_eq_zero_iff_forall_eq_nat, List.forall_mem_map]
  simp only [List.mem_filter, Bool.not_eq_true', and_imp]
  refine forall₂_congr fun d _ => ?_
  cases d.accepted <;> simp

/-- A batch adds its attempts and its pauses to the counts if it is accepted, and nothing otherwise. -/
theorem counts_of_process {counts : Counts} {call : Call τ} {s t : Solo ν} {store store' : τ}
    {outcome : Except Breakdown Counts}
    (h : s.process wake policy true counts (noting call) fuel (store, []) = some (outcome, t, store', answers)) :
    Dealing.Lawful ⟨answers, outcome⟩ ∧
      t.sender.sends = s.sender.sends + (if outcome.isOk then answers.length else 0) ∧
      t.sender.backoffs = s.sender.backoffs + if outcome.isOk then answers.length - 1 else 0 := by
  obtain ⟨⟨result, s', store₁⟩, hattempt, heq⟩ := Option.map_eq_some_iff.1 h
  cases heq
  obtain ⟨htold, hsends, hbackoffs⟩ := told_of_attempt hattempt
  cases htold with
  | @accepted before hback =>
    refine ⟨⟨?_, ?_, ?_⟩, ?_, ?_⟩
    · simpa using hback
    · simp [Dealing.accepted, verdict, Except.isOk, Except.toBool]
    · simp
    · simp [verdict, Except.isOk, Except.toBool, Sender.count, hsends]
    · simp [verdict, Except.isOk, Except.toBool, Sender.count, hbackoffs]
  | @refused before f fault hback _ =>
    refine ⟨⟨?_, ?_, ?_⟩, ?_, ?_⟩
    · simpa using hback
    · simp [Dealing.accepted, verdict, Except.isOk, Except.toBool]
    · simp
    · simp [verdict, Except.isOk, Except.toBool, Sender.count, hsends]
    · simp [verdict, Except.isOk, Except.toBool, Sender.count, hbackoffs]
  | overflow hback =>
    refine ⟨⟨?_, ?_, fun _ => rfl⟩, ?_, ?_⟩
    · exact fun a ha => hback a (List.dropLast_subset _ ha)
    · have hlast : answers.getLast? ≠ some (.ok ()) := fun hlast =>
        not_pushedBack_ok rfl (hback _ (List.mem_of_getLast? hlast))
      simp [Dealing.accepted, verdict, Except.isOk, Except.toBool, hlast]
    · simp [verdict, Except.isOk, Except.toBool, Sender.count, hsends]
    · simp [verdict, Except.isOk, Except.toBool, Sender.count, hbackoffs]

theorem counts_of_served {dealt : List Dealing} {s : Solo ν} (h : Served τ wake policy dealt s) :
    (∀ d ∈ dealt, d.Lawful) ∧ s.sender.sends = overAccepted Dealing.writes dealt ∧
      s.sender.backoffs = overAccepted Dealing.resends dealt := by
  induction h with
  | start hsender => exact ⟨nofun, by rw [hsender]; rfl, by rw [hsender]; rfl⟩
  | meanwhile _ hsame ih => exact ⟨ih.1, hsame.1.trans ih.2.1, hsame.2.trans ih.2.2⟩
  | batch _ hprocess ih =>
    obtain ⟨hlawful, hsends, hbackoffs⟩ := counts_of_process hprocess
    refine ⟨List.forall_mem_append.2 ⟨ih.1, List.forall_mem_singleton.2 hlawful⟩, ?_, ?_⟩
    · rw [hsends, ih.2.1, overAccepted_concat]
      rfl
    · rw [hbackoffs, ih.2.2, overAccepted_concat]
      rfl

/-- The counts of a sender are those of the batches that it had accepted: each adds as often as it was sent to the
    sends, and as often as it was sent again to the pauses, while a batch that ended in a fault adds nothing. So all
    attempts are counted iff every batch that was sent at all was accepted, and all that were sent again iff none of
    the others was sent again. -/
theorem counts_of_accepted {dealt : List Dealing} {s : Solo ν} (h : Served τ wake policy dealt s) :
    (∀ d ∈ dealt, d.Lawful) ∧
    s.sender.sends = overAccepted Dealing.writes dealt ∧
    s.sender.backoffs = overAccepted Dealing.resends dealt ∧
    (s.sender.sends = (dealt.map Dealing.writes).sum ↔ ∀ d ∈ dealt, d.accepted = true ∨ d.writes = 0) ∧
    (s.sender.backoffs = (dealt.map Dealing.resends).sum ↔ ∀ d ∈ dealt, d.accepted = true ∨ d.resends = 0) := by
  obtain ⟨hlawful, hsends, hbackoffs⟩ := counts_of_served h
  refine ⟨hlawful, hsends, hbackoffs, ?_, ?_⟩
  · rw [hsends, overAccepted_eq_sum_iff]
  · rw [hbackoffs, overAccepted_eq_sum_iff]

/-- A store that pushes a batch back once and then gives the answer that follows. -/
def onceBack (last : Answer) : Call Unit := fun n _ _ =>
  ((if n = 1 then .error .backpressure else last, .zero), ())

/-- A sender that is set up and connected, without a limiter. -/
def connected : Solo Float := { Solo.idle none with sender := (Sender.idle.setUp 0).opened }

/-- A batch that is pushed back once and then accepted. -/
def accepted : Dealing := ⟨[.error .backpressure, .ok ()], .ok ⟨1, 1⟩⟩

/-- A batch that is pushed back once and then refused. -/
def refused : Dealing :=
  ⟨[.error .backpressure, .error (.send (.described "rejected"))],
    .error (.failed (.send (.described "rejected")))⟩

theorem served_accepted_refused :
    ∃ s : Solo Float, Served Unit id ⟨.ofSeconds 1, none⟩ [accepted, refused] s ∧
      s.sender.sends = 2 ∧ s.sender.backoffs = 1 := by
  obtain ⟨s, hs⟩ : ∃ s, connected.process id ⟨.ofSeconds 1, none⟩ true ⟨1, 1⟩ (noting (onceBack (.ok ()))) 20
      ((), []) = some (accepted.outcome, s, (), accepted.answers) := ⟨_, rfl⟩
  obtain ⟨t, ht⟩ : ∃ t, s.process id ⟨.ofSeconds 1, none⟩ true ⟨1, 1⟩
      (noting (onceBack (.error (.send (.described "rejected"))))) 20 ((), []) =
        some (refused.outcome, t, (), refused.answers) := by
    cases hs
    exact ⟨_, rfl⟩
  refine ⟨t, .batch (.batch (.start rfl) hs) ht, ?_⟩
  cases hs
  cases ht
  exact ⟨rfl, rfl⟩

/-- The counts are those of the first batch, so that not all attempts are counted. -/
theorem counts_of_accepted_refused :
    ∃ s : Solo Float, Served Unit id ⟨.ofSeconds 1, none⟩ [accepted, refused] s ∧
      s.sender.sends = accepted.writes ∧ s.sender.backoffs = accepted.resends ∧
      ¬s.sender.sends = ([accepted, refused].map Dealing.writes).sum := by
  obtain ⟨s, hserved, -⟩ := served_accepted_refused
  obtain ⟨-, hsends, hbackoffs, hall, -⟩ := counts_of_accepted hserved
  refine ⟨s, hserved, hsends, hbackoffs, fun heq => ?_⟩
  have hrefused := hall.1 heq refused (by simp)
  revert hrefused
  decide

/-- A sender counts two attempts and one pause where it made four attempts, two of them after a push-back. -/
theorem refused_batch_not_counted :
    ∃ s : Solo Float, Served Unit id ⟨.ofSeconds 1, none⟩ [accepted, refused] s ∧
      s.sender.sends ≠ ([accepted, refused].map Dealing.writes).sum ∧
      s.sender.backoffs ≠ ([accepted, refused].map Dealing.resends).sum := by
  obtain ⟨s, hserved, hsends, hbackoffs⟩ := served_accepted_refused
  refine ⟨s, hserved, ?_, ?_⟩
  · rw [hsends]
    decide
  · rw [hbackoffs]
    decide

/-! ### Counts of fixed width -/

/-- While a batch has fewer than `UInt32.size - 1` answers, a number of 32 bits is enough for its attempts, whatever the
    policy and whenever one looks at them. -/
theorem attempts_fit (wake : Time → Time) (policy : RetryPolicy) (permits : Nat) (call : Call τ) (fuel : Nat)
    (s : Solo ν) (store : τ) :
    let t := Trial.run wake policy permits (noting call) fuel ⟨s, (store, []), .first, none⟩
    t.store.2.length + 1 < UInt32.size → ∀ n ∈ t.phase.attempts?, (UInt32.ofNat n).toNat = n := by
  intro t hfew n hn
  have hfirst : Heard [] none Phase.first := .charging nofun
  have hheard := (hfirst.run (t := ⟨s, (store, []), .first, none⟩) wake policy permits call fuel).1
  exact UInt32.toNat_ofNat_of_lt' (Nat.lt_of_le_of_lt (hheard.attempts_le n hn) hfew)

/-- Sends and pauses that are added up in 64 bits. -/
structure Tally where
  sends : UInt64
  backoffs : UInt64

namespace Tally

/-- Adds the attempts at a batch and the pauses between them, from a number of 32 bits. -/
def add (t : Tally) (attempts : UInt32) : Tally :=
  ⟨t.sends + attempts.toUInt64, t.backoffs + (attempts - 1).toUInt64⟩

/-- The tally of the accepted batches. -/
def ofDealt (dealt : List Dealing) : Tally :=
  (dealt.filter (·.accepted)).foldl (fun t d => t.add (.ofNat d.writes)) ⟨0, 0⟩

theorem ofDealt_concat (dealt : List Dealing) (d : Dealing) :
    ofDealt (dealt ++ [d]) = if d.accepted then (ofDealt dealt).add (.ofNat d.writes) else ofDealt dealt := by
  unfold ofDealt
  cases hd : d.accepted <;> simp [hd]

theorem toNat_add {t : Tally} {n : Nat} (hpos : 0 < n) (hfit : n < UInt32.size)
    (hsends : t.sends.toNat + n < UInt64.size) (hbackoffs : t.backoffs.toNat + (n - 1) < UInt64.size) :
    (t.add (.ofNat n)).sends.toNat = t.sends.toNat + n ∧
      (t.add (.ofNat n)).backoffs.toNat = t.backoffs.toNat + (n - 1) := by
  have hn : (UInt32.ofNat n).toNat = n := UInt32.toNat_ofNat_of_lt' hfit
  have hle : (1 : UInt32) ≤ .ofNat n := UInt32.le_iff_toNat_le.2 (by rw [hn]; exact hpos)
  constructor
  · rw [add, UInt64.toNat_add, UInt32.toNat_toUInt64, hn, Nat.mod_eq_of_lt hsends]
  · rw [add, UInt64.toNat_add, UInt32.toNat_toUInt64, UInt32.toNat_sub_of_le _ _ hle, hn]
    exact Nat.mod_eq_of_lt hbackoffs

/-- Nothing is lost while the sends fit in 64 bits: there are no more pauses than sends. -/
theorem toNat_ofDealt {dealt : List Dealing} (hpos : ∀ d ∈ dealt, d.accepted = true → 0 < d.writes)
    (hattempts : ∀ d ∈ dealt, d.writes < UInt32.size) (hsends : overAccepted Dealing.writes dealt < UInt64.size) :
    (ofDealt dealt).sends.toNat = overAccepted Dealing.writes dealt ∧
      (ofDealt dealt).backoffs.toNat = overAccepted Dealing.resends dealt := by
  induction dealt using List.reverseRecOn with
  | nil => exact ⟨rfl, rfl⟩
  | append_singleton dealt d ih =>
    have hbackoffs : overAccepted Dealing.resends (dealt ++ [d]) < UInt64.size :=
      Nat.lt_of_le_of_lt (overAccepted_mono (fun d => Nat.sub_le _ 1) _) hsends
    rw [overAccepted_concat] at hsends hbackoffs
    obtain ⟨hsum, hpauses⟩ := ih (fun d hd => hpos d (List.mem_append_left _ hd))
      (fun d hd => hattempts d (List.mem_append_left _ hd)) (Nat.lt_of_le_of_lt (Nat.le_add_right _ _) hsends)
    rw [ofDealt_concat, overAccepted_concat, overAccepted_concat]
    have hd : d ∈ dealt ++ [d] := List.mem_append_right _ (List.mem_singleton_self d)
    cases haccepted : d.accepted with
    | false => exact ⟨hsum, hpauses⟩
    | true =>
      rw [haccepted, if_pos rfl, ← hsum] at hsends
      rw [haccepted, if_pos rfl, ← hpauses] at hbackoffs
      rw [if_pos rfl, if_pos rfl, if_pos rfl, ← hsum, ← hpauses]
      exact toNat_add (hpos d hd haccepted) (hattempts d hd) hsends hbackoffs

end Tally

/-- In 64 bits the counts of a sender are the same ones, for as long as they stay below `UInt64.size` and no batch has
    more attempts than 32 bits can count. -/
theorem tally_of_served {dealt : List Dealing} {s : Solo ν} (h : Served τ wake policy dealt s)
    (hattempts : ∀ d ∈ dealt, d.writes < UInt32.size) (hsends : s.sender.sends < UInt64.size) :
    (Tally.ofDealt dealt).sends.toNat = s.sender.sends ∧ (Tally.ofDealt dealt).backoffs.toNat = s.sender.backoffs := by
  obtain ⟨hlawful, hsum, hpauses⟩ := counts_of_served h
  rw [hsum] at hsends ⊢
  rw [hpauses]
  refine Tally.toNat_ofDealt (fun d hd haccepted => List.length_pos_iff.2 fun hnil => ?_) hattempts hsends
  -- a batch that was never sent was not accepted
  have hlast := (hlawful d hd).accepted_iff.1 haccepted
  rw [hnil] at hlast
  cases hlast

end Solo
end Rehearsal
end IngestBench
