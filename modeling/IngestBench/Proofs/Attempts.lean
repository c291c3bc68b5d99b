import IngestBench.Proofs.Turns

/-! What the attempts at one batch do, in order: the charges to the limiter, the calls of the store, the reports to the
    observer and the pauses. A push-back that is not the last one is a round of all four, and the attempts end with one
    charge, one call and one report. Between two moves anything may happen to the surroundings: others charge the same
    limiter, the observer takes in reports, time passes. -/

namespace IngestBench
namespace Retry

/-! ### Deeds -/

/-- What attempts do that others notice. -/
inductive Deed
  /-- The limiter is charged, if there is one. -/
  | charge (permits : Nat)
  /-- The store is called, and answers. -/
  | call (attempt : Nat)
  /-- The observer is told whether the worker backs off, if there is one. -/
  | report (backingOff : Bool)
  | sleep (length : Span)
  deriving Repr, DecidableEq

variable {ν : Type} [Quantity ν]

/-- What a deed does to the surroundings. -/
def Deed.act (e : Surroundings ν) : Deed → Option (Surroundings ν)
  | .charge permits =>
    match e.bucket with
    | none => some e
    | some bucket => (bucket.reserve permits e.now).map fun (_, bucket) => { e with bucket := some bucket }
  | .report backingOff => e.tell backingOff
  | .call _ | .sleep _ => some e

/-- The deeds of a move at a time, from one phase to another. -/
def deeds (permits : Nat) (now : Time) : Phase → Phase → List Deed
  | .charging _, .calling _ | .charging _, .throttled _ _ => [.charge permits]
  | .telling _, _ => [.report true]
  | .pausing _, .sleeping _ due => [.sleep (due.since now)]
  | .settling _, _ => [.report false]
  | _, _ => []

variable {policy : RetryPolicy} {permits n k : Nat} {script : Nat → Except Failure Unit} {forced : Bool}
  {p q : Phase} {e e' : Surroundings ν} {log : List Deed} {result : Result}

/-- A move changes the surroundings as its deeds do, and not otherwise. -/
theorem act_of_advance (h : advance policy permits p e = some (q, e')) :
    (deeds permits e.now p q).foldlM Deed.act e = some e' := by
  cases p with
  | charging n =>
    simp only [advance, charge] at h
    cases hb : e.bucket with
    | none =>
      simp only [hb] at h
      cases h
      simp [deeds, Deed.act, hb]
    | some bucket =>
      simp only [hb] at h
      cases hr : bucket.reserve permits e.now with
      | none =>
        simp only [hr] at h
        cases h
        rfl
      | some x =>
        simp only [hr] at h
        cases h
        split <;> simp [deeds, Deed.act, hb, hr]
  | throttled n due =>
    simp only [advance] at h
    split at h
    · cases h
      rfl
    · cases h
  | calling n => cases h
  | telling n =>
    simp only [advance, Option.map_eq_some_iff] at h
    obtain ⟨_, htell, h⟩ := h
    cases h
    simp [deeds, Deed.act, htell]
  | pausing n =>
    simp only [advance, pause] at h
    cases h
    split <;> rfl
  | sleeping n due =>
    simp only [advance] at h
    split at h
    · cases h
      rfl
    · cases h
  | settling result =>
    simp only [advance, Option.map_eq_some_iff] at h
    obtain ⟨_, htell, h⟩ := h
    cases h
    simp [deeds, Deed.act, htell]
  | settled result => cases h

/-! ### Histories -/

/-- A push-back: a failure after which a batch is sent again. -/
def PushedBack (reply : Except Failure Unit) : Prop := ∃ failure, reply = .error failure ∧ failure.isRetryable = true

section
variable (ν policy permits script forced)

/-- Attempts that have come to a phase, with all that they have done. The store answers by a script, the surroundings
    of each move are any, and a stop is forced only if that is allowed. -/
inductive History : List Deed → Phase → Prop
  | first : History [] .first
  | move {log : List Deed} {p q : Phase} {e e' : Surroundings ν} : History log p →
      (e.stop.isForced = true → forced = true) → advance policy permits p e = some (q, e') →
      History (log ++ deeds permits e.now p q) q
  | answer {log : List Deed} {n : Nat} {q : Phase} : History log (.calling n) →
      answer policy (.calling n) (script n) = some q → History (log ++ [.call n]) q
  | interrupt {log : List Deed} {p q : Phase} {stop : Stop} : History log p →
      (stop.isForced = true → forced = true) → interrupt stop p = some q → History log q

/-- So many attempts were pushed back, and none of them was the last that is allowed. -/
def Pushed (n : Nat) : Prop := ∀ i, 1 ≤ i → i ≤ n → PushedBack (script i) ∧ policy.allowsMore i = true

/-- All that so many push-backs make attempts do. -/
def rounds : Nat → List Deed
  | 0 => []
  | n + 1 => rounds n ++ [.charge permits, .call (n + 1), .report true, .sleep policy.delay]

/-- How attempts end, and what they have done before they report it. -/
inductive Ends : List Deed → Result → Prop
  | accepted {n : Nat} : Pushed policy script n → script (n + 1) = .ok () →
      Ends (rounds policy permits n ++ [.charge permits, .call (n + 1)]) (.accepted (n + 1))
  | fatal {n : Nat} {f : Failure} : Pushed policy script n → script (n + 1) = .error f → f.isRetryable = false →
      Ends (rounds policy permits n ++ [.charge permits, .call (n + 1)]) (.refused (.fatal f))
  | exhausted {n : Nat} {f : Failure} : Pushed policy script n → script (n + 1) = .error f →
      f.isRetryable = true → policy.allowsMore (n + 1) = false →
      Ends (rounds policy permits n ++ [.charge permits, .call (n + 1)]) (.refused (.exhausted (n + 1) f))
  /-- A forced stop was seen before the pause. -/
  | stopped {n : Nat} : forced = true →
      Ends (rounds policy permits n ++ [.charge permits, .call (n + 1), .report true]) (.refused (.cancelled (n + 1)))
  /-- A forced stop came in the pause. -/
  | cut {n : Nat} : forced = true → Ends (rounds policy permits (n + 1)) (.refused (.cancelled (n + 1)))

/-- What attempts have done when they are in a phase. -/
inductive Stands : List Deed → Phase → Prop
  | charging {n : Nat} : Pushed policy script n → Stands (rounds policy permits n) (.charging (n + 1))
  | throttled {n : Nat} {due : Time} : Pushed policy script n →
      Stands (rounds policy permits n ++ [.charge permits]) (.throttled (n + 1) due)
  | calling {n : Nat} : Pushed policy script n →
      Stands (rounds policy permits n ++ [.charge permits]) (.calling (n + 1))
  | telling {n : Nat} : Pushed policy script (n + 1) →
      Stands (rounds policy permits n ++ [.charge permits, .call (n + 1)]) (.telling (n + 1))
  | pausing {n : Nat} : Pushed policy script (n + 1) →
      Stands (rounds policy permits n ++ [.charge permits, .call (n + 1), .report true]) (.pausing (n + 1))
  | sleeping {n : Nat} {due : Time} : Pushed policy script (n + 1) →
      Stands (rounds policy permits (n + 1)) (.sleeping (n + 1) due)
  | settling {log : List Deed} {result : Result} : Ends policy permits script forced log result →
      Stands log (.settling result)
  | settled {log : List Deed} {result : Result} : Ends policy permits script forced log result →
      Stands (log ++ [.report false]) (.settled result)
  | overflow {n : Nat} : Pushed policy script n → Stands (rounds policy permits n) (.settled .overflow)

end

theorem Pushed.succ (h : Pushed policy script n) (hback : PushedBack (script (n + 1)))
    (hmore : policy.allowsMore (n + 1) = true) : Pushed policy script (n + 1) := by
  intro i hpos hle
  rcases Nat.lt_or_eq_of_le hle with hlt | rfl
  · exact h i hpos (Nat.le_of_lt_succ hlt)
  · exact ⟨hback, hmore⟩

/-- A move without deeds adds nothing. -/
theorem Stands.silent {now : Time} (h : Stands policy permits script forced log q)
    (hnone : deeds permits now p q = []) : Stands policy permits script forced (log ++ deeds permits now p q) q := by
  rwa [hnone, List.append_nil]

theorem Stands.move (h : Stands policy permits script forced log p) (hstop : e.stop.isForced = true → forced = true)
    (hmove : advance policy permits p e = some (q, e')) :
    Stands policy permits script forced (log ++ deeds permits e.now p q) q := by
  have hcases : Move e.stop.isForced (fun _ => False) p q := move_of_advance hmove
  cases h with
  | charging hpushed =>
    cases hcases with
    | call => exact .calling hpushed
    | throttle => exact .throttled hpushed
    | overflow =>
      exact Stands.silent (.overflow hpushed) rfl
  | throttled hpushed =>
    cases hcases
    exact Stands.silent (.calling hpushed) rfl
  | calling => cases hmove
  | telling hpushed =>
    cases hcases
    rw [deeds, List.append_assoc]
    exact .pausing hpushed
  | pausing hpushed =>
    cases hcases with
    | pause hcalm =>
      simp only [advance, pause, hcalm] at hmove
      cases hmove
      rw [deeds, Time.since, Nat.add_sub_cancel_left, List.append_assoc]
      exact .sleeping hpushed
    | cancel hforced =>
      exact Stands.silent (.settling (.stopped (hstop hforced))) rfl
  | sleeping hpushed =>
    cases hcases with
    | cutShort hforced =>
      exact Stands.silent (.settling (.cut (hstop hforced))) rfl
    | wake =>
      exact Stands.silent (.charging hpushed) rfl
  | settling hends =>
    cases hcases
    exact .settled hends
  | settled => cases hmove
  | overflow => cases hmove

theorem Stands.answer (h : Stands policy permits script forced log (.calling n)) :
    Stands policy permits script forced (log ++ [.call n]) (judge policy n (script n)) := by
  cases h with
  | @calling n hpushed =>
    rw [List.append_assoc]
    cases hreply : script (n + 1) with
    | ok => exact .settling (.accepted hpushed hreply)
    | error f =>
      rw [judge]
      cases hretryable : f.isRetryable with
      | false => exact .settling (.fatal hpushed hreply hretryable)
      | true =>
        cases hmore : policy.allowsMore (n + 1) with
        | true => exact .telling (hpushed.succ ⟨f, hreply, hretryable⟩ hmore)
        | false => exact .settling (.exhausted hpushed hreply hretryable hmore)

theorem Stands.interrupt {stop : Stop} (h : Stands policy permits script forced log p)
    (hstop : stop.isForced = true → forced = true) (hcut : interrupt stop p = some q) :
    Stands policy permits script forced log q := by
  cases h with
  | sleeping =>
    simp only [Retry.interrupt] at hcut
    split at hcut
    · next hforced =>
      cases hcut
      exact .settling (.cut (hstop hforced))
    · cases hcut
  | _ => cases hcut

/-- What attempts have done follows from the phase that they are in. -/
theorem History.stands (h : History ν policy permits script forced log p) :
    Stands policy permits script forced log p := by
  induction h with
  | first => exact .charging (n := 0) fun i hpos hle => absurd (Nat.le_trans hpos hle) (by decide)
  | move _ hstop hmove ih => exact ih.move hstop hmove
  | answer _ hanswer ih =>
    cases hanswer
    exact ih.answer
  | interrupt _ hstop hcut ih => exact ih.interrupt hstop hcut

theorem Ends.ne_overflow (h : Ends policy permits script forced log result) : result ≠ .overflow := by
  cases h <;> simp

/-- Attempts fail by overflow only where the limiter gives no length of time. -/
theorem Stands.reserve_of_overflow (h : Stands policy permits script forced log p)
    (hmove : advance policy permits p e = some (.settled .overflow, e')) :
    ∃ bucket, e.bucket = some bucket ∧ bucket.reserve permits e.now = none := by
  have hcases : Move e.stop.isForced (fun _ => False) p (.settled .overflow) := move_of_advance hmove
  cases hcases with
  | settle =>
    cases h with
    | settling hends => exact absurd rfl hends.ne_overflow
  | overflow =>
    simp only [advance, charge] at hmove
    cases hb : e.bucket with
    | none =>
      simp only [hb] at hmove
      cases hmove
    | some bucket =>
      simp only [hb] at hmove
      cases hr : bucket.reserve permits e.now with
      | none => exact ⟨bucket, rfl, hr⟩
      | some x =>
        simp only [hr] at hmove
        split at hmove <;> cases hmove

/-! ### Outcomes -/

/-- The result of an attempt that is not pushed back. -/
def ending (attempt : Nat) : Except Failure Unit → Result
  | .ok _ => .accepted attempt
  | .error failure => .refused (.fatal failure)

theorem not_pushedBack_ok {reply : Except Failure Unit} (h : reply = .ok ()) : ¬PushedBack reply := by
  rintro ⟨f, hf, -⟩
  cases hf.symm.trans h

theorem History.ends (h : History ν policy permits script forced log (.settled result))
    (hresult : result ≠ .overflow) :
    ∃ before, Ends policy permits script forced before result ∧ log = before ++ [.report false] := by
  cases h.stands with
  | settled hends => exact ⟨_, hends, rfl⟩
  | overflow => exact absurd rfl hresult

end Retry

end IngestBench
