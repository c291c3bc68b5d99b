import IngestBench.Limiter
import IngestBench.Proofs.ExactNumbers
import Mathlib.Data.List.Chain
import Mathlib.Tactic.Ring

/-! The law of a limiter, in exact numbers. Callers come one after the other, at times that do not go back, and each
    finds the bucket as the one before has left it; who they are makes no difference. Tokens that come in are given
    out, or lost for want of room, or still in the bucket, and a caller waits until the debt is repaid that it
    leaves. -/

namespace IngestBench
namespace TokenBucket

/-! ### Calls -/

/-- What a caller wants of a bucket. -/
inductive Ask
  | acquire (permits : Nat)
  | tryTake (permits : Nat)
  | available
  deriving DecidableEq

/-- What a caller is told. -/
inductive Answer
  /-- How long to wait; none if that is no length of time. -/
  | wait (length : Option Span)
  | taken (granted : Bool)
  | balance (tokens : ℚ)
  deriving DecidableEq

/-- A call: the bucket as it is found, the time, and what is wanted. -/
structure Call where
  found : TokenBucket ℚ
  now : Time
  ask : Ask

/-- The time, in seconds, until a bucket is out of debt. -/
def debt (b : TokenBucket ℚ) : ℚ := max 0 (-b.tokens) / b.rate

/-- The point in time, in seconds, at which a bucket is out of debt. -/
def clear (b : TokenBucket ℚ) : ℚ := b.refilled.toRat + b.debt

namespace Call

def answer (c : Call) : Answer :=
  match c.ask with
  | .acquire n => .wait ((c.found.reserve n c.now).map (·.1))
  | .tryTake n => .taken (c.found.tryTake n c.now).1
  | .available => .balance (c.found.available c.now).1

/-- The bucket as it is left. Who cannot be told how long to wait has taken the tokens all the same. -/
def left (c : Call) : TokenBucket ℚ :=
  match c.ask with
  | .acquire n => ((c.found.reserve n c.now).map (·.2)).getD ((c.found.refill c.now).spend n)
  | .tryTake n => (c.found.tryTake n c.now).2
  | .available => (c.found.available c.now).2

/-- The tokens that the caller gets. -/
def permits (c : Call) : Nat :=
  match c.ask, c.answer with
  | .acquire n, _ => n
  | .tryTake n, .taken true => n
  | _, _ => 0

/-- The time, in seconds, from which the tokens may be used: the call and then the wait. -/
def instant (c : Call) : ℚ := c.now.toRat + c.left.debt

/-- The tokens that came in since the call before, and for which there was no room. -/
def lost (c : Call) : ℚ :=
  c.found.tokens + (c.now.since c.found.refilled).toRat * c.found.rate - (c.found.refill c.now).tokens

end Call

/-- The calls that are made on a bucket. -/
def calls (b : TokenBucket ℚ) : List (Time × Ask) → List Call
  | [] => []
  | (now, ask) :: rest => ⟨b, now, ask⟩ :: calls (Call.left ⟨b, now, ask⟩) rest

/-- The bucket behind some calls. -/
def behind (b : TokenBucket ℚ) (asks : List (Time × Ask)) : TokenBucket ℚ :=
  asks.foldl (fun b (now, ask) => Call.left ⟨b, now, ask⟩) b

/-! ### One call -/

section
variable {b : TokenBucket ℚ} {now later : Time} {n : Nat}

@[simp] theorem refill_tokens :
    (b.refill now).tokens = min (b.tokens + (now.since b.refilled).toRat * b.rate) b.capacity := rfl
@[simp] theorem refill_refilled : (b.refill now).refilled = now := rfl
@[simp] theorem refill_rate : (b.refill now).rate = b.rate := rfl
@[simp] theorem refill_capacity : (b.refill now).capacity = b.capacity := rfl
@[simp] theorem spend_tokens : (b.spend n).tokens = b.tokens - n := rfl

theorem spend_zero : b.spend 0 = b := by
  obtain ⟨tokens, refilled, capacity, rate⟩ := b
  simp only [spend, TokenBucket.mk.injEq, and_true]
  exact (congrArg _ Nat.cast_zero).trans (sub_zero tokens)

theorem refill_refill (hrate : 0 ≤ b.rate) (hnow : b.refilled ≤ now) (hlater : now ≤ later) :
    (b.refill now).refill later = b.refill later := by
  have hroom : b.capacity ≤ b.capacity + (later.toRat - now.toRat) * b.rate :=
    le_add_of_nonneg_right (mul_nonneg (sub_nonneg.2 (Time.toRat_le_toRat hlater)) hrate)
  have htokens : ((b.refill now).refill later).tokens = (b.refill later).tokens := by
    simp only [refill_tokens, refill_refilled, refill_rate, refill_capacity, Time.toRat_since hnow,
      Time.toRat_since hlater, Time.toRat_since (hnow.trans hlater)]
    rw [← min_add_add_right, min_assoc, min_eq_right hroom]
    congr 1
    ring
  simpa only [refill, TokenBucket.mk.injEq, and_true] using htokens

theorem debtTime_eq : b.debtTime = Quantity.toSpan? b.debt := by
  unfold debtTime debt
  by_cases h : 0 ≤ b.tokens
  · have hle : Quantity.le (Quantity.ofNat 0) b.tokens = true := decide_eq_true (by exact_mod_cast h)
    rw [if_pos hle, max_eq_left (neg_nonpos.2 h), zero_div]
    exact Span.ofRat?_zero.symm
  · have hle : Quantity.le (Quantity.ofNat 0) b.tokens ≠ true := by
      simpa [Quantity.le, Quantity.ofNat] using h
    rw [if_neg hle, max_eq_right (neg_nonneg.2 (le_of_not_ge h))]
    rfl

/-- The debt is the shortest wait after which the bucket is not in debt. -/
theorem debt_le_iff (hrate : 0 < b.rate) {w : ℚ} (hw : 0 ≤ w) : b.debt ≤ w ↔ 0 ≤ b.tokens + b.rate * w := by
  rw [debt, div_le_iff₀ hrate, max_le_iff]
  constructor
  · intro h
    linarith [h.2]
  · intro h
    exact ⟨mul_nonneg hw hrate.le, by linarith⟩

theorem debt_nonneg (hrate : 0 < b.rate) : 0 ≤ b.debt := div_nonneg (le_max_left _ _) hrate.le

/-- A bucket that fills at a rate and holds no more than its capacity. -/
structure Within (rate : ℚ) (capacity : Nat) (b : TokenBucket ℚ) : Prop where
  tokens : b.tokens ≤ capacity
  capacity : b.capacity = capacity
  rate : b.rate = rate

theorem Within.rate_mul_clear {rate : ℚ} {capacity : Nat} (h : b.Within rate capacity) (hrate : 0 < rate) :
    rate * b.clear = rate * b.refilled.toRat + max 0 (-b.tokens) := by
  rw [clear, debt, h.rate, mul_add, mul_div_cancel₀ _ hrate.ne']

end

namespace Call

variable {c : Call}

/-- Every call refills the bucket and takes out what the caller gets. -/
theorem left_eq (c : Call) : c.left = (c.found.refill c.now).spend c.permits := by
  obtain ⟨b, now, ask⟩ := c
  cases ask with
  | acquire n =>
    simp only [left, permits, reserve, Option.map_map]
    cases (((b.refill now).spend n).debtTime) <;> rfl
  | tryTake n =>
    simp only [left, permits, answer, tryTake]
    split
    · rfl
    · exact spend_zero.symm
  | available => exact spend_zero.symm

/-- Who asks for tokens is told the wait until the debt is repaid that is left. -/
theorem answer_eq {n : Nat} (h : c.ask = .acquire n) :
    c.answer = .wait (Quantity.toSpan? c.left.debt) := by
  have hleft : c.left.debtTime = Quantity.toSpan? c.left.debt := debtTime_eq
  rw [left_eq] at hleft ⊢
  obtain ⟨b, now, ask⟩ := c
  subst h
  simp only [answer, reserve, Option.map_map]
  rw [← hleft]
  exact congrArg _ Option.map_id'

theorem left_tokens_of_balance {tokens : ℚ} (h : c.answer = .balance tokens) : c.left.tokens = tokens := by
  obtain ⟨b, now, ask⟩ := c
  cases ask with
  | available => exact Answer.balance.inj h
  | acquire n => cases h
  | tryTake n => cases h

theorem left_tokens_of_taken (h : c.answer = .taken true) : 0 ≤ c.left.tokens := by
  obtain ⟨b, now, ask⟩ := c
  cases ask with
  | available => cases h
  | acquire n => cases h
  | tryTake n =>
    have htrue : (b.tryTake n now).1 = true := Answer.taken.inj h
    simp only [left, tryTake] at htrue ⊢
    split at htrue
    · next hle =>
      rw [if_pos hle]
      exact sub_nonneg.2 (of_decide_eq_true hle)
    · cases htrue

@[simp] theorem left_refilled (c : Call) : c.left.refilled = c.now := by rw [left_eq]; rfl

theorem instant_eq (c : Call) : c.instant = c.left.clear := by rw [instant, clear, left_refilled]

/-- A call on such a bucket at a time that does not lie behind. -/
structure Sound (rate : ℚ) (capacity : Nat) (c : Call) : Prop where
  found : c.found.Within rate capacity
  clock : c.found.refilled ≤ c.now

variable {rate : ℚ} {capacity : Nat}

theorem Sound.left_within (h : c.Sound rate capacity) : c.left.Within rate capacity := by
  rw [left_eq]
  refine ⟨?_, h.found.capacity, h.found.rate⟩
  rw [spend_tokens, refill_tokens, ← h.found.capacity]
  exact (sub_le_self _ (Nat.cast_nonneg _)).trans (min_le_right _ _)

theorem Sound.left_tokens_eq (h : c.Sound rate capacity) :
    c.left.tokens = c.found.tokens + (c.now.toRat - c.found.refilled.toRat) * rate - c.lost - c.permits := by
  rw [left_eq, lost, spend_tokens, Time.toRat_since h.clock, h.found.rate]
  ring

theorem lost_nonneg (c : Call) : 0 ≤ c.lost := sub_nonneg.2 (min_le_left _ _)

theorem full_of_lost (h : c.lost ≠ 0) : (c.found.refill c.now).tokens = c.found.capacity := by
  rw [refill_tokens, min_eq_right_iff]
  refine le_of_not_ge fun hle => h ?_
  rw [lost, refill_tokens, min_eq_left hle, sub_self]

/-- The tokens that came in between the times from which the tokens of two calls may be used were given out or lost,
    but for those that were in the bucket before, or are in it now. -/
theorem Sound.permits_add_lost (h : c.Sound rate capacity) (hrate : 0 < rate) : (c.permits : ℚ) + c.lost =
    rate * (c.instant - c.found.clear) + (max 0 c.found.tokens - max 0 c.left.tokens) := by
  have hfound := h.found.rate_mul_clear hrate
  have hleft := h.left_within.rate_mul_clear hrate
  rw [left_refilled] at hleft
  have hparts : ∀ x : ℚ, max 0 (-x) = max 0 x - x := fun x => by
    rcases le_total 0 x with hx | hx
    · rw [max_eq_left (neg_nonpos.2 hx), max_eq_right hx, sub_self]
    · rw [max_eq_right (neg_nonneg.2 hx), max_eq_left hx, zero_sub]
  rw [instant_eq, mul_sub, hleft, hfound, hparts, hparts]
  linarith [h.left_tokens_eq]

theorem Sound.clear_le (h : c.Sound rate capacity) (hrate : 0 < rate) : c.found.clear ≤ c.instant := by
  have hfound := h.found.rate_mul_clear hrate
  have hleft := h.left_within.rate_mul_clear hrate
  rw [left_refilled] at hleft
  rw [instant_eq, ← mul_le_mul_iff_right₀ hrate, hfound, hleft, ← le_sub_iff_add_le']
  have htime := mul_le_mul_of_nonneg_left (Time.toRat_le_toRat h.clock) hrate.le
  -- The bucket that is found is out of debt already, or only comes out of it at `clear`.
  apply max_le
  · linarith [le_max_left 0 (-c.left.tokens)]
  · have hpermits : (0 : ℚ) ≤ c.permits := Nat.cast_nonneg _
    linarith [le_max_right 0 (-c.left.tokens), h.left_tokens_eq, c.lost_nonneg]

end Call

/-! ### Many calls -/

section
variable {rate : ℚ} {capacity : Nat} {b : TokenBucket ℚ} {asks : List (Time × Ask)}

theorem calls_append (b : TokenBucket ℚ) (before after : List (Time × Ask)) :
    calls b (before ++ after) = calls b before ++ calls (behind b before) after := by
  induction before generalizing b with
  | nil => rfl
  | cons x before ih => exact congrArg _ (ih _)

theorem length_calls (b : TokenBucket ℚ) (asks : List (Time × Ask)) : (calls b asks).length = asks.length := by
  induction asks generalizing b with
  | nil => rfl
  | cons x asks ih => exact congrArg (· + 1) (ih _)

theorem isChain_calls (b : TokenBucket ℚ) (asks : List (Time × Ask)) :
    (calls b asks).IsChain fun c d => d.found = c.left := by
  induction asks generalizing b with
  | nil => exact .nil
  | cons x asks ih =>
    refine List.isChain_cons.2 ⟨fun d hd => ?_, ih _⟩
    cases asks with
    | nil => cases hd
    | cons y asks =>
      cases hd
      rfl

theorem sound_calls (hb : b.Within rate capacity) (hclock : (b.refilled :: asks.map Prod.fst).Pairwise (· ≤ ·)) :
    ∀ c ∈ calls b asks, c.Sound rate capacity := by
  induction asks generalizing b with
  | nil => exact fun _ h => nomatch h
  | cons x asks ih =>
    obtain ⟨now, ask⟩ := x
    obtain ⟨hle, hrest⟩ := List.pairwise_cons.1 hclock
    have hsound : Call.Sound rate capacity ⟨b, now, ask⟩ := ⟨hb, hle now List.mem_cons_self⟩
    have hleft := ih hsound.left_within (by rwa [Call.left_refilled])
    exact fun c hc => (List.mem_cons.1 hc).elim (fun h => h ▸ hsound) (hleft c)

theorem within_behind (hb : b.Within rate capacity) {before after : List (Time × Ask)}
    (hclock : (b.refilled :: (before ++ after).map Prod.fst).Pairwise (· ≤ ·)) :
    (behind b before).Within rate capacity ∧ ((behind b before).refilled :: after.map Prod.fst).Pairwise (· ≤ ·) := by
  induction before generalizing b with
  | nil => exact ⟨hb, hclock⟩
  | cons x before ih =>
    obtain ⟨now, ask⟩ := x
    obtain ⟨hle, hrest⟩ := List.pairwise_cons.1 hclock
    have hsound : Call.Sound rate capacity ⟨b, now, ask⟩ := ⟨hb, hle now List.mem_cons_self⟩
    exact ih hsound.left_within (by rwa [Call.left_refilled])

/-- The tokens in a bucket that is not in debt. -/
def credit (b : TokenBucket ℚ) : ℚ := max 0 b.tokens

theorem credit_nonneg : 0 ≤ b.credit := le_max_left _ _

theorem credit_le (h : b.tokens ≤ capacity) : b.credit ≤ capacity := max_le (Nat.cast_nonneg _) h

/-- What comes in from one call to another is given out, is lost, or makes the difference between what is in the
    bucket. -/
theorem sum_permits_add_lost (hrate : 0 < rate) {g h : Call} {part : List Call}
    (hchain : (g :: (part ++ [h])).IsChain fun c d => d.found = c.left)
    (hsound : ∀ c ∈ part ++ [h], c.Sound rate capacity) :
    (((part ++ [h]).map Call.permits).sum : ℚ) + ((part ++ [h]).map Call.lost).sum =
      rate * (h.instant - g.instant) + (g.left.credit - h.left.credit) := by
  have hone : ∀ {c d : Call}, d.found = c.left → d.Sound rate capacity → (d.permits : ℚ) + d.lost =
      rate * (d.instant - c.instant) + (c.left.credit - d.left.credit) := fun hfound hd => by
    rw [hd.permits_add_lost hrate, hfound, ← Call.instant_eq]
    rfl
  -- The credit that one call leaves is the credit that the next one finds, so that only the first and last remain.
  induction part generalizing g with
  | nil =>
    have hlast := hone (List.isChain_cons_cons.1 hchain).1 (hsound h List.mem_cons_self)
    simpa using hlast
  | cons c part ih =>
    obtain ⟨hfound, hrest⟩ := List.isChain_cons_cons.1 hchain
    have hhead := hone hfound (hsound c List.mem_cons_self)
    have htail := ih hrest fun d hd => hsound d (List.mem_cons_of_mem _ hd)
    simp only [List.cons_append, List.map_cons, List.sum_cons, Nat.cast_add]
    linarith

theorem pairwise_instants (hrate : 0 < rate) {cs : List Call} (hchain : cs.IsChain fun c d => d.found = c.left)
    (hsound : ∀ c ∈ cs, c.Sound rate capacity) : (cs.map Call.instant).Pairwise (· ≤ ·) := by
  refine List.isChain_iff_pairwise.1 ((List.isChain_map _).2 ?_)
  induction hchain with
  | nil => exact .nil
  | singleton c => exact .singleton c
  | cons_cons hfound _ ih =>
    have hle := (hsound _ (List.mem_cons_of_mem _ List.mem_cons_self)).clear_le hrate
    rw [hfound, ← Call.instant_eq] at hle
    exact .cons_cons hle (ih fun c hc => hsound c (List.mem_cons_of_mem _ hc))

/-! ### Calls that take nothing -/

/-- What the callers are told, and the buckets that they leave. -/
def told (b : TokenBucket ℚ) (asks : List (Time × Ask)) : List (Answer × TokenBucket ℚ) :=
  (calls b asks).map fun c => (c.answer, c.left)

theorem told_append (b : TokenBucket ℚ) (before after : List (Time × Ask)) :
    told b (before ++ after) = told b before ++ told (behind b before) after := by
  rw [told, calls_append, List.map_append]
  rfl

theorem told_cons {b c : TokenBucket ℚ} {x : Time × Ask} (h : b.refill x.1 = c.refill x.1)
    (after : List (Time × Ask)) :
    told b (x :: after) = told c (x :: after) := by
  obtain ⟨now, ask⟩ := x
  have hanswer : Call.answer ⟨b, now, ask⟩ = Call.answer ⟨c, now, ask⟩ := by
    cases ask <;> simp only [Call.answer, reserve, tryTake, available, h]
  have hleft : Call.left ⟨b, now, ask⟩ = Call.left ⟨c, now, ask⟩ := by
    cases ask <;> simp only [Call.left, reserve, tryTake, available, h]
  simp only [told, calls, List.map_cons, hanswer, hleft]

theorem told_refill (hrate : 0 ≤ b.rate) {now : Time} (hnow : b.refilled ≤ now)
    (hasks : ∀ x ∈ asks, now ≤ x.1) : told (b.refill now) asks = told b asks := by
  cases asks with
  | nil => rfl
  | cons x asks => exact told_cons (refill_refill hrate hnow (hasks x List.mem_cons_self)) asks

/-- A call that takes nothing may as well not be made: everyone else is told the same and leaves the same bucket. -/
theorem told_without (hb : b.Within rate capacity) (hrate : 0 ≤ rate) {before after : List (Time × Ask)} {now : Time}
    {ask : Ask} (hclock : (b.refilled :: (before ++ (now, ask) :: after).map Prod.fst).Pairwise (· ≤ ·))
    (hnone : Call.permits ⟨behind b before, now, ask⟩ = 0) :
    told b (before ++ after) = (told b (before ++ (now, ask) :: after)).eraseIdx before.length := by
  obtain ⟨hbehind, hrest⟩ := within_behind hb hclock
  obtain ⟨hnow, hlater⟩ := List.pairwise_cons.1 hrest
  have hafter := (List.pairwise_cons.1 hlater).1
  have hleft : Call.left ⟨behind b before, now, ask⟩ = (behind b before).refill now := by
    rw [Call.left_eq, hnone]
    exact spend_zero
  have hafter : told ((behind b before).refill now) after = told (behind b before) after :=
    told_refill (hbehind.rate ▸ hrate) (hnow now List.mem_cons_self) fun x hx => hafter x.1 (List.mem_map_of_mem hx)
  have hcons : told (behind b before) ((now, ask) :: after) =
      (Call.answer ⟨behind b before, now, ask⟩, (behind b before).refill now) :: told (behind b before) after := by
    rw [← hafter, ← hleft]
    rfl
  have hlength : (told b before).length = before.length := by rw [told, List.length_map, length_calls]
  rw [told_append, told_append, hcons, ← hlength, List.eraseIdx_append_of_length_le le_rfl, Nat.sub_self]
  rfl

end

/-! ### The law -/

/-- What a limiter promises to those who call it one after the other. -/
structure Lawful (rate : ℚ) (capacity : Nat) (b : TokenBucket ℚ) (asks : List (Time × Ask)) : Prop where
  balance : ∀ c ∈ calls b asks, c.left.tokens ≤ capacity ∧ ∀ tokens, c.answer = .balance tokens → tokens ≤ capacity
  /-- Tokens may be used in the order of the calls. -/
  order : ((calls b asks).map Call.instant).Pairwise (· ≤ ·)
  /-- No more is given out than fills the bucket once, and what comes in. -/
  atMost : ∀ g part h, g :: (part ++ [h]) <:+: calls b asks →
    (((part ++ [h]).map Call.permits).sum : ℚ) ≤ capacity + rate * (h.instant - g.instant)
  /-- No less is given out than what comes in, but for what stays in the bucket or is lost. -/
  atLeast : ∀ g part h, g :: (part ++ [h]) <:+: calls b asks →
    rate * (h.instant - g.instant) ≤
      capacity + ((part ++ [h]).map Call.permits).sum + ((part ++ [h]).map Call.lost).sum
  /-- Tokens are lost only where the bucket is full. -/
  lost : ∀ c ∈ calls b asks, c.lost ≠ 0 → (c.found.refill c.now).tokens = capacity
  /-- No shorter wait would repay the debt. -/
  shortest : ∀ c ∈ calls b asks, ∀ w, 0 ≤ w → (c.left.debt ≤ w ↔ 0 ≤ c.left.tokens + rate * w)
  /-- The wait that a caller is told is the nearest nanosecond, unless it is no length of time. -/
  wait : ∀ c ∈ calls b asks, ∀ n, c.ask = .acquire n → ∃ length, c.answer = .wait length ∧
    (∀ s, length = some s → |s.toRat - c.left.debt| ≤ 1 / (2 * Span.nanosPerSecond)) ∧
    (length = none → Text.maxWord64 < c.left.debt)
  /-- Tokens taken without a wait leave no debt. -/
  taken : ∀ c ∈ calls b asks, c.answer = .taken true → c.instant = c.now.toRat
  /-- A look at the balance, or tokens that are refused, make no difference to anyone else. -/
  nothing : ∀ before now ask after, asks = before ++ (now, ask) :: after →
    Call.permits ⟨behind b before, now, ask⟩ = 0 →
    told b (before ++ after) = (told b asks).eraseIdx before.length

theorem Within.of_full (rate : ℚ) (capacity : Nat) (now : Time) : (full rate capacity now).Within rate capacity :=
  ⟨le_rfl, rfl, rfl⟩

/-- Whoever calls, whenever and for whatever: a limiter keeps to its rate. -/
theorem lawful_of_full {rate : ℚ} (hrate : 0 < rate) (capacity : Nat) (start : Time) {asks : List (Time × Ask)}
    (hclock : (start :: asks.map Prod.fst).Pairwise (· ≤ ·)) :
    Lawful rate capacity (full rate capacity start) asks := by
  have hfull := Within.of_full rate capacity start
  have hsound := sound_calls hfull hclock
  have hchain := isChain_calls (full rate capacity start) asks
  have hsum : ∀ g part h, g :: (part ++ [h]) <:+: calls (full rate capacity start) asks →
      (((part ++ [h]).map Call.permits).sum : ℚ) + ((part ++ [h]).map Call.lost).sum =
        rate * (h.instant - g.instant) + (g.left.credit - h.left.credit) ∧
      g.left.credit ≤ capacity ∧ h.left.credit ≤ capacity := fun g part h hpart => by
    have hmem : ∀ c ∈ part ++ [h], c.Sound rate capacity := fun c hc =>
      hsound c (hpart.subset (List.mem_cons_of_mem _ hc))
    have hg := hsound g (hpart.subset List.mem_cons_self)
    have hh := hmem h (List.mem_append_right _ List.mem_cons_self)
    have hlinked := List.IsChain.infix hchain hpart
    exact ⟨sum_permits_add_lost hrate hlinked hmem, credit_le hg.left_within.tokens,
      credit_le hh.left_within.tokens⟩
  constructor
  case balance =>
    intro c hc
    have hleft := (hsound c hc).left_within.tokens
    exact ⟨hleft, fun tokens hanswer => Call.left_tokens_of_balance hanswer ▸ hleft⟩
  case order => exact pairwise_instants hrate hchain hsound
  case atMost =>
    intro g part h hpart
    obtain ⟨heq, hg, -⟩ := hsum g part h hpart
    have hlost : 0 ≤ ((part ++ [h]).map Call.lost).sum :=
      List.sum_nonneg (List.forall_mem_map.2 fun c _ => c.lost_nonneg)
    linarith [h.left.credit_nonneg]
  case atLeast =>
    intro g part h hpart
    obtain ⟨heq, -, hh⟩ := hsum g part h hpart
    linarith [g.left.credit_nonneg]
  case lost =>
    intro c hc hlost
    rw [Call.full_of_lost hlost, (hsound c hc).found.capacity]
  case shortest =>
    intro c hc w hw
    have hleft := (hsound c hc).left_within.rate
    rw [debt_le_iff (hleft ▸ hrate) hw, hleft]
  case wait =>
    intro c hc n hask
    refine ⟨_, Call.answer_eq hask, fun s hs => Span.ofRat?_near hs, fun hnone => ?_⟩
    by_contra hle
    obtain ⟨s, hs⟩ := Span.exists_ofRat? (debt_nonneg ((hsound c hc).left_within.rate ▸ hrate)) (not_lt.1 hle)
    exact nomatch hs.symm.trans hnone
  case taken =>
    intro c _ htaken
    rw [Call.instant, debt, max_eq_left (neg_nonpos.2 (Call.left_tokens_of_taken htaken)), zero_div, add_zero]
  case nothing =>
    rintro before now ask after rfl hnone
    exact told_without hfull hrate.le hclock hnone

/-- Two tokens a second and room for one: three are waited for, none is there half a second later, and two seconds
    later one is, the others being lost. -/
theorem lawful_of_three : (0 : ℚ) < 2 ∧
    ([0, 0, 500000000, 3000000000] : List Time).Pairwise (· ≤ ·) ∧
    Lawful 2 1 (full 2 1 0) [(0, .acquire 3), (500000000, .tryTake 1), (3000000000, .tryTake 1)] ∧
    (calls (full 2 1 0) [(0, .acquire 3), (500000000, .tryTake 1), (3000000000, .tryTake 1)]).map
      (fun c => (c.answer, c.lost)) =
        [(.wait (some ⟨1000000000⟩), 0), (.taken false, 0), (.taken true, 3)] := by
  have hclock : ([0, 0, 500000000, 3000000000] : List Time).Pairwise (· ≤ ·) := by decide
  exact ⟨by norm_num, hclock, lawful_of_full (by norm_num) 1 0 hclock, by decide +kernel⟩

end TokenBucket
end IngestBench
