import IngestBench.Load
import IngestBench.Proofs.ExtendedNumbers
import IngestBench.Proofs.TokenLaw
import IngestBench.Proofs.WrittenPoints

/-! The waits of a limiter whose settings passed their check. The check refuses rates at or below zero, and so it lets
    through a rate that is no number, and rates so low that a wait is longer than any length of time: with these a caller
    that leaves a debt may have no answer, and otherwise everyone has. -/

namespace IngestBench

open CommandLine (mapError_eq_ok_iff)

/-! ### Seconds that are no length of time -/

namespace Span

theorem le_divNearest_iff_nat {least num den : Nat} (hden : 0 < den) (heven : least % 2 = 0) :
    least ≤ divNearest num den ↔ 2 * (least * den) ≤ 2 * num + den := by
  have hparts := Nat.div_add_mod' num den
  have hrest := Nat.mod_lt num hden
  unfold divNearest
  generalize num / den = q at hparts ⊢
  generalize num % den = r at hparts hrest ⊢
  dsimp only
  rcases Nat.lt_trichotomy least (q + 1) with hlt | heq | hgt
  · have hmul : least * den ≤ q * den := Nat.mul_le_mul_right den (Nat.le_of_lt_succ hlt)
    exact iff_of_true (by split <;> omega) (by omega)
  · -- the quotient lies just below, and which way it goes decides
    subst heq
    have hmul : (q + 1) * den = q * den + den := Nat.succ_mul q den
    simp only [Bool.or_eq_true, Bool.and_eq_true, decide_eq_true_eq, beq_iff_eq]
    split <;> omega
  · have hmul : (q + 2) * den ≤ least * den := Nat.mul_le_mul_right den hgt
    rw [Nat.add_mul] at hmul
    exact iff_of_false (by split <;> omega) (by omega)

/-- The nearest whole number reaches an even one where the quotient is half a unit below it: a half goes to the even
    neighbour. -/
theorem le_divNearest_iff {least num den : Nat} (hden : 0 < den) (heven : least % 2 = 0) :
    least ≤ divNearest num den ↔ (least : ℚ) ≤ num / den + 1 / 2 := by
  have hpos : (0 : ℚ) < den := Nat.cast_pos.2 hden
  rw [le_divNearest_iff_nat hden heven, ← sub_le_iff_le_add, le_div_iff₀ hpos, ← Nat.cast_le (α := ℚ)]
  push_cast
  constructor <;> intro h <;> linarith

/-- So many seconds are no length of time if they are below zero, or if the nearest nanosecond is beyond those whose
    seconds fit 64 bits. -/
theorem ofRat?_eq_none_iff {x : ℚ} :
    ofRat? x = none ↔ x < 0 ∨ (Text.maxWord64 : ℚ) + 1 ≤ x + 1 / (2 * nanosPerSecond) := by
  by_cases hneg : x < 0
  · simp [ofRat?, hneg]
  · have hnanos : (0 : ℚ) < nanosPerSecond := by norm_num [nanosPerSecond]
    have hnone : ofRat? x = none ↔
        ¬(Span.mk (divNearest (x.num.toNat * nanosPerSecond) x.den)).seconds ≤ Text.maxWord64 := by
      simp [ofRat?, hneg]
    rw [not_le, seconds, Nat.lt_iff_add_one_le, Nat.le_div_iff_mul_le (by decide)] at hnone
    have hunits : x * nanosPerSecond + 1 / 2 = (x + 1 / (2 * nanosPerSecond)) * nanosPerSecond := by
      field_simp
    rw [hnone, le_divNearest_iff x.den_pos (by decide), Nat.cast_mul, Nat.cast_mul, mul_div_right_comm,
      cast_num_toNat (not_lt.1 hneg), hunits, mul_le_mul_iff_left₀ hnanos, or_iff_right hneg, Nat.cast_add, Nat.cast_one]

end Span

/-! ### Rates that pass the check -/

theorem Config.Check.positiveQuantity_eq_ok_iff {ν : Type} [Quantity ν] {field : String} {write : ν → String} {x : ν} :
    positiveQuantity field write x = .ok () ↔ Quantity.le x (Quantity.ofNat 0) = false := by
  rw [positiveQuantity]
  cases Quantity.le x (Quantity.ofNat 0) with
  | true => exact iff_of_false (fun h => nomatch h) (fun h => nomatch h)
  | false => exact iff_of_true rfl rfl

namespace Settings

variable {processors : Nat} {program : String} {env : Config.Environment} {document : Option String} {s : Settings}

theorem check_of_load (h : load processors program env document = .ok s) : s.check = .ok () := by
  have hchanged : ∀ read : Settings, (do
      let changed ← read.withEnvironment program env
      changed.check
      return changed) = Except.ok s → s.check = .ok () := by
    intro read hread
    obtain ⟨changed, -, hrest⟩ := Simulation.bind_eq_ok hread
    obtain ⟨hcheck, heq⟩ := Config.bind_eq_ok_iff.1 hrest
    cases heq
    exact hcheck
  cases document with
  | none => exact hchanged (standard processors) h
  | some text =>
    obtain ⟨read, -, hread⟩ := Simulation.bind_eq_ok h
    exact hchanged read hread

/-- Settings that are loaded have a rate that is above zero, without bound, or no number, if they limit rates at all. -/
theorem rate_of_load (h : load processors program env document = .ok s) (henabled : s.target.limiter.enabled = true) :
    Quantity.le (Extended.ofFloat s.target.limiter.maxRate) (Quantity.ofNat 0) = false := by
  have htarget := (Config.bind_eq_ok_iff.1 (Config.bind_eq_ok_iff.1 (check_of_load h)).2).2
  have hlimiter := mapError_eq_ok_iff.1 (Config.bind_eq_ok_iff.1 htarget).2
  rw [LimiterSettings.check, if_pos henabled] at hlimiter
  rw [Extended.le_zero_ofFloat]
  exact Config.Check.positiveQuantity_eq_ok_iff.1 (Config.bind_eq_ok_iff.1 hlimiter).1

/-- Settings that are loaded, read off what can be compared of them. -/
theorem exists_of_load {α : Type} {f : Settings → α} {a : α}
    (h : (load processors program env document).toOption.map f = some a) :
    ∃ s, load processors program env document = .ok s ∧ f s = a := by
  cases hload : load processors program env document with
  | error fault =>
    rw [hload] at h
    cases h
  | ok s =>
    rw [hload] at h
    exact ⟨s, rfl, Option.some.inj h⟩

end Settings

namespace TokenBucket

/-! ### Calls on any bucket -/

section
variable {ν : Type} [Quantity ν]

/-- The bucket that a call leaves. Who cannot be told how long to wait has taken the tokens all the same. -/
def leave (b : TokenBucket ν) : Time × Ask → TokenBucket ν
  | (now, .acquire n) => (b.refill now).spend n
  | (now, .tryTake n) => (b.tryTake n now).2
  | (now, .available) => (b.available now).2

/-- The bucket behind some calls. -/
def after (b : TokenBucket ν) (asks : List (Time × Ask)) : TokenBucket ν := asks.foldl leave b

theorem reserve_eq (b : TokenBucket ν) (n : Nat) (now : Time) : b.reserve n now =
    (b.leave (now, .acquire n)).debtTime.map fun wait => (wait, b.leave (now, .acquire n)) := rfl

end

/-- The tokens that a call takes at most. -/
def Ask.most : Ask → Nat
  | acquire n => n
  | tryTake n => n
  | available => 0

/-- The tokens that calls take at most. -/
def most (asks : List (Time × Ask)) : Nat := (asks.map fun x => x.2.most).sum

/-! ### Buckets of extended numbers -/

/-- A bucket whose balance is a number: no more than its capacity, and no less than what is left of a full bucket when
    so many tokens are taken. -/
structure Balanced (rate : Extended) (capacity taken : Nat) (b : TokenBucket Extended) : Prop where
  tokens : ∃ balance : ℚ, b.tokens = .finite balance ∧ balance ≤ capacity ∧ capacity ≤ balance + taken
  capacity : b.capacity = .finite capacity
  rate : b.rate = rate

variable {rate : Extended} {capacity taken : Nat} {b : TokenBucket Extended}

theorem Balanced.of_full (rate : Extended) (capacity : Nat) (start : Time) :
    (full rate capacity start).Balanced rate capacity 0 :=
  ⟨⟨capacity, rfl, le_rfl, by simp⟩, rfl, rfl⟩

theorem spend_tokens_of_finite {balance : ℚ} (h : b.tokens = .finite balance) (n : Nat) :
    (b.spend n).tokens = .finite (balance - n) := by
  simp [spend, h, Quantity.sub, Quantity.ofNat, Extended.neg, Extended.add, sub_eq_add_neg]

/-- At a rate that is no number, or without bound, whatever came in fills the bucket. -/
theorem Balanced.refill_tokens_of_not_finite (h : b.Balanced rate capacity taken)
    (hrate : rate = .nan ∨ rate = .infinite false) (now : Time) : (b.refill now).tokens = .finite capacity := by
  obtain ⟨balance, htokens, -⟩ := h.tokens
  have hgained := (now.since b.refilled).toRat_nonneg
  simp only [refill, htokens, h.rate, h.capacity, Quantity.ofSpan, Quantity.mul, Quantity.add, Quantity.least]
  rcases hrate with rfl | rfl
  · rfl
  · simp only [Extended.mul, Extended.scaled]
    split
    · rfl
    · simp [Extended.add, Extended.least, Extended.le, not_lt.2 hgained]

theorem Balanced.refill_tokens_of_finite {q : ℚ} (h : b.Balanced (.finite q) capacity taken) {balance : ℚ}
    (htokens : b.tokens = .finite balance) (now : Time) : (b.refill now).tokens =
      .finite (min (balance + (now.since b.refilled).toRat * q) capacity) := by
  simp only [refill, htokens, h.rate, h.capacity, Quantity.ofSpan, Quantity.mul, Quantity.add, Quantity.least]
  exact Extended.least_finite _ _

theorem Balanced.refill (h : b.Balanced rate capacity taken)
    (hrate : Quantity.le rate (Quantity.ofNat 0) = false) (now : Time) : (b.refill now).Balanced rate capacity taken := by
  refine ⟨?_, h.capacity, h.rate⟩
  rcases Extended.le_zero_eq_false_iff.1 hrate with hnan | hinf | ⟨q, hq, rfl⟩
  · exact ⟨capacity, h.refill_tokens_of_not_finite (.inl hnan) now, le_rfl, by simp⟩
  · exact ⟨capacity, h.refill_tokens_of_not_finite (.inr hinf) now, le_rfl, by simp⟩
  · obtain ⟨balance, htokens, hle, hge⟩ := h.tokens
    refine ⟨_, h.refill_tokens_of_finite htokens now, min_le_right _ _, ?_⟩
    have hgained := mul_nonneg (now.since b.refilled).toRat_nonneg hq.le
    have htaken : (0 : ℚ) ≤ taken := Nat.cast_nonneg _
    rw [← min_add_add_right]
    exact le_min (by linarith) (by linarith)

theorem Balanced.spend (h : b.Balanced rate capacity taken) (n : Nat) :
    (b.spend n).Balanced rate capacity (taken + n) := by
  obtain ⟨balance, htokens, hle, hge⟩ := h.tokens
  refine ⟨⟨balance - n, spend_tokens_of_finite htokens n, ?_, ?_⟩, h.capacity, h.rate⟩
  · exact (sub_le_self _ (Nat.cast_nonneg _)).trans hle
  · push_cast
    linarith

theorem Balanced.mono {more : Nat} (h : b.Balanced rate capacity taken) (hle : taken ≤ more) :
    b.Balanced rate capacity more := by
  obtain ⟨balance, htokens, hcapacity, hge⟩ := h.tokens
  have hmore : (taken : ℚ) ≤ more := Nat.cast_le.2 hle
  exact ⟨⟨balance, htokens, hcapacity, by linarith⟩, h.capacity, h.rate⟩

theorem Balanced.leave (h : b.Balanced rate capacity taken) (hrate : Quantity.le rate (Quantity.ofNat 0) = false)
    (x : Time × Ask) : (b.leave x).Balanced rate capacity (taken + x.2.most) := by
  obtain ⟨now, ask⟩ := x
  have hrefill := h.refill hrate now
  cases ask with
  | acquire n => exact hrefill.spend n
  | available => exact hrefill
  | tryTake n =>
    rw [TokenBucket.leave, tryTake]
    dsimp only
    split
    · exact hrefill.spend n
    · exact hrefill.mono (Nat.le_add_right _ _)

theorem Balanced.after (h : b.Balanced rate capacity taken) (hrate : Quantity.le rate (Quantity.ofNat 0) = false)
    (asks : List (Time × Ask)) : (b.after asks).Balanced rate capacity (taken + most asks) := by
  induction asks generalizing b taken with
  | nil => exact h
  | cons x asks ih =>
    have hrest := ih (h.leave hrate x)
    rwa [Nat.add_assoc] at hrest

/-! ### Waits -/

theorem debtTime_of_finite {balance : ℚ} (h : b.tokens = .finite balance) : b.debtTime =
    if 0 ≤ balance then some Span.zero else Quantity.toSpan? (Extended.div (.finite (-balance)) b.rate) := by
  have hle : Quantity.le (Quantity.ofNat 0) b.tokens = decide (0 ≤ balance) := by
    simp [h, Quantity.le, Quantity.ofNat, Extended.le]
  rw [debtTime, hle, h]
  by_cases hbalance : 0 ≤ balance <;> simp [hbalance, Quantity.neg, Quantity.div, Extended.neg]

/-- The debt in seconds is the wait, at a rate that is a number. -/
theorem debtTime_of_finite_rate {balance q : ℚ} (h : b.tokens = .finite balance) (hrate : b.rate = .finite q)
    (hq : 0 < q) : b.debtTime = Span.ofRat? (max 0 (-balance) / q) := by
  rw [debtTime_of_finite h, hrate]
  split
  · next hbalance =>
    rw [max_eq_left (neg_nonpos.2 hbalance), zero_div, Span.ofRat?_zero]
  · next hbalance =>
    rw [max_eq_right (neg_nonneg.2 (not_le.1 hbalance).le), Extended.div, if_neg hq.ne']
    rfl

/-- How a limiter answers who asks for `n` tokens, in a bucket out of which others took `taken` tokens at most. There is
    no answer where the wait would be no length of time. -/
inductive Waits (rate : Extended) (capacity taken : Nat) (b : TokenBucket Extended) (n : Nat) (now : Time) : Prop
  /-- Every caller finds a full bucket, and the wait for more than that is no number. -/
  | undefined : rate = .nan → (n ≤ capacity → ∃ b', b.reserve n now = some (.zero, b')) →
      (capacity < n → b.reserve n now = none) → Waits rate capacity taken b n now
  /-- Every caller finds a full bucket, and every debt is repaid at once. -/
  | unlimited : rate = .infinite false → (∃ b', b.reserve n now = some (.zero, b')) → Waits rate capacity taken b n now
  /-- The wait is the debt in seconds, to the nearest nanosecond, unless these are too many; they are not where no more
      is taken than fills the bucket once, and comes in within the longest time of whole seconds. -/
  | limited (q balance : ℚ) : rate = .finite q → 0 < q → (b.leave (now, .acquire n)).tokens = .finite balance →
      (b.reserve n now = none ↔
        (Text.maxWord64 : ℚ) + 1 ≤ max 0 (-balance) / q + 1 / (2 * Span.nanosPerSecond)) →
      (∀ wait b', b.reserve n now = some (wait, b') →
        |wait.toRat - max 0 (-balance) / q| ≤ 1 / (2 * Span.nanosPerSecond)) →
      ((taken + n : ℚ) ≤ capacity + q * Text.maxWord64 → ∃ wait b', b.reserve n now = some (wait, b')) →
      Waits rate capacity taken b n now

theorem reserve_of_debtTime {n : Nat} {now : Time} {wait : Span}
    (h : (b.leave (now, .acquire n)).debtTime = some wait) :
    b.reserve n now = some (wait, b.leave (now, .acquire n)) := by
  rw [reserve_eq, h]
  rfl

theorem reserve_eq_none_iff {n : Nat} {now : Time} :
    b.reserve n now = none ↔ (b.leave (now, .acquire n)).debtTime = none := by
  rw [reserve_eq, Option.map_eq_none_iff]

/-- At a rate that is no number, or without bound, a caller finds a full bucket. -/
theorem Balanced.leave_tokens_of_not_finite (h : b.Balanced rate capacity taken)
    (hrate : rate = .nan ∨ rate = .infinite false) (n : Nat) (now : Time) :
    (b.leave (now, .acquire n)).tokens = .finite (capacity - n) :=
  spend_tokens_of_finite (h.refill_tokens_of_not_finite hrate now) n

theorem Balanced.waits (h : b.Balanced rate capacity taken) (hrate : Quantity.le rate (Quantity.ofNat 0) = false)
    (n : Nat) (now : Time) : Waits rate capacity taken b n now := by
  have hleft := h.leave hrate (now, .acquire n)
  rcases Extended.le_zero_eq_false_iff.1 hrate with rfl | rfl | ⟨q, hq, rfl⟩
  · have hdebt := debtTime_of_finite (h.leave_tokens_of_not_finite (.inl rfl) n now)
    rw [hleft.rate] at hdebt
    refine .undefined rfl (fun hle => ⟨_, reserve_of_debtTime (hdebt.trans (if_pos ?_))⟩)
      fun hlt => reserve_eq_none_iff.2 (hdebt.trans (if_neg ?_))
    · exact sub_nonneg.2 (Nat.cast_le.2 hle)
    · exact not_le.2 (sub_neg.2 (Nat.cast_lt.2 hlt))
  · have hdebt := debtTime_of_finite (h.leave_tokens_of_not_finite (.inr rfl) n now)
    have hzero : Quantity.toSpan? (Extended.div (.finite (-(capacity - n : ℚ))) (.infinite false)) = some Span.zero :=
      Span.ofRat?_zero
    rw [hleft.rate, hzero, ite_self] at hdebt
    exact .unlimited rfl ⟨_, reserve_of_debtTime hdebt⟩
  · obtain ⟨balance, htokens, -, hge⟩ := hleft.tokens
    have hdebt := debtTime_of_finite_rate htokens hleft.rate hq
    have hnonneg : 0 ≤ max 0 (-balance) / q := div_nonneg (le_max_left _ _) hq.le
    refine .limited q balance rfl hq htokens ?_ (fun wait b' hwait => ?_) fun hfew => ?_
    · rw [reserve_eq_none_iff, hdebt, Span.ofRat?_eq_none_iff, or_iff_right (not_lt.2 hnonneg)]
    · obtain ⟨length, hlength, heq⟩ := Option.map_eq_some_iff.1 (reserve_eq b n now ▸ hwait)
      cases heq
      exact Span.ofRat?_near (hdebt.symm.trans hlength)
    · have hle : max 0 (-balance) / q ≤ Text.maxWord64 := by
        have hword : (0 : ℚ) ≤ q * Text.maxWord64 := mul_nonneg hq.le (Nat.cast_nonneg _)
        rw [div_le_iff₀' hq, max_le_iff]
        simp only [Ask.most, Nat.cast_add] at hge
        exact ⟨hword, by linarith⟩
      obtain ⟨wait, hwait⟩ := Span.exists_ofRat? hnonneg hle
      exact ⟨wait, _, reserve_of_debtTime (hdebt.trans hwait)⟩

/-- Whoever asks a limiter for tokens, after whatever other calls and at whatever times: with settings that were loaded,
    the answer is as the rate says, and there is none exactly where the rate is no number and more than a full bucket is
    asked for, or where the debt takes longer than any length of time. -/
theorem waits_of_load {processors : Nat} {program : String} {env : Config.Environment} {document : Option String}
    {s : Settings} (h : Settings.load processors program env document = .ok s)
    (henabled : s.target.limiter.enabled = true) (start : Time) (asks : List (Time × Ask)) (n : Nat) (now : Time) :
    let rate := Extended.ofFloat s.target.limiter.maxRate
    let capacity := s.target.limiter.bucketSize
    Waits rate capacity (most asks) ((full rate capacity start).after asks) n now := by
  intro rate capacity
  have hrate : Quantity.le rate (Quantity.ofNat 0) = false := Settings.rate_of_load h henabled
  have hbehind := (Balanced.of_full rate capacity start).after hrate asks
  rw [Nat.zero_add] at hbehind
  exact hbehind.waits hrate n now

/-- An environment that limits the rate. -/
def atRate (rate : String) : Config.Environment := fun name =>
  if name = "TSBENCH_LIMITER_MAX_RATE" then some rate else none

/-- At two tokens a second, behind a caller who empties the bucket. -/
theorem waits_of_load_two : ∃ s, Settings.load 4 Config.programName (atRate "2") none = .ok s ∧
    s.target.limiter.enabled = true ∧ Extended.ofFloat s.target.limiter.maxRate = .finite 2 ∧
    ∃ wait b', ((full (Extended.ofFloat s.target.limiter.maxRate) s.target.limiter.bucketSize 0).after
      [(0, .acquire 10000)]).reserve 5 0 = some (wait, b') := by
  have hread : (Settings.load 4 Config.programName (atRate "2") none).toOption.map (fun s =>
      (s.target.limiter.enabled, Extended.ofFloat s.target.limiter.maxRate, s.target.limiter.bucketSize)) =
        some (true, .finite 2, 10000) := by decide +kernel
  obtain ⟨s, hload, hs⟩ := Settings.exists_of_load hread
  obtain ⟨henabled, hrate, hcapacity⟩ : _ ∧ _ ∧ _ := by simpa only [Prod.mk.injEq] using hs
  refine ⟨s, hload, henabled, hrate, ?_⟩
  have hwaits := waits_of_load hload henabled 0 [(0, .acquire 10000)] 5 0
  rw [hrate, hcapacity] at hwaits ⊢
  cases hwaits with
  | undefined h => cases h
  | unlimited h => cases h
  | limited q balance h _ _ _ _ hfew =>
    cases h
    exact hfew (by norm_num [most, Ask.most, Text.maxWord64])

/-- With this rate settings are loaded, and who asks for a token more than fills the bucket has no answer: neither in
    extended numbers nor in floating-point numbers. -/
def Unanswered (rate : String) : Prop :=
  ∃ s, Settings.load 4 Config.programName (atRate rate) none = .ok s ∧ s.target.limiter.enabled = true ∧
    (full (Extended.ofFloat s.target.limiter.maxRate) s.target.limiter.bucketSize 0).reserve 10001 0 = none ∧
    ∃ b, Load.bucket s.target = some b ∧ b.reserve 10001 0 = none

theorem unanswered_of_read {rate : String}
    (h : (Settings.load 4 Config.programName (atRate rate) none).toOption.map (fun s => (s.target.limiter.enabled,
      ((full (Extended.ofFloat s.target.limiter.maxRate) s.target.limiter.bucketSize 0).reserve 10001 0).isNone,
      (Load.bucket s.target).map fun b => (b.reserve 10001 0).isNone)) = some (true, true, some true)) :
    Unanswered rate := by
  obtain ⟨s, hload, hs⟩ := Settings.exists_of_load h
  obtain ⟨henabled, hextended, hbucket⟩ : _ ∧ _ ∧ _ := by simpa only [Prod.mk.injEq] using hs
  obtain ⟨b, hb, hnone⟩ := Option.map_eq_some_iff.1 hbucket
  exact ⟨s, hload, henabled, Option.isNone_iff_eq_none.1 hextended, b, hb, Option.isNone_iff_eq_none.1 hnone⟩

/-- A rate that is no number, and one of a token in `10 ^ 20` seconds. -/
theorem unanswered_nan_and_slow : Unanswered "nan" ∧ Unanswered "1e-20" :=
  ⟨unanswered_of_read (by decide +kernel), unanswered_of_read (by decide +kernel)⟩

end TokenBucket
end IngestBench
