import IngestBench.Clock
import IngestBench.Decimal.Places
import IngestBench.Quantity
import Mathlib.Algebra.Order.Field.Basic
import Mathlib.Algebra.Order.Field.Rat
import Mathlib.Tactic.FieldSimp
import Mathlib.Tactic.Linarith
import Mathlib.Tactic.Positivity

/-! Rates and balances as exact numbers. Nothing is rounded but lengths of time, which are whole nanoseconds: a
    number of seconds becomes the nearest of them. -/

namespace IngestBench

/-! ### Lengths of time -/

namespace Span

/-- The length of so many seconds, to the nearest nanosecond; none if they are negative or too many. -/
def ofRat? (x : ℚ) : Option Span :=
  if x < 0 then none
  else
    let s : Span := ⟨divNearest (x.num.toNat * nanosPerSecond) x.den⟩
    if s.seconds ≤ Text.maxWord64 then some s else none

/-- A length in seconds. -/
def toRat (s : Span) : ℚ := s.nanos / nanosPerSecond

theorem toRat_nonneg (s : Span) : 0 ≤ s.toRat := by
  unfold toRat
  positivity

theorem divNearest_eq (num den : Nat) : divNearest num den = Decimal.roundDiv num den .toEven := by
  unfold divNearest Decimal.roundDiv
  by_cases hlt : 2 * (num % den) < den
  · simp [hlt]
  · by_cases hgt : den < 2 * (num % den)
    · have hne : 2 * (num % den) ≠ den := by omega
      simp [hlt, hgt, hne]
    · have heq : 2 * (num % den) = den := by omega
      simp [heq]

theorem divNearest_near (num : Nat) {den : Nat} (h : 0 < den) : |(divNearest num den : ℚ) - num / den| ≤ 1 / 2 := by
  obtain ⟨hlow, hhigh⟩ := Decimal.roundDiv_close num den .toEven h
  rw [← divNearest_eq] at hlow hhigh
  have hden : (0 : ℚ) < den := Nat.cast_pos.2 h
  have hlow : (2 * num : ℚ) ≤ 2 * (den * divNearest num den) + den := by exact_mod_cast hlow
  have hhigh : (2 * (den * divNearest num den) : ℚ) ≤ 2 * num + den := by exact_mod_cast hhigh
  rw [abs_le, neg_le_sub_iff_le_add, sub_le_iff_le_add, div_le_iff₀ hden, ← sub_le_iff_le_add', le_div_iff₀ hden]
  constructor <;> linarith

variable {x : ℚ}

theorem cast_num_toNat (h : 0 ≤ x) : (x.num.toNat : ℚ) / x.den = x := by
  have hnum : ((x.num.toNat : Int) : ℚ) = x.num := congrArg _ (Int.toNat_of_nonneg (Rat.num_nonneg.2 h))
  rw [Int.cast_natCast] at hnum
  rw [hnum]
  exact x.num_div_den

theorem nanos_near (h : 0 ≤ x) :
    |(divNearest (x.num.toNat * nanosPerSecond) x.den : ℚ) - x * nanosPerSecond| ≤ 1 / 2 := by
  have hnear := divNearest_near (x.num.toNat * nanosPerSecond) x.den_pos
  rwa [Nat.cast_mul, mul_div_right_comm, cast_num_toNat h] at hnear

theorem ofRat?_zero : ofRat? 0 = some zero := by decide +kernel

/-- Seconds become the nearest nanosecond. -/
theorem ofRat?_near {s : Span} (h : ofRat? x = some s) : |s.toRat - x| ≤ 1 / (2 * nanosPerSecond) := by
  have hpos : (0 : ℚ) < nanosPerSecond := by norm_num [nanosPerSecond]
  unfold ofRat? at h
  split at h
  · cases h
  · next hx =>
    simp only at h
    split at h
    · cases h
      have hnear := nanos_near (not_lt.1 hx)
      have hscale : ∀ y : ℚ, |y / nanosPerSecond - x| = |y - x * nanosPerSecond| / nanosPerSecond := fun y => by
        rw [← abs_of_pos hpos, ← abs_div, abs_of_pos hpos, sub_div, mul_div_cancel_right₀ _ hpos.ne']
      rw [toRat, hscale, div_le_iff₀ hpos]
      calc _ ≤ (1 / 2 : ℚ) := hnear
        _ = _ := by field_simp
    · cases h

theorem exists_ofRat? (h : 0 ≤ x) (hx : x ≤ Text.maxWord64) : ∃ s, ofRat? x = some s := by
  have hnear := (abs_le.1 (nanos_near h)).2
  have hscaled := mul_le_mul_of_nonneg_right hx (Nat.cast_nonneg (α := ℚ) nanosPerSecond)
  have hlt : (divNearest (x.num.toNat * nanosPerSecond) x.den : ℚ) < nanosPerSecond * Text.maxWord64 + 1 := by
    linarith
  have hle : divNearest (x.num.toNat * nanosPerSecond) x.den ≤ nanosPerSecond * Text.maxWord64 := by
    have hlt : divNearest (x.num.toNat * nanosPerSecond) x.den < nanosPerSecond * Text.maxWord64 + 1 := by
      exact_mod_cast hlt
    omega
  have hseconds : (Span.mk (divNearest (x.num.toNat * nanosPerSecond) x.den)).seconds ≤ Text.maxWord64 :=
    Nat.div_le_of_le_mul hle
  exact ⟨_, (if_neg (not_lt.2 h)).trans (if_pos hseconds)⟩

end Span

namespace Time

/-- A point in time in seconds. -/
def toRat (t : Time) : ℚ := (Span.mk t).toRat

theorem toRat_since {t start : Time} (h : start ≤ t) : (t.since start).toRat = t.toRat - start.toRat := by
  unfold toRat Span.toRat since
  rw [Nat.cast_sub h, sub_div]

theorem toRat_le_toRat {t start : Time} (h : start ≤ t) : start.toRat ≤ t.toRat :=
  sub_nonneg.1 (toRat_since h ▸ Span.toRat_nonneg _)

end Time

/-! ### Exact numbers -/

instance : Quantity ℚ where
  ofNat n := n
  ofSpan := Span.toRat
  add := (· + ·)
  sub := (· - ·)
  mul := (· * ·)
  div := (· / ·)
  neg := (- ·)
  le a b := a ≤ b
  least := min
  toSpan? := Span.ofRat?

end IngestBench
