import IngestBench.Decimal.Shortest
import IngestBench.Proofs.LineText

/-! The text of a number: whole numbers are read back, and no number has a separator in its text. -/

namespace IngestBench
namespace Text

/-! ### Whole numbers are read back -/

theorem le_ofDigitChars (cs : List Char) (init : Nat) : init ≤ Nat.ofDigitChars 10 cs init := by
  induction cs generalizing init with
  | nil => simp
  | cons c cs ih =>
    rw [Nat.ofDigitChars_cons]
    have h := ih (10 * init + (c.toNat - '0'.toNat))
    omega

theorem digit?_of_isDigit {c : Char} (h : c.isDigit = true) : digit? c = some (c.toNat - '0'.toNat) := by
  have hc : '0' ≤ c ∧ c ≤ '9' := by
    simpa [Char.isDigit, Char.le_def] using h
  simp [digit?, hc]

theorem readDigits_eq {limit acc : Nat} {overflow : IntegerFault} {cs : List Char}
    (hdigits : ∀ c ∈ cs, c.isDigit = true) (hlimit : Nat.ofDigitChars 10 cs acc ≤ limit) :
    readDigits limit overflow acc cs = .ok (Nat.ofDigitChars 10 cs acc) := by
  induction cs generalizing acc with
  | nil => simp [readDigits]
  | cons c cs ih =>
    have hc := digit?_of_isDigit (hdigits c List.mem_cons_self)
    rw [Nat.ofDigitChars_cons] at hlimit
    have hnext := le_ofDigitChars cs (10 * acc + (c.toNat - '0'.toNat))
    have hfits : ¬ limit < 10 * acc + (c.toNat - '0'.toNat) := by omega
    have hrest := ih (fun c hc => hdigits c (List.mem_cons_of_mem _ hc)) hlimit
    simp only [readDigits, hc, hfits, if_false, hrest, Nat.ofDigitChars_cons]

theorem readDigits_repr {n : Nat} (limit : Nat) (overflow : IntegerFault) (hn : n ≤ limit) :
    readDigits limit overflow 0 n.repr.toList = .ok n := by
  have hdigits : ∀ c ∈ Nat.toDigits 10 n, c.isDigit = true :=
    fun c hc => Nat.isDigit_of_mem_toDigits (by decide) (by decide) hc
  have hvalue : Nat.ofDigitChars 10 (Nat.toDigits 10 n) 0 = n := Nat.ofDigitChars_ten_toDigits
  have hlimit : Nat.ofDigitChars 10 (Nat.toDigits 10 n) 0 ≤ limit := by
    rw [hvalue]
    exact hn
  rw [Nat.toList_repr, readDigits_eq hdigits hlimit, hvalue]

theorem readInt_int {limit : Nat} {n : Int} (hlow : -(limit : Int) - 1 ≤ n) (hhigh : n ≤ limit) :
    readInt limit (int n).toList = .ok n := by
  obtain ⟨c, cs, hdigits⟩ : ∃ c cs, n.natAbs.repr.toList = c :: cs :=
    List.exists_cons_of_ne_nil (by rw [Nat.toList_repr]; exact Nat.toDigits_ne_nil)
  by_cases hneg : n < 0
  · have hread := readDigits_repr (n := n.natAbs) (limit + 1) .tooSmall (by omega)
    have htext : (int n).toList = '-' :: c :: cs := by simp [int, hneg, hdigits]
    rw [hdigits] at hread
    have hvalue : -(n.natAbs : Int) = n := by omega
    simp only [htext, readInt, hread]
    exact congrArg Except.ok hvalue
  · have hread := readDigits_repr (n := n.natAbs) limit .tooLarge (by omega)
    have htext : (int n).toList = c :: cs := by simp [int, hneg, hdigits]
    have hfirst : c.isDigit = true := by
      refine Nat.isDigit_of_mem_toDigits (b := 10) (n := n.natAbs) (by decide) (by decide) ?_
      rw [← Nat.toList_repr, hdigits]
      exact List.mem_cons_self
    have hplus : c ≠ '+' := by rintro rfl; cases hfirst
    have hminus : c ≠ '-' := by rintro rfl; cases hfirst
    rw [hdigits] at hread
    have hvalue : (n.natAbs : Int) = n := by omega
    simp [htext, readInt, hplus, hminus, hread, Except.map, hvalue]

/-! ### What is read as a whole number -/

theorem isDigit_of_digit? {c : Char} {d : Nat} (h : digit? c = some d) :
    c.isDigit = true ∧ d = c.toNat - '0'.toNat := by
  unfold digit? at h
  split at h
  · rename_i hc
    exact ⟨by simpa [Char.isDigit, Char.le_def] using hc, (Option.some.inj h).symm⟩
  · cases h

theorem readDigits_eq_ok_iff {limit acc n : Nat} {overflow : IntegerFault} {cs : List Char} (hacc : acc ≤ limit) :
    readDigits limit overflow acc cs = .ok n ↔
      (∀ c ∈ cs, c.isDigit = true) ∧ Nat.ofDigitChars 10 cs acc ≤ limit ∧ n = Nat.ofDigitChars 10 cs acc := by
  constructor
  · intro h
    induction cs generalizing acc with
    | nil => exact ⟨by simp, by simpa using hacc, by simpa [readDigits] using h.symm⟩
    | cons c cs ih =>
      rw [readDigits] at h
      split at h
      · cases h
      · rename_i d hd
        obtain ⟨hdigit, rfl⟩ := isDigit_of_digit? hd
        dsimp only at h
        split at h
        · cases h
        · rename_i hfits
          obtain ⟨hdigits, hlimit, hn⟩ := ih (Nat.le_of_not_lt hfits) h
          rw [Nat.ofDigitChars_cons]
          exact ⟨List.forall_mem_cons.2 ⟨hdigit, hdigits⟩, hlimit, hn⟩
  · rintro ⟨hdigits, hlimit, rfl⟩
    exact readDigits_eq hdigits hlimit

/-- A whole number from `-limit - 1` to `limit`: an optional sign and at least one digit. -/
def IsInt (limit : Nat) (s : String) : Prop :=
  ∃ sign digits, s.toList = sign ++ digits ∧ digits ≠ [] ∧ (∀ c ∈ digits, c.isDigit = true) ∧
    ((sign = [] ∨ sign = ['+']) ∧ Nat.ofDigitChars 10 digits 0 ≤ limit ∨
      sign = ['-'] ∧ Nat.ofDigitChars 10 digits 0 ≤ limit + 1)

/-- What is read as a whole number has a sign or none, and digits, and its value is that of the digits. -/
theorem readInt_cases {limit : Nat} {cs : List Char} {n : Int} (h : readInt limit cs = .ok n) :
    ∃ sign digits, cs = sign ++ digits ∧ digits ≠ [] ∧ (∀ c ∈ digits, c.isDigit = true) ∧
      ((sign = [] ∨ sign = ['+']) ∧ Nat.ofDigitChars 10 digits 0 ≤ limit ∧ n = Nat.ofDigitChars 10 digits 0 ∨
        sign = ['-'] ∧ Nat.ofDigitChars 10 digits 0 ≤ limit + 1 ∧ n = -(Nat.ofDigitChars 10 digits 0 : Int)) := by
  have hvalue {limit : Nat} {overflow : IntegerFault} {cs : List Char} {f : Nat → Int}
      (h : (readDigits limit overflow 0 cs).map f = .ok n) :
      (∀ c ∈ cs, c.isDigit = true) ∧ Nat.ofDigitChars 10 cs 0 ≤ limit ∧ n = f (Nat.ofDigitChars 10 cs 0) := by
    cases hread : readDigits limit overflow 0 cs with
    | error e => rw [hread] at h; cases h
    | ok m =>
      obtain ⟨hdigits, hlimit, rfl⟩ := (readDigits_eq_ok_iff (Nat.zero_le _)).1 hread
      rw [hread] at h
      exact ⟨hdigits, hlimit, (Except.ok.inj h).symm⟩
  unfold readInt at h
  split at h
  · cases h
  · cases h
  · cases h
  · rename_i rest hrest
    obtain ⟨hdigits, hlimit, hn⟩ := hvalue h
    exact ⟨['+'], rest, rfl, hrest, hdigits, .inl ⟨.inr rfl, hlimit, hn⟩⟩
  · rename_i rest hrest
    have hneg : (readDigits (limit + 1) .tooSmall 0 rest).map (fun m : Nat => -(m : Int)) = .ok n := by
      rw [← h]
      cases readDigits (limit + 1) .tooSmall 0 rest <;> rfl
    obtain ⟨hdigits, hlimit, hn⟩ := hvalue hneg
    exact ⟨['-'], rest, rfl, hrest, hdigits, .inr ⟨rfl, hlimit, hn⟩⟩
  · rename_i hne _ _ _ _
    obtain ⟨hdigits, hlimit, hn⟩ := hvalue h
    exact ⟨[], cs, rfl, hne, hdigits, .inl ⟨.inl rfl, hlimit, hn⟩⟩

theorem isInt_of_readInt {limit : Nat} {s : String} {n : Int} (h : readInt limit s.toList = .ok n) :
    IsInt limit s := by
  obtain ⟨sign, digits, hs, hne, hdigits, hvalue⟩ := readInt_cases h
  exact ⟨sign, digits, hs, hne, hdigits, hvalue.imp (And.imp_right And.left) (And.imp_right And.left)⟩

theorem readInt_bounds {limit : Nat} {cs : List Char} {n : Int} (h : readInt limit cs = .ok n) :
    -(limit : Int) - 1 ≤ n ∧ n ≤ limit := by
  obtain ⟨sign, digits, -, -, -, hvalue⟩ := readInt_cases h
  rcases hvalue with ⟨-, hlimit, rfl⟩ | ⟨-, hlimit, rfl⟩ <;> omega

theorem exists_readInt_eq_ok {limit : Nat} {s : String} (h : IsInt limit s) :
    ∃ n, readInt limit s.toList = .ok n := by
  obtain ⟨sign, digits, hs, hne, hall, hvalue⟩ := h
  obtain ⟨c, cs, rfl⟩ := List.exists_cons_of_ne_nil hne
  rw [hs]
  rcases hvalue with ⟨rfl | rfl, hlimit⟩ | ⟨rfl, hlimit⟩
  · have hplus : c ≠ '+' := by rintro rfl; cases hall _ List.mem_cons_self
    have hminus : c ≠ '-' := by rintro rfl; cases hall _ List.mem_cons_self
    have hread : readDigits limit .tooLarge 0 (c :: cs) = .ok _ := readDigits_eq hall hlimit
    refine ⟨Nat.ofDigitChars 10 (c :: cs) 0, ?_⟩
    simp [readInt, hplus, hminus, hread, Except.map]
  · have hread : readDigits limit .tooLarge 0 (c :: cs) = .ok _ := readDigits_eq hall hlimit
    refine ⟨Nat.ofDigitChars 10 (c :: cs) 0, ?_⟩
    simp [readInt, hread, Except.map]
  · have hread : readDigits (limit + 1) .tooSmall 0 (c :: cs) = .ok _ := readDigits_eq hall hlimit
    refine ⟨-(Nat.ofDigitChars 10 (c :: cs) 0 : Int), ?_⟩
    simp only [readInt, List.cons_append, List.nil_append, hread]
    rfl

/-! ### The characters of numbers -/

/-- The characters that no number has in its text. -/
def isForeign (c : Char) : Bool := !(c.isAlphanum || c == '.' || c == '-')

theorem isForeign_of_isLineEnd {c : Char} (h : Input.isLineEnd c = true) : isForeign c = true := by
  simp only [Input.isLineEnd, Bool.or_eq_true, decide_eq_true_eq] at h
  rcases h with rfl | rfl <;> decide

theorem lacks_repr (n : Nat) : Lacks isForeign n.repr := by
  intro c hc
  rw [Nat.toList_repr] at hc
  have hdigit := Nat.isDigit_of_mem_toDigits (by decide) (by decide) hc
  simp [isForeign, Char.isAlphanum, hdigit]

theorem lacks_int (n : Int) : Lacks isForeign (int n) := by
  unfold int
  split
  · exact lacks_append.2 ⟨by decide, lacks_repr _⟩
  · exact lacks_repr _

theorem lacks_padded (width n : Nat) : Lacks isForeign (padded width n) := by
  refine lacks_append.2 ⟨?_, lacks_repr n⟩
  intro c hc
  rw [String.toList_ofList] at hc
  obtain ⟨-, rfl⟩ := List.mem_replicate.1 hc
  decide

end Text

namespace Decimal

open Text (Lacks isForeign)

theorem lacks_writeUnits (places units : Nat) : Lacks isForeign (writeUnits places units) := by
  unfold writeUnits
  split
  · exact Text.lacks_repr _
  · exact Text.lacks_append.2 ⟨Text.lacks_append.2 ⟨Text.lacks_repr _, by decide⟩, Text.lacks_padded _ _⟩

theorem Layout.lacks_positional (l : Layout) (d : Digits) : Lacks isForeign (l.positional d) := by
  unfold Layout.positional
  split
  · simp only
    split
    · exact Text.lacks_append.2 ⟨Text.lacks_repr _, by decide⟩
    · exact Text.lacks_repr _
  · exact lacks_writeUnits _ _

/-- A plain number has letters only where it is none. -/
theorem lacks_plain (x : Float) : Lacks isForeign (plain x) := by
  unfold plain Layout.write
  split
  · decide
  · split <;> decide
  · rename_i negative m e _
    have htext : Lacks isForeign (if m = 0 then if Layout.plain.pointZero then "0.0" else "0"
        else Layout.plain.positional (shortest m e Layout.plain.tie)) := by
      split
      · decide
      · exact Layout.lacks_positional _ _
    have hfits (place : Int) :
        (Layout.plain.lowest.all (· ≤ place) && Layout.plain.highest.all (place ≤ ·)) = true := rfl
    simp only [hfits, if_true]
    split
    · exact Text.lacks_append.2 ⟨by decide, htext⟩
    · exact htext

end Decimal
end IngestBench
