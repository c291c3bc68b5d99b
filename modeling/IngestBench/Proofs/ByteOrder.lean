import IngestBench.Proofs.LineText

/-! The order of texts is the order of their bytes: characters have their bytes in the order of their codes, and none of
    them begins with the bytes of another. -/

namespace IngestBench
namespace Text

open Input (encoded)

theorem append_lt_append (front : List UInt8) {bytes others : List UInt8} (h : bytes < others) :
    front ++ bytes < front ++ others := by
  induction front with
  | nil => exact h
  | cons b front ih => exact List.cons_lt_cons_iff.2 (.inr ⟨rfl, ih⟩)

/-- The lesser of two codes has the lesser digit where the digits to the base 64 first differ. -/
theorem digits_lt {m n : Nat} (h : m < n) (hn : n < 1114112) :
    m / 262144 % 8 < n / 262144 % 8 ∨ m / 262144 % 8 = n / 262144 % 8 ∧
      (m / 4096 % 64 < n / 4096 % 64 ∨ m / 4096 % 64 = n / 4096 % 64 ∧
        (m / 64 % 64 < n / 64 % 64 ∨ m / 64 % 64 = n / 64 % 64 ∧ m % 64 < n % 64)) := by
  have hm' : m / 262144 % 8 = m / 262144 := Nat.mod_eq_of_lt (by omega)
  have hn' : n / 262144 % 8 = n / 262144 := Nat.mod_eq_of_lt (by omega)
  omega

theorem utf8EncodeChar_lt {c d : Char} (h : c < d) (rest others : List UInt8) :
    String.utf8EncodeChar c ++ rest < String.utf8EncodeChar d ++ others := by
  have hlt : c.val.toNat < d.val.toNat := h
  have hd : d.val.toNat < 1114112 := by
    rcases d.valid with hd | ⟨-, hd⟩
    · exact Nat.lt_trans hd (by decide)
    · exact hd
  have hdigits := digits_lt hlt hd
  have hbyte (m n : Nat) (hm : m < 256) (hn : n < 256) : UInt8.ofNat m < UInt8.ofNat n ↔ m < n := by
    rw [UInt8.lt_iff_toNat_lt, UInt8.toNat_ofNat', UInt8.toNat_ofNat', Nat.mod_eq_of_lt hm, Nat.mod_eq_of_lt hn]
  have hsame (m n : Nat) (hm : m < 256) (hn : n < 256) : UInt8.ofNat m = UInt8.ofNat n ↔ m = n := by
    rw [← UInt8.toNat_inj, UInt8.toNat_ofNat', UInt8.toNat_ofNat', Nat.mod_eq_of_lt hm, Nat.mod_eq_of_lt hn]
  unfold String.utf8EncodeChar
  dsimp only
  generalize c.val.toNat = m at hlt hdigits
  generalize d.val.toNat = n at hlt hd hdigits
  -- with as many bytes on both sides the digits decide, and otherwise the first byte tells how many there are
  repeat' split
  all_goals simp (disch := omega) only [List.cons_append, List.nil_append, List.cons_lt_cons_iff, hbyte, hsame]
  all_goals omega

theorem encoded_lt {cs ds : List Char} (h : cs < ds) : encoded cs < encoded ds := by
  induction cs generalizing ds with
  | nil =>
    cases ds with
    | nil => cases h
    | cons d ds =>
      obtain ⟨b, bytes, hd⟩ := List.exists_cons_of_ne_nil (String.utf8EncodeChar_ne_nil (c := d))
      rw [encoded, encoded, List.flatMap_cons, hd]
      exact List.nil_lt_cons _ _
  | cons c cs ih =>
    cases ds with
    | nil => cases h
    | cons d ds =>
      rw [encoded, encoded, List.flatMap_cons, List.flatMap_cons]
      rcases List.cons_lt_cons_iff.1 h with hlt | ⟨rfl, hlt⟩
      · exact utf8EncodeChar_lt hlt _ _
      · exact append_lt_append _ (ih hlt)

/-- The lesser text has the lesser bytes. -/
theorem bytes_lt {s t : String} (h : s < t) : s.toUTF8.data.toList < t.toUTF8.data.toList := by
  rw [Input.toUTF8_eq_encoded, Input.toUTF8_eq_encoded]
  exact encoded_lt (String.lt_iff.1 h)

end Text
end IngestBench
