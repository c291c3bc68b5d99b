import IngestBench.Proofs.Addresses

/-! Hosts with blanks at their end. No host has any: a blank is no character of a domain name, no digit of a port, and
    it does not close the brackets of a numeric address. Reading undoes escapes, brings letters to lower case and
    gives labels their ASCII form, and a blank outlives all of this. -/

namespace IngestBench
namespace Web

variable {c : Char} {cs blanks : List Char} {scheme : String}

/-! ### Bytes -/

/-- A byte of ASCII occurs in no other character. -/
theorem toNat_of_mem_utf8EncodeChar {b : UInt8} (h : b ∈ String.utf8EncodeChar c) (hascii : b.toNat < 0x80) :
    c.toNat = b.toNat := by
  refine Classical.byContradiction fun hne => absurd h ?_
  have hval : c.val.toNat ≠ b.toNat := hne
  fun_cases String.utf8EncodeChar <;> simp [← UInt8.toNat_inj] <;> omega

/-- The bytes of a text that is read hold no byte of ASCII that is no character of it. -/
theorem mem_of_fromUTF8? {bytes : List UInt8} {text : String}
    (h : String.fromUTF8? (ByteArray.mk bytes.toArray) = some text) (hascii : c.toNat < 0x80)
    (hc : UInt8.ofNat c.toNat ∈ bytes) : c ∈ text.toList := by
  have hbytes : bytes = Input.encoded text.toList := by
    rw [String.fromUTF8?] at h
    split at h
    · rename_i hvalid
      cases h
      exact Input.toUTF8_eq_encoded (String.fromUTF8 ⟨bytes.toArray⟩ hvalid)
    · cases h
  obtain ⟨d, hd, hmem⟩ := List.mem_flatMap.1 (hbytes ▸ hc)
  have hbyte : (UInt8.ofNat c.toNat).toNat = c.toNat := by
    rw [UInt8.toNat_ofNat']
    omega
  have heq := toNat_of_mem_utf8EncodeChar hmem (by omega)
  rwa [← Char.toNat_inj.1 (heq.trans hbyte)]

/-- A character of ASCII that is part of no escape is a byte of the text with its escapes undone. -/
theorem mem_unescape (h : c ∈ cs) (hascii : c.toNat < 0x80) (hmark : c ≠ '%') (hdigit : Text.hexDigit? c = none) :
    UInt8.ofNat c.toNat ∈ unescape cs := by
  have hbyte : (String.singleton c).toUTF8.toList = [UInt8.ofNat c.toNat] :=
    Text.forall_of_toNat_lt (P := fun c => (String.singleton c).toUTF8.toList = [UInt8.ofNat c.toNat])
      (by decide +kernel) hascii
  fun_induction unescape cs with
  | case1 => cases h
  | case2 a b cs x y hb ha ih =>
    refine List.mem_cons_of_mem _ (ih ?_)
    simp only [List.mem_cons] at h
    rcases h with h | rfl | rfl | h
    · exact absurd h hmark
    · rw [hdigit] at ha
      cases ha
    · rw [hdigit] at hb
      cases hb
    · exact h
  | case3 a b cs hno ih =>
    exact List.mem_cons_of_mem _ (ih ((List.mem_cons.1 h).resolve_left hmark))
  | case4 d cs hd ih =>
    rcases List.mem_cons.1 h with rfl | h
    · rw [hbyte]
      exact List.mem_cons_self
    · exact List.mem_append_right _ (ih h)

/-! ### Labels -/

/-- A pass over a label writes behind what is written. -/
theorem LabelState.out_prefix_pass (basic n : Nat) (label : List Nat) (s : LabelState) :
    s.out <+: (s.pass basic n label).out := by
  rw [LabelState.pass]
  induction label generalizing s with
  | nil => exact List.prefix_refl _
  | cons point label ih =>
    rw [List.foldl_cons]
    refine List.IsPrefix.trans ?_ (ih _)
    split
    · exact List.prefix_refl _
    · split
      · exact List.prefix_append _ _
      · exact List.prefix_refl _

/-- The ASCII characters of a label are in its ASCII form. -/
theorem mem_asciiLabel (h : c ∈ cs) (hascii : c.toNat < 0x80) : c ∈ asciiLabel cs := by
  rw [asciiLabel]
  split
  · exact h
  · refine List.mem_append_right _ ?_
    -- What is written for the characters beyond ASCII stands behind them.
    refine List.foldlRecOn (motive := fun s : LabelState × Nat => c ∈ s.1.out) _ _ ?_ ?_
    · exact List.mem_append_left _ (List.mem_filter.2 ⟨h, decide_eq_true hascii⟩)
    · rintro ⟨s, n⟩ hs point -
      exact (LabelState.out_prefix_pass (cs.filter (·.toNat < 0x80)).length point (cs.map Char.toNat)
        { s with delta := s.delta + (point - n) * (s.handled + 1) }).mem hs

theorem mem_of_asciiLabel? {label : List Char} (hlabel : asciiLabel? cs = some label) (h : c ∈ cs)
    (hascii : c.toNat < 0x80) : c ∈ label := by
  have heq : label = asciiLabel cs := by
    unfold asciiLabel? at hlabel
    split at hlabel
    · split at hlabel
      · cases hlabel
      · exact (Option.some.inj hlabel).symm
    · obtain ⟨text, -, hlabel⟩ := Option.bind_eq_some_iff.1 hlabel
      dsimp only at hlabel
      split at hlabel
      · cases hlabel
      · split at hlabel
        · cases hlabel
        · exact (Option.some.inj hlabel).symm
  exact heq ▸ mem_asciiLabel h hascii

theorem exists_mem_of_mapM {α β : Type} {f : α → Option β} {xs : List α} {ys : List β} {x : α}
    (h : xs.mapM f = some ys) (hx : x ∈ xs) : ∃ y ∈ ys, f x = some y := by
  induction xs generalizing ys with
  | nil => cases hx
  | cons first xs ih =>
    rw [List.mapM_cons] at h
    obtain ⟨y, hy, h⟩ := Option.bind_eq_some_iff.1 h
    obtain ⟨others, hothers, h⟩ := Option.bind_eq_some_iff.1 h
    cases h
    rcases List.mem_cons.1 hx with rfl | hx
    · exact ⟨y, List.mem_cons_self, hy⟩
    · obtain ⟨z, hz, hf⟩ := ih hothers hx
      exact ⟨z, List.mem_cons_of_mem _ hz, hf⟩

theorem mem_intercalate {labels : List (List Char)} {label : List Char} (sep : List Char) (h : label ∈ labels)
    (hc : c ∈ label) : c ∈ sep.intercalate labels := by
  induction labels with
  | nil => cases h
  | cons first rest ih =>
    cases rest with
    | nil =>
      rw [List.mem_singleton.1 h] at hc
      simpa using hc
    | cons second rest =>
      rw [List.intercalate_cons_cons]
      rcases List.mem_cons.1 h with rfl | h
      · simp [hc]
      · simp [ih h]

/-! ### Hosts -/

/-- What becomes of a blank in a host, and in a port. -/
structure Refused (c : Char) : Prop where
  ascii : c.toNat < 0x80
  mark : c ≠ '%'
  point : c ≠ '.'
  hexDigit : Text.hexDigit? c = none
  lower : lowerLetter c = c
  forbidden : forbiddenInDomain c = true
  digit : c.isDigit = false

theorem refused_of_isOuter (h : isOuter c = true) : Refused c := by
  obtain ⟨hascii, hmark, hpoint, hhex, hlower, hforbidden, hdigit⟩ := Text.forall_of_toNat_lt
    (P := fun c => c.toNat < 0x80 ∧ c ≠ '%' ∧ c ≠ '.' ∧ Text.hexDigit? c = none ∧ lowerLetter c = c ∧
      forbiddenInDomain c = true ∧ c.isDigit = false)
    (by decide +kernel) (Nat.lt_succ_of_le (of_decide_eq_true h))
  exact ⟨hascii, hmark, hpoint, hhex, hlower, hforbidden, hdigit⟩

/-- A host that is not in brackets holds no blanks. -/
theorem exists_read_eq_error (h : c ∈ cs) (hc : isOuter c = true) (hopen : cs.head? ≠ some '[') :
    ∃ fault, Host.read cs = .error fault := by
  have hrefused := refused_of_isOuter hc
  unfold Host.read
  split
  · exact absurd rfl hopen
  · split
    · exact ⟨_, rfl⟩
    · rename_i text htext
      have htextMem : c ∈ text.toList := mem_of_fromUTF8? htext hrefused.ascii
        (mem_unescape h hrefused.ascii hrefused.mark hrefused.hexDigit)
      have hlowerMem : c ∈ text.toList.map lowerLetter := List.mem_map.2 ⟨c, htextMem, hrefused.lower⟩
      obtain ⟨piece, hpiece, hpieceMem⟩ := Text.exists_mem_splitChars hlowerMem hrefused.point
      split
      · exact ⟨_, rfl⟩
      · rename_i labels hlabels
        obtain ⟨label, hlabel, hascii⟩ := exists_mem_of_mapM hlabels hpiece
        have hlabelMem := mem_of_asciiLabel? hascii hpieceMem hrefused.ascii
        have hname := mem_intercalate ['.'] hlabel hlabelMem
        dsimp only
        rw [if_pos (List.any_eq_true.2 ⟨c, hname, hrefused.forbidden⟩)]
        exact ⟨_, rfl⟩

/-- A host with a blank at its end is refused. -/
theorem exists_read_concat_eq_error (hc : isOuter c = true) (cs : List Char) :
    ∃ fault, Host.read (cs ++ [c]) = .error fault := by
  by_cases hopen : (cs ++ [c]).head? = some '['
  · cases cs with
    | nil =>
      cases hopen
      cases hc
    | cons d rest =>
      cases hopen
      have hlast : ((rest ++ [c]).getLast? == some ']') = false := by
        rw [List.getLast?_concat]
        refine beq_false_of_ne fun heq => ?_
        cases heq
        cases hc
      refine ⟨.addressV6, ?_⟩
      rw [List.cons_append, Host.read, hlast]
      rfl
  · exact exists_read_eq_error (List.mem_append_right _ List.mem_cons_self) hc hopen

theorem readPort_concat_eq_error (scheme : String) (hc : isOuter c = true) (cs : List Char) :
    readPort scheme (cs ++ [c]) = .error .port := by
  have hdigits : (cs ++ [c]).all Char.isDigit = false := by
    rw [List.all_append, List.all_cons, (refused_of_isOuter hc).digit, Bool.false_and, Bool.and_false]
  rw [readPort, if_neg (by simp), hdigits]
  rfl

/-! ### Authorities -/

theorem splitLastAt_append (hblanks : '@' ∉ blanks) (cs : List Char) :
    splitLastAt (cs ++ blanks) = (splitLastAt cs).map fun (info, rest) => (info, rest ++ blanks) := by
  have hothers : ∀ d ∈ blanks.reverse, (d != '@') = true := by
    intro d hd
    exact bne_iff_ne.2 fun heq => hblanks (heq ▸ List.mem_reverse.1 hd)
  simp only [splitLastAt, List.span_eq_takeWhile_dropWhile, List.reverse_append,
    List.takeWhile_append_of_pos hothers, List.dropWhile_append_of_pos hothers]
  cases cs.reverse.dropWhile (· != '@') with
  | nil => rfl
  | cons d rest => simp

theorem splitPort_of_not_mem (inside : Bool) (h : ':' ∉ cs) : splitPort inside cs = (cs, none) := by
  induction cs generalizing inside with
  | nil => rfl
  | cons d cs ih =>
    obtain ⟨hd, hcs⟩ := List.ne_and_not_mem_of_not_mem_cons h
    rw [splitPort, if_neg fun hport => hd hport.1.symm, ih _ hcs]

/-- A text without colons goes to the port if there is one, and to the host if there is none. -/
theorem splitPort_append (hblanks : ':' ∉ blanks) (inside : Bool) (cs : List Char) :
    splitPort inside (cs ++ blanks) = match splitPort inside cs with
      | (host, some port) => (host, some (port ++ blanks))
      | (host, none) => (host ++ blanks, none) := by
  induction cs generalizing inside with
  | nil => exact splitPort_of_not_mem inside hblanks
  | cons d cs ih =>
    rw [List.cons_append, splitPort, splitPort]
    split
    · rfl
    · rw [ih]
      cases splitPort (if d = '[' then true else if d = ']' then false else inside) cs with
      | mk host port => cases port <;> rfl

/-- The part of an authority that names host and port. -/
def hostPart (cs : List Char) : List Char :=
  match splitLastAt cs with
  | some (_, rest) => rest
  | none => cs

theorem of_readAuthority_eq_ok {authority : Authority} (hweb : IsWeb scheme)
    (h : readAuthority scheme cs = .ok authority) :
    (∃ host, Host.read (splitPort false (hostPart cs)).1 = .ok host) ∧
      ∀ text ∈ (splitPort false (hostPart cs)).2, ∃ port, readPort scheme text = .ok port := by
  have hspecial : isSpecial scheme = true := by
    rcases hweb with rfl | rfl <;> decide
  unfold readAuthority at h
  rw [hspecial] at h
  rw [hostPart]
  -- With credentials and without them, host and port are read alike.
  generalize splitLastAt cs = cut at h ⊢
  rcases cut with _ | ⟨info, rest⟩
  all_goals
    dsimp only at h ⊢
    generalize splitPort false _ = parts at h ⊢
    obtain ⟨hostText, portText⟩ := parts
    split at h
    · cases h
    split at h
    · cases h
    rw [if_pos rfl] at h
    dsimp only at h ⊢
    cases hhost : Host.read hostText with
    | error fault =>
      rw [hhost] at h
      cases h
    | ok host =>
      refine ⟨⟨host, rfl⟩, fun text htext => ?_⟩
      cases htext
      rw [hhost] at h
      dsimp only [bind, Except.bind] at h
      split at h
      · cases h
      cases hport : readPort scheme text with
      | error fault =>
        rw [hport] at h
        cases h
      | ok port => exact ⟨port, rfl⟩

theorem hostPart_concat (hc : isOuter c = true) (cs : List Char) : hostPart (cs ++ [c]) = hostPart cs ++ [c] := by
  have hat : '@' ∉ [c] := by
    intro h
    rw [← List.mem_singleton.1 h] at hc
    cases hc
  rw [hostPart, hostPart, splitLastAt_append hat]
  cases splitLastAt cs <;> rfl

/-- An authority with a blank at its end is refused. -/
theorem exists_readAuthority_eq_error (hweb : IsWeb scheme) (hc : isOuter c = true) (cs : List Char) :
    ∃ fault, readAuthority scheme (cs ++ [c]) = .error fault := by
  cases h : readAuthority scheme (cs ++ [c]) with
  | error fault => exact ⟨fault, rfl⟩
  | ok authority =>
    exfalso
    have hcolon : ':' ∉ [c] := by
      intro h
      rw [← List.mem_singleton.1 h] at hc
      cases hc
    obtain ⟨⟨host, hhost⟩, hport⟩ := of_readAuthority_eq_ok hweb h
    rw [hostPart_concat hc, splitPort_append hcolon] at hhost hport
    generalize splitPort false (hostPart cs) = parts at hhost hport
    rcases parts with ⟨hostText, _ | portText⟩
    · obtain ⟨fault, hfault⟩ := exists_read_concat_eq_error hc hostText
      cases hhost.symm.trans hfault
    · obtain ⟨port, hread⟩ := hport _ rfl
      cases hread.symm.trans (readPort_concat_eq_error scheme hc portText)

end Web
end IngestBench
