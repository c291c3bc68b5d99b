import IngestBench.Proofs.HostBlanks
import IngestBench.Target.Endpoint

/-! Where a path goes that is put behind a base. The two texts are joined before they are read, so the path goes
    wherever the text of the base ends: to its query or its fragment, if it has one, or behind blanks that reading
    would have cut off. It is appended to the path of exactly those bases whose text ends in their path. -/

namespace IngestBench
namespace Web

variable {base path : String} {scheme : String} {cs front rest more names blanks : List Char} {slashes : Nat}
  {a : Address}

/-! ### Paths for batches -/

/-- Letters and digits of ASCII, underscores, hyphens and slashes. -/
def isPathChar (c : Char) : Bool := c.isAlphanum || c == '_' || c == '-' || c == '/'

/-- A path of names behind single slashes; it may end in one. -/
structure IsWritePath (path : String) : Prop where
  slash : path.toList.head? = some '/'
  chars : ∀ c ∈ path.toList, isPathChar c = true
  single : ¬['/', '/'] <:+: path.toList

theorem IsWritePath.exists_names (h : IsWritePath path) : ∃ names, path.toList = '/' :: names ∧
    Text.dropStart (· == '/') path.toList = names ∧ names.head? ≠ some '/' ∧ ∀ c ∈ names, isPathChar c = true := by
  obtain ⟨names, hnames⟩ := List.head?_eq_some_iff.1 h.slash
  have hhead : names.head? ≠ some '/' := by
    intro hslash
    obtain ⟨others, rfl⟩ := List.head?_eq_some_iff.1 hslash
    exact h.single ⟨[], others, by rw [hnames]; rfl⟩
  refine ⟨names, hnames, ?_, hhead, fun c hc => h.chars c (hnames ▸ List.mem_cons_of_mem _ hc)⟩
  rw [hnames, Text.dropStart, List.dropWhile_cons_of_pos (by rfl)]
  cases names with
  | nil => rfl
  | cons c others => exact List.dropWhile_cons_of_neg (by simpa using hhead)

/-- What reading does to the characters of a path for batches: nothing. -/
structure Inert (c : Char) : Prop where
  stays : StaysInPath c
  outer : isOuter c = false
  backslash : c ≠ '\\'
  query : c ≠ '?'
  fragment : c ≠ '#'
  dot : isDotMark c.toLower = false

theorem inert_of_isPathChar {c : Char} (h : isPathChar c = true) : Inert c := by
  have hascii : c.toNat < 0x80 := by
    have hranges : ((decide (65 ≤ c.val ∧ c.val ≤ 90) || decide (97 ≤ c.val) && decide (c.val ≤ 122)) ||
        decide (48 ≤ c.val) && decide (c.val ≤ 57) || c == '_' || c == '-' || c == '/') = true := h
    simp only [Bool.or_eq_true, Bool.and_eq_true, decide_eq_true_eq, beq_iff_eq, UInt32.le_iff_toNat_le,
      Char.toNat_val, UInt32.reduceToNat, ← Char.toNat_inj, Char.reduceToNat] at hranges
    omega
  obtain ⟨hencodes, houter, hbackslash, hquery, hfragment, hdot⟩ := Text.forall_of_toNat_lt
    (P := fun c => isPathChar c = true → Part.path.encodes c = false ∧ isOuter c = false ∧ c ≠ '\\' ∧ c ≠ '?' ∧
      c ≠ '#' ∧ isDotMark c.toLower = false)
    (by decide +kernel) hascii h
  exact ⟨⟨hascii, hencodes⟩, houter, hbackslash, hquery, hfragment, hdot⟩

theorem routeText_names (h : ∀ c ∈ names, isPathChar c = true) : routeText (segmentTexts names) = '/' :: names :=
  routeText_segmentTexts fun c hc => (inert_of_isPathChar (h c hc)).stays

theorem plain_names (h : ∀ c ∈ names, isPathChar c = true) : ∀ s ∈ segmentTexts names, isDot s = false := by
  intro s hs
  refine Bool.eq_false_iff.2 fun hdot => ?_
  obtain ⟨c, hc, hmark⟩ := (of_isDot hdot).1
  have hmem : c ∈ '/' :: names := by
    rw [← routeText_names h]
    exact List.mem_flatMap.2 ⟨s, hs, List.mem_cons_of_mem _ hc⟩
  rcases List.mem_cons.1 hmem with rfl | hmem
  · cases hmark
  · exact Bool.eq_false_iff.1 (inert_of_isPathChar (h c hmem)).dot hmark

/-! ### Accepted bases -/

theorem url_eq_ok_iff {field value : String} : Config.Check.url field value = .ok () ↔
    value.isEmpty = false ∧ ∃ a, Address.read value = .ok a ∧ IsWeb a.scheme := by
  rw [Config.Check.url]
  split
  · rename_i hempty
    rw [hempty]
    exact ⟨fun h => (by cases h), fun h => (by cases h.1)⟩
  · rename_i hempty
    rw [Bool.eq_false_iff.2 hempty]
    split
    · rename_i fault hread
      exact ⟨fun h => (by cases h), fun ⟨_, a, ha, _⟩ => (by cases hread.symm.trans ha)⟩
    · rename_i a hread
      split
      · rename_i hweb
        exact ⟨fun _ => ⟨rfl, a, hread, hweb⟩, fun _ => rfl⟩
      · rename_i hother
        refine ⟨fun h => (by cases h), ?_⟩
        rintro ⟨-, b, hb, hweb⟩
        obtain rfl := Except.ok.inj (hread.symm.trans hb)
        exact absurd hweb hother

theorem exists_readScheme_of_read (h : Address.read base = .ok a) :
    ∃ rest, readScheme (tidy base.toList) = some (a.scheme, rest) := by
  rw [Address.read] at h
  cases hscheme : readScheme (tidy base.toList) with
  | none =>
    rw [hscheme] at h
    cases h
  | some read =>
    obtain ⟨scheme, rest⟩ := read
    rw [hscheme] at h
    dsimp only [bind, Except.bind] at h
    refine ⟨rest, ?_⟩
    split at h
    · split at h
      · cases h
      · cases h
        rfl
    · split at h
      · split at h
        · cases h
        · cases h
          rfl
      · split at h
        · split at h
          · cases h
          · cases h
            rfl
        · cases h
          rfl
        · cases h
          rfl

/-! ### Texts behind a base -/

/-- The text has neither query nor fragment. -/
def NoTail (cs : List Char) : Prop := '?' ∉ cs ∧ '#' ∉ cs

theorem noTail_append : NoTail (cs ++ more) ↔ NoTail cs ∧ NoTail more := by
  simp only [NoTail, List.mem_append, not_or]
  exact and_and_and_comm

theorem bodyText_of_noTail (h : NoTail rest) : bodyText rest = rest.dropWhile isSlash := by
  rw [bodyText, splitTail_of_plain h.1 h.2]

theorem bodyText_append (h : NoTail (rest ++ more)) (hbody : bodyText rest ≠ []) :
    bodyText (rest ++ more) = bodyText rest ++ more := by
  rw [bodyText_of_noTail (noTail_append.1 h).1] at hbody ⊢
  rw [bodyText_of_noTail h, List.dropWhile_append, if_neg (by rwa [List.isEmpty_iff])]

/-- What starts with a slash goes to the path, and everything does where there is a path. -/
theorem texts_append (h : NoTail (rest ++ more)) (hbody : bodyText rest ≠ [])
    (hmore : pathText rest ≠ [] ∨ IsRooted more) :
    authorityText (rest ++ more) = authorityText rest ∧ pathText (rest ++ more) = pathText rest ++ more := by
  have hpath : pathText (rest ++ more) = pathText rest ++ more := by
    rw [pathText, bodyText_append h hbody, List.dropWhile_append]
    split
    · rename_i hempty
      have hnone : pathText rest = [] := List.isEmpty_iff.1 hempty
      have hrooted := hmore.resolve_left (absurd hnone)
      rw [hnone, List.nil_append]
      cases more with
      | nil => rfl
      | cons c more => exact List.dropWhile_cons_of_neg (by simp [hrooted c rfl])
    · rfl
  have hwhole : authorityText (rest ++ more) ++ pathText (rest ++ more) = bodyText (rest ++ more) :=
    List.takeWhile_append_dropWhile
  have hstart : authorityText rest ++ pathText rest = bodyText rest := List.takeWhile_append_dropWhile
  rw [hpath, bodyText_append h hbody, ← hstart, List.append_assoc] at hwhole
  exact ⟨List.append_cancel_right hwhole, hpath⟩

/-- Where there is no path, what has no slash goes to the authority. -/
theorem authorityText_append (h : NoTail (rest ++ more)) (hbody : bodyText rest ≠ []) (hpath : pathText rest = [])
    (hmore : ∀ c ∈ more, isSlash c = false) : authorityText (rest ++ more) = authorityText rest ++ more := by
  have hplain : ∀ c ∈ bodyText rest ++ more, (!isSlash c) = true := by
    intro c hc
    rcases List.mem_append.1 hc with hc | hc
    · exact List.dropWhile_eq_nil_iff.1 hpath c hc
    · rw [hmore c hc]
      rfl
  rw [authorityText, bodyText_append h hbody, List.takeWhile_eq_self_iff.2 hplain, authorityText,
    List.takeWhile_eq_self_iff.2 fun c hc => hplain c (List.mem_append_left _ hc)]

theorem isRooted_pathText (rest : List Char) : IsRooted (pathText rest) := by
  intro c hc
  have hfirst := List.head?_dropWhile_not (!isSlash ·) (bodyText rest)
  rw [← pathText, hc] at hfirst
  simpa using hfirst

theorem noTail_of_forall (hquery : ∀ c ∈ cs, c ≠ '?') (hfragment : ∀ c ∈ cs, c ≠ '#') : NoTail cs :=
  ⟨fun hmem => hquery _ hmem rfl, fun hmem => hfragment _ hmem rfl⟩

theorem noTail_slashes (n : Nat) : NoTail (List.replicate n '/') := by
  simp [NoTail, List.mem_replicate]

theorem noTail_names (h : ∀ c ∈ names, isPathChar c = true) : NoTail ('/' :: names) :=
  noTail_append.2 ⟨noTail_slashes 1, noTail_of_forall (fun c hc => (inert_of_isPathChar (h c hc)).query)
    fun c hc => (inert_of_isPathChar (h c hc)).fragment⟩

theorem noTail_blanks (h : ∀ c ∈ blanks, isOuter c = true) : NoTail blanks := by
  refine noTail_of_forall (fun c hc heq => ?_) fun c hc heq => ?_ <;>
  · have houter := h c hc
    rw [heq] at houter
    cases houter

theorem isRooted_cons (names : List Char) : IsRooted ('/' :: names) := by
  rintro c ⟨⟩
  rfl

theorem isRooted_slashes (n : Nat) : IsRooted (List.replicate n '/') := by
  cases n with
  | zero => rintro c ⟨⟩
  | succ n => exact isRooted_cons _

theorem webAddress_of_noTail (h : NoTail rest) (scheme : String) (authority : Authority) :
    webAddress scheme rest authority =
      ⟨scheme, some authority, .segments (readSegments true (pathText rest)), none, none⟩ := by
  rw [webAddress, splitTail_of_plain h.1 h.2]
  rfl

/-! ### Joined texts -/

theorem exists_of_map_eq_ok {ε α β : Type} {result : Except ε α} {f : α → β} {b : β} (h : result.map f = .ok b) :
    ∃ a, result = .ok a ∧ b = f a := by
  cases result with
  | error e => cases h
  | ok a => exact ⟨a, rfl, (Except.ok.inj h).symm⟩

/-- The address of a web service, with the parts that its text has when more is put behind it. -/
structure Base (base : String) (a : Address) (authority : Authority) (front rest blanks : List Char)
    (slashes : Nat) : Prop where
  web : IsWeb a.scheme
  outline : Outline base.toList front blanks slashes
  scheme : readScheme front = some (a.scheme, rest)
  reads : readAuthority a.scheme (authorityText (rest ++ List.replicate slashes '/')) = .ok authority
  address : a = webAddress a.scheme (rest ++ List.replicate slashes '/') authority

theorem exists_base (h : Address.read base = .ok a) (hweb : IsWeb a.scheme) :
    ∃ authority front rest blanks slashes, Base base a authority front rest blanks slashes := by
  obtain ⟨after, hscheme⟩ := exists_readScheme_of_read h
  obtain ⟨c, name, htidy, halpha, -⟩ := readScheme_eq_some_iff.1 hscheme
  have hstem : Text.dropStart isOuter (Text.dropEnd (· == '/') base.toList) ≠ [] := by
    have hmem : c ∈ base.toList := mem_of_mem_tidy (htidy ▸ List.mem_cons_self)
    obtain ⟨tail, hsplit, htail⟩ := Text.exists_dropEnd_append (· == '/') base.toList
    intro hnone
    rw [hsplit] at hmem
    rcases List.mem_append.1 hmem with hmem | hmem
    · have houter := List.dropWhile_eq_nil_iff.1 hnone c hmem
      have hletter : isPathChar c = true := by simp [isPathChar, Char.isAlphanum, halpha]
      exact absurd houter (Bool.eq_false_iff.1 (inert_of_isPathChar hletter).outer)
    · rw [beq_iff_eq.1 (htail c hmem)] at halpha
      cases halpha
  obtain ⟨front, blanks, slashes, houtline⟩ := exists_outline hstem
  rw [houtline.alone] at hscheme
  obtain ⟨rest, hfront, rfl⟩ := exists_readScheme_of_append (by simp [List.mem_replicate]) hscheme
  rw [read_eq (houtline.alone ▸ hscheme) hweb] at h
  cases hauthority : readAuthority a.scheme (authorityText (rest ++ List.replicate slashes '/')) with
  | error fault =>
    rw [hauthority] at h
    cases h
  | ok authority =>
    rw [hauthority] at h
    exact ⟨authority, front, rest, blanks, slashes, hweb, houtline, hfront, hauthority, (Except.ok.inj h).symm⟩

namespace Base

variable {authority : Authority}

theorem bodyText_ne_nil (h : Base base a authority front rest blanks slashes) (hnoTail : NoTail rest) :
    bodyText rest ≠ [] := by
  intro hnone
  have hslashes : ∀ c ∈ rest ++ List.replicate slashes '/', isSlash c = true := by
    rw [bodyText_of_noTail hnoTail] at hnone
    intro c hc
    rcases List.mem_append.1 hc with hc | hc
    · exact List.dropWhile_eq_nil_iff.1 hnone c hc
    · rw [List.eq_of_mem_replicate hc]
      rfl
  have hempty : authorityText (rest ++ List.replicate slashes '/') = [] := by
    have hplain : NoTail (rest ++ List.replicate slashes '/') :=
      noTail_append.2 ⟨hnoTail, by simp [List.mem_replicate], by simp [List.mem_replicate]⟩
    rw [authorityText, bodyText_of_noTail hplain, List.dropWhile_eq_nil_iff.2 hslashes, List.takeWhile_nil]
  have hreads := h.reads
  rw [hempty] at hreads
  obtain ⟨⟨host, hhost⟩, -⟩ := of_readAuthority_eq_ok h.web hreads
  have hnoHost : Host.read [] = .error .emptyHost := by
    rfl
  cases hnoHost.symm.trans hhost

/-- A path behind the base is read as a part of its text. -/
theorem read_joinText (h : Base base a authority front rest blanks slashes)
    (hpath : Text.dropStart (· == '/') path.toList = names) (hnames : ∀ c ∈ names, isPathChar c = true) :
    Address.read (joinText base path) =
      (readAuthority a.scheme (authorityText (rest ++ (blanks ++ '/' :: names)))).map
        (webAddress a.scheme (rest ++ (blanks ++ '/' :: names))) := by
  have hinert : ∀ c ∈ '/' :: names, isOuter c = false := by
    intro c hc
    rcases List.mem_cons.1 hc with rfl | hc
    · rfl
    · exact (inert_of_isPathChar (hnames c hc)).outer
  have htext : (joinText base path).toList = Text.dropEnd (· == '/') base.toList ++ '/' :: names := by
    rw [joinText, hpath]
    simp
  have hlast : ∃ c ∈ ('/' :: names).getLast?, isOuter c = false :=
    ⟨_, List.getLast?_eq_some_getLast (List.cons_ne_nil _ _), hinert _ (List.getLast_mem _)⟩
  have htidy : tidy (joinText base path).toList = front ++ (blanks ++ '/' :: names) := by
    rw [htext, h.outline.continued _ (fun c hc => isIgnored_of_isOuter (hinert c hc)) hlast, List.append_assoc]
  exact read_eq (htidy ▸ readScheme_append h.scheme _) h.web

/-- Characters that neither scheme nor slashes nor blanks hold are in the text behind the scheme. -/
theorem mem_rest_iff {c : Char} (h : Base base a authority front rest blanks slashes) (houter : isOuter c = false)
    (hscheme : isSchemeChar c = false) (hcolon : c ≠ ':') (hslash : c ≠ '/') : c ∈ rest ↔ c ∈ base.toList := by
  obtain ⟨d, name, hfront, halpha, hname, -⟩ := readScheme_eq_some_iff.1 h.scheme
  have htidy : c ∈ tidy base.toList ↔ c ∈ base.toList := ⟨mem_of_mem_tidy, fun hmem => mem_tidy hmem houter⟩
  have hfirst : c ≠ d := by
    rintro rfl
    simp [isSchemeChar, Char.isAlphanum, halpha] at hscheme
  have hother : c ∉ name := fun hmem => absurd (hname c hmem) (Bool.eq_false_iff.1 hscheme)
  rw [← htidy, h.outline.alone, hfront]
  simp [hfirst, hother, hcolon, hslash, List.mem_replicate]

theorem noTail_iff (h : Base base a authority front rest blanks slashes) : NoTail rest ↔ NoTail base.toList := by
  rw [NoTail, NoTail, h.mem_rest_iff rfl rfl (by decide) (by decide), h.mem_rest_iff rfl rfl (by decide) (by decide)]

theorem route_eq (h : Base base a authority front rest blanks slashes) :
    a.route = .segments (readSegments true (pathText (rest ++ List.replicate slashes '/'))) :=
  congrArg Address.route h.address

/-- The path of a base leads to levels, and then nowhere for some times. -/
theorem exists_write_route (h : Base base a authority front rest blanks slashes) (hnoTail : NoTail rest) :
    ∃ m, a.route.write.toList = routeText (levels (pathText rest)) ++ List.replicate m '/' := by
  have htexts := texts_append (noTail_append.2 ⟨hnoTail, noTail_slashes slashes⟩) (h.bodyText_ne_nil hnoTail)
    (.inr (isRooted_slashes slashes))
  obtain ⟨m, hm⟩ := exists_readSegments_slashes (isRooted_pathText rest) slashes
  rw [h.route_eq, htexts.2, hm, toList_write_segments, routeText_append, routeText_slashes]
  exact ⟨m, rfl⟩

/-- Without a query, a fragment and blanks at the end, a path goes to the path. -/
theorem read_of_noTail (h : Base base a authority front rest [] slashes) (hnoTail : NoTail rest)
    (hpath : Text.dropStart (· == '/') path.toList = names) (hnames : ∀ c ∈ names, isPathChar c = true) :
    Address.read (joinText base path) =
      .ok { a with route := .segments (levels (pathText rest) ++ segmentTexts names) } := by
  have hbody := h.bodyText_ne_nil hnoTail
  have halone : NoTail (rest ++ List.replicate slashes '/') := noTail_append.2 ⟨hnoTail, noTail_slashes slashes⟩
  have hjoined : NoTail (rest ++ '/' :: names) := noTail_append.2 ⟨hnoTail, noTail_names hnames⟩
  have hslashes := texts_append halone hbody (.inr (isRooted_slashes slashes))
  have htexts := texts_append hjoined hbody (.inr (isRooted_cons names))
  have hreads := h.reads
  rw [hslashes.1] at hreads
  have haddress := h.address
  rw [webAddress_of_noTail halone] at haddress
  rw [h.read_joinText hpath hnames, List.nil_append, htexts.1, hreads]
  change Except.ok (webAddress a.scheme (rest ++ '/' :: names) authority) = _
  rw [webAddress_of_noTail hjoined, htexts.2, readSegments_below_of_plain (isRooted_pathText rest)
    (fun hmem => (inert_of_isPathChar (hnames _ hmem)).backslash rfl) (plain_names hnames), haddress]

/-- With a query or a fragment, a path does not go to the path. -/
theorem route_eq_of_tail {b : Address} (h : Base base a authority front rest blanks slashes) (htail : ¬NoTail rest)
    (hpath : Text.dropStart (· == '/') path.toList = names) (hnames : ∀ c ∈ names, isPathChar c = true)
    (hread : Address.read (joinText base path) = .ok b) : b.route = a.route := by
  have hmem : '?' ∈ rest ∨ '#' ∈ rest := by
    rw [NoTail, not_and_or, Classical.not_not, Classical.not_not] at htail
    exact htail
  have hsame : ∀ more, pathText (rest ++ more) = pathText rest := by
    intro more
    rw [pathText, bodyText, splitTail_append_front hmem]
    rfl
  rw [h.read_joinText hpath hnames] at hread
  obtain ⟨other, -, rfl⟩ := exists_of_map_eq_ok hread
  rw [h.route_eq, webAddress, hsame, hsame]

/-- Behind blanks that come back, a path goes behind a path that is longer than that of the base. -/
theorem exists_longer_of_blanks {b : Address} (h : Base base a authority front rest blanks slashes)
    (hnoTail : NoTail rest) (hblanks : blanks ≠ [])
    (hpath : Text.dropStart (· == '/') path.toList = names) (hnames : ∀ c ∈ names, isPathChar c = true)
    (hread : Address.read (joinText base path) = .ok b) :
    ∃ front, b.route.write.toList = front ++ '/' :: names ∧ a.route.write.toList.length < front.length := by
  have houter : ∀ c ∈ blanks, isOuter c = true := fun c hc => (h.outline.outer c hc).1
  have hbody := h.bodyText_ne_nil hnoTail
  have hlonger : NoTail (rest ++ blanks) := noTail_append.2 ⟨hnoTail, noTail_blanks houter⟩
  have hlongerBody : bodyText (rest ++ blanks) ≠ [] := by
    rw [bodyText_append hlonger hbody]
    exact List.append_ne_nil_of_left_ne_nil hbody _
  have htexts := texts_append (noTail_append.2 ⟨hlonger, noTail_names hnames⟩) hlongerBody (.inr (isRooted_cons names))
  rw [h.read_joinText hpath hnames, ← List.append_assoc, htexts.1] at hread
  obtain ⟨other, hother, rfl⟩ := exists_of_map_eq_ok hread
  by_cases hnoPath : pathText rest = []
  · -- The blanks are at the end of the authority, which is refused.
    obtain ⟨inner, c, rfl⟩ := (List.eq_nil_or_concat blanks).resolve_left hblanks
    rw [authorityText_append hlonger hbody hnoPath fun c hc => isSlash_of_isOuter (houter c hc),
      List.concat_eq_append, ← List.append_assoc] at hother
    obtain ⟨fault, hfault⟩ := exists_readAuthority_eq_error h.web (houter c (by simp)) (authorityText rest ++ inner)
    cases hfault.symm.trans hother
  · have hpathText := (texts_append hlonger hbody (.inl hnoPath)).2
    have hsegments := readSegments_below_of_plain (isRooted_pathText (rest ++ blanks))
      (fun hmem => (inert_of_isPathChar (hnames _ hmem)).backslash rfl) (plain_names hnames)
    refine ⟨routeText (levels (pathText (rest ++ blanks))), ?_, ?_⟩
    · rw [webAddress, htexts.2, hsegments, toList_write_segments, routeText_append, routeText_names hnames]
    · rw [h.route_eq, h.outline.atEnd.resolve_left hblanks, List.replicate_zero, List.append_nil,
        toList_write_segments, hpathText]
      exact length_routeText_lt (isRooted_pathText rest) hnoPath houter hblanks

end Base

/-! ### Appended paths -/

/-- One address is another one with a path behind its path, after one slash. -/
structure Appended (path : String) (a b : Address) : Prop where
  scheme : b.scheme = a.scheme
  authority : b.authority = a.authority
  query : b.query = a.query
  fragment : b.fragment = a.fragment
  route : b.route.write.toList =
    Text.dropEnd (· == '/') a.route.write.toList ++ '/' :: Text.dropStart (· == '/') path.toList

/-- The text of a base ends in its path: it has neither query nor fragment, no blanks are cut off at its end but tabs
    and line ends, and with one slash at its end its path does not end in two. -/
structure OpenEnded (base : String) : Prop where
  noTail : NoTail base.toList
  blanks : Text.dropEnd isOuter base.toList = Text.dropEnd isIgnored base.toList
  level : ∃ b, Address.read (joinText base "/") = .ok b ∧ ¬['/', '/'] <:+ b.route.write.toList

theorem not_suffix_iff : ¬['/', '/'] <:+ cs ++ ['/'] ↔ Text.dropEnd (· == '/') cs = cs := by
  constructor
  · intro h
    refine Text.dropEnd_eq_self fun c hc => beq_false_of_ne ?_
    rintro rfl
    obtain ⟨front, rfl⟩ := List.getLast?_eq_some_iff.1 hc
    exact h ⟨front, by simp⟩
  · rintro h ⟨front, hfront⟩
    have hcs : cs = front ++ ['/'] := List.append_cancel_right (hfront.symm.trans (by simp))
    have hlast := Text.getLast?_dropEnd (· == '/') cs '/' (by rw [h, hcs]; simp)
    cases hlast

namespace Base

variable {authority : Authority}

theorem dropEnd_write_route (h : Base base a authority front rest blanks slashes) (hnoTail : NoTail rest) :
    Text.dropEnd (· == '/') a.route.write.toList = Text.dropEnd (· == '/') (routeText (levels (pathText rest))) := by
  obtain ⟨m, hm⟩ := h.exists_write_route hnoTail
  rw [hm, Text.dropEnd_append_of_forall fun c hc => beq_iff_eq.2 (List.eq_of_mem_replicate hc)]

theorem write_route_of_noTail (hnames : ∀ c ∈ names, isPathChar c = true) :
    (Route.segments (levels (pathText rest) ++ segmentTexts names)).write.toList =
      routeText (levels (pathText rest)) ++ '/' :: names := by
  rw [toList_write_segments, routeText_append, routeText_names hnames]

theorem level_iff (h : Base base a authority front rest [] slashes) (hnoTail : NoTail rest) :
    (∃ b, Address.read (joinText base "/") = .ok b ∧ ¬['/', '/'] <:+ b.route.write.toList) ↔
      Text.dropEnd (· == '/') (routeText (levels (pathText rest))) = routeText (levels (pathText rest)) := by
  have hread : Address.read (joinText base "/") =
      .ok { a with route := .segments (levels (pathText rest) ++ segmentTexts []) } :=
    h.read_of_noTail hnoTail rfl (by simp)
  have hwrite : (Route.segments (levels (pathText rest) ++ segmentTexts [])).write.toList =
      routeText (levels (pathText rest)) ++ ['/'] :=
    write_route_of_noTail (by simp)
  rw [hread, ← not_suffix_iff, ← hwrite]
  constructor
  · rintro ⟨b, hb, hends⟩
    cases hb
    exact hends
  · exact fun hends => ⟨_, rfl, hends⟩

theorem appended_iff {b : Address} (h : Base base a authority front rest [] slashes) (hnoTail : NoTail rest)
    (hpath : Text.dropStart (· == '/') path.toList = names) (hnames : ∀ c ∈ names, isPathChar c = true)
    (hread : Address.read (joinText base path) = .ok b) :
    Appended path a b ↔
      Text.dropEnd (· == '/') (routeText (levels (pathText rest))) = routeText (levels (pathText rest)) := by
  obtain rfl := Except.ok.inj ((h.read_of_noTail hnoTail hpath hnames).symm.trans hread)
  constructor
  · intro happended
    have hroute := happended.route
    rw [write_route_of_noTail hnames, hpath, h.dropEnd_write_route hnoTail] at hroute
    exact (List.append_cancel_right hroute).symm
  · intro hends
    refine ⟨rfl, rfl, rfl, rfl, ?_⟩
    rw [write_route_of_noTail hnames, hpath, h.dropEnd_write_route hnoTail, hends]

end Base

end Web

open Web

theorem endpoint_eq_ok_iff {base path : String} {b : Address} :
    endpoint base path = .ok b ↔ Address.read (joinText base path) = .ok b := by
  rw [endpoint]
  cases Address.read (joinText base path) with
  | error fault => exact ⟨fun h => (by cases h), fun h => (by cases h)⟩
  | ok other => exact ⟨fun h => (by cases h; rfl), fun h => (by cases h; rfl)⟩

/-- A path for batches is appended to the path of an accepted base whose text ends in its path, and to that of no other
    base. Only a single slash may be there already, at the end of a query. -/
theorem endpoint_appends_iff {field base path : String} (hbase : Config.Check.url field base = .ok ())
    (hpath : IsWritePath path) : ∃ a, Address.read base = .ok a ∧
      (OpenEnded base → ∃ b, endpoint base path = .ok b ∧ Appended path a b) ∧
      (path ≠ "/" → (∃ b, endpoint base path = .ok b ∧ Appended path a b) → OpenEnded base) := by
  obtain ⟨-, a, hread, hweb⟩ := url_eq_ok_iff.1 hbase
  obtain ⟨authority, front, rest, blanks, slashes, h⟩ := exists_base hread hweb
  obtain ⟨names, htext, hnames, hhead, hchars⟩ := hpath.exists_names
  refine ⟨a, hread, fun hopen => ?_, ?_⟩
  · have hnoTail := h.noTail_iff.2 hopen.noTail
    obtain rfl := h.outline.cutOff.2 hopen.blanks
    have hjoined := h.read_of_noTail hnoTail hnames hchars
    have hlevel := (h.level_iff hnoTail).1 hopen.level
    exact ⟨_, endpoint_eq_ok_iff.2 hjoined, (h.appended_iff hnoTail hnames hchars hjoined).2 hlevel⟩
  · rintro hne ⟨b, hb, happended⟩
    have hjoined := endpoint_eq_ok_iff.1 hb
    have hroute := happended.route
    rw [hnames] at hroute
    have hnoTail : NoTail rest := by
      refine Classical.byContradiction fun htail => ?_
      rw [h.route_eq_of_tail htail hnames hchars hjoined] at hroute
      -- Only slashes can be dropped at the end of a text and put back.
      obtain ⟨tail, hwhole, hslashes⟩ := Text.exists_dropEnd_append (· == '/') a.route.write.toList
      have htail := List.append_cancel_left (hroute.symm.trans hwhole)
      cases names with
      | nil => exact hne (String.toList_inj.1 htext)
      | cons c others =>
        refine hhead (congrArg some (beq_iff_eq.1 (hslashes c ?_)))
        rw [← htail]
        simp
    have hblanks : blanks = [] := by
      refine Classical.byContradiction fun hblanks => ?_
      obtain ⟨longer, hlonger, hlength⟩ := h.exists_longer_of_blanks hnoTail hblanks hnames hchars hjoined
      -- Dropping slashes makes no path longer.
      have hsame := List.append_cancel_right (hlonger.symm.trans hroute)
      have hle := (Text.dropEnd_isPrefix (· == '/') a.route.write.toList).length_le
      rw [← hsame] at hle
      exact Nat.not_lt.2 hle hlength
    subst hblanks
    exact ⟨h.noTail_iff.1 hnoTail, h.outline.cutOff.1 rfl,
      (h.level_iff hnoTail).2 ((h.appended_iff hnoTail hnames hchars hjoined).1 happended)⟩

theorem endpoint_appends_iff_local :
    Config.Check.url "urls" "http://localhost:8086/db/" = .ok () ∧ IsWritePath "/write" ∧
    OpenEnded "http://localhost:8086/db/" ∧
    ∃ a b, Address.read "http://localhost:8086/db/" = .ok a ∧
      endpoint "http://localhost:8086/db/" "/write" = .ok b ∧ Appended "/write" a b := by
  have hbase : Config.Check.url "urls" "http://localhost:8086/db/" = .ok () := by
    decide +kernel
  have hpath : IsWritePath "/write" := ⟨rfl, List.all_eq_true.1 (by decide), by decide⟩
  have hopen : OpenEnded "http://localhost:8086/db/" :=
    ⟨⟨by decide, by decide⟩, by decide,
      ⟨"http", some ⟨"", "", .domain "localhost", some 8086⟩, .segments ["db", ""], none, none⟩, by decide +kernel,
      by decide⟩
  obtain ⟨a, ha, happends, -⟩ := endpoint_appends_iff hbase hpath
  obtain ⟨b, hb, happended⟩ := happends hopen
  exact ⟨hbase, hpath, hopen, a, b, ha, hb, happended⟩

/-- The path goes to the query of a base that has one. -/
theorem query_takes_path :
    Config.Check.url "urls" "http://h:8086/db?precision=s" = .ok () ∧ IsWritePath "/write" ∧
    ∃ a b, Address.read "http://h:8086/db?precision=s" = .ok a ∧
      endpoint "http://h:8086/db?precision=s" "/write" = .ok b ∧
      a.query = some "precision=s" ∧ b.query = some "precision=s/write" ∧ b.route = a.route ∧
      ¬Appended "/write" a b := by
  have hread : Address.read "http://h:8086/db?precision=s" =
      .ok ⟨"http", some ⟨"", "", .domain "h", some 8086⟩, .segments ["db"], some "precision=s", none⟩ := by
    decide +kernel
  have hjoined : endpoint "http://h:8086/db?precision=s" "/write" =
      .ok ⟨"http", some ⟨"", "", .domain "h", some 8086⟩, .segments ["db"], some "precision=s/write", none⟩ := by
    decide +kernel
  refine ⟨by decide +kernel, ⟨rfl, List.all_eq_true.1 (by decide), by decide⟩, _, _, hread, hjoined, rfl, rfl, rfl, ?_⟩
  intro happended
  exact absurd happended.query (by decide)

end IngestBench
