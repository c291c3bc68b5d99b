import IngestBench.Partition
import IngestBench.Proofs.PointText
import IngestBench.Proofs.ScanOrder

/-! A text of lines that is scanned into batches. The bodies of the batches, one behind the other, are the lines of the
    text that are not empty, each with one line feed behind it; the first line that has not three columns ends the scan
    with a fault, and only the full batches of the lines before it were handed on. -/

namespace IngestBench

/-! ### Cutting -/

namespace Text

variable {sep : Char}

/-- There is one piece more than there are separators. -/
theorem length_splitChars (sep : Char) (cs : List Char) : (splitChars sep cs).length = cs.count sep + 1 := by
  induction cs with
  | nil => rfl
  | cons c cs ih =>
    obtain ⟨first, rest, hcs⟩ := List.exists_cons_of_ne_nil (splitChars_ne_nil sep cs)
    rw [hcs, List.length_cons] at ih
    by_cases hc : c = sep
    · simp [splitChars, hc, hcs, ih]
    · simp [splitChars, hc, hcs, ih]

theorem dropEnd_congr {p q : Char → Bool} {cs : List Char} (h : ∀ c ∈ cs, p c = q c) : dropEnd p cs = dropEnd q cs := by
  induction cs using List.reverseRecOn with
  | nil => rfl
  | append_singleton front c ih =>
    have hfront := ih fun c hc => h c (List.mem_append_left _ hc)
    rw [dropEnd_concat, dropEnd_concat, h c (by simp), hfront]

end Text

/-! ### The lines of a text -/

namespace Input

/-- The lines of a text, without the carriage returns at their ends. -/
def lines (text : String) : List String :=
  (Text.split '\n' text).map fun line => String.ofList (Text.dropEnd (· == '\r') line.toList)

/-- The lines of a text that are not empty. -/
def filledLines (text : String) : List String := (lines text).filter (· ≠ "")

/-- The lines of an input. Behind the last line feed there may be an empty line that is not read. -/
inductive Holds : Input → List String → Prop
  | done : Holds [] []
  | last : Holds [] [""]
  | line {input : Input} {lines : List String} (content : String) : Holds input lines →
      Holds (.text content :: input) (dropLineEnd content :: lines)

/-- The lines are the pieces between the line feeds, with their line feeds; behind the last line feed there may be
    nothing. -/
theorem cutLines_eq (cs : List Char) : ∃ front last, Text.splitChars '\n' cs = front ++ [last] ∧
    cutLines cs = front.map (· ++ ['\n']) ++ [last].filter fun piece => !piece.isEmpty := by
  induction cs with
  | nil => exact ⟨[], [], rfl, rfl⟩
  | cons c cs ih =>
    obtain ⟨front, last, hsplit, hcut⟩ := ih
    by_cases hc : c = '\n'
    · refine ⟨[] :: front, last, ?_, ?_⟩
      · simp [Text.splitChars, hc, hsplit]
      · simp [cutLines, hc, hcut]
    · cases front with
      | nil =>
        refine ⟨[], c :: last, ?_, ?_⟩
        · simp [Text.splitChars, hc, hsplit]
        · cases last <;> simp [cutLines, hc, hcut]
      | cons piece front =>
        refine ⟨(c :: piece) :: front, last, ?_, ?_⟩
        · simp [Text.splitChars, hc, hsplit]
        · simp [cutLines, hc, hcut]

/-- Without its line feed, a line only has carriage returns to lose. -/
theorem dropLineEnd_piece {piece : List Char} (h : '\n' ∉ piece) :
    dropLineEnd (String.ofList (piece ++ ['\n'])) = String.ofList (Text.dropEnd (· == '\r') piece) ∧
      dropLineEnd (String.ofList piece) = String.ofList (Text.dropEnd (· == '\r') piece) := by
  have hsame : Text.dropEnd isLineEnd piece = Text.dropEnd (· == '\r') piece := by
    refine Text.dropEnd_congr fun c hc => ?_
    have hne : c ≠ '\n' := fun heq => h (heq ▸ hc)
    by_cases hr : c = '\r' <;> simp [isLineEnd, hne, hr]
  have hfeed : Text.dropEnd isLineEnd (piece ++ ['\n']) = Text.dropEnd (· == '\r') piece := by
    rw [Text.dropEnd_concat, if_pos (by decide), hsame]
  rw [dropLineEnd, dropLineEnd, String.toList_ofList, String.toList_ofList]
  exact ⟨congrArg String.ofList hfeed, congrArg String.ofList hsame⟩

theorem holds_ofText (text : String) : Holds (ofText text) (lines text) := by
  obtain ⟨front, last, hsplit, hcut⟩ := cutLines_eq text.toList
  have hfeed : ∀ piece ∈ front ++ [last], '\n' ∉ piece := fun piece hpiece =>
    Text.not_mem_of_mem_splitChars (hsplit ▸ hpiece)
  rw [ofText, lines, Text.split, hsplit, hcut]
  clear hsplit hcut
  induction front with
  | nil =>
    cases last with
    | nil => exact .last
    | cons c last =>
      have hdrop := (dropLineEnd_piece (hfeed _ (List.mem_singleton_self _))).2
      simp only [List.map_singleton, List.map_nil, List.nil_append, String.toList_ofList, ← hdrop]
      exact .line _ .done
  | cons piece front ih =>
    have hdrop := (dropLineEnd_piece (hfeed piece List.mem_cons_self)).1
    simp only [List.map_cons, List.cons_append, String.toList_ofList, ← hdrop]
    exact .line _ (ih fun piece hpiece => hfeed piece (List.mem_cons_of_mem _ hpiece))

/-- A source gives the lines that are not empty, in order, and then nothing more. -/
theorem Holds.yields {input : Input} {lines : List String} (h : Holds input lines) :
    Yields LineSource.next ⟨input⟩ ((lines.filter (· ≠ "")).map Line.mk) := by
  induction h with
  | done => exact .done rfl rfl
  | last => exact .done rfl rfl
  | @line input lines content _ ih =>
    by_cases hempty : dropLineEnd content = ""
    · have hskip : LineSource.next ⟨.text content :: input⟩ = LineSource.next ⟨input⟩ := by
        simp [LineSource.next, readFilled, hempty]
      rw [List.filter_cons_of_neg (by simpa using hempty)]
      exact ih.of_next_eq hskip
    · have hnext : LineSource.next ⟨.text content :: input⟩ = (.ok (some ⟨dropLineEnd content⟩), ⟨input⟩) := by
        simp [LineSource.next, readFilled, hempty]
      rw [List.filter_cons_of_pos (by simpa using hempty)]
      exact .more hnext ih

theorem yields_filledLines (text : String) :
    Yields LineSource.next ⟨ofText text⟩ ((filledLines text).map Line.mk) := (holds_ofText text).yields

end Input

/-! ### The columns of a line -/

namespace Line

/-- Three columns have two blanks between them. -/
def hasThreeColumns (line : String) : Prop := line.toList.count ' ' = 2

instance (line : String) : Decidable (hasThreeColumns line) := inferInstanceAs (Decidable (_ = _))

/-- One metric, and one more for each comma in the second column. -/
def metricsOf (line : String) : Nat := 1 + ((Text.split ' ' line)[1]?.getD "").toList.count ','

variable {line : String}

theorem metrics_eq_ok (h : hasThreeColumns line) : (Line.mk line).metrics = .ok (metricsOf line) := by
  have hlength := Text.length_splitChars ' ' line.toList
  rw [show line.toList.count ' ' = 2 from h] at hlength
  obtain ⟨series, fields, time, hcolumns⟩ := List.length_eq_three.1 hlength
  rw [metrics, metricsOf, Text.split]
  simp [hcolumns, Text.length_splitChars, Nat.add_comm]

theorem metrics_eq_error (h : ¬hasThreeColumns line) :
    (Line.mk line).metrics = .error (.columns (line.toList.count ' ' + 1)) := by
  have hlength := Text.length_splitChars ' ' line.toList
  rw [metrics]
  split
  · rename_i columns
    rw [columns] at hlength
    exact absurd (Nat.add_right_cancel hlength).symm h
  · rw [hlength]

end Line

/-! ### What batches hold -/

namespace LineBatch

open Batch (Holds)

variable {b : LineBatch} {points : List Line}

/-- The body is the lines that were taken in, each with a line feed; all of them have three columns. -/
theorem body_of_holds (h : Holds b points) :
    b.body = String.join (points.map Line.write) ∧ ∀ line ∈ points, Line.hasThreeColumns line.text := by
  induction h with
  | empty => exact ⟨rfl, by simp⟩
  | reset _ => exact ⟨rfl, by simp⟩
  | @append b b' points line _ happend ih =>
    obtain ⟨hbody, hcolumns⟩ := ih
    obtain ⟨n, hn, rfl⟩ := append_eq_ok happend
    constructor
    · simp [hbody, Line.write, String.append_assoc]
    · intro other hother
      rcases List.mem_append.1 hother with hother | hother
      · exact hcolumns other hother
      · obtain rfl := List.mem_singleton.1 hother
        refine Decidable.of_not_not fun hnot => ?_
        rw [Line.metrics_eq_error hnot] at hn
        cases hn

theorem append_eq_error {line : Line} {fault : Failure} (h : b.append line = .error fault) :
    ¬Line.hasThreeColumns line.text ∧ fault = .parse (.columns (line.text.toList.count ' ' + 1)) := by
  by_cases hcolumns : Line.hasThreeColumns line.text
  · rw [append, Line.metrics_eq_ok hcolumns] at h
    cases h
  · rw [append, Line.metrics_eq_error hcolumns] at h
    cases h
    exact ⟨hcolumns, rfl⟩

end LineBatch

namespace Scan

open Chunks

/-! ### What all sources yield -/

section
variable {σ π β : Type} {read : σ → Except Failure (Option π) × σ} {source t u : σ} {points : List π} {p : π}

theorem Reads.cons (hread : read source = (.ok (some p), t)) (h : Reads read t points u) :
    Reads read source (p :: points) u := by
  induction h with
  | start => exact .next .start hread
  | next _ hnext ih => exact .next ih hnext

/-- A source that yields points can be read to its end. -/
theorem Reads.of_yields (h : Yields read source points) :
    ∃ t u, Reads read source points t ∧ read t = (.ok none, u) := by
  induction h with
  | done hnone _ => exact ⟨_, _, .start, hnone⟩
  | more hsome _ ih =>
    obtain ⟨t, u, hreads, hend⟩ := ih
    exact ⟨t, u, hreads.cons hsome, hend⟩

/-- A reading stands before a point of the source, or at its end. -/
theorem Reads.stands (hwhole : Reads read source points t) (hend : read t = (.ok none, u)) {before : List π} {v : σ}
    (h : Reads read source before v) :
    (∃ p w, read v = (.ok (some p), w) ∧ before ++ [p] <+: points) ∨ before = points ∧ v = t := by
  rcases Nat.lt_or_ge before.length points.length with hlt | hge
  · obtain ⟨p, w, hp⟩ := h.exists_next hwhole hlt
    obtain ⟨x, hx⟩ := hwhole.take (before.length + 1)
    have hlength : (before ++ [p]).length = (points.take (before.length + 1)).length := by
      rw [List.length_append, List.length_singleton, List.length_take]
      omega
    obtain ⟨heq, -⟩ := (h.next hp).unique hx hlength
    exact .inl ⟨p, w, hp, heq ▸ List.take_prefix _ _⟩
  · refine .inr (h.unique hwhole (Nat.le_antisymm (Nat.le_of_not_lt fun hlt => ?_) hge))
    obtain ⟨p, w, hp⟩ := hwhole.exists_next h hlt
    rw [hend] at hp
    cases hp

variable [Batch β π] [Batch.CountsRows β] {plan : Plan σ π} {stop : σ → Bool}

/-- A scan that comes to an end has an outcome, with any number of moves from some number on. -/
theorem exists_outcome (source : σ) (room : Nat) {t : σ} (hwhole : Reads plan.read source points t)
    (hend : Ends plan stop points.length t) : ∃ enough, ∀ fuel, enough ≤ fuel →
      ∃ (s : Scan σ π β) (pool : Pool β) (taken : List (Nat × β)) (result : Except Failure ScanStats)
        (before : List π) (batches : List (Nat × List π)),
        play plan stop true fuel (.start source) (.empty room) [] = (s, pool, taken) ∧ s.result? = some result ∧
        List.Forall₂ Carries taken.reverse batches ∧ Outcome (β := β) plan source stop before batches result := by
  have hstart : Account plan (looksOf plan source stop) source [] (contents ([] : List (Nat × Noted β)))
      (start source : Scan σ π (Noted β)) := account_start source
  refine ⟨movesLeft plan points.length (start source : Scan σ π (Noted β)), fun fuel hfuel => ?_⟩
  obtain ⟨read, s, pool, taken, hplay, hclosed, hs, hends⟩ := play_account fuel [] hstart (clean_empty room) rfl
  obtain ⟨result, hresult⟩ := Option.isSome_iff_exists.1 (hends points t hwhole hend hfuel)
  obtain ⟨before, -, houtcome⟩ := outcome_of_account hs hclosed hresult
  refine ⟨s.map Noted.batch, pool.map Noted.batch, taken.map (Prod.map id Noted.batch), result, before,
    contents taken.reverse, ?_, ?_, ?_, houtcome⟩
  · exact (play_map (Noted.alike (β := β)) plan stop true fuel (start source) (.empty room) []).trans
      (by rw [hplay]; rfl)
  · rw [result?_map, hresult]
  · rw [← List.map_reverse]
    exact carries_contents _

end

/-! ### One partition -/

section
variable {σ π : Type}

/-- With one partition, the batches are the pieces of all points. -/
theorem batches_of_one (plan : Plan σ π) (hplan : ∀ p, plan.partition p = 0) (hslots : plan.slotCount = 1)
    (points : List π) :
    (fullBatches plan points).map Prod.snd = wholes plan.fullSize points ∧
      (allBatches plan points).map Prod.snd = pieces plan.fullSize points := by
  have hlane : lane plan.partition 0 points = points := List.filter_eq_self.2 fun p _ => by simp [hplan p]
  have hall : ∀ x ∈ allBatches plan points, x.1 = 0 := fun x hx => by
    have hlt : x.1 < plan.slotCount := lt_of_mem (fun p _ => by rw [hplan p, hslots]; decide) hx
    omega
  have hone (batches : List (Nat × List π)) (h : ∀ x ∈ batches, x.1 = 0) :
      batches.map Prod.snd = batchesOf 0 batches := by
    rw [batchesOf, List.filter_eq_self.2 fun x hx => by simp [h x hx]]
  have hpos : 0 < plan.fullSize := fullSize_pos
  constructor
  · rw [hone _ fun x hx => hall x (List.mem_append_left _ hx), fullBatches, batchesOf_completed hpos, hlane]
  · rw [hone _ hall, allBatches, fullBatches, restBatches,
      batchesOf_completed_append_partials hpos (by rw [hslots]; decide), hlane]

/-- The whole pieces hold the points up to the last one that fills a piece. -/
theorem flatten_wholes_eq (n : Nat) (hn : 0 < n) (points : List π) :
    (wholes n points).flatten = points.take (points.length / n * n) := by
  have hsplit := flatten_wholes hn points
  rw [leftover] at hsplit
  exact List.append_cancel_right (hsplit.trans (List.take_append_drop _ _).symm)

end

/-! ### Scanning lines -/

open Line (hasThreeColumns metricsOf)

/-- Lines of one partition, so many to a batch. -/
def linePlan (batchSize : Nat) : Plan LineSource Line where
  read := LineSource.next
  partition := Partition.of 1
  partitions := 1
  batchSize := batchSize
  limit := none

/-- The bodies of batches, one behind the other. -/
def bodyOf (sent : List (Nat × LineBatch)) : String := String.join (sent.map (·.2.body))

def rowsOf (sent : List (Nat × LineBatch)) : Nat := (sent.map (·.2.rows)).sum

def metricsIn (sent : List (Nat × LineBatch)) : Nat := (sent.map (·.2.metrics)).sum

/-- What batches of lines say together is what their lines say. -/
theorem sums_of_carries {sent : List (Nat × LineBatch)} {batches : List (Nat × List Line)}
    (h : List.Forall₂ Carries sent batches) :
    let lines := (batches.map Prod.snd).flatten
    bodyOf sent = String.join (lines.map Line.write) ∧ rowsOf sent = lines.length ∧
      metricsIn sent = (lines.map fun line => metricsOf line.text).sum ∧
      ∀ line ∈ lines, hasThreeColumns line.text := by
  induction h with
  | nil => exact ⟨rfl, rfl, rfl, by simp⟩
  | @cons x y sent batches hxy _ ih =>
    obtain ⟨hbody, hrows, hmetrics, hcolumns⟩ := ih
    obtain ⟨hone, honeColumns⟩ := LineBatch.body_of_holds hxy.2
    have honeRows : x.2.rows = y.2.length := hxy.2.rows
    have honeMetrics : x.2.metrics = (y.2.map fun line => metricsOf line.text).sum := by
      have hcounted : x.2.metrics = (y.2.map fun line => line.metrics.toOption.getD 0).sum := hxy.2.metrics
      rw [hcounted, List.map_congr_left fun line hline => ?_]
      rw [Line.metrics_eq_ok (honeColumns line hline)]
      rfl
    simp only [List.map_cons, List.flatten_cons]
    refine ⟨?_, ?_, ?_, ?_⟩
    · rw [bodyOf, List.map_cons, String.join_cons, ← bodyOf, hbody, hone, List.map_append, String.join_append]
    · rw [rowsOf, List.map_cons, List.sum_cons, ← rowsOf, hrows, honeRows, List.length_append]
    · rw [metricsIn, List.map_cons, List.sum_cons, ← metricsIn, hmetrics, honeMetrics, List.map_append, List.sum_append]
    · intro line hline
      exact (List.mem_append.1 hline).elim (honeColumns line) (hcolumns line)


section
variable {batchSize : Nat} {source t u : LineSource} {points before : List Line} {batches : List (Nat × List Line)}
  {sent : List (Nat × LineBatch)} {result : Except Failure ScanStats}

theorem batches_of_lines (batchSize : Nat) (points : List Line) :
    (fullBatches (linePlan batchSize) points).map Prod.snd = wholes (max batchSize 1) points ∧
      (allBatches (linePlan batchSize) points).map Prod.snd = pieces (max batchSize 1) points :=
  batches_of_one (linePlan batchSize) (fun _ => rfl) rfl points

/-- How a scan of lines ends: all of them are sent, or the first one that has not three columns ends it, and the full
    batches before it are sent. -/
inductive LinesOutcome (size : Nat) (points : List Line) (sent : List Line) : Except Failure ScanStats → Prop
  | complete (stats : ScanStats) : (∀ line ∈ points, hasThreeColumns line.text) → sent = points →
      stats.pointsRead = points.length → LinesOutcome size points sent (.ok stats)
  | refused (before : List Line) (line : Line) : before ++ [line] <+: points →
      (∀ other ∈ before, hasThreeColumns other.text) → ¬hasThreeColumns line.text →
      sent = before.take (before.length / size * size) →
      LinesOutcome size points sent (.error (.parse (.columns (line.text.toList.count ' ' + 1))))

theorem Outcome.lines (h : Outcome (β := LineBatch) (linePlan batchSize) source (fun _ => false) before batches result)
    (hcarries : List.Forall₂ Carries sent batches) (hwhole : Reads LineSource.next source points t)
    (hend : LineSource.next t = (.ok none, u)) :
    LinesOutcome (max batchSize 1) points (batches.map Prod.snd).flatten result := by
  have hpos : 0 < max batchSize 1 := Nat.lt_of_lt_of_le Nat.one_pos (Nat.le_max_right _ _)
  obtain ⟨hfull, hall⟩ := batches_of_lines batchSize before
  obtain ⟨-, -, -, hcolumns⟩ := sums_of_carries hcarries
  cases h with
  | complete v stats hreads hplace hbatches hread hsent hclosed hcancelled hlimit hlast =>
    obtain ⟨w, hnone⟩ := hlast rfl rfl
    obtain ⟨p, x, hp, -⟩ | ⟨rfl, rfl⟩ := hwhole.stands hend hreads
    · have hsame := hnone.symm.trans hp
      cases hsame
    · have hflat : (batches.map Prod.snd).flatten = before := by rw [hbatches, hall, flatten_pieces hpos]
      exact .complete stats (hflat ▸ hcolumns) hflat hread
  | failed read v fault hreads hplace hbatches hstop hmax hfailed =>
    have hflat : (batches.map Prod.snd).flatten = before.take (before.length / max batchSize 1 * max batchSize 1) := by
      rw [hbatches, hfull, flatten_wholes_eq _ hpos]
    cases hfailed with
    | unread v w _ hbefore hfault =>
      -- a text has no line that cannot be read
      obtain ⟨p, x, hp, -⟩ | ⟨-, rfl⟩ := hwhole.stands hend hbefore
      · have hsame := hfault.symm.trans hp
        cases hsame
      · have hsame := hfault.symm.trans hend
        cases hsame
    | misplaced p v _ _ hle _ => exact absurd hle (Nat.not_succ_le_zero 0)
    | refused line v b hpoints hline _ hheld happend =>
      obtain ⟨hnot, rfl⟩ := LineBatch.append_eq_error happend
      refine .refused before line ?_ ?_ hnot hflat
      · subst hpoints
        obtain ⟨p, x, -, hleads⟩ | ⟨heq, -⟩ := hwhole.stands hend hline
        · exact (List.prefix_append _ _).trans hleads
        · exact heq ▸ List.prefix_refl _
      · -- the lines before it are in the batches that were sent, or in the one that refused it
        obtain ⟨-, hheldColumns⟩ := LineBatch.body_of_holds hheld
        have hlane : lane (linePlan batchSize).partition 0 before = before := List.filter_eq_self.2 fun _ _ => rfl
        have hrest : rest (linePlan batchSize) 0 before = leftover (max batchSize 1) before := by
          rw [rest, hlane]
          rfl
        have hsplit : (batches.map Prod.snd).flatten ++ leftover (max batchSize 1) before = before := by
          rw [hbatches, hfull, flatten_wholes hpos]
        intro other hother
        rw [← hsplit] at hother
        rcases List.mem_append.1 hother with hother | hother
        · exact hcolumns other hother
        · exact hheldColumns other (hrest ▸ hother)

end

theorem eq_of_first_refused {α : Type} {P : α → Prop} {xs ys zs : List α} {x y : α} (h : xs ++ [x] <+: ys ++ y :: zs)
    (hxs : ∀ a ∈ xs, P a) (hx : ¬P x) (hys : ∀ a ∈ ys, P a) (hy : ¬P y) : xs = ys ∧ x = y := by
  induction xs generalizing ys with
  | nil =>
    cases ys with
    | nil => exact ⟨rfl, (List.cons_prefix_cons.1 h).1⟩
    | cons b ys =>
      obtain rfl := (List.cons_prefix_cons.1 h).1
      exact absurd (hys x List.mem_cons_self) hx
  | cons a xs ih =>
    cases ys with
    | nil =>
      obtain rfl := (List.cons_prefix_cons.1 h).1
      exact absurd (hxs a List.mem_cons_self) hy
    | cons b ys =>
      obtain ⟨rfl, hrest⟩ := List.cons_prefix_cons.1 h
      obtain ⟨rfl, rfl⟩ := ih hrest (fun c hc => hxs c (List.mem_cons_of_mem _ hc)) fun c hc =>
        hys c (List.mem_cons_of_mem _ hc)
      exact ⟨rfl, rfl⟩

/-- A text is scanned to its end, or to its first line that has not three columns. If there is none, the bodies of the
    batches are the lines that are not empty, each with one line feed, with a row for each line and a metric for each
    field. If there is one, the scan ends in its fault, and the bodies are the lines before it that fill batches. -/
theorem scan_replays_text (text : String) (batchSize room : Nat) :
    ∃ enough, ∀ fuel, enough ≤ fuel →
      ∃ (s : Scan LineSource Line LineBatch) (pool : Pool LineBatch) (taken : List (Nat × LineBatch)),
        play (linePlan batchSize) (fun _ => false) true fuel (.start ⟨Input.ofBytes text.toUTF8.data.toList⟩)
          (.empty room) [] = (s, pool, taken) ∧
        ((∀ line ∈ Input.filledLines text, hasThreeColumns line) →
          (∃ stats, s.result? = some (.ok stats) ∧ stats.pointsRead = (Input.filledLines text).length) ∧
          bodyOf taken.reverse = String.join ((Input.filledLines text).map (· ++ "\n")) ∧
          rowsOf taken.reverse = (Input.filledLines text).length ∧
          metricsIn taken.reverse = ((Input.filledLines text).map metricsOf).sum) ∧
        ∀ before line after, Input.filledLines text = before ++ line :: after →
          (∀ other ∈ before, hasThreeColumns other) → ¬hasThreeColumns line →
          s.result? = some (.error (.parse (.columns (line.toList.count ' ' + 1)))) ∧
          bodyOf taken.reverse =
            String.join ((before.take (before.length / max batchSize 1 * max batchSize 1)).map (· ++ "\n")) := by
  rw [Input.ofBytes_toUTF8]
  obtain ⟨t, u, hwhole, hend⟩ := Reads.of_yields (Input.yields_filledLines text)
  have hends : Ends (linePlan batchSize) (fun _ => false) ((Input.filledLines text).map Line.mk).length t :=
    .inr (.inr fun p v hp => by cases hend.symm.trans hp)
  obtain ⟨enough, hplays⟩ := exists_outcome (β := LineBatch) _ room hwhole hends
  refine ⟨enough, fun fuel hfuel => ?_⟩
  obtain ⟨s, pool, taken, result, before, batches, hplay, hresult, hcarries, houtcome⟩ := hplays fuel hfuel
  have hlines := houtcome.lines hcarries hwhole hend
  obtain ⟨hbody, hrows, hmetrics, -⟩ := sums_of_carries hcarries
  refine ⟨s, pool, taken, hplay, ?_, ?_⟩
  · intro hgood
    cases hlines with
    | complete stats hcolumns hsent hread =>
      rw [hsent] at hbody hrows hmetrics
      refine ⟨⟨stats, hresult, ?_⟩, ?_, ?_, ?_⟩
      · rw [hread, List.length_map]
      · rw [hbody, List.map_map]
        rfl
      · rw [hrows, List.length_map]
      · rw [hmetrics, List.map_map]
        rfl
    | refused before line hleads _ hnot _ =>
      obtain ⟨text, htext, rfl⟩ := List.mem_map.1 (hleads.subset (List.mem_append_right _ (List.mem_singleton_self line)))
      exact absurd (hgood text htext) hnot
  · intro front line after hsplit hfront hnot
    cases hlines with
    | complete stats hcolumns hsent hread =>
      have hmem : Line.mk line ∈ (Input.filledLines text).map Line.mk := List.mem_map_of_mem (by simp [hsplit])
      exact absurd (hcolumns _ hmem) hnot
    | refused before other hleads hbefore hother hsent =>
      rw [hsplit, List.map_append, List.map_cons] at hleads
      obtain ⟨rfl, rfl⟩ := eq_of_first_refused (P := fun line : Line => hasThreeColumns line.text) hleads hbefore hother
        (by simpa using hfront) hnot
      refine ⟨hresult, ?_⟩
      rw [hbody, hsent, List.length_map, ← List.map_take, List.map_map]
      rfl

/-- Three lines, with an empty one between them. -/
def threeLines : String := "cpu,h=a f=1,g=2 0\r\n\nmem f=1 7\ncpu,h=b f=1 9\n"

/-- A scan of a text in batches of two lines. -/
def scanInPairs (text : String) (fuel : Nat) : Scan LineSource Line LineBatch × Pool LineBatch × List (Nat × LineBatch) :=
  play (linePlan 2) (fun _ => false) true fuel (.start ⟨Input.ofBytes text.toUTF8.data.toList⟩) (.empty 4) []

/-- Three lines come whole. With a line behind them that is cut short, the third one is lost with its batch. -/
theorem scan_replays_text_three_lines :
    (∃ enough, ∀ fuel, enough ≤ fuel → ∃ (s : Scan LineSource Line LineBatch) (pool : Pool LineBatch)
      (taken : List (Nat × LineBatch)), scanInPairs threeLines fuel = (s, pool, taken) ∧
      (∃ stats, s.result? = some (.ok stats) ∧ stats.pointsRead = 3) ∧
      bodyOf taken.reverse = "cpu,h=a f=1,g=2 0\nmem f=1 7\ncpu,h=b f=1 9\n" ∧ rowsOf taken.reverse = 3 ∧
      metricsIn taken.reverse = 4) ∧
    ∃ enough, ∀ fuel, enough ≤ fuel → ∃ (s : Scan LineSource Line LineBatch) (pool : Pool LineBatch)
      (taken : List (Nat × LineBatch)), scanInPairs (threeLines ++ "mem f=2") fuel = (s, pool, taken) ∧
      s.result? = some (.error (.parse (.columns 2))) ∧ bodyOf taken.reverse = "cpu,h=a f=1,g=2 0\nmem f=1 7\n" := by
  constructor
  · obtain ⟨enough, h⟩ := scan_replays_text threeLines 2 4
    refine ⟨enough, fun fuel hfuel => ?_⟩
    obtain ⟨s, pool, taken, hplay, hwhole, -⟩ := h fuel hfuel
    obtain ⟨hresult, hbody, hrows, hmetrics⟩ := hwhole (by decide)
    exact ⟨s, pool, taken, hplay, hresult, hbody.trans (by decide), hrows, hmetrics⟩
  · obtain ⟨enough, h⟩ := scan_replays_text (threeLines ++ "mem f=2") 2 4
    have hlines : Input.filledLines (threeLines ++ "mem f=2") =
        ["cpu,h=a f=1,g=2 0", "mem f=1 7", "cpu,h=b f=1 9"] ++ "mem f=2" :: [] := by decide
    refine ⟨enough, fun fuel hfuel => ?_⟩
    obtain ⟨s, pool, taken, hplay, -, hcut⟩ := h fuel hfuel
    obtain ⟨hresult, hbody⟩ := hcut _ _ _ hlines (by decide) (by decide)
    exact ⟨s, pool, taken, hplay, hresult, hbody.trans (by decide)⟩

end Scan
end IngestBench
