import IngestBench.Proofs.ByteOrder
import IngestBench.Proofs.RecordGrammar
import IngestBench.Proofs.Recycling
import IngestBench.Proofs.SampleText
import IngestBench.Target.Connection

/-! Records that fit a header, and the text that a batch of them is sent as. What the check of a record lets through is
    what the batch takes in and what the text needs, so that the text is never refused, and it has one line for each
    value: in the order of the measurements' names, then of arrival, then of the fields in the header. -/

namespace IngestBench

/-! ### Entries by key -/

namespace Sorted

variable {α : Type} {entries : Sorted α} {key other : String} {f : Option α → α} {value : α}

theorem find?_update_of_ne (h : other ≠ key) : (entries.update key f).find? other = entries.find? other := by
  induction entries with
  | nil => simp [update, find?, h.symm]
  | cons e rest ih =>
    obtain ⟨k, v⟩ := e
    rw [update]
    split
    · rename_i hk
      simp [find?, hk, h.symm]
    · split
      · simp [find?, h.symm]
      · simp [find?, ih]

theorem find?_of_mem (h : entries.Pairwise fun a b => a.1 < b.1) (hmem : (key, value) ∈ entries) :
    entries.find? key = some value := by
  induction entries with
  | nil => cases hmem
  | cons e rest ih =>
    obtain ⟨k, v⟩ := e
    obtain ⟨habove, hrest⟩ := List.pairwise_cons.1 h
    rcases List.mem_cons.1 hmem with heq | hmem
    · obtain ⟨rfl, rfl⟩ := Prod.mk.inj heq
      exact if_pos rfl
    · have hne : k ≠ key := fun heq => String.lt_irrefl key (heq ▸ habove _ hmem)
      rw [find?, if_neg hne, ih hrest hmem]

theorem mem_of_find? (h : entries.find? key = some value) : (key, value) ∈ entries := by
  induction entries with
  | nil => cases h
  | cons e rest ih =>
    obtain ⟨k, v⟩ := e
    rw [find?] at h
    split at h
    · rename_i hk
      obtain rfl := Option.some.inj h
      exact hk ▸ List.mem_cons_self
    · exact List.mem_cons_of_mem _ (ih h)

end Sorted

/-! ### Batches by measurement -/

namespace RecordBatch

variable {b b' : RecordBatch} {r : Record} {records points : List Record} {name : String}

/-- The rows of a measurement, in the order of their arrival. -/
def rowsAt (b : RecordBatch) (name : String) : List Row := ((b.tables.find? name).map Array.toList).getD []

/-- Whether a record can be taken in: it has a time, and a value at least. -/
def fillable (r : Record) : Bool := r.row.timestampAndValues.toOption.isSome && r.row.valueCount != 0

theorem append_cases (b : RecordBatch) (r : Record) :
    fillable r = true ∧ (∃ b', b.append r = .ok b') ∨
      fillable r = false ∧ ∃ fault, b.append r = .error (.parse fault) := by
  rw [append, fillable]
  cases r.row.timestampAndValues with
  | error fault => exact .inr ⟨rfl, _, rfl⟩
  | ok parts =>
    by_cases hcount : r.row.valueCount = 0 <;> simp [hcount, Except.toOption]

theorem append_of_fillable (h : fillable r = true) (b : RecordBatch) : ∃ b', b.append r = .ok b' := by
  rcases append_cases b r with ⟨-, hb⟩ | ⟨hr, -⟩
  · exact hb
  · rw [h] at hr
    cases hr

theorem Ordered.rowsAt_append (hordered : b.Ordered) (h : b.append r = .ok b') (name : String) :
    b'.rowsAt name = b.rowsAt name ++ if r.measurement = name then [r.row] else [] := by
  rw [append_eq_ok h, rowsAt, rowsAt]
  split
  · rename_i hname
    subst hname
    rw [Sorted.find?_update_self _ _ _ hordered]
    cases b.tables.find? r.measurement <;> simp
  · rename_i hname
    rw [Sorted.find?_update_of_ne (Ne.symm hname), List.append_nil]

/-- The batch has its tables in order and holds these records. -/
structure Stores (b : RecordBatch) (records : List Record) : Prop where
  ordered : b.Ordered
  rows : ∀ name, b.rowsAt name = (records.filter (·.measurement = name)).map (·.row)
  held : Batch.Holds b records

theorem Stores.append (hb : b.Stores records) (h : b.append r = .ok b') : b'.Stores (records ++ [r]) where
  ordered := hb.ordered.append h
  rows name := by
    rw [hb.ordered.rowsAt_append h, hb.rows, List.filter_append, List.map_append]
    by_cases hname : r.measurement = name <;> simp [hname]
  held := .append hb.held h

/-- A batch takes in the records that can be taken in, and passes over the others. -/
theorem Stores.fill (hb : b.Stores records) (points : List Record) :
    ((Batch.fill points b).1 : RecordBatch).Stores (records ++ points.filter fillable) := by
  induction points generalizing b records with
  | nil => simpa [Batch.fill] using hb
  | cons r points ih =>
    rcases append_cases b r with ⟨hr, b', hb'⟩ | ⟨hr, fault, hfault⟩
    · have happend : Batch.append b r = .ok b' := hb'
      have hrest := ih (hb.append hb')
      rw [List.append_assoc, List.singleton_append] at hrest
      simpa only [Batch.fill, happend, List.filter_cons_of_pos hr] using hrest
    · have happend : Batch.append b r = .error (.parse fault) := hfault
      simpa [Batch.fill, happend, hr] using ih hb

theorem fill_answers (h : ∀ r ∈ points, fillable r = true) (b : RecordBatch) :
    (Batch.fill points b).2 = points.map fun _ => .ok () := by
  induction points generalizing b with
  | nil => rfl
  | cons r points ih =>
    obtain ⟨hr, hpoints⟩ := List.forall_mem_cons.1 h
    obtain ⟨b', hb'⟩ := append_of_fillable hr b
    have happend : Batch.append b r = .ok b' := hb'
    simp only [Batch.fill, happend, ih hpoints, List.map_cons]

theorem stores_empty : (Batch.empty : RecordBatch).Stores [] := ⟨.nil, fun _ => rfl, .empty⟩

/-- The tables that a reset leaves have no rows. -/
theorem Ordered.stores_reset (h : b.Ordered) : b.reset.Stores [] where
  ordered := h.reset
  rows name := by
    rw [rowsAt]
    cases hfind : b.reset.tables.find? name with
    | none => rfl
    | some rows =>
      obtain ⟨table, -, heq⟩ := List.mem_map.1 (Sorted.mem_of_find? hfind)
      obtain ⟨-, rfl⟩ := Prod.mk.inj heq
      rfl
  held := .reset b

theorem stores_recycled (rounds : List (List Record)) : (Batch.recycled rounds : RecordBatch).Stores [] := by
  induction rounds using List.reverseRecOn with
  | nil => exact stores_empty
  | append_singleton rounds points ih =>
    rw [Batch.recycled_concat]
    exact (ih.fill points).ordered.stores_reset

theorem Ordered.mem_pending (h : b.Ordered) {rows : List Row} :
    (name, rows) ∈ b.pending ↔ b.rowsAt name = rows ∧ rows ≠ [] := by
  simp only [pending, List.mem_map, List.mem_filter, Prod.mk.injEq, rowsAt]
  constructor
  · rintro ⟨⟨name, table⟩, ⟨hmem, hsome⟩, rfl, rfl⟩
    rw [Sorted.find?_of_mem h hmem]
    exact ⟨rfl, by simpa using hsome⟩
  · rintro ⟨rfl, hne⟩
    cases hfind : b.tables.find? name with
    | none => simp [hfind] at hne
    | some table =>
      rw [hfind] at hne
      exact ⟨(name, table), ⟨Sorted.mem_of_find? hfind, by simpa using hne⟩, rfl, rfl⟩

/-- A batch shows the rows of the measurements that have some, in the order of the names. -/
theorem Ordered.pending_eq (h : b.Ordered) : ∃ names : List String, b.pending = names.map (fun name => (name, b.rowsAt name)) ∧
    names.Pairwise (· < ·) ∧ ∀ name, name ∈ names ↔ b.rowsAt name ≠ [] := by
  refine ⟨b.pending.map (·.1), ?_, ?_, ?_⟩
  · rw [List.map_map]
    refine (List.map_id _).symm.trans (List.map_congr_left fun table htable => ?_)
    exact Prod.ext rfl (h.mem_pending.1 htable).1.symm
  · rw [List.pairwise_map, pending, List.pairwise_map]
    exact List.Pairwise.filter _ h
  · intro name
    rw [List.mem_map]
    constructor
    · rintro ⟨⟨name, rows⟩, hmem, rfl⟩
      obtain ⟨hrows, hne⟩ := h.mem_pending.1 hmem
      exact hrows ▸ hne
    · exact fun hne => ⟨(name, b.rowsAt name), h.mem_pending.2 ⟨rfl, hne⟩, rfl⟩

theorem Stores.rowsAt_ne_nil (hb : b.Stores records) (name : String) :
    b.rowsAt name ≠ [] ↔ ∃ r ∈ records, r.measurement = name := by
  rw [hb.rows, Ne, List.map_eq_nil_iff, List.filter_eq_nil_iff]
  simp

end RecordBatch

/-! ### The text -/

theorem mapM_eq_ok {ε α β : Type} {f : α → Except ε β} {g : α → β} {xs : List α} (h : ∀ x ∈ xs, f x = .ok (g x)) :
    xs.mapM f = .ok (xs.map g) := by
  induction xs with
  | nil => rfl
  | cons x xs ih =>
    obtain ⟨hx, hxs⟩ := List.forall_mem_cons.1 h
    rw [List.mapM_cons, hx, ih hxs]
    rfl

namespace Exposition

variable {header : Header} {b : RecordBatch} {r : Record} {records : List Record} {lines : List String}

/-- The lines of a record under a header: one for each field of its measurement, with the labels of its row, the text
    of the value as it is, and the time in milliseconds, rounded towards zero. -/
def Sampled (header : Header) (r : Record) (lines : List String) : Prop :=
  ∃ keys time values nanos, header.fields? r.measurement = some keys ∧
    r.row.fields = ",".intercalate (time :: values) ∧ (∀ part ∈ time :: values, ',' ∉ part.toList) ∧
    Text.readInt Text.maxInt64 time.toList = .ok nanos ∧
    values.length = keys.length ∧ lines.length = keys.length ∧
    ∀ (i : Nat) (key value : String), keys[i]? = some key → values[i]? = some value →
      lines[i]? = some (line r.measurement key r.row value (nanos.tdiv 1000000))

/-- The fields that the header lists for a record. -/
def fieldsOf (header : Header) (r : Record) : List String := (header.fields? r.measurement).getD []

/-- The lines of a record that fits the header. -/
def linesOf (header : Header) (r : Record) : List String :=
  (rowSamples r.measurement (fieldsOf header r) r.row).toOption.getD []

/-- The record has all that its lines need. -/
structure Renders (header : Header) (r : Record) : Prop where
  listed : header.fields? r.measurement = some (fieldsOf header r)
  timed : ∃ parts, r.row.timestampAndValues = .ok parts
  counted : r.row.valueCount = (fieldsOf header r).length
  lines : rowSamples r.measurement (fieldsOf header r) r.row = .ok (linesOf header r)
  length : (linesOf header r).length = (fieldsOf header r).length
  sampled : Sampled header r (linesOf header r)

theorem renders_of_check (h : r.check header = .ok ()) : Renders header r := by
  obtain ⟨keys, time, values, hkeys, hlength, hint, hsplit⟩ := Record.check_eq_ok_iff.1 h
  obtain ⟨nanos, hnanos⟩ := Text.exists_readInt_eq_ok hint
  have hparts : r.row.timestampAndValues = .ok (nanos, values) := Row.timestampAndValues_eq_ok.2 ⟨time, hsplit, hnanos⟩
  have hfields : fieldsOf header r = keys := by rw [fieldsOf, hkeys, Option.getD_some]
  have hsamples : rowSamples r.measurement keys r.row = .ok _ :=
    rowSamples_eq_ok.2 ⟨nanos, values, hparts, hlength, rfl⟩
  have hlines : linesOf header r = rowLines r.measurement keys values r.row (nanos.tdiv 1000000) := by
    rw [linesOf, hfields, hsamples]
    rfl
  have hcount : (linesOf header r).length = keys.length := by rw [hlines, length_rowLines hlength]
  refine ⟨?_, ⟨_, hparts⟩, ?_, ?_, ?_, keys, time, values, nanos, hkeys, ?_, ?_, hnanos, hlength, hcount, ?_⟩
  · rw [hfields, hkeys]
  · rw [hfields, Row.valueCount_of_split hsplit, hlength]
  · rw [hfields, hlines, hsamples]
  · rw [hfields, hcount]
  · rw [← hsplit]
    exact (Text.intercalate_split (by decide) _).symm
  · exact fun part hpart => Text.not_mem_of_mem_split (hsplit ▸ hpart)
  · intro i key value hkey hvalue
    rw [hlines]
    exact rowLines_getElem? hkey hvalue

theorem Renders.fillable (h : Renders header r) (hlisted : fieldsOf header r ≠ []) : RecordBatch.fillable r = true := by
  obtain ⟨parts, hparts⟩ := h.timed
  have hcount : r.row.valueCount ≠ 0 := by
    rw [h.counted]
    exact Nat.ne_of_gt (List.length_pos_iff.2 hlisted)
  rw [RecordBatch.fillable, hparts]
  simpa [Except.toOption] using hcount

theorem tableSamples_eq_ok (hb : b.Stores records) (hrenders : ∀ r ∈ records, Renders header r)
    {name : String} (hname : ∃ r ∈ records, r.measurement = name) :
    tableSamples header (name, b.rowsAt name) =
      .ok ((records.filter (·.measurement = name)).flatMap (linesOf header)) := by
  -- all rows of the table are of one measurement, so the fields of its first record are those of every row
  obtain ⟨first, hfirst, rfl⟩ := hname
  have hrows : (b.rowsAt first.measurement).mapM (rowSamples first.measurement (fieldsOf header first)) =
      .ok ((b.rowsAt first.measurement).map fun row => linesOf header ⟨first.measurement, row⟩) := by
    refine mapM_eq_ok fun row hrow => ?_
    rw [hb.rows] at hrow
    obtain ⟨r, hr, rfl⟩ := List.mem_map.1 hrow
    obtain ⟨hmem, hname⟩ := List.mem_filter.1 hr
    have hsame : r.measurement = first.measurement := of_decide_eq_true hname
    simpa [fieldsOf, ← hsame] using (hrenders r hmem).lines
  have hlines : (b.rowsAt first.measurement).map (fun row => linesOf header ⟨first.measurement, row⟩) =
      (records.filter (·.measurement = first.measurement)).map (linesOf header) := by
    rw [hb.rows, List.map_map]
    refine List.map_congr_left fun r hr => ?_
    have hsame : r.measurement = first.measurement := of_decide_eq_true (List.mem_filter.1 hr).2
    rw [← hsame]
    rfl
  rw [tableSamples, (hrenders first hfirst).listed]
  dsimp only [bind, Except.bind]
  rw [hrows, hlines]
  rfl

theorem flatMap_perm {names : List String} (hnames : names.Nodup) (hmem : ∀ r ∈ records, r.measurement ∈ names) :
    (names.flatMap fun name => records.filter (·.measurement = name)).Perm records := by
  induction names generalizing records with
  | nil =>
    obtain rfl : records = [] := List.eq_nil_iff_forall_not_mem.2 fun r hr => List.not_mem_nil (hmem r hr)
    exact .nil
  | cons name names ih =>
    obtain ⟨hname, hnames⟩ := List.nodup_cons.1 hnames
    -- the other names find their records among those without the first
    have hothers : (names.flatMap fun other => records.filter (·.measurement = other)) =
        names.flatMap fun other => (records.filter fun r => !decide (r.measurement = name)).filter
          (·.measurement = other) := by
      refine List.flatMap_congr fun other hother => ?_
      rw [List.filter_filter]
      refine List.filter_congr fun r _ => ?_
      by_cases heq : r.measurement = other
      · have hne : other ≠ name := fun h => hname (h ▸ hother)
        simp [heq, hne]
      · simp [heq]
    rw [List.flatMap_cons, hothers]
    refine List.Perm.trans (List.Perm.append_left _ (ih hnames fun r hr => ?_)) (List.filter_append_perm _ _)
    obtain ⟨hr, hne⟩ := List.mem_filter.1 hr
    exact (List.mem_cons.1 (hmem r hr)).resolve_left (by simpa using hne)

theorem render_eq_ok (hb : b.Stores records) (hrenders : ∀ r ∈ records, Renders header r) :
    ∃ names : List String, names.Pairwise (· < ·) ∧ (∀ name, name ∈ names ↔ ∃ r ∈ records, r.measurement = name) ∧
      render header b = .ok (String.join ((names.flatMap fun name => records.filter (·.measurement = name)).flatMap
          (linesOf header)), (records.map fun r => (fieldsOf header r).length).sum) := by
  obtain ⟨names, hpending, hordered, hmem⟩ := hb.ordered.pending_eq
  simp only [hb.rowsAt_ne_nil] at hmem
  refine ⟨names, hordered, hmem, ?_⟩
  have hsamples : samples header b =
      .ok ((names.flatMap fun name => records.filter (·.measurement = name)).flatMap (linesOf header)) := by
    have htables : b.pending.mapM (tableSamples header) = .ok (b.pending.map fun table =>
        (records.filter (·.measurement = table.1)).flatMap (linesOf header)) := by
      refine mapM_eq_ok fun table htable => ?_
      rw [hpending] at htable
      obtain ⟨name, hname, rfl⟩ := List.mem_map.1 htable
      exact tableSamples_eq_ok hb hrenders ((hmem name).1 hname)
    rw [samples, htables, hpending, List.map_map, List.flatMap_assoc]
    rfl
  -- the lines are counted record by record, whatever their order
  have hperm := flatMap_perm (hordered.imp String.ne_of_lt) fun r hr => (hmem _).2 ⟨r, hr, rfl⟩
  have hcount := (hperm.map fun r => (linesOf header r).length).sum_nat
  rw [render, hsamples]
  dsimp only
  rw [List.length_flatMap, hcount, List.map_congr_left fun r hr => (hrenders r hr).length]

theorem judge_ne_parse (t : Target) (address : Web.Address) (reply : Web.Reply) (fault : ParseFault) :
    t.judge address reply ≠ .error (.parse fault) := by
  cases reply with
  | unreachable => exact fun h => nomatch h
  | answered response =>
    rw [Target.judge]
    split
    · exact fun h => nomatch h
    · split <;> exact fun h => nomatch h

/-- Records that pass the check of a header that lists fields for them are taken in by every batch, and a batch that was
    filled with them, new or used before, is sent as text: by the names of the measurements in the order of their bytes,
    then in the order of arrival, then in the order of the fields, with one line for each value. There are as many lines
    as the batch counts values, and as the header lists fields. No batch of records that pass the check, whether or not
    it has taken them all in, is a cause for a fault of parsing when it is sent. -/
theorem checked_render (header : Header) (rounds : List (List Record)) (records : List Record)
    (hcheck : ∀ r ∈ records, r.check header = .ok ()) :
    let batch := Batch.fill records (Batch.recycled rounds : RecordBatch)
    ((∀ r ∈ records, fieldsOf header r ≠ []) →
      (∀ r ∈ records, ∀ b : RecordBatch, ∃ b', Batch.append b r = .ok b') ∧
      batch.2 = records.map (fun _ => .ok ()) ∧
      ∃ (names : List String) (lines : Record → List String),
        names.Pairwise (fun a b => a.toUTF8.data.toList < b.toUTF8.data.toList) ∧
        (∀ name, name ∈ names ↔ ∃ r ∈ records, r.measurement = name) ∧
        (∀ r ∈ records, Sampled header r (lines r)) ∧
        render header batch.1 =
          .ok (String.join ((names.flatMap fun name => records.filter (·.measurement = name)).flatMap lines),
            (Batch.counts batch.1).metrics) ∧
        (Batch.counts batch.1).metrics = (records.map fun r => (fieldsOf header r).length).sum) ∧
    ∀ (ω : Type) (settings : TargetSettings) (network : Web.Network ω) (address : Web.Address) (s : ω)
      (fault : ParseFault),
      (Target.send .prometheus settings network (some ⟨address, header⟩) batch.1 s).1 ≠ .error (.parse fault) := by
  intro batch
  have hrenders : ∀ r ∈ records, Renders header r := fun r hr => renders_of_check (hcheck r hr)
  have hstores : batch.1.Stores (records.filter RecordBatch.fillable) := (RecordBatch.stores_recycled rounds).fill records
  constructor
  · intro hlisted
    have hfillable : ∀ r ∈ records, RecordBatch.fillable r = true :=
      fun r hr => (hrenders r hr).fillable (hlisted r hr)
    rw [List.filter_eq_self.2 hfillable] at hstores
    obtain ⟨names, hordered, hmem, hrender⟩ := render_eq_ok hstores hrenders
    have hmetrics : (Batch.counts batch.1).metrics = (records.map fun r => (fieldsOf header r).length).sum := by
      rw [hstores.held.metrics, List.map_congr_left fun r hr => (hrenders r hr).counted]
    refine ⟨fun r hr b => RecordBatch.append_of_fillable (hfillable r hr) b, RecordBatch.fill_answers hfillable _,
      names, linesOf header, hordered.imp Text.bytes_lt, hmem, fun r hr => (hrenders r hr).sampled, ?_, hmetrics⟩
    rw [hmetrics, hrender]
  · intro ω settings network address s fault
    obtain ⟨names, -, -, hrender⟩ := render_eq_ok hstores fun r hr => hrenders r (List.mem_filter.1 hr).1
    have hbody : Payload.body batch.1 header = .ok _ := congrArg (Except.map (·.1)) hrender
    rw [Target.send, Target.request]
    dsimp only [bind, Except.bind]
    rw [hbody]
    exact judge_ne_parse _ _ _ _

/-- A header with two measurements. -/
def mixedHeader : Header := (Header.empty.withMeasurement "mem" ["used"]).withMeasurement "cpu" ["user", "idle"]

/-- Records of both measurements, before, at and after the epoch. -/
def mixedRecords : List Record :=
  [⟨"mem", ⟨"host=a", "-1999999,0x1"⟩⟩, ⟨"cpu", ⟨"host=a", "0,1.50,2"⟩⟩, ⟨"mem", ⟨"", "+1999999,"⟩⟩]

/-- The batch held a record with other fields before. -/
theorem checked_render_mixed :
    (∀ r ∈ mixedRecords, r.check mixedHeader = .ok () ∧ fieldsOf mixedHeader r ≠ []) ∧
      (∃ (names : List String) (lines : Record → List String),
        names.Pairwise (fun a b => a.toUTF8.data.toList < b.toUTF8.data.toList) ∧
        (∀ name, name ∈ names ↔ ∃ r ∈ mixedRecords, r.measurement = name) ∧
        (∀ r ∈ mixedRecords, Sampled mixedHeader r (lines r)) ∧
        render mixedHeader (Batch.fill mixedRecords (Batch.recycled [[⟨"cpu", ⟨"", "1,2"⟩⟩]] : RecordBatch)).1 =
          .ok (String.join ((names.flatMap fun name => mixedRecords.filter (·.measurement = name)).flatMap lines), 4)) ∧
      (Target.send .prometheus TargetSettings.standard Web.noNetwork
        (some ⟨⟨"http", none, .segments ["write"], none, none⟩, mixedHeader⟩)
        (Batch.fill mixedRecords (Batch.recycled [[⟨"cpu", ⟨"", "1,2"⟩⟩]] : RecordBatch)).1 ()).1 ≠
          .error (.parse .headerOpen) := by
  have hcheck : ∀ r ∈ mixedRecords, r.check mixedHeader = .ok () := by
    simp only [mixedRecords, List.forall_mem_cons]
    exact ⟨rfl, rfl, rfl, fun _ h => nomatch h⟩
  have hlisted : ∀ r ∈ mixedRecords, fieldsOf mixedHeader r ≠ [] := by decide
  obtain ⟨hrender, hsend⟩ := checked_render mixedHeader [[⟨"cpu", ⟨"", "1,2"⟩⟩]] mixedRecords hcheck
  obtain ⟨-, -, names, lines, hordered, hmem, hsampled, htext, hcount⟩ := hrender hlisted
  refine ⟨fun r hr => ⟨hcheck r hr, hlisted r hr⟩, ⟨names, lines, hordered, hmem, hsampled, ?_⟩, hsend _ _ _ _ _ _⟩
  have hfour : (mixedRecords.map fun r => (fieldsOf mixedHeader r).length).sum = 4 := by decide
  rw [htext, hcount, hfour]

example : render mixedHeader (Batch.fill mixedRecords RecordBatch.empty).1 =
    .ok ("cpu_user\x7bhost=\"a\"\x7d 1.50 0\n" ++ "cpu_idle\x7bhost=\"a\"\x7d 2 0\n" ++
      "mem_used\x7bhost=\"a\"\x7d 0x1 -1\n" ++ "mem_used  1\n", 4) := rfl

end Exposition
end IngestBench
