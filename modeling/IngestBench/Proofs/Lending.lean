import IngestBench.Pool
import IngestBench.Proofs.Contents
import Mathlib.Data.List.Perm.Basic
import Mathlib.Logic.Relation

/-! A pool that many clients share. They take objects out and put back what they hold, in any order, and one may come
    between another's look at the idle objects and the counting of what it found. -/

namespace IngestBench

/-- An object, known by the number of objects that were made before it. -/
structure Piece (α : Type) where
  number : Nat
  value : α

/-- How far a client has come that wants an object. -/
inductive Getting (α : Type)
  /-- Has taken an idle object, and has yet to count it. -/
  | popped (x : Piece α)
  /-- Has found no idle object. -/
  | missed
  /-- Has counted the object that it is about to make. -/
  | counted (number : Nat)

/-- A pool with its clients: who holds which objects, who is about to get one, what was dropped, and all that was
    handed out, as it was then. -/
structure Lending (α : Type) where
  pool : Pool (Piece α)
  held : List (Nat × Piece α)
  getting : List (Nat × Getting α)
  dropped : List (Piece α)
  handed : List (Piece α)

variable {α : Type}

namespace Getting

@[simp] def number? : Getting α → Option Nat
  | popped x => some x.number
  | missed => none
  | counted n => some n

@[simp] def isCounted : Getting α → Bool
  | counted _ => true
  | _ => false

end Getting

namespace Lending

def start (maxIdle : Nat) : Lending α := ⟨.empty maxIdle, [], [], [], []⟩

/-- What clients do. Objects are made by `make`, and pass through `clear` before they are put back. -/
inductive Step (make : Nat → α) (clear : α → α) : Lending α → Lending α → Prop
  /-- Finds an idle object, and takes it. -/
  | pop {s : Lending α} {client : Nat} {x : Piece α} {rest : List (Piece α)} : s.pool.idle = x :: rest →
    Step make clear s { s with pool := { s.pool with idle := rest }, getting := (client, .popped x) :: s.getting }
  | miss {s : Lending α} {client : Nat} : s.pool.idle = [] →
    Step make clear s { s with getting := (client, .missed) :: s.getting }
  /-- Counts the idle object that it has taken, and has it. -/
  | reuse {s : Lending α} {client : Nat} {x : Piece α} {before after : List (Nat × Getting α)} :
    s.getting = before ++ (client, .popped x) :: after →
    Step make clear s { s with
      pool := { s.pool with reused := s.pool.reused + 1 }
      held := (client, x) :: s.held
      getting := before ++ after
      handed := x :: s.handed }
  /-- Counts an object before it is made. -/
  | count {s : Lending α} {client : Nat} {before after : List (Nat × Getting α)} :
    s.getting = before ++ (client, .missed) :: after →
    Step make clear s { s with
      pool := { s.pool with created := s.pool.created + 1 }
      getting := before ++ (client, .counted s.pool.created) :: after }
  | make {s : Lending α} {client n : Nat} {before after : List (Nat × Getting α)} :
    s.getting = before ++ (client, .counted n) :: after →
    Step make clear s { s with
      held := (client, ⟨n, make n⟩) :: s.held
      getting := before ++ after
      handed := ⟨n, make n⟩ :: s.handed }
  /-- Changes an object that is held, or passes it on. -/
  | use {s : Lending α} {client other : Nat} {x : Piece α} {value : α} {before after : List (Nat × Piece α)} :
    s.held = before ++ (client, x) :: after →
    Step make clear s { s with held := before ++ (other, { x with value }) :: after }
  /-- Puts back an object that is held; there may be no room for it. -/
  | put {s : Lending α} {client : Nat} {x : Piece α} {before after : List (Nat × Piece α)} :
    s.held = before ++ (client, x) :: after →
    Step make clear s { s with
      pool := s.pool.put { x with value := clear x.value }
      held := before ++ after
      dropped := if s.pool.idle.length < s.pool.maxIdle then s.dropped else x :: s.dropped }
  /-- Lets go of an object that is held. -/
  | drop {s : Lending α} {client : Nat} {x : Piece α} {before after : List (Nat × Piece α)} :
    s.held = before ++ (client, x) :: after →
    Step make clear s { s with held := before ++ after, dropped := x :: s.dropped }

/-- The numbers of all objects, wherever they are. -/
def numbers (s : Lending α) : List Nat :=
  s.held.map (·.2.number) ++ s.getting.filterMap (·.2.number?) ++ s.pool.idle.map (·.number) ++
    s.dropped.map (·.number)

/-- Each object that was made is in one place, and each one that was handed out was counted. -/
structure Kept (maxIdle : Nat) (s : Lending α) : Prop where
  numbers : s.numbers.Perm (List.range s.pool.created)
  counts : s.pool.created + s.pool.reused = s.handed.length + s.getting.countP (·.2.isCounted)
  room : s.pool.idle.length ≤ s.pool.maxIdle
  maxIdle : s.pool.maxIdle = maxIdle

variable {make : Nat → α} {clear : α → α} {maxIdle : Nat} {s t : Lending α}

theorem kept_start (maxIdle : Nat) : (start maxIdle : Lending α).Kept maxIdle :=
  ⟨.refl _, rfl, Nat.zero_le _, rfl⟩

/-- An object changes its place, or is a new one. -/
theorem Step.count_numbers (h : Step make clear s t) (n : Nat) :
    t.numbers.count n + (List.range s.pool.created).count n =
      s.numbers.count n + (List.range t.pool.created).count n := by
  cases h with
  | pop hplace | reuse hplace | count hplace | make hplace | drop hplace =>
    simp only [Lending.numbers, hplace, List.map_append, List.map_cons, List.filterMap_append, List.filterMap_cons,
      Getting.number?, List.count_append, List.count_cons, List.range_succ, List.count_nil]
    omega
  | miss => rfl
  | use hplace => simp only [Lending.numbers, hplace, List.map_append, List.map_cons]
  | put hplace =>
    simp only [Pool.put]
    split
    · simp only [Lending.numbers, hplace, List.map_append, List.map_cons, List.count_append, List.count_cons]
      omega
    · simp only [Lending.numbers, hplace, List.map_append, List.map_cons, List.count_append, List.count_cons]
      omega

theorem Step.counts (h : Step make clear s t) :
    t.pool.created + t.pool.reused + s.handed.length + s.getting.countP (·.2.isCounted) =
      s.pool.created + s.pool.reused + t.handed.length + t.getting.countP (·.2.isCounted) := by
  cases h with
  | reuse hplace | count hplace | make hplace =>
    simp only [hplace, List.countP_append, List.countP_cons, Getting.isCounted, List.length_cons]
    simp
    omega
  | pop | miss => simp
  | use | drop => rfl
  | put hplace =>
    simp only [Pool.put]
    split <;> rfl

theorem Step.room (h : Step make clear s t) (hroom : s.pool.idle.length ≤ s.pool.maxIdle) :
    t.pool.idle.length ≤ t.pool.maxIdle ∧ t.pool.maxIdle = s.pool.maxIdle := by
  cases h with
  | pop hidle =>
    rw [hidle] at hroom
    exact ⟨Nat.le_of_succ_le hroom, rfl⟩
  | put hplace =>
    refine ⟨Pool.length_idle_put_le _ _ hroom, ?_⟩
    simp only [Pool.put]
    split <;> rfl
  | _ => exact ⟨hroom, rfl⟩

theorem Kept.step (hs : s.Kept maxIdle) (h : Step make clear s t) : t.Kept maxIdle := by
  obtain ⟨hroom, hmax⟩ := h.room hs.room
  refine ⟨List.perm_iff_count.2 fun n => ?_, ?_, hroom, hmax.trans hs.maxIdle⟩
  · have hcount := h.count_numbers n
    rw [hs.numbers.count_eq] at hcount
    omega
  · have hcounts := h.counts
    have hbefore := hs.counts
    omega

theorem kept_of_steps (h : Relation.ReflTransGen (Step make clear) (start maxIdle) s) : s.Kept maxIdle := by
  induction h with
  | refl => exact kept_start maxIdle
  | tail _ hstep ih => exact ih.step hstep

/-! ### What is handed out -/

/-- What is idle, taken or handed out is as objects are that were just made, or cleared. -/
structure Fit (P : α → Prop) (s : Lending α) : Prop where
  idle : ∀ x ∈ s.pool.idle, P x.value
  popped : ∀ client x, (client, .popped x) ∈ s.getting → P x.value
  handed : ∀ x ∈ s.handed, P x.value

variable {P : α → Prop}

theorem Fit.step (hs : s.Fit P) (hmake : ∀ n, P (make n)) (hclear : ∀ v, P (clear v)) (h : Step make clear s t) :
    t.Fit P := by
  obtain ⟨hidle, hpopped, hhanded⟩ := hs
  -- Whoever is still about to get an object was so before.
  have hrest : ∀ {before after : List (Nat × Getting α)} {g : Nat × Getting α}, s.getting = before ++ g :: after →
      ∀ client x, (client, .popped x) ∈ before ++ after → P x.value := fun hplace client x hmem =>
    hpopped client x (hplace ▸ List.mem_append.2 ((List.mem_append.1 hmem).imp_right (List.mem_cons_of_mem _)))
  cases h with
  | pop hplace =>
    rw [hplace] at hidle
    refine ⟨fun y hy => hidle y (List.mem_cons_of_mem _ hy), fun client y hy => ?_, hhanded⟩
    rcases List.mem_cons.1 hy with hy | hy
    · cases hy
      exact hidle _ List.mem_cons_self
    · exact hpopped client y hy
  | miss hplace =>
    refine ⟨hidle, fun client y hy => ?_, hhanded⟩
    rcases List.mem_cons.1 hy with hy | hy
    · cases hy
    · exact hpopped client y hy
  | @reuse client x before after hplace =>
    have hx := hpopped client x (hplace ▸ List.mem_append_right _ List.mem_cons_self)
    exact ⟨hidle, hrest hplace, List.forall_mem_cons.2 ⟨hx, hhanded⟩⟩
  | count hplace =>
    refine ⟨hidle, fun client y hy => ?_, hhanded⟩
    rcases List.mem_append.1 hy with hy | hy
    · exact hrest hplace client y (List.mem_append_left _ hy)
    · rcases List.mem_cons.1 hy with hy | hy
      · cases hy
      · exact hrest hplace client y (List.mem_append_right _ hy)
  | make hplace => exact ⟨hidle, hrest hplace, List.forall_mem_cons.2 ⟨hmake _, hhanded⟩⟩
  | use | drop => exact ⟨hidle, hpopped, hhanded⟩
  | put hplace =>
    refine ⟨?_, hpopped, hhanded⟩
    simp only [Pool.put]
    split
    · exact List.forall_mem_cons.2 ⟨hclear _, hidle⟩
    · exact hidle

theorem fit_of_steps (hmake : ∀ n, P (make n)) (hclear : ∀ v, P (clear v))
    (h : Relation.ReflTransGen (Step make clear) (start maxIdle) s) : s.Fit P := by
  induction h with
  | refl => exact ⟨nofun, nofun, nofun⟩
  | tail _ hstep ih => exact ih.step hmake hclear hstep

theorem zero_of_parts {c : Counts} (hrows : c.rows = 0) (hmetrics : c.metrics = 0) : c = .zero := by
  obtain ⟨rows, metrics⟩ := c
  rw [Counts.zero, Counts.mk.injEq]
  exact ⟨hrows, hmetrics⟩

/-- Batches that clients have filled are empty when they are handed out again. -/
theorem counts_handed {β π : Type} [Batch β π] {metrics : π → Nat} [Batch.CountsRows β]
    [Batch.CountsMetrics β metrics] {made : Nat → β} {lent : Lending β} (hmade : ∀ n, Batch.counts (made n) = .zero)
    (h : Relation.ReflTransGen (Step made Batch.reset) (start maxIdle) lent) :
    ∀ x ∈ lent.handed, Batch.counts x.value = .zero := by
  have hreset : ∀ b : β, Batch.counts (Batch.reset b) = .zero := fun b => by
    have hrows : (Batch.counts (Batch.reset b)).rows = 0 := Batch.CountsRows.rows_reset b
    have hmetrics : (Batch.counts (Batch.reset b)).metrics = 0 := Batch.CountsMetrics.metrics_reset b
    exact zero_of_parts hrows hmetrics
  exact (fit_of_steps (P := fun b => Batch.counts b = .zero) hmade hreset h).handed

/-- Whatever the clients of a pool have put in them, batches of lines and of records are handed out empty. -/
theorem formats_handed_empty (maxIdle : Nat) :
    (∀ lent : Lending LineBatch,
      Relation.ReflTransGen (Step (fun _ => Batch.empty) Batch.reset) (start maxIdle) lent →
        ∀ x ∈ lent.handed, Batch.counts x.value = .zero) ∧
    ∀ lent : Lending RecordBatch,
      Relation.ReflTransGen (Step (fun _ => Batch.empty) Batch.reset) (start maxIdle) lent →
        ∀ x ∈ lent.handed, Batch.counts x.value = .zero :=
  ⟨fun _ => counts_handed fun _ => rfl, fun _ => counts_handed fun _ => rfl⟩

/-! ### Clients that do not interrupt each other -/

/-- A client gets an object, and nobody comes between. -/
def lend (make : Nat → α) (client : Nat) (s : Lending α) : Lending α :=
  let (x, pool) := s.pool.get fun n => ⟨n, make n⟩
  { s with pool, held := (client, x) :: s.held, handed := x :: s.handed }

theorem lend_steps (make : Nat → α) (clear : α → α) (client : Nat) (s : Lending α) :
    Relation.ReflTransGen (Step make clear) s (s.lend make client) := by
  obtain ⟨⟨idle, maxIdle, created, reused⟩, held, getting, dropped, handed⟩ := s
  cases idle with
  | nil =>
    let looked : Lending α := ⟨⟨[], maxIdle, created, reused⟩, held, (client, .missed) :: getting, dropped, handed⟩
    let ready : Lending α :=
      ⟨⟨[], maxIdle, created + 1, reused⟩, held, (client, .counted created) :: getting, dropped, handed⟩
    have hmiss : Step make clear ⟨⟨[], maxIdle, created, reused⟩, held, getting, dropped, handed⟩ looked := .miss rfl
    have hcount : Step make clear looked ready := @Step.count _ make clear looked client [] getting rfl
    have hmake := @Step.make _ make clear ready client _ [] getting rfl
    exact ((Relation.ReflTransGen.single hmiss).tail hcount).tail hmake
  | cons x rest =>
    let taken : Lending α := ⟨⟨rest, maxIdle, created, reused⟩, held, (client, .popped x) :: getting, dropped, handed⟩
    have hpop : Step make clear ⟨⟨x :: rest, maxIdle, created, reused⟩, held, getting, dropped, handed⟩ taken :=
      .pop rfl
    exact (Relation.ReflTransGen.single hpop).tail (@Step.reuse _ make clear taken client x [] getting rfl)

/-! ### Safety -/

/-- Nobody holds what another holds, or what is idle, and the counts are true. -/
structure Safe (maxIdle : Nat) (s : Lending α) : Prop extends Kept maxIdle s where
  apart : (s.held.map (·.2.number) ++ s.pool.idle.map (·.number)).Nodup
  gets : s.getting = [] → s.pool.created + s.pool.reused = s.handed.length
  places : s.getting = [] → s.pool.created = s.held.length + s.pool.idle.length + s.dropped.length

theorem Kept.safe (h : s.Kept maxIdle) : s.Safe maxIdle where
  toKept := h
  apart := by
    have hnodup := h.numbers.nodup_iff.2 List.nodup_range
    refine hnodup.sublist ?_
    have hidle : (s.pool.idle.map (·.number)).Sublist
        (s.getting.filterMap (·.2.number?) ++ s.pool.idle.map (·.number) ++ s.dropped.map (·.number)) :=
      (List.sublist_append_right _ _).trans (List.sublist_append_left _ _)
    simpa only [Lending.numbers, List.append_assoc] using hidle.append_left (s.held.map (·.2.number))
  gets hgetting := by
    have hcounts := h.counts
    rwa [hgetting] at hcounts
  places hgetting := by
    have hlength := h.numbers.length_eq
    simp only [Lending.numbers, hgetting, List.length_append, List.length_map, List.filterMap_nil, List.length_range,
      List.length_nil] at hlength
    omega

/-- However many clients share a pool, and in whatever order they act: each object is in one place, the counts say
    how many there are, and a client can at any time get an object in one go. Batches that clients have filled are
    empty when they are handed out again. -/
theorem lending_safe :
    (∀ (α : Type) (make : Nat → α) (clear : α → α) (maxIdle : Nat) (s : Lending α),
      Relation.ReflTransGen (Step make clear) (start maxIdle) s →
        s.Safe maxIdle ∧ ∀ client, Relation.ReflTransGen (Step make clear) s (s.lend make client)) ∧
    (∀ (β π : Type) [Batch β π] (metrics : π → Nat) [Batch.CountsRows β] [Batch.CountsMetrics β metrics]
      (make : Nat → β) (maxIdle : Nat) (s : Lending β), (∀ n, Batch.counts (make n) = .zero) →
        Relation.ReflTransGen (Step make Batch.reset) (start maxIdle) s →
          ∀ x ∈ s.handed, Batch.counts x.value = .zero) := by
  constructor
  · exact fun α make clear maxIdle s h => ⟨(kept_of_steps h).safe, fun client => lend_steps make clear client s⟩
  · intro β π _ metrics _ _ make maxIdle s hmake h
    exact counts_handed hmake h

section
open Rehearsal

/-- There is room for one idle object. Two clients get one each; the first fills its own and puts it back, so that
    there is no room for the other, and it is the first that the second client gets again. -/
theorem lending_safe_two_clients : (∀ n : Nat, Batch.counts ((fun _ => ⟨[]⟩ : Nat → Numbers) n) = .zero) ∧
    ∃ s : Lending Numbers, Relation.ReflTransGen (Step (fun _ => ⟨[]⟩) Batch.reset) (start 1) s ∧
      s.pool.created = 2 ∧ s.pool.reused = 1 ∧ s.held.map (fun x => (x.1, x.2.number)) = [(1, 0)] ∧
      s.dropped.map (·.number) = [1] ∧ s.Safe 1 ∧ ∀ x ∈ s.handed, Batch.counts x.value = .zero := by
  let make : Nat → Numbers := fun _ => ⟨[]⟩
  let both : Lending Numbers := ((start 1).lend make 0).lend make 1
  let filled : Lending Numbers := { both with held := [(1, ⟨1, ⟨[]⟩⟩)] ++ (0, ⟨0, ⟨[5]⟩⟩) :: [] }
  let back : Lending Numbers :=
    { filled with pool := filled.pool.put ⟨0, Batch.reset ⟨[5]⟩⟩, held := [] ++ (1, ⟨1, ⟨[]⟩⟩) :: [] }
  let full : Lending Numbers := { back with pool := back.pool, held := [], dropped := [⟨1, ⟨[]⟩⟩] }
  have hboth : Relation.ReflTransGen (Step make Batch.reset) (start 1) both :=
    (lend_steps make _ 0 (start 1)).trans (lend_steps make _ 1 _)
  have huse : Step make Batch.reset both filled := @Step.use _ make _ both 0 0 ⟨0, ⟨[]⟩⟩ ⟨[5]⟩ [(1, ⟨1, ⟨[]⟩⟩)] [] rfl
  have hput : Step make Batch.reset filled back := @Step.put _ make _ filled 0 ⟨0, ⟨[5]⟩⟩ [(1, ⟨1, ⟨[]⟩⟩)] [] rfl
  have hfull : Step make Batch.reset back full := @Step.put _ make _ back 1 ⟨1, ⟨[]⟩⟩ [] [] rfl
  have hall := (((hboth.tail huse).tail hput).tail hfull).trans (lend_steps make _ 1 full)
  have hempty : ∀ n, Batch.counts (make n) = .zero := fun _ => rfl
  exact ⟨hempty, full.lend make 1, hall, rfl, rfl, rfl, rfl, (lending_safe.1 _ _ _ _ _ hall).1,
    lending_safe.2 _ _ (fun _ => 1) make 1 _ hempty hall⟩

end

end Lending
end IngestBench
