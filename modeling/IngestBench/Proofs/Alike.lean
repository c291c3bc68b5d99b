import IngestBench.Proofs.Contents
import IngestBench.Run.Outcome
import IngestBench.Run.Step

/-! Runs over batches that are alike. Whatever a scan, a queue or a worker does, it does the same to batches and to
    their images under a map that keeps their counts, so that a run over noted batches is a run over the batches
    themselves, with the points of each batch noted beside it. -/

namespace IngestBench

variable {σ π β γ ν : Type}

/-! ### Images -/

def Pool.map (f : β → γ) (p : Pool β) : Pool γ := { p with idle := p.idle.map f }

def Queue.map (f : β → γ) (q : Queue β) : Queue γ := { q with items := q.items.map f }

def Queue.Offer.map (f : β → γ) : Offer β → Offer γ
  | .accepted queue => .accepted (queue.map f)
  | .full => .full
  | .refused => .refused

def Queue.Front.map (f : β → γ) : Front β → Front γ
  | .item b rest => .item (f b) (rest.map f)
  | .empty => .empty
  | .exhausted => .exhausted

def Scan.Phase.map (f : β → γ) : Scan.Phase π β → Scan.Phase π γ
  | .opening => .opening
  | .deciding => .deciding
  | .reading => .reading
  | .placing point => .placing point
  | .trading partition => .trading partition
  | .sending partition b last => .sending partition (f b) last
  | .flushing partition => .flushing partition
  | .finished fault => .finished fault

def Scan.map (f : β → γ) (s : Scan σ π β) : Scan σ π γ := ⟨s.source, s.slots.map f, s.stats, s.phase.map f⟩

def Worker.Phase.map (f : β → γ) : Worker.Phase β → Worker.Phase γ
  | .joining => .joining
  | .choosing => .choosing
  | .waiting => .waiting
  | .sending b attempts => .sending (f b) attempts
  | .leaving ending => .leaving ending
  | .closing ending => .closing ending
  | .parting ending backoff => .parting ending backoff
  | .ended result => .ended result

def Worker.map (f : β → γ) (w : Worker β) : Worker γ := ⟨w.number, w.sender, w.phase.map f, w.counts, w.batches⟩

def Run.Channel.map (f : β → γ) (c : Channel β) : Channel γ := ⟨c.queue.map f, c.line⟩

def Run.State.map (f : β → γ) (s : State σ π β ν) : State σ π γ ν where
  now := s.now
  stopping := s.stopping
  scan := s.scan.map f
  channels := s.channels.map (Channel.map f)
  workers := s.workers.map (Worker.map f)
  pool := s.pool.map f
  counters := s.counters
  gauge := s.gauge
  bucket := s.bucket
  scanJoined := s.scanJoined
  joined := s.joined

/-! ### Pools and queues -/

section
variable [Batch β π] [Batch γ π] {f : β → γ}

theorem Pool.get_map (hf : Batch.Alike f) (p : Pool β) :
    (p.map f).get (fun _ => Batch.empty) = ((p.get fun _ => Batch.empty).1 |> f, (p.get fun _ => Batch.empty).2.map f) := by
  unfold Pool.get Pool.map
  cases p.idle with
  | nil => simp [hf.empty]
  | cons b rest => rfl

theorem Pool.put_map (b : β) (p : Pool β) : (p.map f).put (f b) = (p.put b).map f := by
  unfold Pool.put Pool.map
  simp only [List.length_map]
  split <;> rfl

end

section
variable {f : β → γ} (q : Queue β)

theorem Queue.offer_map (b : β) : (q.map f).offer (f b) = (q.offer b).map f := by
  unfold Queue.offer Queue.map
  simp only [List.length_map]
  split
  · rfl
  · split
    · simp [Offer.map, Queue.map]
    · rfl

theorem Queue.front_map : (q.map f).front = q.front.map f := by
  unfold Queue.front Queue.map
  cases q.items with
  | nil =>
    simp only [List.map_nil]
    split <;> rfl
  | cons b rest => rfl

@[simp] theorem Queue.finish_map : (q.map f).finish = q.finish.map f := rfl

end

/-! ### Scans -/

namespace Scan

section
variable {f : β → γ} (s : Scan σ π β)

@[simp] theorem offered_map : (s.map f).offered = s.offered.map (Prod.map id f) := by
  obtain ⟨source, slots, stats, phase⟩ := s
  cases phase <;> rfl

@[simp] theorem sent_map : (s.map f).sent = s.sent.map f := by
  obtain ⟨source, slots, stats, phase⟩ := s
  cases phase with
  | sending partition b last => cases last <;> rfl
  | _ => rfl

@[simp] theorem turnedAway_map : (s.map f).turnedAway = s.turnedAway.map f := rfl

@[simp] theorem result?_map : (s.map f).result? = s.result? := by
  obtain ⟨source, slots, stats, phase⟩ := s
  cases phase with
  | finished fault => cases fault <;> rfl
  | _ => rfl

end

variable [Batch β π] [Batch γ π] {f : β → γ}

theorem place_map (hf : Batch.Alike f) (p : π) (n : Nat) (slots : List β) :
    place p n (slots.map f) = (place p n slots).map (List.map f) := by
  induction slots generalizing n with
  | nil => cases n <;> rfl
  | cons b rest ih =>
    cases n with
    | zero =>
      simp only [List.map_cons, place, hf.append]
      cases Batch.append b p <;> rfl
    | succ n =>
      simp only [List.map_cons, place, ih]
      cases place p n rest <;> rfl

theorem rowsAt_map (hf : Batch.Alike f) (slots : List β) (n : Nat) : rowsAt (slots.map f) n = rowsAt slots n := by
  unfold rowsAt
  rw [List.getElem?_map]
  cases slots[n]? with
  | none => rfl
  | some b => simp [hf.counts]

theorem advance_map (hf : Batch.Alike f) (plan : Plan σ π) (stop : Bool) (s : Scan σ π β) (pool : Pool β) :
    (s.map f).advance plan stop (pool.map f) = (s.advance plan stop pool).map (Prod.map (Scan.map f) (Pool.map f)) := by
  obtain ⟨source, slots, stats, phase⟩ := s
  cases phase with
  | opening =>
    simp only [advance, Scan.map, Phase.map, List.length_map, Pool.get_map hf]
    split <;> simp [Scan.map, Phase.map]
  | deciding =>
    cases stop with
    | true => rfl
    | false =>
      by_cases hl : plan.isLimit stats.pointsRead = true <;> simp [advance, Scan.map, Phase.map, hl]
  | reading =>
    simp only [advance, Scan.map, Phase.map]
    split <;> rfl
  | placing p =>
    simp only [advance, Scan.map, Phase.map, place_map hf]
    split
    · cases place p (plan.partition p) slots with
      | error fault => rfl
      | ok slots' =>
        simp only [Except.map, rowsAt_map hf]
        split <;> rfl
    · rfl
  | trading n =>
    simp only [advance, Scan.map, Phase.map, List.getElem?_map, Pool.get_map hf]
    cases slots[n]? with
    | none => rfl
    | some b => simp [Scan.map, Phase.map, List.map_set]
  | flushing n =>
    cases slots with
    | nil => rfl
    | cons b rest =>
      simp only [advance, Scan.map, Phase.map, List.map_cons, hf.counts, ← hf.reset, Pool.put_map]
      split <;> rfl
  | sending n b flushing => rfl
  | finished fault => rfl

/-- A scan on its own does the same to batches that are alike. -/
theorem play_map (hf : Batch.Alike f) (plan : Plan σ π) (stop : σ → Bool) (receiving : Bool) (fuel : Nat)
    (s : Scan σ π β) (pool : Pool β) (taken : List (Nat × β)) :
    play plan stop receiving fuel (s.map f) (pool.map f) (taken.map (Prod.map id f)) =
      Prod.map (Scan.map f) (Prod.map (Pool.map f) (List.map (Prod.map id f)))
        (play plan stop receiving fuel s pool taken) := by
  induction fuel generalizing s pool taken with
  | zero => rfl
  | succ fuel ih =>
    simp only [play, offered_map, sent_map, turnedAway_map, advance_map hf]
    cases s.offered with
    | some x =>
      cases receiving with
      | true => exact ih s.sent pool (x :: taken)
      | false => exact ih s.turnedAway pool taken
    | none =>
      rw [show (s.map f).source = s.source from rfl]
      cases s.advance plan (stop s.source) pool with
      | some x => exact ih x.1 x.2 taken
      | none => rfl

end Scan
end IngestBench
