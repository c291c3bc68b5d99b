import IngestBench.Proofs.Alike

/-! Steps of a run over batches that are alike: each step does the same to a state and to its image, and a run comes
    to the same outcome. -/

namespace IngestBench
namespace Run

variable {σ π β γ ν : Type} {f : β → γ}

@[simp] theorem isActive_map (w : Worker β) : (w.map f).isActive = w.isActive := by
  obtain ⟨number, sender, phase, counts, batches⟩ := w
  cases phase <;> rfl

namespace Channel

@[simp] theorem enter_map (c : Channel β) (i : Nat) : (c.map f).enter i = (c.enter i).map f := rfl

@[simp] theorem leave_map (c : Channel β) (i : Nat) : (c.map f).leave i = (c.leave i).map f := rfl

@[simp] theorem isFirst_map (c : Channel β) (i : Nat) : (c.map f).isFirst i = c.isFirst i := rfl

end Channel

namespace State

variable (s : State σ π β ν)

/-! ### Updates -/

theorem setWorker_map (i : Nat) (w : Worker β) : (s.map f).setWorker i (w.map f) = (s.setWorker i w).map f := by
  simp [setWorker, State.map, List.map_set]

theorem setChannel_map (i : Nat) (c : Channel β) : (s.map f).setChannel i (c.map f) = (s.setChannel i c).map f := by
  simp [setChannel, State.map, List.map_set]

theorem updateChannel_map (i : Nat) {g : Channel β → Channel β} {h : Channel γ → Channel γ}
    (hg : ∀ c, h (c.map f) = (g c).map f) : (s.map f).updateChannel i h = (s.updateChannel i g).map f := by
  have key : ∀ (cs : List (Channel β)) (n : Nat),
      (cs.map (Channel.map f)).modify n h = (cs.modify n g).map (Channel.map f) := by
    intro cs
    induction cs with
    | nil => intro n; cases n <;> rfl
    | cons c cs ih =>
      intro n
      cases n with
      | zero => simp [hg]
      | succ n => simpa using ih n
  simp only [updateChannel, State.map, key]

theorem updateQueues_map {g : Queue β → Queue β} {h : Queue γ → Queue γ} (hg : ∀ q, h (q.map f) = (g q).map f) :
    (s.map f).updateQueues h = (s.updateQueues g).map f := by
  simp only [updateQueues, State.map, List.map_map, State.mk.injEq, true_and, and_true]
  refine List.map_congr_left fun c _ => ?_
  simp only [Function.comp_apply, Channel.map, hg]

theorem setScan_map (scan : Scan σ π β) : (s.map f).setScan (scan.map f) = (s.setScan scan).map f := by
  simp only [setScan, Scan.result?_map]
  split
  · exact updateQueues_map { s with scan } fun q => q.finish_map
  · rfl

@[simp] theorem isForced_map : (s.map f).isForced = s.isForced := rfl

theorem any_isActive_map (ws : List (Worker β)) : (ws.map (Worker.map f)).any Worker.isActive = ws.any Worker.isActive := by
  simp [List.any_map, Function.comp_def]

theorem channels_getElem?_map (c : Nat) : (s.map f).channels[c]? = s.channels[c]?.map (Channel.map f) := by
  simp [State.map]

theorem workers_getElem?_map (i : Nat) : (s.map f).workers[i]? = s.workers[i]?.map (Worker.map f) := by
  simp [State.map]

/-! ### Moves -/

theorem scanStep_map [Batch β π] [Batch γ π] (hf : Batch.Alike f) (plan : Plan σ π) :
    (s.map f).scanStep plan = (s.scanStep plan).map (State.map f) := by
  simp only [scanStep]
  rw [show (s.map f).scan = s.scan.map f from rfl, Scan.offered_map]
  cases s.scan.offered with
  | none =>
    simp only [Option.map_none]
    rw [show (s.map f).pool = s.pool.map f from rfl, show (s.map f).stopping = s.stopping from rfl,
      Scan.advance_map hf]
    cases s.scan.advance plan.scan s.stopping.level.isStopping s.pool with
    | none => rfl
    | some x => exact congrArg some (setScan_map { s with pool := x.2 } x.1)
  | some x =>
    obtain ⟨partition, b⟩ := x
    have hlen : (s.map f).channels.length = s.channels.length := by simp [State.map]
    simp only [Option.map_some, Prod.map_apply, id_eq, hlen, channels_getElem?_map, Scan.sent_map, Scan.turnedAway_map]
    cases s.channels[Queue.route s.channels.length partition]? with
    | none => rfl
    | some c =>
      simp only [Option.map_some, bind, Option.bind, show (c.map f).queue = c.queue.map f from rfl, Queue.offer_map]
      cases c.queue.offer b with
      | accepted queue =>
        simp only [Queue.Offer.map, Option.map_some]
        rw [← setScan_map, ← setChannel_map]
        rfl
      | full => simp [Queue.Offer.map]
      | refused =>
        simp only [Queue.Offer.map, Option.map_some]
        rw [← setScan_map]

theorem joinScan_map : (s.map f).joinScan = s.joinScan.map (State.map f) := by
  have hscan : (s.map f).scan = s.scan.map f := rfl
  have hlen : (s.map f).workers.length = s.workers.length := by simp [State.map]
  simp only [joinScan, hscan, Scan.result?_map]
  cases s.scan.result? with
  | none => rfl
  | some result =>
    simp only [bind, Option.bind]
    rw [show (s.map f).scanJoined = s.scanJoined from rfl]
    split
    · rfl
    · cases result with
      | ok stats => rfl
      | error fault =>
        simp only [hlen]
        rw [show (s.map f).joined = s.joined from rfl]
        split <;> rfl

section
variable (plan : Plan σ π) (i : Nat) (w : Worker β)

theorem retire_map : (s.map f).retire plan i (w.map f) = (s.retire plan i w).map f := by
  simp only [retire, setWorker_map]
  rw [show ((s.setWorker i w).map f).workers = (s.setWorker i w).workers.map (Worker.map f) from rfl,
    any_isActive_map]
  split
  · exact updateChannel_map _ _ fun _ => rfl
  · rfl

theorem leave_map (ending : Ending) : (s.map f).leave plan i (w.map f) ending = (s.leave plan i w ending).map f := by
  simp only [leave]
  rw [← updateChannel_map (f := f) _ _ (h := fun c => c.enter i) fun c => c.enter_map i, ← setWorker_map]
  rfl

theorem begin_map : (s.map f).begin i (w.map f) = (s.begin i w).map f := by
  simp only [begin, ← setWorker_map]
  rfl

theorem settle_map [Batch β π] [Batch γ π] (hf : Batch.Alike f) (b : β) (result : Retry.Result) :
    (s.map f).settle plan i (w.map f) (f b) result = (s.settle plan i w b result).map f := by
  cases result with
  | accepted attempts =>
    simp only [settle, hf.counts, ← hf.reset, ← setWorker_map]
    rw [show (s.map f).pool = s.pool.map f from rfl, Pool.put_map]
    rfl
  | refused fault => exact leave_map s plan i w _
  | overflow => exact retire_map s plan i { w with phase := .ended (.error (.internal (.crashed "wait out of range"))) }

theorem take_map : (s.map f).take plan i (w.map f) = (s.take plan i w).map (State.map f) := by
  simp only [take, channels_getElem?_map]
  cases s.channels[channelIndex plan.dedicated i]? with
  | none => rfl
  | some c =>
    have hqueue : (c.map f).queue = c.queue.map f := rfl
    simp only [Option.map_some, bind, Option.bind, Channel.isFirst_map]
    by_cases h : c.isFirst i = true
    · simp only [h, ↓reduceIte, hqueue, Queue.front_map]
      cases c.queue.front with
      | item b queue =>
        simp only [Queue.Front.map, Option.map_some]
        rw [← setWorker_map, ← setChannel_map]
        rfl
      | empty => rfl
      | exhausted =>
        simp only [Queue.Front.map, Option.map_some, Channel.leave_map]
        rw [← leave_map, ← setChannel_map]
    · simp only [h, Bool.false_eq_true, ↓reduceIte, Option.map_none]

theorem close_map (ending : Ending) :
    (s.map f).close plan i (w.map f) ending = (s.close plan i w ending).map (State.map f) := by
  simp only [close, channels_getElem?_map]
  cases s.channels[channelIndex plan.dedicated i]? with
  | none => rfl
  | some c =>
    simp only [Option.map_some, bind, Option.bind, Channel.isFirst_map]
    by_cases h : c.isFirst i = true
    · simp only [h, ↓reduceIte, Option.map_some]
      rw [← setWorker_map, ← setChannel_map]
      rfl
    · simp only [h, Bool.false_eq_true, ↓reduceIte, Option.map_none]

theorem summarize_map (ending : Ending) :
    (s.map f).summarize i (w.map f) ending = (s.summarize i w ending).map (State.map f) := by
  have hsender : (w.map f).sender = w.sender := rfl
  have hgauge : (s.map f).gauge = s.gauge := rfl
  have hnow : (s.map f).now = s.now := rfl
  simp only [summarize, hsender, hgauge, hnow]
  cases w.sender.tracker with
  | none => exact congrArg some (setWorker_map s i { w with phase := .parting ending w.sender.noBackoff })
  | some tracker =>
    simp only [Option.map_map]
    congr 1
    funext x
    exact setWorker_map { s with gauge := x.2 } i
      { w with sender := w.sender.unobserved, phase := .parting ending x.1 }

theorem advanceWorker_map [Batch β π] [Batch γ π] [Quantity ν] (hf : Batch.Alike f) :
    (s.map f).advanceWorker plan i (w.map f) = (s.advanceWorker plan i w).map (State.map f) := by
  obtain ⟨number, sender, phase, counts, batches⟩ := w
  cases phase with
  | joining =>
    simp only [advanceWorker, Worker.map, Worker.Phase.map]
    by_cases h : plan.sending = true
    · simp only [h, ↓reduceIte, Option.map_none]
    · simp only [h, Bool.false_eq_true, ↓reduceIte]
      exact congrArg some (begin_map s i ⟨number, sender, .joining, counts, batches⟩)
  | choosing =>
    simp only [advanceWorker, Worker.map, Worker.Phase.map, isForced_map]
    by_cases h : s.isForced = true
    · simp only [h, ↓reduceIte]
      exact congrArg some (leave_map s plan i ⟨number, sender, .choosing, counts, batches⟩ .stopped)
    · simp only [h, Bool.false_eq_true, ↓reduceIte, Option.map_some]
      rw [← updateChannel_map (f := f) _ _ (h := fun c => c.enter i) fun c => c.enter_map i, ← setWorker_map]
      rfl
  | waiting => exact take_map s plan i ⟨number, sender, .waiting, counts, batches⟩
  | sending b attempts =>
    have moved : (s.map f).surroundings (Worker.map f ⟨number, sender, .sending b attempts, counts, batches⟩) =
        s.surroundings ⟨number, sender, .sending b attempts, counts, batches⟩ := rfl
    cases attempts with
    | settled result =>
      exact congrArg some
        (settle_map s plan i ⟨number, sender.count result, .sending b (.settled result), counts, batches⟩ hf b result)
    | _ =>
      simp only [Worker.map, Worker.Phase.map] at moved
      simp only [advanceWorker, Worker.map, Worker.Phase.map, hf.counts, moved, Option.map_map]
      congr 1
      funext x
      simp only [Function.comp_apply]
      rw [← setWorker_map]
      rfl
  | leaving ending => exact close_map s plan i ⟨number, sender, .leaving ending, counts, batches⟩ ending
  | closing ending => exact summarize_map s i ⟨number, sender, .closing ending, counts, batches⟩ ending
  | parting ending backoff =>
    simp only [advanceWorker, Worker.map, Worker.Phase.map]
    by_cases h : sender.connected = true
    · simp only [h, ↓reduceIte, Option.map_none]
    · simp only [h, Bool.false_eq_true, ↓reduceIte]
      exact congrArg some (retire_map s plan i
        (Worker.finish ⟨number, sender, .parting ending backoff, counts, batches⟩ ending backoff (.ok ())))
  | ended result => rfl

theorem interruptWorker_map :
    (s.map f).interruptWorker plan i (w.map f) = (s.interruptWorker plan i w).map (State.map f) := by
  obtain ⟨number, sender, phase, counts, batches⟩ := w
  cases phase with
  | waiting =>
    simp only [interruptWorker, Worker.map, Worker.Phase.map, isForced_map]
    by_cases h : s.isForced = true
    · simp only [h, ↓reduceIte]
      rw [updateChannel_map (f := f) s _ (g := fun c => c.leave i) fun c => c.leave_map i]
      exact congrArg some (leave_map _ plan i ⟨number, sender, .waiting, counts, batches⟩ .stopped)
    · simp only [h, Bool.false_eq_true, ↓reduceIte, Option.map_none]
  | sending b attempts =>
    simp only [interruptWorker, Worker.map, Worker.Phase.map, Option.map_map]
    rw [show (s.map f).stopping = s.stopping from rfl]
    congr 1
    funext x
    simp only [Function.comp_apply]
    rw [← setWorker_map]
    rfl
  | _ => rfl

theorem connectWorker_map (result : Except Failure Unit) :
    (s.map f).connectWorker plan i (w.map f) result = (s.connectWorker plan i w result).map (State.map f) := by
  obtain ⟨number, sender, phase, counts, batches⟩ := w
  cases phase with
  | joining =>
    simp only [connectWorker, Worker.map, Worker.Phase.map]
    by_cases h : plan.sending = true
    · simp only [h, ↓reduceIte]
      cases result with
      | ok u => exact congrArg some (begin_map s i ⟨number, sender.opened, .joining, counts, batches⟩)
      | error failure =>
        exact congrArg some (retire_map s plan i (Worker.failWith ⟨number, sender, .joining, counts, batches⟩ failure))
    · simp only [h, Bool.false_eq_true, ↓reduceIte, Option.map_none]
  | _ => rfl

theorem answerWorker_map (result : Except Failure Unit) :
    (s.map f).answerWorker plan i (w.map f) result = (s.answerWorker plan i w result).map (State.map f) := by
  obtain ⟨number, sender, phase, counts, batches⟩ := w
  cases phase with
  | sending b attempts =>
    simp only [answerWorker, Worker.map, Worker.Phase.map, Option.map_map]
    congr 1
    funext x
    simp only [Function.comp_apply]
    rw [← setWorker_map]
    rfl
  | _ => rfl

theorem disconnectWorker_map (result : Except Failure Unit) :
    (s.map f).disconnectWorker plan i (w.map f) result = (s.disconnectWorker plan i w result).map (State.map f) := by
  obtain ⟨number, sender, phase, counts, batches⟩ := w
  cases phase with
  | parting ending backoff =>
    simp only [disconnectWorker, Worker.map, Worker.Phase.map]
    by_cases h : sender.connected = true
    · simp only [h, ↓reduceIte]
      exact congrArg some (retire_map s plan i
        (Worker.finish ⟨number, sender, .parting ending backoff, counts, batches⟩ ending backoff result))
    · simp only [h, Bool.false_eq_true, ↓reduceIte, Option.map_none]
  | _ => rfl

theorem observeWorker_map : (s.map f).observeWorker i (w.map f) = (s.observeWorker i w).map (State.map f) := by
  have hsender : (w.map f).sender = w.sender := rfl
  have hgauge : (s.map f).gauge = s.gauge := rfl
  have hnow : (s.map f).now = s.now := rfl
  simp only [observeWorker, hsender, hgauge, hnow, isActive_map]
  cases w.sender.tracker with
  | none => rfl
  | some tracker =>
    simp only [bind, Option.bind]
    cases tracker.see s.now s.gauge with
    | none =>
      by_cases h : w.isActive = true
      · simp only [h, ↓reduceIte, Option.map_none]
      · simp only [h, Bool.false_eq_true, ↓reduceIte]
        exact congrArg some (setWorker_map { s with gauge := tracker.observer.leave s.now s.gauge } i
          { w with sender := w.sender.unobserved })
    | some x =>
      exact congrArg some (setWorker_map { s with gauge := x.2 } i
        { w with sender := { w.sender with tracker := some x.1 } })

theorem joinWorker_map : (s.map f).joinWorker i (w.map f) = (s.joinWorker i w).map (State.map f) := by
  obtain ⟨number, sender, phase, counts, batches⟩ := w
  cases phase with
  | ended result =>
    simp only [joinWorker, Worker.map, Worker.Phase.map]
    rw [show (s.map f).joined = s.joined from rfl]
    split
    · rfl
    · cases result <;> rfl
  | _ => rfl

end
end State

/-- An event does the same to a state and to its image. -/
theorem step_map [Batch β π] [Batch γ π] [Quantity ν] (hf : Batch.Alike f) (plan : Plan σ π) (s : State σ π β ν)
    (event : Event) : step plan (s.map f) event = (step plan s event).map (State.map f) := by
  cases event with
  | pass time =>
    simp only [step]
    rw [show (s.map f).now = s.now from rfl]
    split <;> rfl
  | request level => rfl
  | timer =>
    simp only [step, Option.map_map]
    rw [show (s.map f).stopping = s.stopping from rfl, show (s.map f).now = s.now from rfl]
    rfl
  | scan => exact s.scanStep_map hf plan
  | joinScan => exact s.joinScan_map
  | advance i =>
    simp only [step, State.workers_getElem?_map]
    cases s.workers[i]? with
    | none => rfl
    | some w => exact s.advanceWorker_map plan i w hf
  | interrupt i =>
    simp only [step, State.workers_getElem?_map]
    cases s.workers[i]? with
    | none => rfl
    | some w => exact s.interruptWorker_map plan i w
  | connected i result =>
    simp only [step, State.workers_getElem?_map]
    cases s.workers[i]? with
    | none => rfl
    | some w => exact s.connectWorker_map plan i w result
  | answered i result =>
    simp only [step, State.workers_getElem?_map]
    cases s.workers[i]? with
    | none => rfl
    | some w => exact s.answerWorker_map plan i w result
  | disconnected i result =>
    simp only [step, State.workers_getElem?_map]
    cases s.workers[i]? with
    | none => rfl
    | some w => exact s.disconnectWorker_map plan i w result
  | observe i =>
    simp only [step, State.workers_getElem?_map]
    cases s.workers[i]? with
    | none => rfl
    | some w => exact s.observeWorker_map i w
  | join i =>
    simp only [step, State.workers_getElem?_map]
    cases s.workers[i]? with
    | none => rfl
    | some w => exact s.joinWorker_map i w

/-- A state and its image come to the same. -/
theorem outcome_map (s : State σ π β ν) : outcome (s.map f) = outcome s := by
  have hscan : (s.map f).scan = s.scan.map f := rfl
  have hlen : (s.map f).workers.length = s.workers.length := by simp [State.map]
  have hover : (s.map f).isOver = s.isOver := by
    simp only [State.isOver, hlen]
    rfl
  have hresult : (s.map f).resultOf = s.resultOf := by
    funext i
    simp only [State.resultOf, State.workers_getElem?_map]
    cases s.workers[i]? with
    | none => rfl
    | some w =>
      obtain ⟨number, sender, phase, counts, batches⟩ := w
      cases phase <;> rfl
  have hresults : (s.map f).results = s.results := by
    simp only [State.results, hresult]
    rfl
  simp only [outcome, hover, hscan, Scan.result?_map, hlen, hresults]
  rfl

end Run
end IngestBench
