import IngestBench.Proofs.RecordGrammar
import IngestBench.Proofs.Replay

/-! A source that is asked for its header between points. Header and points of a file come from one reader, so a header
    that is read at the wrong moment would swallow points. But the header is read before the first point if it was not
    asked for, and never again: whenever it is asked for, the same header comes, and the points are those of a source that
    is never asked for it. Behind the end there is nothing more. -/

namespace IngestBench

/-! ### Calls -/

/-- What a source is asked for. -/
inductive SourceCall
  | header
  | point
  deriving DecidableEq

/-- What a source answers. -/
inductive SourceAnswer (ε π : Type)
  | header (result : Except ε Header)
  | point (result : Except ε (Option π))

/-- How a source answers and goes on. -/
structure Callable (σ ε π : Type) where
  headers : σ → Except ε Header × σ
  next : σ → Except ε (Option π) × σ

namespace Callable

variable {σ ε π : Type}

/-- The answers to calls, one after the other. -/
def answers (source : Callable σ ε π) : σ → List SourceCall → List (SourceAnswer ε π)
  | _, [] => []
  | s, .header :: calls => .header (source.headers s).1 :: source.answers (source.headers s).2 calls
  | s, .point :: calls => .point (source.next s).1 :: source.answers (source.next s).2 calls

/-- The answers to the calls for a header. -/
def headerAnswers (source : Callable σ ε π) (s : σ) (calls : List SourceCall) : List (Except ε Header) :=
  (source.answers s calls).filterMap fun
    | .header result => some result
    | .point _ => none

/-- The answers to the calls for a point: points, faults and the end. -/
def pointAnswers (source : Callable σ ε π) (s : σ) (calls : List SourceCall) : List (Except ε (Option π)) :=
  (source.answers s calls).filterMap fun
    | .header _ => none
    | .point result => some result

/-- What calls for the header do to a source: they bring this header, and no point is lost, moved or added. -/
structure FreeOfHeader (source : Callable σ ε π) (header : Header) (s : σ) : Prop where
  header : ∀ calls, ∀ result ∈ source.headerAnswers s calls, result = .ok header
  points : ∀ calls, source.pointAnswers s calls = source.pointAnswers s (calls.filter (· = .point))
  ended : ∀ calls, (source.pointAnswers s calls).Pairwise fun earlier later => earlier = .ok none → later = .ok none

/-- What holds of a source between two calls. The state behind a call for the header may be another one, but the next
    point is the same. -/
structure Steady (source : Callable σ ε π) (header : Header) (holds : σ → Prop) : Prop where
  header : ∀ {s}, holds s → (source.headers s).1 = .ok header
  next : ∀ {s}, holds s → source.next (source.headers s).2 = source.next s
  ended : ∀ {s t}, holds s → source.next s = (.ok none, t) → source.next t = (.ok none, t)
  keptByHeader : ∀ {s}, holds s → holds (source.headers s).2
  keptByPoint : ∀ {s}, holds s → holds (source.next s).2

namespace Steady

variable {source : Callable σ ε π} {header : Header} {holds : σ → Prop} {s t : σ}

theorem headerAnswers_eq (h : source.Steady header holds) (hs : holds s) (calls : List SourceCall) :
    ∀ result ∈ source.headerAnswers s calls, result = .ok header := by
  induction calls generalizing s with
  | nil => exact fun _ hmem => nomatch hmem
  | cons call calls ih =>
    cases call with
    | header => exact List.forall_mem_cons.2 ⟨h.header hs, ih (h.keptByHeader hs)⟩
    | point => exact ih (h.keptByPoint hs)

/-- Two sources with the same next point stay together: a call for the header is a step of one of them only. -/
theorem pointAnswers_eq (h : source.Steady header holds) (hs : holds s) (ht : holds t)
    (hnext : source.next s = source.next t) (calls : List SourceCall) :
    source.pointAnswers s calls = source.pointAnswers t (calls.filter (· = .point)) := by
  induction calls generalizing s t with
  | nil => rfl
  | cons call calls ih =>
    cases call with
    | header => exact ih (h.keptByHeader hs) ht ((h.next hs).trans hnext)
    | point =>
      have hrest := ih (h.keptByPoint hs) (h.keptByPoint ht) (by rw [hnext])
      have hfirst : (source.next s).1 = (source.next t).1 := congrArg Prod.fst hnext
      exact List.cons_eq_cons.2 ⟨hfirst, hrest⟩

/-- Behind the end, a call brings the end again, and leaves the source there. -/
theorem pointAnswers_of_ended (h : source.Steady header holds) (hs : holds s) (hend : (source.next s).1 = .ok none)
    (calls : List SourceCall) : ∀ result ∈ source.pointAnswers s calls, result = .ok none := by
  induction calls generalizing s with
  | nil => exact fun _ hmem => nomatch hmem
  | cons call calls ih =>
    cases call with
    | header => exact ih (h.keptByHeader hs) (by rw [h.next hs, hend])
    | point =>
      have hstill : (source.next (source.next s).2).1 = .ok none := by rw [h.ended hs (Prod.ext hend rfl)]
      exact List.forall_mem_cons.2 ⟨hend, ih (h.keptByPoint hs) hstill⟩

theorem pairwise_pointAnswers (h : source.Steady header holds) (hs : holds s) (calls : List SourceCall) :
    (source.pointAnswers s calls).Pairwise fun earlier later => earlier = .ok none → later = .ok none := by
  induction calls generalizing s with
  | nil => exact .nil
  | cons call calls ih =>
    cases call with
    | header => exact ih (h.keptByHeader hs)
    | point =>
      refine List.pairwise_cons.2 ⟨fun later hlater hend => ?_, ih (h.keptByPoint hs)⟩
      have hstill : (source.next (source.next s).2).1 = .ok none := by rw [h.ended hs (Prod.ext hend rfl)]
      exact h.pointAnswers_of_ended (h.keptByPoint hs) hstill calls later hlater

theorem freeOfHeader (h : source.Steady header holds) (hs : holds s) : source.FreeOfHeader header s where
  header := h.headerAnswers_eq hs
  points := h.pointAnswers_eq hs hs rfl
  ended := h.pairwise_pointAnswers hs

end Steady
end Callable

/-! ### Records -/

namespace RecordSource

variable {header : Header} {s : RecordSource} {input rest : Input}

/-- A source of records, as it is called. -/
def callable : Callable RecordSource Failure Record := ⟨headers, next⟩

/-- The header was read, or is what is read next. -/
def Presents (header : Header) (s : RecordSource) : Prop :=
  s.header = some header ∨ s.header = none ∧ (Header.read s.input).1 = .ok header

/-- A call for the header leaves a source that has read it. -/
theorem Presents.headers_eq (h : s.Presents header) : ∃ rest, s.headers = (.ok header, ⟨rest, some header⟩) := by
  obtain ⟨input, kept⟩ := s
  rcases h with hkept | ⟨hkept, hread⟩
  · cases hkept
    exact ⟨input, rfl⟩
  · cases hkept
    rcases hinput : Header.read input with ⟨result, rest⟩
    rw [hinput] at hread
    cases hread
    exact ⟨rest, by simp only [headers, hinput]⟩

/-- The next point of a source is that of its lines behind the header. -/
theorem Presents.next_eq_behind (h : s.Presents header) :
    ∃ rest, s.headers = (.ok header, ⟨rest, some header⟩) ∧ next s = next ⟨rest, some header⟩ := by
  obtain ⟨rest, hheaders⟩ := h.headers_eq
  exact ⟨rest, hheaders, by rw [next, hheaders]; rfl⟩

/-- Only at the end of its lines does a source have no more points. -/
theorem rest_of_nextRecord_eq_none (h : nextRecord header input = (.ok none, rest)) : rest = [] := by
  induction input with
  | nil => exact (Prod.mk.inj h).2.symm
  | cons line input ih =>
    cases line with
    | malformed => cases h
    | text content =>
      by_cases hblank : Input.dropLineEnd content = ""
      · rw [nextRecord_blank hblank] at h
        exact ih h
      · cases input with
        | nil => simp [nextRecord, readFilled_filled hblank, Input.readLine] at h
        | cons line input =>
          cases line with
          | malformed => simp [nextRecord, readFilled_filled hblank, Input.readLine] at h
          | text data =>
            obtain ⟨-, r, hsome, -⟩ := (nextRecord_pair hblank).1 h
            cases hsome

theorem next_of_ended {t : RecordSource} (h : next ⟨rest, some header⟩ = (.ok none, t)) : t = ⟨[], some header⟩ := by
  rw [next_eq] at h
  split at h
  · next record behind hnext =>
    obtain ⟨hnone, rfl⟩ := Prod.mk.inj h
    rw [Except.ok.inj hnone] at hnext
    rw [rest_of_nextRecord_eq_none hnext]
  · cases h

theorem presents_next_behind (rest : Input) : (next ⟨rest, some header⟩).2.Presents header := by
  rw [next_eq]
  split <;> exact .inl rfl

theorem steady (header : Header) : callable.Steady header (Presents header) where
  header h := by
    obtain ⟨rest, hheaders⟩ := h.headers_eq
    exact congrArg Prod.fst hheaders
  next h := by
    obtain ⟨rest, hheaders, hnext⟩ := h.next_eq_behind
    show next (headers _).2 = next _
    rw [hheaders, hnext]
  ended h hend := by
    obtain ⟨rest, -, hnext⟩ := h.next_eq_behind
    rw [next_of_ended (hnext.symm.trans hend)]
    rfl
  keptByHeader h := by
    obtain ⟨rest, hheaders⟩ := h.headers_eq
    show (headers _).2.Presents header
    rw [hheaders]
    exact .inl rfl
  keptByPoint h := by
    obtain ⟨rest, -, hnext⟩ := h.next_eq_behind
    show (next _).2.Presents header
    rw [hnext]
    exact presents_next_behind rest

end RecordSource

/-! ### Lines -/

namespace LineSource

/-- A source of lines, as it is called. -/
def callable : Callable LineSource Failure Line := ⟨headers, next⟩

theorem rest_of_readFilled_eq_none {input rest : Input} (h : input.readFilled = (.ok none, rest)) : rest = [] := by
  induction input with
  | nil => exact (Prod.mk.inj h).2.symm
  | cons line input ih =>
    cases line with
    | malformed => cases h
    | text content =>
      rw [Input.readFilled] at h
      split at h
      · exact ih h
      · cases h

theorem steady : callable.Steady Header.empty fun _ => True where
  header _ := rfl
  next _ := rfl
  ended {s t} _ hend := by
    have hend : next s = (.ok none, t) := hend
    rw [next] at hend
    split at hend
    · next line rest hread =>
      obtain ⟨hnone, rfl⟩ := Prod.mk.inj hend
      rw [Option.map_eq_none_iff.1 (Except.ok.inj hnone)] at hread
      rw [rest_of_readFilled_eq_none hread]
      rfl
    · cases hend
  keptByHeader _ := trivial
  keptByPoint _ := trivial

end LineSource

/-! ### Simulations -/

namespace SimulationSource

variable {π : Type}

/-- A source of simulated points, as it is called. -/
def callable (point : Reading → π) : Callable SimulationSource Breakdown π := ⟨headers, next point⟩

theorem steady (point : Reading → π) :
    (callable point).Steady Simulation.header fun s => s.simulation.Sound where
  header _ := rfl
  next _ := rfl
  ended {s t} hs hend := by
    have hend : next point s = (.ok none, t) := hend
    rw [next] at hend
    split at hend
    · next r simulation hreading =>
      obtain ⟨hnone, rfl⟩ := Prod.mk.inj hend
      have hover := (hs.nextWithin hreading).2 hs.patience_le (Option.map_eq_none_iff.1 (Except.ok.inj hnone))
      show next point ⟨simulation⟩ = _
      rw [next, Simulation.nextReading_of_finished hover]
      rfl
    · cases hend
  keptByHeader hs := hs
  keptByPoint {s} hs := by
    show (next point s).2.simulation.Sound
    rw [next]
    split
    · next hreading => exact (hs.nextWithin hreading).1.sound
    · exact hs

end SimulationSource

/-! ### Header and points -/

namespace Callable

/-- A source may be asked for its header at any time, and as often as one likes: whatever its lines are, if only it
    begins with a header, and whatever is simulated. -/
theorem header_calls_free :
    (∀ (input : Input) (header : Header), (Header.read input).1 = .ok header →
      RecordSource.callable.FreeOfHeader header (.ofInput input)) ∧
    (∀ input : Input, LineSource.callable.FreeOfHeader Header.empty ⟨input⟩) ∧
    ∀ (settings : Simulation.Settings) (sim : Simulation), Simulation.ofUseCase settings = .ok sim →
      ∀ {π : Type} (point : Reading → π),
        (SimulationSource.callable point).FreeOfHeader Simulation.header ⟨sim⟩ := by
  refine ⟨fun input header hread => ?_, fun input => ?_, fun settings sim hsim π point => ?_⟩
  · exact (RecordSource.steady header).freeOfHeader (.inr ⟨rfl, hread⟩)
  · exact LineSource.steady.freeOfHeader trivial
  · exact (SimulationSource.steady point).freeOfHeader (Simulation.sound_of_ofUseCase hsim)

/-- A header, a record, and the first line of another one. -/
def brokenOff : Input := .ofText "tags,host text\ncpu,a\n\ntags,host=x\ncpu,1,2\n\ntags,host=y\n"

/-- The record, a fault and the end come in this order, with and without a header between them; and the header may be
    asked for while hosts are simulated. -/
theorem header_calls_free_broken_off :
    (Header.read brokenOff).1 = .ok ⟨["host"], ["text"], [("cpu", ["a"])]⟩ ∧
    RecordSource.callable.pointAnswers (.ofInput brokenOff) [.point, .header, .point, .header, .point] =
      [.ok (some ⟨"cpu", ⟨"host=x", "1,2"⟩⟩), .error (.parse (.dataLineMissing "tags,host=y")), .ok none] ∧
    ∃ sim, Simulation.ofUseCase Simulation.Settings.short = .ok sim ∧
      (SimulationSource.callable Reading.toLine).FreeOfHeader Simulation.header ⟨sim⟩ := by
  have hread : (Header.read brokenOff).1 = .ok ⟨["host"], ["text"], [("cpu", ["a"])]⟩ := by decide +kernel
  obtain ⟨sim, -, hsim, -⟩ : ∃ sim text, Simulation.ofUseCase Simulation.Settings.short = .ok sim ∧
      sim.generate .line = .ok (text, 3) := Simulation.exists_generate_eq_ok (by decide +kernel)
  refine ⟨hread, ?_, sim, hsim, header_calls_free.2.2 _ sim hsim Reading.toLine⟩
  rw [(header_calls_free.1 brokenOff _ hread).points]
  decide +kernel

end Callable
end IngestBench
