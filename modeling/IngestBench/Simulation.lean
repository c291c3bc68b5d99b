import IngestBench.Failure
import IngestBench.Header
import IngestBench.Simulation.Draws
import IngestBench.Stamp

/-! Simulated hosts that report their processor use at a fixed interval. All hosts are drawn from one stream, so
    a seed fixes every reading. The first host reports from the start; the others start up to two intervals
    late. -/

namespace IngestBench

/-- One report of a host. -/
structure Reading where
  measurement : String
  tags : List (String × String)
  fields : List (String × Float)
  time : Stamp

namespace Reading

/-- The report that says nothing. -/
def empty : Reading := ⟨"", [], [], Stamp.epoch⟩

/-- The time in nanoseconds; a time that does not fit is given as the largest number. -/
def nanos (r : Reading) : Int := r.time.nanosSinceEpoch?.getD Text.maxInt64

end Reading

namespace Simulation

/-- What to simulate, and for how long. -/
structure Settings where
  useCase : String
  scale : Nat
  seed : Nat
  start : Stamp
  stop : Stamp
  interval : Span
  /-- Zero for no limit. -/
  maxPoints : Nat
  deriving Repr, DecidableEq

/-- One host for the first day of 2016, every ten seconds. -/
def Settings.standard : Settings where
  useCase := "cpu-only"
  scale := 1
  seed := 123
  start := ⟨1451606400, 0⟩
  stop := ⟨1451692800, 0⟩
  interval := Span.ofSeconds 10
  maxPoints := 0

/-! ### What hosts are made of -/

def measurement : String := "cpu"

def fieldNames : List String :=
  ["usage_user", "usage_system", "usage_idle", "usage_nice", "usage_iowait", "usage_irq", "usage_softirq",
   "usage_steal", "usage_guest", "usage_guest_nice"]

def tagNames : List String :=
  ["hostname", "region", "datacenter", "rack", "os", "arch", "team", "service", "service_version",
   "service_environment"]

/-- Regions with the letters of their data centers. -/
def regions : List (String × List String) :=
  [("us-east-1", ["a", "b", "c", "e"]), ("us-west-1", ["a", "b"]), ("us-west-2", ["a", "b", "c"]),
   ("eu-west-1", ["a", "b", "c"]), ("eu-central-1", ["a", "b"]), ("ap-southeast-1", ["a", "b"]),
   ("ap-southeast-2", ["a", "b"]), ("ap-northeast-1", ["a", "c"]), ("sa-east-1", ["a", "b", "c"])]

def systems : List String := ["Ubuntu16.10", "Ubuntu16.04LTS", "Ubuntu15.10"]

def architectures : List String := ["x64", "x86"]

def teams : List String := ["SF", "NYC", "LON", "CHI"]

def environments : List String := ["production", "staging", "test"]

/-- Hosts start at most this many intervals late, this one excluded. -/
def startSlots : Nat := 3

/-- The header of simulated data. -/
def header : Header :=
  (tagNames.foldl (fun h tag => h.withTag tag "string") Header.empty).withMeasurement measurement fieldNames

/-! ### Hosts -/

/-- A simulated host. -/
structure Host where
  tags : List (String × String)
  usage : List Float
  firstReading : Stamp

/-- Draws a member of a list. -/
def pick {α : Type} (items : List α) (default : α) (d : Draws) : α × Draws :=
  let (i, d) := d.below items.length
  (items.getD i default, d)

/-- Draws `n` numbers one after the other. -/
def drawMany (draw : Draws → Float × Draws) : Nat → Draws → List Float × Draws
  | 0, d => ([], d)
  | n + 1, d =>
    let (x, d) := draw d
    let (xs, d) := drawMany draw n d
    (x :: xs, d)

/-- The longest interval between two readings that calendar arithmetic takes. -/
def longestInterval : Span := ⟨9223372036854775807 * Span.nanosPerMilli⟩

/-- The point in time `slots` intervals after the start. -/
def slotTime (start : Stamp) (interval : Span) (slots : Nat) : Except Breakdown Stamp :=
  let delay : Span := ⟨interval.nanos * slots⟩
  if longestInterval.nanos < delay.nanos then .error .overflow
  else match start.later? delay with
    | some t => .ok t
    | none => .error .overflow

/-- Draws a host. -/
def Host.draw (settings : Settings) (id : Nat) (d : Draws) : Except Breakdown (Host × Draws) := do
  let ((region, centers), d) := pick regions ("", []) d
  let (center, d) := pick centers "" d
  let (rack, d) := d.below 100
  let (system, d) := pick systems "" d
  let (architecture, d) := pick architectures "" d
  let (team, d) := pick teams "" d
  let (service, d) := d.below 20
  let (version, d) := d.below 2
  let (environment, d) := pick environments "" d
  let values := ["host_" ++ Nat.repr id, region, region ++ center, Nat.repr rack, system, architecture, team,
    Nat.repr service, Nat.repr version, environment]
  let (usage, d) := drawMany (Draws.between 0.0 100.0) fieldNames.length d
  let (slots, d) := if id = 0 then (0, d) else d.below startSlots
  let first ← slotTime settings.start settings.interval slots
  return (⟨tagNames.zip values, usage, first⟩, d)

/-- A value kept between 0 and 100. -/
def clamp (x : Float) : Float := if x < 0.0 then 0.0 else if 100.0 < x then 100.0 else x

/-- Moves each value by at most one. -/
def Host.advance (host : Host) (d : Draws) : Host × Draws :=
  let (usage, d) := host.usage.foldl (fun (done, d) x =>
    let (step, d) := d.between (-1.0) 1.0
    (done ++ [clamp (x + step)], d)) ([], d)
  ({ host with usage }, d)

/-- What a host reports at a time. -/
def Host.reading (host : Host) (time : Stamp) : Reading where
  measurement := measurement
  tags := host.tags
  fields := fieldNames.zip host.usage
  time := time

end Simulation

/-- A running simulation. Hosts are asked in turn; after the last one the clock moves on. -/
structure Simulation where
  hosts : Array Simulation.Host
  draws : Draws
  interval : Span
  now : Stamp
  stop : Stamp
  cursor : Nat
  emitted : Nat
  maxPoints : Nat

namespace Simulation

/-- Draws `n` hosts, the first one with number `id`. -/
def drawHosts (settings : Settings) : Nat → Nat → Draws → Array Host → Except Breakdown (Array Host × Draws)
  | 0, _, d, hosts => .ok (hosts, d)
  | n + 1, id, d, hosts => do
    let (host, d) ← Host.draw settings id d
    drawHosts settings n (id + 1) d (hosts.push host)

/-- Sets up a simulation of processor use. -/
def ofSettings (settings : Settings) : Except Breakdown Simulation := do
  if settings.scale = 0 then throw (.failed (.config .noHosts))
  if settings.interval.isZero || longestInterval.nanos < settings.interval.nanos then
    throw (.failed (.config (.interval settings.interval)))
  let (hosts, draws) ← drawHosts settings settings.scale 0 (Draws.ofSeed (UInt64.ofNat settings.seed)) #[]
  return {
    hosts, draws
    interval := settings.interval
    now := settings.start
    stop := settings.stop
    cursor := 0
    emitted := 0
    maxPoints := settings.maxPoints }

/-- Data sets that can be simulated. -/
def useCases : List String := ["cpu-only"]

/-- Sets up the simulation of the data set that the settings name. -/
def ofUseCase (settings : Settings) : Except Breakdown Simulation :=
  if useCases.contains settings.useCase then ofSettings settings
  else .error (.failed (.config (.unknownUseCase settings.useCase)))

/-- Whether the window is over or enough points were reported. -/
def finished (s : Simulation) : Bool :=
  s.stop.upTo s.now || (0 < s.maxPoints && s.maxPoints ≤ s.emitted)

/-- Moves on to the next host, and the clock with the last one. -/
def turn (s : Simulation) : Except Breakdown Simulation :=
  if s.cursor + 1 = s.hosts.size then
    match s.now.later? s.interval with
    | some now => .ok { s with cursor := 0, now }
    | none => .error .overflow
  else .ok { s with cursor := s.cursor + 1 }

/-- Asks the next host, which reports unless it has not started yet. -/
def next (s : Simulation) : Except Breakdown (Option Reading × Simulation) :=
  if s.finished then .ok (none, s)
  else
    match s.hosts[s.cursor]? with
    | none => .ok (none, s)
    | some host =>
      if host.firstReading.upTo s.now then do
        let (moved, draws) := host.advance s.draws
        let s' ← turn { s with
          hosts := s.hosts.set! s.cursor moved
          draws
          emitted := s.emitted + 1 }
        return (some (host.reading s.now), s')
      else do
        let s' ← s.turn
        return (none, s')

/-- Asks hosts until one reports, at most `fuel` of them. -/
def nextWithin : Nat → Simulation → Except Breakdown (Option Reading × Simulation)
  | 0, s => .ok (none, s)
  | fuel + 1, s =>
    if s.finished then .ok (none, s)
    else do
      match ← s.next with
      | (some r, s) => return (some r, s)
      | (none, s) => nextWithin fuel s

/-- The next report; none when the simulation is over. As the first host always reports, no more hosts than
    there are need to be asked. -/
def nextReading (s : Simulation) : Except Breakdown (Option Reading × Simulation) :=
  nextWithin s.hosts.size s

/-- A bound on the number of questions until the window is over. -/
def questionBound (s : Simulation) : Nat :=
  let seconds := (s.stop.seconds - s.now.seconds + 3).toNat
  s.hosts.size * (seconds * Span.nanosPerSecond / s.interval.nanos + 2)

/-- The reports until the end, at most `fuel` of them. -/
def collect : Nat → Simulation → Except Breakdown (List Reading)
  | 0, _ => .ok []
  | fuel + 1, s => do
    match ← s.nextReading with
    | (none, _) => return []
    | (some r, s) => return r :: (← collect fuel s)

/-- All reports of the simulation. -/
def readings (s : Simulation) : Except Breakdown (List Reading) := collect s.questionBound s

end Simulation
end IngestBench
