import LoadEngine.Benchmark.Basic
import LoadEngine.Phase.Capacity
import LoadEngine.Report.Basic
import LoadEngine.Session.End

/-!
The course of one phase as its controller sees it: how many sessions it asked the shards to start,
what became of them, and when it is over. Nothing here talks to a shard; the starts to be sent are
returned.
-/

namespace LoadEngine

structure PhaseRun where
  phase : Phase
  status : PhaseStatus
  startedAt : Option Nanos
  endedAt : Option Nanos
  counters : SessionCounters
  /-- Starts that no shard has answered yet. -/
  inFlight : Nat
  /-- Arrivals that were turned into starts. -/
  accounted : Nat
  /-- Blocked starts that are to be made up for. -/
  throttled : Nat
  /-- The most sessions at a time for each shard. -/
  shares : List Nat
  cursor : Nat
  statistics : StatisticsSet
  maxUsed : Nat
  slaFailures : List SlaFailure

namespace PhaseRun

def new (phase : Phase) (shards : Nat) : PhaseRun where
  phase := phase
  status := .notStarted
  startedAt := none
  endedAt := none
  counters := .zero
  inFlight := 0
  accounted := 0
  throttled := 0
  shares := splitCapacity phase.sessionCapacity shards
  cursor := 0
  statistics := ∅
  maxUsed := 0
  slaFailures := []

def name (p : PhaseRun) : String := p.phase.name

def shareOf (p : PhaseRun) (shard : Nat) : Nat := p.shares.getD shard 0

def elapsed (p : PhaseRun) (now : Nanos) : Nanos :=
  match p.startedAt with
  | some start => now - start
  | none => 0

def isDrained (p : PhaseRun) : Bool := p.inFlight == 0 && p.counters.live == 0

def refuse (p : PhaseRun) (action : String) : EngineError :=
  .invalidTransition p.name action p.status.display

def iterationsLeft (p : PhaseRun) : Option Nat :=
  p.phase.iterationCap.map fun cap => cap - (p.counters.started + p.inFlight)

def grant (p : PhaseRun) (count : Nat) : Nat :=
  match p.iterationsLeft with
  | some left => min count left
  | none => count

def takers (p : PhaseRun) : List Nat :=
  (List.range p.shares.length).filter fun shard => 0 < p.shareOf shard

def issue (p : PhaseRun) (count : Nat) : PhaseRun × Starts :=
  let count := p.grant count
  let takers := p.takers
  if count = 0 ∨ takers = [] then (p, [])
  else
    let first := p.cursor % takers.length
    ({ p with
        inFlight := p.inFlight + count
        cursor := (first + count % takers.length) % takers.length },
      dealOut takers first count)

def issueOn (p : PhaseRun) (shard count : Nat) : PhaseRun × Starts :=
  let count := p.grant count
  if count = 0 ∨ p.shareOf shard = 0 then (p, [])
  else ({ p with inFlight := p.inFlight + count }, [(shard, count)])

def timeIsUp (p : PhaseRun) (now : Nanos) : Bool := p.phase.duration ≤ p.elapsed now

def isDone (p : PhaseRun) (now : Nanos) : Bool :=
  let exhausted := p.iterationsLeft == some 0
  match p.phase.strategy with
  | .atOnce _ => true
  | .sequential _ => exhausted || (p.phase.duration != 0 && p.timeIsUp now)
  | _ => exhausted || p.timeIsUp now

def finishIfDone (p : PhaseRun) (now : Nanos) : PhaseRun :=
  if p.status = .running ∧ p.isDone now then { p with endedAt := some now, status := .finished }
  else p

def initialStarts (p : PhaseRun) : Nat :=
  match p.phase.strategy with
  | .atOnce users | .always users => users
  | .sequential _ => 1
  | .constantRate _ _ | .rampRate _ _ _ | .noop => 0

def start (p : PhaseRun) (now : Nanos) : Except EngineError (PhaseRun × Starts) :=
  if p.status = .notStarted then
    let p := { p with startedAt := some now, status := .running }
    let (p, starts) := p.issue p.initialStarts
    .ok (p.finishIfDone now, starts)
  else .error (p.refuse "start")

/-- Starts what is owed when `arrived` sessions have arrived altogether. -/
def startOwed (p : PhaseRun) (arrived : Nat) : PhaseRun × Starts :=
  let due := arrived - p.accounted
  if due = 0 then (p, []) else { p with accounted := p.accounted + due }.issue due

/-- Looks at the clock: starts what is owed and finishes the phase if it is over. -/
def tick (p : PhaseRun) (now : Nanos) : PhaseRun × Starts :=
  if p.status = .running then
    let (p, starts) := match p.phase.arrivals with
      | some curve => p.startOwed (curve.arrived (p.elapsed now))
      | none => (p, [])
    (p.finishIfDone now, starts)
  else (p, [])

def isOverdue (p : PhaseRun) (now : Nanos) : Bool :=
  (p.status == .running || p.status == .finished) &&
    p.phase.maxDuration.any fun limit => limit ≤ p.elapsed now

def finish (p : PhaseRun) (now : Nanos) : Except EngineError PhaseRun :=
  match p.status with
  | .notStarted => .error (p.refuse "finish")
  | .running => .ok { p with endedAt := some now, status := .finished }
  | _ => .ok p

def beginTermination (p : PhaseRun) (now : Nanos) : PhaseRun × Bool :=
  match p.status with
  | .notStarted => ({ p with status := .terminated }, false)
  | .running | .finished =>
    ({ p with endedAt := some (p.endedAt.getD now), status := .terminating }, true)
  | .terminating | .terminated => (p, false)

def canTerminate (p : PhaseRun) : Bool :=
  (p.status == .finished || p.status == .terminating) && p.isDrained

/-- Keeps the statistics of all shards, checks them against the agreements, and ends the phase. -/
def complete (p : PhaseRun) (statistics : StatisticsSet) (maxUsed : Nat) : PhaseRun :=
  { p with
    slaFailures := p.phase.slas.flatMap fun sla => sla.check statistics
    statistics
    maxUsed
    status := .terminated }

def onStarted (p : PhaseRun) (started blocked : Nat) : PhaseRun :=
  { p with
    inFlight := p.inFlight - (started + blocked)
    counters := { p.counters with
      started := p.counters.started + started
      blocked := p.counters.blocked + blocked }
    throttled := if p.phase.strategy.catchUp then p.throttled + blocked else p.throttled }

def replace (p : PhaseRun) (shard : Nat) : PhaseRun × Starts :=
  match p.phase.strategy with
  | .always _ | .sequential _ => p.issueOn shard 1
  | _ =>
    if 0 < p.throttled then { p with throttled := p.throttled - 1 }.issueOn shard 1 else (p, [])

/-- Takes in the end of a session. It is replaced before the clock is looked at. -/
def onEnded (p : PhaseRun) (shard : Nat) (how : SessionEnd) (now : Nanos) : PhaseRun × Starts :=
  let p := { p with counters := p.counters.consume how.event }
  if p.status = .running then
    let (p, starts) := p.replace shard
    (p.finishIfDone now, starts)
  else (p, [])

/-- From the start until the phase stopped starting sessions, or until now. -/
def activeTime (p : PhaseRun) (now : Nanos) : Nanos :=
  match p.startedAt with
  | some start => p.endedAt.getD now - start
  | none => 0

def report (p : PhaseRun) (percentiles : List Float) (now : Nanos) : PhaseReport where
  name := p.name
  status := p.status
  strategy := p.phase.strategy.label
  duration := p.activeTime now
  sessions := p.counters
  maxSessionsUsed := p.maxUsed
  statistics := p.statistics.byMetric.map fun s => .ofSnapshot s percentiles
  slaFailures := p.slaFailures

end PhaseRun

end LoadEngine
