import LoadEngine.Benchmark.Validate
import LoadEngine.Phase.Run
import LoadEngine.Plugin.Registry
import LoadEngine.Settings
import LoadEngine.Shard.Message

/-!
The controller of a run. It alone sees every shard: it decides when phases start, finish and
terminate, and turns their strategies into commands. It shares nothing with the shards, and what is
to be sent to them is returned.
-/

namespace LoadEngine

abbrev Dispatch := Nat × Command

structure Controller where
  settings : Settings
  name : String
  phases : List PhaseRun
  startedAt : Option Nanos
  /-- The first broken contract that a shard told of. Nothing can be relied on afterwards. -/
  fault : Option ContractViolation

namespace Controller

def unknownPlugin? (known : String → Bool) (phases : List Phase) : Option ConfigError :=
  phases.findSome? fun phase =>
    (phase.scenario.plugins.find? fun tag => !known tag).map (ConfigError.unknownPlugin phase.name)

def new (settings : Settings) (benchmark : Benchmark) (known : String → Bool) :
    Except ConfigError Controller := do
  settings.validate
  benchmark.validate
  if let some e := unknownPlugin? known benchmark.phases then throw e
  pure {
    settings
    name := benchmark.name
    phases := benchmark.phases.map fun phase => .new phase settings.shards
    startedAt := none
    fault := none }

def position? (c : Controller) (name : String) : Option Nat :=
  c.phases.findIdx? fun p => p.name == name

def setPhase (c : Controller) (index : Nat) (p : PhaseRun) : Controller :=
  { c with phases := c.phases.set index p }

def progressed (c : Controller) (d : Dependency) : Bool :=
  match c.phases.find? fun p => p.name == d.phase with
  | none => false
  | some p =>
    match d.progress with
    | .finished => p.status.isFinished
    | .terminated => p.status == .terminated

def mayStart (c : Controller) (p : PhaseRun) : Bool := p.phase.dependsOn.all c.progressed

def mayEnd (c : Controller) (p : PhaseRun) : Bool :=
  p.phase.terminateAfter.all fun name =>
    c.phases.any fun q => q.name == name && q.status == .terminated

def dispatches (index : Nat) (starts : Starts) : List Dispatch :=
  starts.map fun (shard, count) => (shard, .start index count)

/-- The time counts from the first start at the latest. -/
def begin (c : Controller) (now : Nanos) : Controller :=
  { c with startedAt := some (c.startedAt.getD now) }

def start (c : Controller) (index : Nat) (now : Nanos) :
    Controller × Except EngineError (List Dispatch) :=
  let c := c.begin now
  match c.phases[index]? with
  | none => (c, .ok [])
  | some p =>
    match p.start now with
    | .ok (p, starts) => (c.setPhase index p, .ok (dispatches index starts))
    | .error e => (c, .error e)

def startOnDemand (c : Controller) (index : Nat) (now : Nanos) :
    Controller × Except EngineError (List Dispatch) :=
  match c.phases[index]? with
  | none => (c, .ok [])
  | some p =>
    if c.mayStart p then c.start index now
    else (c, .error (.invalidTransition p.name "start" "waiting for dependencies"))

/-- Lets a phase go on as the time demands: starts it if it may start, or starts the sessions that
it owes. -/
def advance (c : Controller) (index : Nat) (now : Nanos) :
    Controller × Except EngineError (List Dispatch) :=
  match c.phases[index]? with
  | none => (c, .ok [])
  | some p =>
    match p.status with
    | .notStarted =>
      let waited := now - c.startedAt.getD now
      if p.phase.startDelay.getD 0 ≤ waited && c.mayStart p then c.start index now
      else (c, .ok [])
    | .running =>
      let (p, starts) := p.tick now
      (c.setPhase index p, .ok (dispatches index starts))
    | _ => (c, .ok [])

def isOverdue (c : Controller) (index : Nat) (now : Nanos) : Bool :=
  c.phases[index]?.any fun p => p.isOverdue now

def finish (c : Controller) (index : Nat) (now : Nanos) : Controller × Except EngineError Unit :=
  match c.phases[index]? with
  | none => (c, .ok ())
  | some p =>
    match p.finish now with
    | .ok p => (c.setPhase index p, .ok ())
    | .error e => (c, .error e)

def terminate (c : Controller) (index : Nat) (now : Nanos) : Controller × Bool :=
  match c.phases[index]? with
  | none => (c, false)
  | some p =>
    let (p, tell) := p.beginTermination now
    (c.setPhase index p, tell)

def isTerminated (c : Controller) (index : Nat) : Bool :=
  c.phases[index]?.any fun p => p.status == .terminated

def canTerminate (c : Controller) (index : Nat) : Bool :=
  c.phases[index]?.any PhaseRun.canTerminate

/-- A phase can be ended now. One that is made to end does not wait for others. -/
def isReady (c : Controller) (index : Nat) : Bool :=
  c.phases[index]?.any fun p => p.canTerminate && (p.status != .finished || c.mayEnd p)

def complete (c : Controller) (index : Nat) (snapshot : PhaseSnapshot) : Controller :=
  match c.phases[index]? with
  | none => c
  | some p => c.setPhase index (p.complete snapshot.statistics snapshot.maxUsed)

def onNotice (c : Controller) (now : Nanos) :
    Notice → Controller × Except EngineError (List Dispatch)
  | .started index _ started blocked =>
    match c.phases[index]? with
    | none => (c, .ok [])
    | some p => (c.setPhase index (p.onStarted started blocked), .ok [])
  | .ended index shard how =>
    match c.phases[index]? with
    | none => (c, .ok [])
    | some p =>
      let (p, starts) := p.onEnded shard how now
      (c.setPhase index p, .ok (dispatches index starts))
  | .fault _ cause => ({ c with fault := some (c.fault.getD cause) }, .error (.contract cause))

def isComplete (c : Controller) : Bool := c.phases.all fun p => p.status == .terminated

def report (c : Controller) (outcome : RunOutcome) (now : Nanos) : RunReport where
  name := c.name
  outcome := outcome
  duration := now - c.startedAt.getD now
  phases := c.phases.map fun p => p.report c.settings.percentiles now

def preparations (c : Controller) (shard : Nat) : List Command :=
  c.phases.zipIdx.map fun (p, index) =>
    .prepare index p.name p.phase.scenario (p.shareOf shard)

end Controller

def PhaseSnapshot.merge (snapshots : List PhaseSnapshot) :
    Except ContractViolation PhaseSnapshot :=
  snapshots.foldlM (fun sum s => do
    pure ⟨← sum.statistics.merge s.statistics, sum.maxUsed + s.maxUsed⟩) .empty

end LoadEngine
