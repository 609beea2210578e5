import LoadEngine.Controller.Basic
import LoadEngine.Simulation.Inquiry

/-!
Simulations: a controller with its shards on a simulated clock. Whatever is done in a simulation may
be refused; what was done before the refusal stays done.
-/

namespace LoadEngine

/-- A controller, the services that it knows, and its shards. -/
structure Simulation where
  controller : Controller
  services : Registry Service
  cluster : Cluster
  /-- The nodes of the controller's shards. There are none before the start and after the end. -/
  shards : List Nat

/-- What is done in a simulation. It may be refused, and there is no result if it stalls. -/
abbrev Sim := ExceptT EngineError (StateT Simulation Option)

namespace Simulation

def new (settings : Settings) (benchmark : Benchmark) (services : Registry Service) :
    Except ConfigError Simulation := do
  let controller ← Controller.new settings benchmark services.contains
  pure ⟨controller, services, .empty, []⟩

def now (s : Simulation) : Nanos := s.cluster.time

/-- Does something. What was done before a refusal stays done. -/
def perform {α : Type} (s : Simulation) (act : Sim α) :
    Option (Except EngineError α × Simulation) :=
  (ExceptT.run act).run s

end Simulation

namespace Sim

def now : Sim Nanos := do pure (← get).now

def stall {α : Type} : Sim α := fun _ => none

def control {α : Type} (f : Controller → Controller × α) : Sim α :=
  modifyGet fun s =>
    let (controller, a) := f s.controller
    (a, { s with controller })

def onCluster {α : Type} (f : Cluster → Option (Cluster × α)) : Sim α := do
  let s ← get
  match f s.cluster with
  | none => stall
  | some (cluster, a) =>
    set { s with cluster }
    pure a

def orThrow {α : Type} : Except EngineError α → Sim α
  | .ok a => pure a
  | .error e => throw e

def attempt {α : Type} (act : Sim α) : Sim (Except EngineError α) := ExceptT.lift (ExceptT.run act)

def shards : Sim (List Nat) := do
  let s ← get
  if s.shards.isEmpty then throw .notInitialized else pure s.shards

def index (name : String) : Sim Nat := do
  match (← get).controller.position? name with
  | some i => pure i
  | none => throw (.unknownPhase name)

def send (shard : Nat) (command : Command) : Sim Unit := do
  let s ← get
  match s.shards[shard]? >>= fun host => s.cluster.send host command with
  | some cluster => set { s with cluster }
  | none => throw (.shardUnavailable shard)

def dispatch : List Dispatch → Sim Unit
  | [] => pure ()
  | (shard, command) :: rest => do
    let _ ← shards
    send shard command
    dispatch rest

def follow (decide : Controller → Controller × Except EngineError (List Dispatch)) : Sim Unit := do
  let dispatches ← control decide
  dispatch (← orThrow dispatches)

def broadcast (command : Command) : Sim Unit := do
  (List.range (← get).shards.length).forM fun shard => send shard command

def askAll {α : Type} (ask : Cluster → Nat → Cluster × Option α) : Sim (List α) := do
  let hosts := (← get).shards
  let answers ← onCluster fun c => c.askAll ask hosts
  answers.zipIdx.forM fun (answer, shard) =>
    if answer.isNone then throw (.shardUnavailable shard) else pure ()
  pure (answers.filterMap id)

def collect (index : Nat) (reset : Bool) : Sim PhaseSnapshot := do
  let snapshots ← askAll (Cluster.collect index reset)
  match PhaseSnapshot.merge snapshots with
  | .ok sum => pure sum
  | .error fault => throw (.contract fault)

def handleNotice (notice : Notice) : Sim Unit := do
  let time ← now
  follow fun c => c.onNotice time notice

def nextNotice? : Sim (Option Notice) :=
  modifyGet fun s =>
    match s.cluster.notices with
    | [] => (none, s)
    | notice :: notices => (some notice, { s with cluster := { s.cluster with notices } })

def takeNotice (handle : Notice → Sim Unit) : Sim Bool := do
  match ← nextNotice? with
  | some notice =>
    handle notice
    pure true
  | none => pure false

def takeNotices (handle : Notice → Sim Unit) : Nat → Sim Unit
  | 0 => pure ()
  | fuel + 1 => do if ← takeNotice handle then takeNotices handle fuel

/-- Takes in all notices, unless a shard has told of a broken contract. -/
def drain : Sim Unit := do
  let s ← get
  if let some fault := s.controller.fault then throw (.contract fault)
  takeNotices handleNotice s.cluster.notices.length

def wait (limit : Option Nat) : Sim Unit :=
  onCluster fun c => (c.wait limit).map fun c => (c, ())

def awaitNotice (handle : Notice → Sim Unit) : Sim Unit := do
  if (← get).cluster.notices.isEmpty then wait none
  let _ ← takeNotice handle

def startShard (first shard : Nat) : Sim Unit := do
  modify fun s =>
    let template := Recorder.empty s.controller.settings.shape
    { s with
      cluster := s.cluster.spawn shard template s.services
      shards := s.shards ++ [first + shard] }
  ((← get).controller.preparations shard).forM (send shard)

def startShards : Sim Unit := do
  let s ← get
  if s.shards.isEmpty then
    (List.range s.controller.settings.shards).forM (startShard s.cluster.hosts.length)

def openConnections : Sim Unit := do
  let hosts ← shards
  let answers ← onCluster fun c => c.openConnections hosts
  answers.zipIdx.forM fun (answer, shard) =>
    match answer with
    | none => throw (.shardUnavailable shard)
    | some (.error e) => throw (.plugin e)
    | some (.ok ()) => pure ()

def visitSessions : Sim (List SessionView) := do
  let _ ← shards
  pure (← askAll Cluster.views).flatten

def connectionStats : Sim (List ConnectionStats) := do
  let _ ← shards
  pure (← askAll Cluster.connections).flatten

def statistics (name : String) : Sim StatisticsSet := do
  let i ← index name
  let s ← get
  let kept := (s.controller.phases[i]?.map PhaseRun.statistics).getD ∅
  if s.shards.isEmpty then pure kept
  else
    let live ← collect i false
    match kept.merge live.statistics with
    | .ok sum => pure sum
    | .error fault => throw (.contract fault)

def phaseStatus (name : String) : Sim PhaseStatus := do
  let i ← index name
  pure (((← get).controller.phases[i]?.map PhaseRun.status).getD .notStarted)

def sessionCounters (name : String) : Sim SessionCounters := do
  let i ← index name
  pure (((← get).controller.phases[i]?.map PhaseRun.counters).getD .zero)

def sleep (millis : Nat) : Sim Unit :=
  onCluster fun c => (c.sleep millis).map fun c => (c, ())

def answer (n : Option Nat) (data : List (List UInt8)) (completion : Option Completion) : Sim Nat :=
  onCluster fun c => some (c.answer n data completion)

end Sim

end LoadEngine
