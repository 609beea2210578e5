import LoadEngine.Simulation.Interval
import LoadEngine.Simulation.Lifecycle

/-!
Whole runs: a benchmark that is left to itself until every phase has come to its end, and the
shutdown of whatever still runs.
-/

namespace LoadEngine.Sim

def report (outcome : RunOutcome) : Sim RunReport := do
  let s ← get
  pure (s.controller.report outcome s.now)

def abort : Sim Unit := do
  (List.range (← get).controller.phases.length).forM fun index =>
    discard (attempt (beginTermination index))

def turn (interval : Interval) : Sim Interval := do
  let s ← get
  if interval.isDue s.now then
    tick
    pure (interval.tick s.now)
  else
    unless ← takeNotice handleNotice do wait (some (Nanos.ceilMillis interval.due))
    pure interval

/-- Lets a run take its course for at most so many turns. What breaks the engine ends the run early,
and what else is refused is passed on. -/
def course : Nat → Interval → Sim RunOutcome
  | 0, _ => stall
  | fuel + 1, interval => do
    match ← attempt (turn interval) with
    | .ok interval =>
      if (← get).controller.isComplete then pure .completed else course fuel interval
    | .error e =>
      if e.isInternalFault then
        abort
        pure (.aborted e.message)
      else throw e

def run : Sim RunReport := do
  startShards
  let time ← now
  control fun c => (c.begin time, ())
  let period := (← get).controller.settings.tick
  report (← course Cluster.patience (.start time period))

/-- Takes in a notice while everything is being ended. Broken contracts no longer matter. -/
def absorb (notice : Notice) : Sim Unit := do
  match ← attempt (handleNotice notice) with
  | .ok () => pure ()
  | .error e => unless e.isInternalFault do throw e

/-- Takes in notices until a phase can be ended. After a fault its counters are not waited for. -/
def awaitDrained (index : Nat) : Nat → Sim Unit
  | 0 => stall
  | fuel + 1 => do
    let c := (← get).controller
    unless c.fault.isSome || c.canTerminate index || c.isTerminated index do
      awaitNotice absorb
      awaitDrained index fuel

def closePhase (index : Nat) : Sim Unit := do
  unless (← get).controller.isTerminated index do
    beginTermination index
    awaitDrained index Cluster.patience
    unless (← get).controller.isTerminated index do conclude index

def closePhases : Sim Unit := do
  takeNotices absorb (← get).cluster.notices.length
  (List.range (← get).controller.phases.length).forM closePhase

def stopShards : Sim Unit := do
  let hosts := (← get).shards
  modify fun s => { s with
    cluster := hosts.foldl (fun c host => (c.send host .shutdown).getD c) s.cluster
    shards := [] }
  onCluster fun c => c.settle.map fun c => (c, ())

def shutdown : Sim Unit := do
  closePhases
  stopShards

end LoadEngine.Sim
