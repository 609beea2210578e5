import LoadEngine.Simulation.Basic

/-!
The life of phases in a simulation: starting, finishing and ending them on demand, and the rounds of
the scheduler, in which they do so by themselves.
-/

namespace LoadEngine.Sim

def beginTermination (index : Nat) : Sim Unit := do
  let time ← now
  if ← control fun c => c.terminate index time then broadcast (.terminate index)

def conclude (index : Nat) : Sim Unit := do
  let snapshot ← collect index true
  control fun c => (c.complete index snapshot, ())

def endPhase (index : Nat) : Sim Bool := do
  let s ← get
  if s.controller.isTerminated index then pure true
  else if s.controller.isReady index then
    conclude index
    pure true
  else pure false

def startPhase (name : String) : Sim Unit := do
  drain
  let _ ← shards
  let i ← index name
  let time ← now
  follow fun c => c.startOnDemand i time

def finishPhase (name : String) : Sim Unit := do
  drain
  let i ← index name
  let time ← now
  orThrow (← control fun c => c.finish i time)

def tryTerminatePhase (name : String) : Sim Bool := do
  drain
  endPhase (← index name)

def awaitEnd (index : Nat) : Nat → Sim Unit
  | 0 => stall
  | fuel + 1 => do
    unless ← endPhase index do
      awaitNotice handleNotice
      awaitEnd index fuel

def terminatePhase (name : String) : Sim Unit := do
  drain
  let i ← index name
  beginTermination i
  awaitEnd i Cluster.patience

def round (index : Nat) (time : Nanos) : Sim Unit := do
  follow fun c => c.advance index time
  if (← get).controller.isOverdue index time then beginTermination index
  let _ ← endPhase index

def tick : Sim Unit := do
  drain
  let time ← now
  control fun c => (c.begin time, ())
  (List.range (← get).controller.phases.length).forM fun index => round index time

end LoadEngine.Sim
