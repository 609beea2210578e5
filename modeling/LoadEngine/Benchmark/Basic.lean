import LoadEngine.Arrival
import LoadEngine.Scenario.Resolve
import LoadEngine.Sla

/-!
Benchmarks: phases that start sessions of a scenario by some strategy, in an order given by what
they wait for.
-/

namespace LoadEngine

/-- When and how many sessions a phase starts. -/
inductive Strategy where
  /-- So many sessions at the start and none afterwards. -/
  | atOnce (users : Nat)
  /-- So many sessions at any time, each started again when it ends. -/
  | always (users : Nat)
  /-- Arrivals at a fixed rate per second. -/
  | constantRate (usersPerSec : Float) (catchUp : Bool)
  /-- Arrivals at a rate that changes linearly over the phase. -/
  | rampRate (initial target : Float) (catchUp : Bool)
  /-- One session after the other, so many times. -/
  | sequential (iterations : Nat)
  /-- No sessions: the phase only lets time pass. -/
  | noop

namespace Strategy

def rates : Strategy → Option (Float × Float)
  | constantRate rate _ => some (rate, rate)
  | rampRate initial target _ => some (initial, target)
  | _ => none

def catchUp : Strategy → Bool
  | constantRate _ catchUp | rampRate _ _ catchUp => catchUp
  | _ => false

def label : Strategy → String
  | atOnce _ => "at_once"
  | always _ => "always"
  | constantRate _ _ => "constant_rate"
  | rampRate _ _ _ => "ramp_rate"
  | sequential _ => "sequential"
  | noop => "noop"

def needsDuration : Strategy → Bool
  | always _ | constantRate _ _ | rampRate _ _ _ => true
  | _ => false

def iterations? : Strategy → Option Nat
  | sequential iterations => some iterations
  | _ => none

def fasterRate (a b : Float) : Float :=
  if a.isNaN then b else if b.isNaN then a else if a < b then b else a

/-- The sessions that the strategy needs at a time: one second's arrivals if it has a rate. -/
def capacity : Strategy → Nat
  | atOnce users | always users => users
  | sequential _ => 1
  | noop => 0
  | constantRate rate _ => max 1 (Decimal.toCount rate.ceil)
  | rampRate initial target _ => max 1 (Decimal.toCount (fasterRate initial target).ceil)

end Strategy

inductive Progress where
  /-- It starts no more sessions. -/
  | finished
  /-- All its sessions have ended. -/
  | terminated
deriving DecidableEq, Repr

structure Dependency where
  phase : String
  progress : Progress
deriving DecidableEq, Repr

structure Phase where
  name : String
  scenario : Scenario
  strategy : Strategy
  /-- How long the phase starts sessions; 0 sets no limit where there is another one. -/
  duration : Nanos
  /-- Sessions that still run so long after the start are terminated. -/
  maxDuration : Option Nanos
  /-- The highest number of started sessions. Blocked starts do not count. -/
  maxIterations : Option Nat
  maxSessions : Option Nat
  dependsOn : List Dependency
  /-- The earliest start, counted from the start of the run. -/
  startDelay : Option Nanos
  /-- The phases that have to be terminated before this one terminates of itself. -/
  terminateAfter : List String
  slas : List Sla

namespace Phase

def simple (name : String) (scenario : Scenario) (strategy : Strategy) : Phase where
  name := name
  scenario := scenario
  strategy := strategy
  duration := 0
  maxDuration := none
  maxIterations := none
  maxSessions := none
  dependsOn := []
  startDelay := none
  terminateAfter := []
  slas := []

def sessionCapacity (p : Phase) : Nat := p.maxSessions.getD p.strategy.capacity

def iterationCap (p : Phase) : Option Nat :=
  match p.strategy.iterations?, p.maxIterations with
  | some a, some b => some (min a b)
  | some a, none => some a
  | none, b => b

def arrivals (p : Phase) : Option Arrival.Curve :=
  p.strategy.rates.map fun (initial, target) => ⟨p.duration, initial, target⟩

end Phase

structure Benchmark where
  name : String
  phases : List Phase

namespace Benchmark

def position? (b : Benchmark) (name : String) : Option Nat :=
  b.phases.findIdx? fun p => p.name == name

end Benchmark

end LoadEngine
