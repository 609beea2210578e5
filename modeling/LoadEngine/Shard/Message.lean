import LoadEngine.Session.Turn

/-!
What shards are told and what they tell. Commands come from the controller and events from plugins;
notices go to the controller and calls to plugins.
-/

namespace LoadEngine

/-- What a shard has recorded about a phase, and the most sessions that it had at a time. -/
structure PhaseSnapshot where
  statistics : StatisticsSet
  maxUsed : Nat

def PhaseSnapshot.empty : PhaseSnapshot := ⟨∅, 0⟩

inductive Command where
  /-- Makes room for the sessions of a phase: for so many at a time. -/
  | prepare (phase : Nat) (name : String) (scenario : Scenario) (capacity : Nat)
  | start (phase count : Nat)
  /-- Ends all sessions of a phase. -/
  | terminate (phase : Nat)
  /-- Asks for the snapshot of a phase. What was recorded is forgotten afterwards if `reset`. -/
  | collect (phase : Nat) (reset : Bool)
  | shutdown

inductive Event where
  | data (tag : Tag) (fragment : List UInt8)
  | complete (tag : Tag) (completion : Completion)

inductive Notice where
  /-- The answer to a start. It comes before the ends of the sessions started. -/
  | started (phase shard started blocked : Nat)
  | ended (phase shard : Nat) (how : SessionEnd)
  | fault (shard : Nat) (cause : ContractViolation)
deriving DecidableEq, Repr

inductive Output where
  | notice (notice : Notice)
  /-- Hands an operation to its plugin. -/
  | call (operation : Operation BoundValidator) (tag : Tag)
  | snapshot (phase : Nat) (snapshot : PhaseSnapshot)
  /-- The shard goes down, since it was asked for what cannot be had. What comes behind is lost. -/
  | crash

end LoadEngine
