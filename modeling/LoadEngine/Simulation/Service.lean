import LoadEngine.Json.Basic
import LoadEngine.Outcome
import LoadEngine.Plugin.Connections

/-!
Simulated services: plugins that answer every operation in a way known beforehand.
-/

namespace LoadEngine

/-- How a service leaves an operation. -/
inductive Ending where
  /-- The answer comes so many milliseconds later, in fragments, with a completion behind them. -/
  | answer (after : Nat) (data : List (List UInt8)) (completion : Completion)
  /-- The answer is given from outside. -/
  | hold
  | forget
  /-- The service takes its shard down with it. -/
  | crash

/-- How a service reacts to an operation: the fragments that come at once, and the rest. -/
structure Response where
  early : List (List UInt8)
  ending : Ending

def Response.immediate : Response := ⟨[], .answer 0 [] .success⟩

structure Service where
  /-- How many milliseconds it takes to open the connections. -/
  connecting : Nat
  refusal : Nat → Option String
  connections : Nat → List Connection
  /-- The reaction to an operation, by the number of operations before it and by its payload. -/
  respond : Nat → Json → Response

structure Instance where
  service : Service
  issued : Nat

def Service.instantiate (s : Service) : Instance := ⟨s, 0⟩

end LoadEngine
