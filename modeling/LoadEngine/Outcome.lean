import LoadEngine.Duration

/-!
How operations end. A latency means something only for an operation that got a response.
-/

namespace LoadEngine

inductive Outcome where
  | success
  | invalid
  | connectionError
  | timeout
  | internalError
deriving DecidableEq, Repr

namespace Outcome

def isSuccess (o : Outcome) : Bool := o == .success

def hasResponse : Outcome → Bool
  | success | invalid => true
  | _ => false

def name : Outcome → String
  | success => "success"
  | invalid => "invalid"
  | connectionError => "connection_error"
  | timeout => "timeout"
  | internalError => "internal_error"

def ofName? : String → Option Outcome
  | "success" => some success
  | "invalid" => some invalid
  | "connection_error" => some connectionError
  | "timeout" => some timeout
  | "internal_error" => some internalError
  | _ => none

end Outcome

inductive FailureKind where
  | invalid
  | connection
  | timeout
  | internal
deriving DecidableEq, Repr

inductive Completion where
  | success
  | failure (kind : FailureKind)
deriving DecidableEq, Repr

namespace Completion

def outcome : Completion → Outcome
  | success => .success
  | failure .invalid => .invalid
  | failure .connection => .connectionError
  | failure .timeout => .timeout
  | failure .internal => .internalError

def ofName? : String → Option Completion
  | "success" => some success
  | "invalid" => some (failure .invalid)
  | "connection" => some (failure .connection)
  | "timeout" => some (failure .timeout)
  | "internal" => some (failure .internal)
  | _ => none

end Completion

structure Sample where
  outcome : Outcome
  latency : Nanos
deriving DecidableEq, Repr

def Sample.new (outcome : Outcome) (latency : Nanos) : Sample := ⟨outcome, latency.saturate⟩

end LoadEngine
