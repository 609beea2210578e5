import LoadEngine.Search.Validator

/-!
Drafts of scenarios: what a session does, with every reference by name. A draft is also the written
form of a scenario.
-/

namespace LoadEngine

/-- How long a resource lives: as long as its session or as long as one branch of it. -/
inductive Scope where
  | session
  | branch
deriving DecidableEq, Repr

inductive VariableKind where
  | int
  | text
deriving DecidableEq, Repr

/-- Steps that work on session variables at once; `ρ` is a reference to a variable. -/
inductive Action (ρ : Type) where
  | setInt (var : ρ) (value : Int)
  | addInt (var : ρ) (delta : Int)
  | setText (var : ρ) (value : String)
  | unset (var : ρ)
  | log (message : String)
deriving DecidableEq, Repr

namespace Action

def reference? {ρ : Type} : Action ρ → Option ρ
  | setInt var _ | addInt var _ | setText var _ | unset var => some var
  | log _ => none

def kind? {ρ : Type} : Action ρ → Option VariableKind
  | setInt _ _ | addInt _ _ => some .int
  | setText _ _ => some .text
  | unset _ | log _ => none

def map {ρ σ : Type} (f : ρ → σ) : Action ρ → Action σ
  | setInt var value => .setInt (f var) value
  | addInt var delta => .addInt (f var) delta
  | setText var value => .setText (f var) value
  | unset var => .unset (f var)
  | log message => .log message

end Action

/-- The declaration of a session variable. The step leaves it unset. -/
structure Declaration where
  name : String
  kind : VariableKind
  scope : Scope
deriving DecidableEq, Repr

/-- An operation that a plugin carries out while the branch waits, at most as long as `timeout`.
Its failure fails the session if it is fatal. Its payload is the plugin's business. -/
structure Operation (ν : Type) where
  plugin : String
  metric : String
  payload : Json
  timeout : Nanos
  fatal : Bool
  validators : List ν

namespace Operation

def defaultTimeout : Nanos := Nanos.ofSeconds 10

def simple {ν : Type} (plugin metric : String) : Operation ν where
  plugin := plugin
  metric := metric
  payload := .null
  timeout := defaultTimeout
  fatal := true
  validators := []

end Operation

namespace Draft

inductive Step where
  | action (action : Action String)
  | operation (operation : Operation Search.Validator)
  | declare (declaration : Declaration)
  /-- Starts sequences as new branches of the session. -/
  | fork (sequences : List String)
  /-- Waits until every branch that this branch forked has finished. -/
  | join
  | delay (duration : Nanos)

structure Sequence where
  name : String
  steps : List Step

end Draft

/-- A scenario with names for references. Every session starts with the initial sequences, each as a
branch of its own. -/
structure Draft where
  initial : List String
  sequences : List Draft.Sequence

namespace Draft

def empty : Draft := ⟨[], []⟩

def sequence (d : Draft) (s : Sequence) : Draft := { d with sequences := d.sequences ++ [s] }

def initialSequence (d : Draft) (s : Sequence) : Draft :=
  { d.sequence s with initial := d.initial ++ [s.name] }

end Draft

end LoadEngine
