import LoadEngine.OrderedMap
import LoadEngine.Scenario.Draft

/-!
Scenarios: what a session does, with every reference resolved. A sequence is known by its position
and a resource by its place in the arena of a session.
-/

namespace LoadEngine

/-- What a place of the arena holds: a variable or the cursor of a validator. -/
inductive SlotKind where
  | variable
  | cursor
deriving DecidableEq, Repr

def SlotKind.name : SlotKind → String
  | .variable => "Variable"
  | .cursor => "Match"

structure ResourceKey where
  scope : Scope
  index : Nat
deriving DecidableEq, Repr

structure Variable where
  name : String
  key : ResourceKey
deriving DecidableEq, Repr

structure BoundValidator where
  validator : Search.Validator
  key : ResourceKey
deriving DecidableEq, Repr

structure Target where
  name : String
  id : Nat
deriving DecidableEq, Repr

/-- A resolved step; `ρ` is a reference to a variable. -/
inductive Step (ρ : Type) where
  | action (action : Action ρ)
  | operation (operation : Operation BoundValidator)
  | declare (declaration : Declaration) (key : ResourceKey)
  | fork (targets : List Target)
  | join
  | delay (duration : Nanos)

namespace Step

def forks {ρ : Type} : Step ρ → List Nat
  | fork targets => targets.map Target.id
  | _ => []

def operation? {ρ : Type} : Step ρ → Option (Operation BoundValidator)
  | operation op => some op
  | _ => none

def draft : Step Variable → Draft.Step
  | action a => .action (a.map Variable.name)
  | operation op => .operation { op with validators := op.validators.map BoundValidator.validator }
  | declare d _ => .declare d
  | fork targets => .fork (targets.map Target.name)
  | join => .join
  | delay d => .delay d

end Step

structure Sequence (ρ : Type) where
  name : String
  steps : List (Step ρ)

namespace Sequence

def forks {ρ : Type} (s : Sequence ρ) : List Nat := s.steps.flatMap Step.forks

def draft (s : Sequence Variable) : Draft.Sequence := ⟨s.name, s.steps.map Step.draft⟩

end Sequence

/-- A resolved scenario. `maxBranches` is the number of branches of a session that has forked all it
can; `efforts` holds, for every sequence that a session can reach, how many steps a branch of it and
all that it forks take, with one more for the end of each branch. -/
structure Scenario where
  sequences : List (Sequence Variable)
  initial : List Nat
  sessionSlots : List SlotKind
  branchSlots : List SlotKind
  maxBranches : Nat
  efforts : OrderedMap Nat Nat

namespace Scenario

def step? (s : Scenario) (sequence position : Nat) : Option (Step Variable) :=
  match s.sequences[sequence]? with
  | some sequence => sequence.steps[position]?
  | none => none

def effort (s : Scenario) (sequence : Nat) : Nat := (s.efforts.get? sequence).getD 0

def sessionEffort (s : Scenario) : Nat := (s.initial.map s.effort).sum

def operations (s : Scenario) : List (Operation BoundValidator) :=
  s.sequences.flatMap fun sequence => sequence.steps.filterMap Step.operation?

def plugins (s : Scenario) : List String := s.operations.map Operation.plugin

def metrics (s : Scenario) : List String := s.operations.map Operation.metric

/-- The contents of the arena: the places of the session and then those of every branch. -/
def arena (s : Scenario) : List SlotKind :=
  if s.branchSlots.isEmpty then s.sessionSlots
  else s.sessionSlots ++ (List.replicate s.maxBranches s.branchSlots).flatten

def draft (s : Scenario) : Draft where
  initial := s.initial.map fun id => (s.sequences[id]?.map Sequence.name).getD ""
  sequences := s.sequences.map Sequence.draft

end Scenario

end LoadEngine
