import LoadEngine.Error
import LoadEngine.Graph
import LoadEngine.Scenario.Basic

/-!
Resolving a draft. Names are looked up once, places in the arena are given out in the order of the
steps, and the forks must not form a cycle that a session can reach. The first thing found wrong is
reported with its place: sequence names first, then the steps in order, then the variables of
actions, and last the forks.
-/

namespace LoadEngine

namespace VariableKind

def name : VariableKind → String
  | int => "int"
  | text => "text"

def ofName? : String → Option VariableKind
  | "int" => some int
  | "text" => some text
  | _ => none

end VariableKind

namespace Draft

def position? (d : Draft) (name : String) : Option Nat :=
  d.sequences.findIdx? fun s => s.name == name

def resolveTargets (d : Draft) (site : StepSite) : List String → Except ConfigError (List Target)
  | [] => .ok []
  | name :: rest =>
    match d.position? name with
    | none => .error (.unknownSequence site name)
    | some id => do
      let targets ← d.resolveTargets site rest
      pure (⟨name, id⟩ :: targets)

def resolveInitial (d : Draft) : List String → Except ConfigError (List Nat)
  | [] => .ok []
  | name :: rest =>
    match d.position? name with
    | none => .error (.unknownSequence ⟨"(initial)", 0⟩ name)
    | some id => do
      let ids ← d.resolveInitial rest
      pure (id :: ids)

end Draft

/-- The places of the arena given out so far and the variables declared. A variable may be used
before the step that declares it, so actions are looked at when all declarations are known. -/
structure ArenaLayout where
  session : List SlotKind
  branch : List SlotKind
  declared : List (String × ResourceKey × VariableKind)

namespace ArenaLayout

def empty : ArenaLayout := ⟨[], [], []⟩

def allocate (l : ArenaLayout) (kind : SlotKind) : Scope → ResourceKey × ArenaLayout
  | .session => (⟨.session, l.session.length⟩, { l with session := l.session ++ [kind] })
  | .branch => (⟨.branch, l.branch.length⟩, { l with branch := l.branch ++ [kind] })

def bind (l : ArenaLayout) : List Search.Validator → List BoundValidator × ArenaLayout
  | [] => ([], l)
  | v :: rest =>
    let (key, l) := l.allocate .cursor .branch
    let (bound, l) := l.bind rest
    (⟨v, key⟩ :: bound, l)

def placeStep (d : Draft) (site : StepSite) (l : ArenaLayout) :
    Draft.Step → Except ConfigError (Step String × ArenaLayout)
  | .action a => .ok (.action a, l)
  | .operation op =>
    if op.metric = "" then .error (.invalidStep site "operation has no metric name")
    else if op.timeout = 0 then .error (.invalidStep site "operation timeout must be positive")
    else
      let (validators, l) := l.bind op.validators
      .ok (.operation { op with validators }, l)
  | .declare declaration =>
    if (l.declared.lookup declaration.name).isSome then
      .error (.duplicateResource site declaration.name)
    else
      let (key, l) := l.allocate .variable declaration.scope
      let l := { l with declared := (declaration.name, key, declaration.kind) :: l.declared }
      .ok (.declare declaration key, l)
  | .fork names =>
    if names.isEmpty then .error (.invalidStep site "fork without sequences")
    else do
      let targets ← d.resolveTargets site names
      pure (.fork targets, l)
  | .join => .ok (.join, l)
  | .delay duration => .ok (.delay duration, l)

def placeSteps (d : Draft) (sequence : String) : Nat → ArenaLayout → List Draft.Step →
    Except ConfigError (List (Step String) × ArenaLayout)
  | _, l, [] => .ok ([], l)
  | i, l, step :: rest => do
    let (step, l) ← placeStep d ⟨sequence, i⟩ l step
    let (steps, l) ← placeSteps d sequence (i + 1) l rest
    pure (step :: steps, l)

def placeSequences (d : Draft) : ArenaLayout → List Draft.Sequence →
    Except ConfigError (List (Sequence String) × ArenaLayout)
  | l, [] => .ok ([], l)
  | l, s :: rest => do
    let (steps, l) ← placeSteps d s.name 0 l s.steps
    let (sequences, l) ← placeSequences d l rest
    pure (⟨s.name, steps⟩ :: sequences, l)

def resolveVariable (l : ArenaLayout) (site : StepSite) (kind : Option VariableKind)
    (name : String) : Except ConfigError Variable :=
  match l.declared.lookup name with
  | none => .error (.unknownResource site name)
  | some (key, declared) =>
    match kind with
    | none => .ok ⟨name, key⟩
    | some expected =>
      if expected = declared then .ok ⟨name, key⟩
      else .error (.resourceKind site name expected.name)

def resolveAction (l : ArenaLayout) (site : StepSite) (a : Action String) :
    Except ConfigError (Action Variable) :=
  let resolve := l.resolveVariable site a.kind?
  match a with
  | .setInt var value => do pure (.setInt (← resolve var) value)
  | .addInt var delta => do pure (.addInt (← resolve var) delta)
  | .setText var value => do pure (.setText (← resolve var) value)
  | .unset var => do pure (.unset (← resolve var))
  | .log message => .ok (.log message)

def resolveStep (l : ArenaLayout) (site : StepSite) :
    Step String → Except ConfigError (Step Variable)
  | .action a => do pure (.action (← l.resolveAction site a))
  | .operation op => .ok (.operation op)
  | .declare declaration key => .ok (.declare declaration key)
  | .fork targets => .ok (.fork targets)
  | .join => .ok .join
  | .delay duration => .ok (.delay duration)

def resolveSteps (l : ArenaLayout) (sequence : String) : Nat → List (Step String) →
    Except ConfigError (List (Step Variable))
  | _, [] => .ok []
  | i, step :: rest => do
    let step ← l.resolveStep ⟨sequence, i⟩ step
    let steps ← l.resolveSteps sequence (i + 1) rest
    pure (step :: steps)

def resolveSequences (l : ArenaLayout) : List (Sequence String) →
    Except ConfigError (List (Sequence Variable))
  | [] => .ok []
  | s :: rest => do
    let steps ← l.resolveSteps s.name 0 s.steps
    let sequences ← l.resolveSequences rest
    pure (⟨s.name, steps⟩ :: sequences)

end ArenaLayout

def firstRepeated? : List String → List String → Option String
  | _, [] => none
  | before, name :: rest =>
    if name ∈ before then some name else firstRepeated? (name :: before) rest

def forkGraph {ρ : Type} (sequences : List (Sequence ρ)) : Graph := ⟨sequences.map Sequence.forks⟩

def forkPath {ρ : Type} (sequences : List (Sequence ρ)) (path : List Nat) : List String :=
  path.map fun id => (sequences[id]?.map Sequence.name).getD ""

/-- Weighs the sequences that can be reached from the initial ones. -/
def weighForks {ρ : Type} (sequences : List (Sequence ρ)) (initial : List Nat)
    (cost : Nat → Nat) : Except ConfigError (Nat × Graph.Weights) :=
  match (forkGraph sequences).weigh cost initial with
  | .ok weights => .ok weights
  | .error path => .error (.forkCycle (forkPath sequences path))

def Draft.build (d : Draft) : Except ConfigError Scenario := do
  if d.initial.isEmpty then throw .emptyScenario
  if let some name := firstRepeated? [] (d.sequences.map Draft.Sequence.name) then
    throw (.duplicateSequence name)
  let initial ← d.resolveInitial d.initial
  let (placed, layout) ← ArenaLayout.placeSequences d .empty d.sequences
  let sequences ← layout.resolveSequences placed
  let (maxBranches, _) ← weighForks sequences initial fun _ => 1
  let (_, efforts) ← weighForks sequences initial fun id =>
    ((sequences[id]?.map fun s => s.steps.length).getD 0) + 1
  pure {
    sequences
    initial
    sessionSlots := layout.session
    branchSlots := layout.branch
    maxBranches
    efforts }

end LoadEngine
