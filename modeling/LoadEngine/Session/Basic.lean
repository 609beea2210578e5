import LoadEngine.Pool
import LoadEngine.Scenario.Basic
import LoadEngine.Session.End
import LoadEngine.Session.Tag

/-!
Sessions: one simulated user each. A session walks through the sequences of its scenario, each in a
branch with a step pointer of its own. A branch can go on, waits for exactly one thing, or is done.
-/

namespace LoadEngine

inductive Resource where
  | unset
  | int (value : Int)
  | text (value : String)
  | cursor (cursor : Search.Cursor)
deriving DecidableEq, Repr

def Resource.initial : SlotKind → Resource
  | .variable => unset
  | .cursor => .cursor .start

/-- What keeps a branch from its next step. -/
inductive Wait where
  | runnable
  | operation (op request : Nat)
  | join
  | delay (op : Nat)
  | done
deriving DecidableEq, Repr

/-- A sequence that a session is in. -/
structure Branch where
  sequence : Nat
  /-- The position of the step that comes next or is waited for. -/
  step : Nat
  wait : Wait
  parent : Option Nat
  /-- The number of branches forked by this one that have not finished. -/
  children : Nat
deriving DecidableEq, Repr

namespace Branch

def new (sequence : Nat) (parent : Option Nat) : Branch := ⟨sequence, 0, .runnable, parent, 0⟩

def isRunnable (b : Branch) : Bool := b.wait == .runnable

def isDone (b : Branch) : Bool := b.wait == .done

def request? (b : Branch) : Option Nat :=
  match b.wait with
  | .operation _ request => some request
  | _ => none

def proceed (b : Branch) : Branch := { b with wait := .runnable, step := b.step + 1 }

def childDone (b : Branch) : Branch :=
  let b := { b with children := b.children - 1 }
  if b.children = 0 ∧ b.wait = .join then b.proceed else b

end Branch

/-- What is noted down about an operation under way: whose it is and when it was issued. -/
structure Request where
  session : Option Nat
  generation : Nat
  op : Nat
  issuedAt : Option Nanos
deriving DecidableEq, Repr

def Request.blank : Request := ⟨none, 0, 0, none⟩

/-- One simulated user. The slot serves one user after the other; `generation` counts those that
came to an end, and neither it nor `nextOp` ever starts again. -/
structure Session where
  slot : Nat
  generation : Nat
  nextOp : Nat
  state : SessionState
  branches : List Branch
  arena : List Resource
deriving DecidableEq, Repr

namespace Session

def new (scenario : Scenario) (slot : Nat) : Session where
  slot := slot
  generation := 0
  nextOp := 0
  state := .idle
  branches := []
  arena := scenario.arena.map .initial

def recycle (scenario : Scenario) (s : Session) : Session :=
  { s with state := .idle, branches := [], arena := scenario.arena.map .initial }

def liveBranches (s : Session) : Nat := s.branches.countP fun b => !b.isDone

def outstanding (s : Session) : Nat := s.branches.countP fun b => b.request?.isSome

/-- The position of a resource in the arena. A resource of branch scope has one for each branch. -/
def position (scenario : Scenario) (key : ResourceKey) (branch : Nat) : Nat :=
  match key.scope with
  | .session => key.index
  | .branch => scenario.sessionSlots.length + branch * scenario.branchSlots.length + key.index

def resource? (scenario : Scenario) (s : Session) (key : ResourceKey) (branch : Nat) :
    Option Resource :=
  s.arena[position scenario key branch]?

def onResource (scenario : Scenario) (s : Session) (key : ResourceKey) (branch : Nat)
    (f : Resource → Resource) : Session :=
  { s with arena := s.arena.modify (position scenario key branch) f }

def onCursors (scenario : Scenario) (s : Session) (validators : List BoundValidator)
    (branch : Nat) (f : Search.Validator → Search.Cursor → Search.Cursor) : Session :=
  validators.foldl (fun s v => s.onResource scenario v.key branch fun
    | .cursor c => .cursor (f v.validator c)
    | r => r) s

def accepts (scenario : Scenario) (s : Session) (validators : List BoundValidator)
    (branch : Nat) : Bool :=
  validators.all fun v =>
    match s.resource? scenario v.key branch with
    | some (.cursor c) => v.validator.accepts c
    | _ => true

def onBranch (s : Session) (branch : Nat) (f : Branch → Branch) : Session :=
  { s with branches := s.branches.modify branch f }

def current? (scenario : Scenario) (s : Session) (branch : Nat) : Option (Step Variable) :=
  match s.branches[branch]? with
  | some b => scenario.step? b.sequence b.step
  | none => none

def firstRunnable? (s : Session) : Option Nat := s.branches.findIdx? Branch.isRunnable

def tag (s : Session) (phase branch op : Nat) : Tag := ⟨phase, s.slot, s.generation, branch, op⟩

/-- The session still runs in the generation of a tag. A tag that was never handed out breaks the
contract. -/
def isCurrent (s : Session) (tag : Tag) : Except ContractViolation Bool :=
  if s.generation < tag.generation ∨ s.nextOp ≤ tag.op then
    .error (.prematureCallback s.slot tag.generation tag.op s.generation)
  else .ok (tag.generation == s.generation && s.state.isLive)

end Session

structure Pending where
  branch : Nat
  request : Nat
  operation : Operation BoundValidator

def Session.pending? (scenario : Scenario) (s : Session) (tag : Tag) :
    Except ContractViolation (Option Pending) := do
  if ← s.isCurrent tag then
    match s.branches[tag.branch]?.map Branch.wait, s.current? scenario tag.branch with
    | some (.operation op request), some (.operation operation) =>
      pure (if op = tag.op then some ⟨tag.branch, request, operation⟩ else none)
    | _, _ => pure none
  else pure none

end LoadEngine
