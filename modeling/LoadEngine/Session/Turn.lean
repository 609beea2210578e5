import LoadEngine.Session.Effort
import LoadEngine.Statistics.Recorder

/-!
Turns of a session: how it goes on after something it waited for has come. Its branches take steps,
the first one that can go on before the others, until every branch waits or is done. A turn takes no
time: whatever is issued or put off in it counts from the one instant at which it is taken. What a
turn asks of the shard is listed and left to the shard.
-/

namespace LoadEngine

/-- Where and when a turn is taken. -/
structure Stage where
  scenario : Scenario
  phase : Nat
  now : Nanos

inductive Effect where
  | schedule (timer : Timer)
  | issue (operation : Operation BoundValidator) (tag : Tag)

/-- A session in its turn: the session, the request pool and the recorder of its phase, and what it
has asked for, the oldest first. -/
structure Turn where
  session : Session
  requests : Pool Request
  recorder : Recorder
  effects : List Effect

/-- What became of a session in its turn. -/
inductive Verdict where
  | alive
  | ended (how : SessionEnd)
  | broken (fault : ContractViolation)
deriving DecidableEq, Repr

namespace Turn

def onSession (t : Turn) (f : Session → Session) : Turn := { t with session := f t.session }

def onBranch (t : Turn) (branch : Nat) (f : Branch → Branch) : Turn :=
  t.onSession fun s => s.onBranch branch f

def ask (t : Turn) (effect : Effect) : Turn := { t with effects := t.effects ++ [effect] }

def takeOp (t : Turn) : Nat × Turn :=
  (t.session.nextOp, t.onSession fun s => { s with nextOp := s.nextOp + 1 })

/-- Ends branches and gives the slots of their operations back, up to a slot that cannot be. -/
def abandon (requests : Pool Request) :
    List Branch → List Branch × Pool Request × Option ContractViolation
  | [] => ([], requests, none)
  | b :: rest =>
    let released := match b.request? with
      | some request => requests.release (fun _ => Request.blank) request
      | none => .ok requests
    match released with
    | .error fault => (b :: rest, requests, some fault)
    | .ok requests =>
      let (rest, requests, fault) := abandon requests rest
      ({ b with wait := .done } :: rest, requests, fault)

/-- Ends the session. Nothing handed out so far means anything to its next user. -/
def close (t : Turn) (how : SessionEnd) : Turn × Verdict :=
  let (branches, requests, fault) := abandon t.requests t.session.branches
  let t := { t with requests, session := { t.session with branches } }
  match fault with
  | some fault => (t, .broken fault)
  | none =>
    (t.onSession fun s => { s with generation := s.generation + 1, state := how.state },
      .ended how)

def finishBranch (t : Turn) (branch : Nat) : Turn :=
  let parent := t.session.branches[branch]? >>= Branch.parent
  let t := t.onBranch branch fun b => { b with wait := .done }
  match parent with
  | some parent => t.onBranch parent .childDone
  | none => t

def fork (t : Turn) (branch : Nat) (targets : List Target) : Turn :=
  let t := t.onBranch branch fun b => { b with children := b.children + targets.length }
  t.onSession fun s =>
    { s with branches := s.branches ++ targets.map fun target => .new target.id (some branch) }

def issue (stage : Stage) (t : Turn) (branch : Nat) (operation : Operation BoundValidator) :
    Turn × Verdict :=
  match t.requests.acquire with
  | (none, requests) => (t, .broken (.requestOverflow stage.phase requests.capacity))
  | (some request, requests) =>
    let (op, t) := t.takeOp
    let s := t.session
    let tag := s.tag stage.phase branch op
    let t := { t with
      requests := requests.update request fun _ =>
        ⟨some s.slot, s.generation, op, some stage.now⟩
      recorder := t.recorder.recordRequest operation.metric }
    let t := t.onSession fun s =>
      s.onCursors stage.scenario operation.validators branch fun _ _ => .start
    let t := t.onBranch branch fun b => { b with wait := .operation op request }
    let t := t.ask (.schedule ⟨stage.now + operation.timeout, tag, .deadline⟩)
    (t.ask (.issue operation tag), .alive)

def delay (stage : Stage) (t : Turn) (branch : Nat) (duration : Nanos) : Turn :=
  let (op, t) := t.takeOp
  let tag := t.session.tag stage.phase branch op
  let t := t.onBranch branch fun b => { b with wait := .delay op }
  t.ask (.schedule ⟨stage.now + duration, tag, .wake⟩)

def boundedSum (a b : Int) : Int := max (-2 ^ 63) (min (2 ^ 63 - 1) (a + b))

def execute (stage : Stage) (s : Session) (branch : Nat) : Action Variable → Option Session
  | .setInt var value => some (s.onResource stage.scenario var.key branch fun _ => .int value)
  | .addInt var delta =>
    match s.resource? stage.scenario var.key branch with
    | some (.int value) =>
      some (s.onResource stage.scenario var.key branch fun _ => .int (boundedSum value delta))
    | _ => none
  | .setText var value => some (s.onResource stage.scenario var.key branch fun _ => .text value)
  | .unset var => some (s.onResource stage.scenario var.key branch fun _ => .unset)
  | .log _ => some s

def step (stage : Stage) (t : Turn) (branch : Nat) : Turn × Verdict :=
  let next (t : Turn) : Turn × Verdict := (t.onBranch branch .proceed, .alive)
  match t.session.current? stage.scenario branch with
  | none => (t.finishBranch branch, .alive)
  | some (.action action) =>
    match execute stage t.session branch action with
    | some session => next { t with session }
    | none => t.close .failed
  | some (.declare _ key) =>
    next (t.onSession fun s => s.onResource stage.scenario key branch fun _ => .unset)
  | some (.operation operation) => t.issue stage branch operation
  | some (.fork targets) => next (t.fork branch targets)
  | some .join =>
    if t.session.branches[branch]?.any fun b => 0 < b.children then
      (t.onBranch branch fun b => { b with wait := .join }, .alive)
    else next t
  | some (.delay duration) => (t.delay stage branch duration, .alive)

/-- What becomes of a session of which no branch can go on. -/
def rest (t : Turn) : Turn × Verdict :=
  if t.session.branches.all Branch.isDone then t.close .completed
  else (t.onSession fun s => { s with state := .suspended }, .alive)

def steps (stage : Stage) : Nat → Turn → Turn × Verdict
  | fuel, t =>
    match t.session.firstRunnable? with
    | none => t.rest
    | some branch =>
      match fuel with
      | 0 => (t, .alive)
      | fuel + 1 =>
        match t.step stage branch with
        | (t, .alive) => steps stage fuel t
        | stopped => stopped

/-- Lets the session run until nothing in it can go on. -/
def run (stage : Stage) (t : Turn) : Turn × Verdict :=
  let t := t.onSession fun s => { s with state := .running }
  t.steps stage (t.session.effort stage.scenario)

end Turn

end LoadEngine
