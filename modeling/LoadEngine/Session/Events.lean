import LoadEngine.Session.Turn

/-!
What can happen to a session. Every event is checked against its tag first: one that comes late
changes nothing, and one that nobody waits for yet breaks the contract.
-/

namespace LoadEngine.Turn

def start (stage : Stage) (t : Turn) : Turn × Verdict :=
  let opening := stage.scenario.initial.map fun sequence => Branch.new sequence none
  let t := t.onSession fun s => { s with branches := s.branches ++ opening }
  t.run stage

/-- The request slot of a pending operation is kept for it, and for no other one. -/
def owns (s : Session) (op : Nat) (r : Request) : Bool :=
  r.session == some s.slot && r.generation == s.generation && r.op == op

/-- Takes in the outcome of an operation. A failure ends the session if the operation is fatal. -/
def finishOperation (stage : Stage) (t : Turn) (op : Nat) (p : Pending) (outcome : Outcome) :
    Turn × Verdict :=
  let s := t.session
  match (t.requests.get? p.request).filter (owns s op) with
  | none => (t, .broken (.foreignRequest p.request s.slot op))
  | some record =>
    match t.requests.release (fun _ => Request.blank) p.request with
    | .error fault => (t, .broken fault)
    | .ok requests =>
      let latency := match record.issuedAt with
        | some issued => stage.now - issued
        | none => 0
      let recorder := t.recorder.record p.operation.metric (.new outcome latency)
      let t := { t with requests, recorder }
      if outcome.isSuccess || !p.operation.fatal then
        (t.onBranch p.branch .proceed).run stage
      else (t.onBranch p.branch fun b => { b with wait := .runnable }).close .failed

def onData (stage : Stage) (tag : Tag) (fragment : List UInt8) (t : Turn) : Turn × Verdict :=
  match t.session.pending? stage.scenario tag with
  | .error fault => (t, .broken fault)
  | .ok none => (t, .alive)
  | .ok (some p) =>
    (t.onSession fun s => s.onCursors stage.scenario p.operation.validators p.branch
      fun v c => v.feed c fragment, .alive)

def judge (stage : Stage) (s : Session) (p : Pending) (outcome : Outcome) : Outcome :=
  if outcome.isSuccess && !s.accepts stage.scenario p.operation.validators p.branch then .invalid
  else outcome

def onCompletion (stage : Stage) (tag : Tag) (completion : Completion) (t : Turn) :
    Turn × Verdict :=
  match t.session.pending? stage.scenario tag with
  | .error fault => (t, .broken fault)
  | .ok none => (t, .alive)
  | .ok (some p) =>
    let outcome := judge stage t.session p completion.outcome
    let t := t.onSession fun s =>
      s.onCursors stage.scenario p.operation.validators p.branch fun _ _ => .start
    t.finishOperation stage tag.op p outcome

def onDeadline (stage : Stage) (tag : Tag) (t : Turn) : Turn × Verdict :=
  match t.session.pending? stage.scenario tag with
  | .error fault => (t, .broken fault)
  | .ok none => (t, .alive)
  | .ok (some p) => t.finishOperation stage tag.op p .timeout

def onWake (stage : Stage) (tag : Tag) (t : Turn) : Turn × Verdict :=
  match t.session.isCurrent tag with
  | .error fault => (t, .broken fault)
  | .ok false => (t, .alive)
  | .ok true =>
    if t.session.branches[tag.branch]?.map Branch.wait = some (.delay tag.op) then
      (t.onBranch tag.branch .proceed).run stage
    else (t, .alive)

def onTimer (stage : Stage) (tag : Tag) : TimerKind → Turn → Turn × Verdict
  | .deadline => onDeadline stage tag
  | .wake => onWake stage tag

def terminate (t : Turn) : Turn × Verdict :=
  if t.session.state.isLive then t.close .terminated else (t, .alive)

end LoadEngine.Turn
