import LoadEngine.Session.Events
import LoadEngine.Session.View
import LoadEngine.Shard.Message

/-!
Lanes: what a shard keeps for one phase. A lane has a pool of sessions, a pool of request slots that
is large enough for all of them, and a recorder.
-/

namespace LoadEngine

structure Lane where
  name : String
  scenario : Scenario
  sessions : Pool Session
  requests : Pool Request
  recorder : Recorder

namespace Lane

def new (name : String) (scenario : Scenario) (capacity : Nat) (recorder : Recorder) : Lane where
  name := name
  scenario := scenario
  sessions := .new capacity (Session.new scenario)
  requests := .new (capacity * scenario.maxBranches) fun _ => .blank
  recorder := recorder

def free (lane : Lane) (slot : Nat) (how : SessionEnd) : Lane × Verdict :=
  match lane.sessions.release (Session.recycle lane.scenario) slot with
  | .ok sessions => ({ lane with sessions }, .ended how)
  | .error fault => (lane, .broken fault)

def drive (lane : Lane) (phase : Nat) (now : Nanos) (slot : Nat)
    (act : Stage → Turn → Turn × Verdict) : Lane × List Effect × Verdict :=
  match lane.sessions.get? slot with
  | none => (lane, [], .alive)
  | some session =>
    let (t, verdict) :=
      act ⟨lane.scenario, phase, now⟩ ⟨session, lane.requests, lane.recorder, []⟩
    let lane := { lane with
      sessions := lane.sessions.update slot fun _ => t.session
      requests := t.requests
      recorder := t.recorder }
    match verdict with
    | .ended how =>
      let (lane, verdict) := lane.free slot how
      (lane, t.effects, verdict)
    | verdict => (lane, t.effects, verdict)

def snapshot (lane : Lane) : PhaseSnapshot := ⟨lane.recorder.current, lane.sessions.maxUsed⟩

def reset (lane : Lane) : Lane :=
  { lane with
    sessions := lane.sessions.resetMarks
    requests := lane.requests.resetMarks
    recorder := lane.recorder.reset }

def liveSlots (lane : Lane) : List Nat := lane.sessions.acquired.map (·.1)

def views (lane : Lane) (shard : Nat) : List SessionView :=
  lane.sessions.acquired.map fun (_, session) => session.view lane.name shard

def effort (lane : Lane) : Nat :=
  (lane.sessions.acquired.map fun (_, session) => session.effort lane.scenario).sum

end Lane

end LoadEngine
