import LoadEngine.Shard.Lane
import LoadEngine.Shard.Timers

/-!
Shards. A shard runs its part of the sessions of every phase; it shares nothing with other shards.
Whatever happens to it is a command, an event or the time of its timers, handled to the end before
the next one, and all that it has to say is listed in order.
-/

namespace LoadEngine

structure Shard where
  id : Nat
  /-- The recorder that every phase starts with. -/
  template : Recorder
  lanes : OrderedMap Nat Lane
  timers : Timers

namespace Shard

def new (id : Nat) (template : Recorder) : Shard := ⟨id, template, ∅, .empty⟩

/-- Puts timers aside and passes calls on. A timer out of reach takes the shard down. -/
def carryOut (s : Shard) : List Effect → Shard × List Output
  | [] => (s, [])
  | .schedule timer :: rest =>
    let (s, outputs) := { s with timers := s.timers.schedule timer }.carryOut rest
    (s, if timer.due < Timer.reach then outputs else .crash :: outputs)
  | .issue operation tag :: rest =>
    let (s, outputs) := s.carryOut rest
    (s, .call operation tag :: outputs)

def drive (s : Shard) (now : Nanos) (phase slot : Nat) (act : Stage → Turn → Turn × Verdict) :
    Shard × List Output × Verdict :=
  match s.lanes.get? phase with
  | none => (s, [], .alive)
  | some lane =>
    let (lane, effects, verdict) := lane.drive phase now slot act
    let (s, outputs) := { s with lanes := s.lanes.insert phase lane }.carryOut effects
    (s, outputs, verdict)

def announce (s : Shard) (phase : Nat) : Verdict → List Output
  | .alive => []
  | .ended how => [.notice (.ended phase s.id how)]
  | .broken fault => [.notice (.fault s.id fault)]

def visit (s : Shard) (now : Nanos) (phase slot : Nat) (act : Stage → Turn → Turn × Verdict) :
    Shard × List Output :=
  let (s, outputs, verdict) := s.drive now phase slot act
  (s, outputs ++ s.announce phase verdict)

/-- More phases, or request slots in a phase, than this are not to be had. -/
def room : Nat := 2 ^ 48

def hasRoom (phase : Nat) (scenario : Scenario) (capacity : Nat) : Bool :=
  phase < room && capacity * scenario.maxBranches < room

def prepare (s : Shard) (phase : Nat) (name : String) (scenario : Scenario) (capacity : Nat) :
    Shard :=
  { s with lanes := s.lanes.insert phase (.new name scenario capacity s.template) }

def acquire (s : Shard) (phase : Nat) : Option Nat × Shard :=
  match s.lanes.get? phase with
  | none => (none, s)
  | some lane =>
    let (slot, sessions) := lane.sessions.acquire
    (slot, { s with lanes := s.lanes.insert phase { lane with sessions } })

/-- A shard that is starting sessions: what it has given out so far, how many it started, how many
found no slot, and how those ended that never had to wait. -/
structure Wave where
  shard : Shard
  outputs : List Output
  started : Nat
  blocked : Nat
  ends : List SessionEnd

def launch (now : Nanos) (phase : Nat) : Nat → Wave → Wave
  | 0, w => w
  | count + 1, w =>
    match w.shard.acquire phase with
    | (none, _) => launch now phase count { w with blocked := w.blocked + 1 }
    | (some slot, shard) =>
      let (shard, outputs, verdict) := shard.drive now phase slot Turn.start
      let w := { w with shard, outputs := w.outputs ++ outputs, started := w.started + 1 }
      match verdict with
      | .alive => launch now phase count w
      | .ended how => launch now phase count { w with ends := w.ends ++ [how] }
      | .broken fault => { w with outputs := w.outputs ++ [.notice (.fault shard.id fault)] }

/-- Starts sessions. Their ends are told after their start. -/
def start (s : Shard) (now : Nanos) (phase count : Nat) : Shard × List Output :=
  let w := launch now phase count ⟨s, [], 0, 0, []⟩
  (w.shard, w.outputs ++ .notice (.started phase s.id w.started w.blocked) ::
    w.ends.map fun how => .notice (.ended phase s.id how))

def terminateSlots (now : Nanos) (phase : Nat) (s : Shard) : List Nat → Shard × List Output
  | [] => (s, [])
  | slot :: rest =>
    let (s, outputs) := s.visit now phase slot fun _ => Turn.terminate
    let (s, more) := terminateSlots now phase s rest
    (s, outputs ++ more)

def terminate (s : Shard) (now : Nanos) (phase : Nat) : Shard × List Output :=
  match s.lanes.get? phase with
  | none => (s, [])
  | some lane => terminateSlots now phase s lane.liveSlots

def collect (s : Shard) (phase : Nat) (reset : Bool) : Shard × PhaseSnapshot :=
  match s.lanes.get? phase with
  | none => (s, .empty)
  | some lane =>
    (if reset then { s with lanes := s.lanes.insert phase lane.reset } else s, lane.snapshot)

def terminatePhases (now : Nanos) (s : Shard) : List Nat → Shard × List Output
  | [] => (s, [])
  | phase :: rest =>
    let (s, outputs) := s.terminate now phase
    let (s, more) := terminatePhases now s rest
    (s, outputs ++ more)

def terminateAll (s : Shard) (now : Nanos) : Shard × List Output :=
  terminatePhases now s s.lanes.keys

def handleCommand (s : Shard) (now : Nanos) : Command → Shard × List Output
  | .prepare phase name scenario capacity =>
    if hasRoom phase scenario capacity then (s.prepare phase name scenario capacity, [])
    else (s, [.crash])
  | .start phase count => s.start now phase count
  | .terminate phase => s.terminate now phase
  | .collect phase reset =>
    let (s, snapshot) := s.collect phase reset
    (s, [.snapshot phase snapshot])
  | .shutdown => s.terminateAll now

def handleEvent (s : Shard) (now : Nanos) : Event → Shard × List Output
  | .data tag fragment =>
    s.visit now tag.phase tag.slot fun stage => Turn.onData stage tag fragment
  | .complete tag completion =>
    s.visit now tag.phase tag.slot fun stage => Turn.onCompletion stage tag completion

def effort (s : Shard) : Nat := (s.lanes.values.map Lane.effort).sum

def fire (now : Nanos) : Nat → Shard → Shard × List Output
  | 0, s => (s, [])
  | fuel + 1, s =>
    match s.timers.popDue? now with
    | none => (s, [])
    | some (timer, timers) =>
      let tag := timer.tag
      let (s, outputs) := { s with timers }.visit now tag.phase tag.slot fun stage =>
        Turn.onTimer stage tag timer.kind
      let (s, more) := fire now fuel s
      (s, outputs ++ more)

/-- Fires all timers that are due, those scheduled meanwhile among them. A session schedules no more
timers than it has steps to take. -/
def fireTimers (s : Shard) (now : Nanos) : Shard × List Output :=
  fire now (s.timers.size + s.effort) s

def views (s : Shard) : List SessionView := s.lanes.values.flatMap fun lane => lane.views s.id

end Shard

end LoadEngine
