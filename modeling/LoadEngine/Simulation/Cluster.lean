import LoadEngine.Plugin.Registry
import LoadEngine.Shard.Node
import LoadEngine.Simulation.Service

/-!
Clusters: nodes with simulated services. What a node gives out is passed on at once: notices to
whoever listens, operations to the services, whose answers come back as events.
-/

namespace LoadEngine

structure Host where
  node : Node
  services : OrderedMap String Instance

structure Parcel where
  due : Nat
  host : Nat
  events : List Event

structure Held where
  host : Nat
  tag : Tag
  taken : Bool

structure LogEntry where
  shard : Nat
  time : Nat
  plugin : String
  metric : String

/-- Nodes on a common clock that counts milliseconds. Nodes stay in the list when they have stopped;
notices and the operations that services were handed are listed from the oldest on. -/
structure Cluster where
  now : Nat
  hosts : List Host
  parcels : List Parcel
  held : List Held
  notices : List Notice
  replies : List PhaseSnapshot
  log : List LogEntry
  /-- The services that were shut down, by shard. -/
  closed : List (Nat × String)

namespace Cluster

def empty : Cluster := ⟨0, [], [], [], [], [], [], []⟩

def time (c : Cluster) : Nanos := .ofMillis c.now

def spawn (c : Cluster) (id : Nat) (template : Recorder) (services : Registry Service) :
    Cluster :=
  { c with hosts := c.hosts ++ [⟨.new id template, services.instantiate Service.instantiate⟩] }

def setHost (c : Cluster) (i : Nat) (h : Host) : Cluster := { c with hosts := c.hosts.set i h }

def onNode (c : Cluster) (i : Nat) (f : Node → Node) : Cluster :=
  { c with hosts := c.hosts.modify i fun h => { h with node := f h.node } }

def deliver (c : Cluster) (i : Nat) (events : List Event) : Cluster :=
  c.onNode i fun node => node.deliver events

def crash (c : Cluster) (i : Nat) : Cluster := c.onNode i Node.stop

def send (c : Cluster) (i : Nat) (command : Command) : Option Cluster := do
  let h ← c.hosts[i]?
  let node ← h.node.send command
  some (c.setHost i { h with node })

def answerEvents (tag : Tag) (data : List (List UInt8)) (completion : Option Completion) :
    List Event :=
  data.map (Event.data tag) ++ (completion.map (Event.complete tag)).toList

def react (c : Cluster) (i : Nat) (tag : Tag) (r : Response) : Cluster × Bool :=
  let c := c.deliver i (answerEvents tag r.early none)
  match r.ending with
  | .crash => (c.crash i, false)
  | .forget => (c, true)
  | .hold => ({ c with held := c.held ++ [⟨i, tag, false⟩] }, true)
  | .answer after data completion =>
    let events := answerEvents tag data (some completion)
    if after = 0 then (c.deliver i events, true)
    else ({ c with parcels := c.parcels ++ [⟨c.now + after, i, events⟩] }, true)

def call (c : Cluster) (i : Nat) (operation : Operation BoundValidator) (tag : Tag) :
    Cluster × Bool :=
  match c.hosts[i]? with
  | none => (c, true)
  | some h =>
    match h.services.get? operation.plugin with
    | none => (c.deliver i [.complete tag (.failure .internal)], true)
    | some inst =>
      let services := h.services.insert operation.plugin { inst with issued := inst.issued + 1 }
      let entry : LogEntry := ⟨h.node.shard.id, c.now, operation.plugin, operation.metric⟩
      let c := { c.setHost i { h with services } with log := c.log ++ [entry] }
      c.react i tag (inst.service.respond inst.issued operation.payload)

/-- Passes on what a node gave out, up to what takes it down. -/
def route (i : Nat) : Cluster → List Output → Cluster
  | c, [] => c
  | c, .notice notice :: rest => route i { c with notices := c.notices ++ [notice] } rest
  | c, .snapshot _ snapshot :: rest => route i { c with replies := c.replies ++ [snapshot] } rest
  | c, .crash :: _ => c.crash i
  | c, .call operation tag :: rest =>
    match c.call i operation tag with
    | (c, true) => route i c rest
    | (c, false) => c

def advanceTo (c : Cluster) (i : Nat) (h : Host) (node : Node) (outputs : List Output) : Cluster :=
  let c := route i (c.setHost i { h with node }) outputs
  if node.running then c
  else { c with closed := c.closed ++ h.services.keys.map fun tag => (node.shard.id, tag) }

def command? (c : Cluster) (i : Nat) : Option Cluster := do
  let h ← c.hosts[i]?
  let (node, outputs) ← h.node.command? c.time
  some (c.advanceTo i h node outputs)

def step? (c : Cluster) (i : Nat) : Option Cluster := do
  let h ← c.hosts[i]?
  let (node, outputs) ← h.node.step? c.time
  some (c.advanceTo i h node outputs)

def answerOne (data : List (List UInt8)) (completion : Option Completion) (c : Cluster) (n : Nat) :
    Cluster × Nat :=
  match c.held[n]? with
  | none => (c, 0)
  | some h =>
    if h.taken then (c, 0)
    else
      let c := { c with held := c.held.set n { h with taken := true } }
      (c.deliver h.host (answerEvents h.tag data completion), 1)

def answer (c : Cluster) (n : Option Nat) (data : List (List UInt8))
    (completion : Option Completion) : Cluster × Nat :=
  let numbers := match n with
    | some n => [n]
    | none => List.range c.held.length
  numbers.foldl (fun (c, count) n =>
    let (c, more) := answerOne data completion c n
    (c, count + more)) (c, 0)

def takeNotices (c : Cluster) : List Notice × Cluster := (c.notices, { c with notices := [] })

end Cluster

end LoadEngine
