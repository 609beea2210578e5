import LoadEngine.Simulation.Clock

/-!
Questions to nodes. A node handles the commands that it was sent before it answers, and one that
does not run has no answer.
-/

namespace LoadEngine.Cluster

def handleCommands (i : Nat) : Nat → Cluster → Cluster
  | 0, c => c
  | fuel + 1, c =>
    match c.command? i with
    | some c => handleCommands i fuel c
    | none => c

def catchUp (c : Cluster) (i : Nat) : Cluster :=
  match c.hosts[i]? with
  | some h => handleCommands i h.node.commands.length c
  | none => c

def inspect {α : Type} (look : Host → α) (c : Cluster) (i : Nat) : Cluster × Option α :=
  let c := c.catchUp i
  (c, (c.hosts[i]?.filter fun h => h.node.running).map look)

def collect (phase : Nat) (reset : Bool) (c : Cluster) (i : Nat) :
    Cluster × Option PhaseSnapshot :=
  match c.send i (.collect phase reset) with
  | none => (c, none)
  | some c =>
    let c := c.catchUp i
    ({ c with replies := [] }, c.replies.getLast?)

def views : Cluster → Nat → Cluster × Option (List SessionView) :=
  inspect fun h => h.node.shard.views

def hostConnections (h : Host) : List ConnectionStats :=
  let id := h.node.shard.id
  h.services.toList.flatMap fun (tag, inst) =>
    (inst.service.connections id).map fun connection => ⟨connection, id, tag⟩

def connections : Cluster → Nat → Cluster × Option (List ConnectionStats) :=
  inspect hostConnections

/-- How long it takes to open the connections of a node's services, and what the first service says
that cannot. -/
def hostConnect (h : Host) : Nat × Except PluginError Unit :=
  let duration := h.services.values.foldl (fun n inst => max n inst.service.connecting) 0
  let refusal := h.services.toList.findSome? fun (tag, inst) =>
    (inst.service.refusal h.node.shard.id).map (PluginError.connect tag)
  match refusal with
  | some e => (duration, .error e)
  | none => (duration, .ok ())

def askAll {α : Type} (ask : Cluster → Nat → Cluster × Option α) :
    Cluster → List Nat → Option (Cluster × List (Option α))
  | c, [] => some (c, [])
  | c, i :: rest => do
    let (c, answer) := ask c i
    let c ← settleHost i patience c
    let (c, answers) ← askAll ask c rest
    some (c, answer :: answers)

def openConnections (c : Cluster) (hosts : List Nat) :
    Option (Cluster × List (Option (Except PluginError Unit))) := do
  let (c, answers) ← askAll (inspect hostConnect) c hosts
  let durations := answers.filterMap fun a => a.map Prod.fst
  let c ← c.sleep (durations.foldl max 0)
  some (c, answers.map fun a => a.map Prod.snd)

end LoadEngine.Cluster
