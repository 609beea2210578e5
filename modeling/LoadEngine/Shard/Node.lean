import LoadEngine.Shard.Basic

/-!
Nodes: shards with their queues. A node takes commands before events and events before timers, and
each queue in its order.
-/

namespace LoadEngine

structure Node where
  shard : Shard
  commands : List Command
  events : List Event
  running : Bool

namespace Node

def new (id : Nat) (template : Recorder) : Node := ⟨.new id template, [], [], true⟩

def send (n : Node) (command : Command) : Option Node :=
  if n.running then some { n with commands := n.commands ++ [command] } else none

def deliver (n : Node) (events : List Event) : Node :=
  if n.running then { n with events := n.events ++ events } else n

def stop (n : Node) : Node := { n with commands := [], events := [], running := false }

def command? (n : Node) (now : Nanos) : Option (Node × List Output) :=
  match n.running, n.commands with
  | true, command :: rest =>
    let (shard, outputs) := n.shard.handleCommand now command
    let n := { n with shard, commands := rest }
    match command with
    | .shutdown => some (n.stop, outputs)
    | _ => some (n, outputs)
  | _, _ => none

def event? (n : Node) (now : Nanos) : Option (Node × List Output) :=
  match n.running, n.events with
  | true, event :: rest =>
    let (shard, outputs) := n.shard.handleEvent now event
    some ({ n with shard, events := rest }, outputs)
  | _, _ => none

def timers? (n : Node) (now : Nanos) : Option (Node × List Output) :=
  if n.running && n.shard.timers.next?.any (fun due => due ≤ now) then
    let (shard, outputs) := n.shard.fireTimers now
    some ({ n with shard }, outputs)
  else none

def step? (n : Node) (now : Nanos) : Option (Node × List Output) :=
  n.command? now <|> n.event? now <|> n.timers? now

def next? (n : Node) : Option Nanos := if n.running then n.shard.timers.next? else none

end Node

end LoadEngine
