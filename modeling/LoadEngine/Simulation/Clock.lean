import LoadEngine.Simulation.Cluster

/-!
The simulated clock. Time stands still while anything can be done, and then jumps to the next
millisecond in which something happens, so a simulation always takes the same course. One that does
not come to rest, or reaches the horizon, has stalled and has no result.
-/

namespace LoadEngine.Cluster

def horizon : Nat := 36000000

/-- More than so many events at one time count as a stall. -/
def patience : Nat := 1000000000

def settleHost (i : Nat) : Nat → Cluster → Option Cluster
  | 0, c =>
    match c.step? i with
    | none => some c
    | some _ => none
  | fuel + 1, c =>
    match c.step? i with
    | none => some c
    | some c => settleHost i fuel c

def settle (c : Cluster) : Option Cluster :=
  (List.range c.hosts.length).foldlM (fun c i => settleHost i patience c) c

def next? (c : Cluster) : Option Nat :=
  let timers := c.hosts.filterMap fun h => h.node.next?.map Nanos.ceilMillis
  (timers ++ c.parcels.map Parcel.due).min?

def jump (c : Cluster) (time : Nat) : Cluster :=
  let (due, later) := c.parcels.partition fun p => p.due ≤ time
  let inOrder := due.mergeSort fun p q => p.due ≤ q.due
  inOrder.foldl (fun c p => c.deliver p.host p.events)
    { c with now := max c.now time, parcels := later }

def passTo (target : Nat) : Nat → Cluster → Option Cluster
  | 0, c => do
    let c ← c.settle
    some { c with now := target }
  | fuel + 1, c => do
    let c ← c.settle
    match c.next?.filter fun time => time ≤ target with
    | some time => passTo target fuel (c.jump time)
    | none => some { c with now := target }

def sleep (c : Cluster) (millis : Nat) : Option Cluster :=
  if c.now + millis < horizon then passTo (c.now + millis) (millis + 1) c else none

/-- Waits for a notice, or for a point of time if there is one, in at most so many jumps. -/
def waitNotice (limit : Option Nat) : Nat → Cluster → Option Cluster
  | 0, c => do
    let c ← c.settle
    if c.notices.isEmpty then none else some c
  | fuel + 1, c => do
    let c ← c.settle
    if c.notices.isEmpty then
      let time ← (c.next?.toList ++ limit.toList).min?
      if horizon ≤ time then none
      else if limit = some time then some (c.jump time)
      else waitNotice limit fuel (c.jump time)
    else some c

def wait (c : Cluster) (limit : Option Nat) : Option Cluster :=
  waitNotice limit (horizon - c.now + 1) c

end LoadEngine.Cluster
