import LoadEngine.Json.Decode

/-!
Counters of the sessions of a phase.
-/

namespace LoadEngine

/-- What happens to sessions. A start is blocked when there is no free slot for it. -/
inductive SessionEvent where
  | started
  | blocked
  | completed
  | failed
  | terminated
deriving DecidableEq, Repr

def SessionEvent.name : SessionEvent → String
  | started => "started"
  | blocked => "blocked"
  | completed => "completed"
  | failed => "failed"
  | terminated => "terminated"

def SessionEvent.ofName? : String → Option SessionEvent
  | "started" => some started
  | "blocked" => some blocked
  | "completed" => some completed
  | "failed" => some failed
  | "terminated" => some terminated
  | _ => none

structure SessionCounters where
  started : Nat
  blocked : Nat
  completed : Nat
  failed : Nat
  terminated : Nat
deriving DecidableEq, Repr

namespace SessionCounters

def zero : SessionCounters := ⟨0, 0, 0, 0, 0⟩

def ended (c : SessionCounters) : Nat := c.completed + c.failed + c.terminated

def live (c : SessionCounters) : Nat := c.started - c.ended

def consume (c : SessionCounters) : SessionEvent → SessionCounters
  | .started => { c with started := c.started + 1 }
  | .blocked => { c with blocked := c.blocked + 1 }
  | .completed => { c with completed := c.completed + 1 }
  | .failed => { c with failed := c.failed + 1 }
  | .terminated => { c with terminated := c.terminated + 1 }

def merge (c d : SessionCounters) : SessionCounters where
  started := c.started + d.started
  blocked := c.blocked + d.blocked
  completed := c.completed + d.completed
  failed := c.failed + d.failed
  terminated := c.terminated + d.terminated

def fieldNames : List String := ["started", "blocked", "completed", "failed", "terminated"]

def counts (c : SessionCounters) : List Nat :=
  [c.started, c.blocked, c.completed, c.failed, c.terminated]

def toJson (c : SessionCounters) : Json := .obj (fieldNames.zip (c.counts.map Json.nat))

def ofJson? (j : Json) : Option SessionCounters := do
  let f ← Json.asFields fieldNames j
  let started ← f.required "started" (Json.asNat 64)
  let blocked ← f.required "blocked" (Json.asNat 64)
  let completed ← f.required "completed" (Json.asNat 64)
  let failed ← f.required "failed" (Json.asNat 64)
  let terminated ← f.required "terminated" (Json.asNat 64)
  some { started, blocked, completed, failed, terminated }

end SessionCounters

end LoadEngine
