import LoadEngine.Duration

/-!
Tags: what an event or a timer belongs to. A tag names one wait of one branch of a session, so that
whatever comes late is told from what is still waited for.
-/

namespace LoadEngine

/-- One wait of a session: the session by phase and slot, the generation of users that the slot had
seen before, the branch that waits, and the number of the wait. -/
structure Tag where
  phase : Nat
  slot : Nat
  generation : Nat
  branch : Nat
  op : Nat
deriving DecidableEq, Repr

inductive TimerKind where
  | deadline
  | wake
deriving DecidableEq, Repr

/-- Something that a session wants to be told at a time. -/
structure Timer where
  due : Nanos
  tag : Tag
  kind : TimerKind
deriving DecidableEq, Repr

/-- No timer can be set for this point of time or a later one. The clock counts its seconds with 63
bits, from a point at least a day before the engine started. -/
def Timer.reach : Nanos := .ofSeconds (2 ^ 63 - 86400)

end LoadEngine
