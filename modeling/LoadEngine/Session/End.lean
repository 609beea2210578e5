import LoadEngine.Statistics.Sessions

/-!
The states of a session and the ways in which it ends.
-/

namespace LoadEngine

inductive SessionState where
  | idle
  | running
  /-- Every branch that has not finished waits. -/
  | suspended
  | completed
  | failed
  | terminated
deriving DecidableEq, Repr

namespace SessionState

def isLive : SessionState → Bool
  | running | suspended => true
  | _ => false

def name : SessionState → String
  | idle => "idle"
  | running => "running"
  | suspended => "suspended"
  | completed => "completed"
  | failed => "failed"
  | terminated => "terminated"

def ofName? : String → Option SessionState
  | "idle" => some idle
  | "running" => some running
  | "suspended" => some suspended
  | "completed" => some completed
  | "failed" => some failed
  | "terminated" => some terminated
  | _ => none

end SessionState

inductive SessionEnd where
  | completed
  | failed
  | terminated
deriving DecidableEq, Repr

namespace SessionEnd

def state : SessionEnd → SessionState
  | completed => .completed
  | failed => .failed
  | terminated => .terminated

def event : SessionEnd → SessionEvent
  | completed => .completed
  | failed => .failed
  | terminated => .terminated

def name (e : SessionEnd) : String := e.state.name

def ofName? : String → Option SessionEnd
  | "completed" => some completed
  | "failed" => some failed
  | "terminated" => some terminated
  | _ => none

end SessionEnd

end LoadEngine
