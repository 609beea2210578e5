/-!
The life of a phase. It only ever moves forward.
-/

namespace LoadEngine

inductive PhaseStatus where
  | notStarted
  | running
  /-- The phase starts no more sessions. -/
  | finished
  /-- Its sessions are being ended. -/
  | terminating
  /-- Every session that it started has ended. -/
  | terminated
deriving DecidableEq, Repr

namespace PhaseStatus

def isFinished : PhaseStatus → Bool
  | finished | terminating | terminated => true
  | _ => false

def display : PhaseStatus → String
  | notStarted => "NOT_STARTED"
  | running => "RUNNING"
  | finished => "FINISHED"
  | terminating => "TERMINATING"
  | terminated => "TERMINATED"

def name : PhaseStatus → String
  | notStarted => "not_started"
  | running => "running"
  | finished => "finished"
  | terminating => "terminating"
  | terminated => "terminated"

def ofName? : String → Option PhaseStatus
  | "not_started" => some notStarted
  | "running" => some running
  | "finished" => some finished
  | "terminating" => some terminating
  | "terminated" => some terminated
  | _ => none

end PhaseStatus

end LoadEngine
