import LoadEngine.Histogram.Quantile
import LoadEngine.Phase.Status
import LoadEngine.Sla
import LoadEngine.Statistics.Sessions

/-!
Reports: figures derived from the statistics of a phase, what happened in each phase, and how the
whole run went.
-/

namespace LoadEngine

structure Percentile where
  percentile : Float
  latency : Nanos

structure Summary where
  requests : Nat
  responses : Nat
  successes : Nat
  invalid : Nat
  connectionErrors : Nat
  timeouts : Nat
  internalErrors : Nat
  /-- The successful operations among all with an outcome, in percent. -/
  successRatio : Float
  min : Nanos
  mean : Nanos
  deviation : Nanos
  max : Nanos
  percentiles : List Percentile

namespace Summary

def ratio (part whole : Nat) : Float :=
  if whole = 0 then 0 else Decimal.ofCount part / Decimal.ofCount whole * 100

def latency (x : Float) : Nanos := if x.isNaN || x.isInf then 0 else Decimal.toCount x

def ofSnapshot (s : Snapshot) (percentiles : List Float) : Summary :=
  let h := s.histogram
  let shown (x : Float) : Nanos := if h.isEmpty then 0 else latency x
  { requests := s.requests
    responses := s.responses
    successes := s.successes
    invalid := s.invalid
    connectionErrors := s.connectionErrors
    timeouts := s.timeouts
    internalErrors := s.internalErrors
    successRatio := ratio s.successes s.completed
    min := shown (Decimal.ofCount h.min)
    mean := shown h.mean
    deviation := shown h.deviation
    max := shown (Decimal.ofCount h.max)
    percentiles := percentiles.map fun p => ⟨p, shown (Decimal.ofCount (h.percentile p))⟩ }

end Summary

structure PhaseReport where
  name : String
  status : PhaseStatus
  strategy : String
  /-- From the start until the phase stopped starting sessions. -/
  duration : Nanos
  sessions : SessionCounters
  /-- The highest number of sessions at a time, summed over the shards. -/
  maxSessionsUsed : Nat
  statistics : OrderedMap String Summary
  slaFailures : List SlaFailure

inductive RunOutcome where
  /-- Every phase terminated. This says nothing about the target. -/
  | completed
  | aborted (reason : String)
deriving DecidableEq, Repr

structure RunReport where
  name : String
  outcome : RunOutcome
  duration : Nanos
  phases : List PhaseReport

namespace RunReport

def isAborted (r : RunReport) : Bool :=
  match r.outcome with
  | .completed => false
  | .aborted _ => true

def phase? (r : RunReport) (name : String) : Option PhaseReport :=
  r.phases.find? fun p => p.name == name

def isPassing (r : RunReport) : Bool :=
  !r.isAborted && r.phases.all fun p => p.slaFailures.isEmpty

end RunReport

end LoadEngine
