import LoadEngine.Histogram.Basic
import LoadEngine.Outcome

/-!
Counters and latencies of one kind of operation. Snapshots of one shape can be merged.
-/

namespace LoadEngine

/-- What is known about the operations of one metric. -/
structure Snapshot where
  histogram : Histogram
  requests : Nat
  responses : Nat
  successes : Nat
  invalid : Nat
  connectionErrors : Nat
  timeouts : Nat
  internalErrors : Nat
deriving DecidableEq

namespace Snapshot

def empty (shape : Histogram.Shape) : Snapshot := ⟨.empty shape, 0, 0, 0, 0, 0, 0, 0⟩

def new (shape : Histogram.Shape) : Except ConfigError Snapshot := do
  shape.check
  pure (empty shape)

def shape (s : Snapshot) : Histogram.Shape := s.histogram.shape

def failures (s : Snapshot) : Nat :=
  s.invalid + s.connectionErrors + s.timeouts + s.internalErrors

def completed (s : Snapshot) : Nat := s.successes + s.failures

def isEmpty (s : Snapshot) : Bool := s.requests == 0 && s.completed == 0

def recordRequest (s : Snapshot) : Snapshot := { s with requests := s.requests + 1 }

def count (s : Snapshot) : Outcome → Snapshot
  | .success => { s with successes := s.successes + 1 }
  | .invalid => { s with invalid := s.invalid + 1 }
  | .connectionError => { s with connectionErrors := s.connectionErrors + 1 }
  | .timeout => { s with timeouts := s.timeouts + 1 }
  | .internalError => { s with internalErrors := s.internalErrors + 1 }

def recordLatency (s : Snapshot) (sample : Sample) : Snapshot :=
  if sample.outcome.hasResponse then
    { s with responses := s.responses + 1, histogram := s.histogram.record sample.latency }
  else s

def consume (s : Snapshot) (sample : Sample) : Snapshot :=
  (s.recordLatency sample).count sample.outcome

def reset (s : Snapshot) : Snapshot := empty s.shape

def bounds (s : Snapshot) : String :=
  toString s.shape.highest ++ "/" ++ toString s.shape.sigfig

def merge (s t : Snapshot) : Except String Snapshot :=
  if s.shape ≠ t.shape then .error ("histogram bounds " ++ s.bounds ++ " vs " ++ t.bounds)
  else if !s.histogram.canAdd t.histogram then .error "OtherAddendValueExceedsRange"
  else
    .ok {
      histogram := s.histogram.add t.histogram
      requests := s.requests + t.requests
      responses := s.responses + t.responses
      successes := s.successes + t.successes
      invalid := s.invalid + t.invalid
      connectionErrors := s.connectionErrors + t.connectionErrors
      timeouts := s.timeouts + t.timeouts
      internalErrors := s.internalErrors + t.internalErrors }

def counts (s : Snapshot) : List Nat :=
  [s.requests, s.responses, s.successes, s.invalid, s.connectionErrors, s.timeouts,
    s.internalErrors]

/-- The counters are the same and the histograms agree. -/
def agrees (s t : Snapshot) : Bool := s.histogram.agrees t.histogram && s.counts == t.counts

end Snapshot

end LoadEngine
