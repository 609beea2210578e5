import LoadEngine.Statistics.Set

/-!
Recorders of operations. A recorder has one writer; what it hands out is a copy.
-/

namespace LoadEngine

/-- What was recorded since the last reset, and the shape of the histograms of new metrics. -/
structure Recorder where
  shape : Histogram.Shape
  current : StatisticsSet
deriving DecidableEq

namespace Recorder

def empty (shape : Histogram.Shape) : Recorder := ⟨shape, ∅⟩

def new (shape : Histogram.Shape) : Except ConfigError Recorder := do
  shape.check
  pure (empty shape)

def onMetric (r : Recorder) (metric : String) (f : Snapshot → Snapshot) : Recorder :=
  { r with current := ⟨r.current.byMetric.update metric fun old =>
      f (old.getD (.empty r.shape))⟩ }

def recordRequest (r : Recorder) (metric : String) : Recorder :=
  r.onMetric metric Snapshot.recordRequest

def record (r : Recorder) (metric : String) (sample : Sample) : Recorder :=
  r.onMetric metric fun s => s.consume sample

def reset (r : Recorder) : Recorder :=
  { r with current := ⟨r.current.byMetric.map Snapshot.reset⟩ }

end Recorder

end LoadEngine
