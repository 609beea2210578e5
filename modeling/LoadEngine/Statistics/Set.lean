import LoadEngine.Statistics.Snapshot

/-!
Snapshots by metric, in the order of the metrics' names, and their merging.
-/

namespace LoadEngine

structure StatisticsSet where
  byMetric : OrderedMap String Snapshot
deriving DecidableEq

namespace StatisticsSet

def empty : StatisticsSet := ⟨∅⟩

instance : EmptyCollection StatisticsSet := ⟨empty⟩

instance : Inhabited StatisticsSet := ⟨empty⟩

def get? (s : StatisticsSet) (metric : String) : Option Snapshot := s.byMetric.get? metric

def toList (s : StatisticsSet) : List (String × Snapshot) := s.byMetric.toList

def size (s : StatisticsSet) : Nat := s.byMetric.size

def isEmpty (s : StatisticsSet) : Bool := s.byMetric.values.all Snapshot.isEmpty

def addMetric (s : StatisticsSet) (metric : String) (theirs : Snapshot) :
    Except ContractViolation StatisticsSet :=
  match s.get? metric with
  | none => .ok ⟨s.byMetric.insert metric theirs⟩
  | some mine =>
    match mine.merge theirs with
    | .ok sum => .ok ⟨s.byMetric.insert metric sum⟩
    | .error reason => .error (.incompatibleSnapshots metric reason)

def absorbList (s : StatisticsSet) :
    List (String × Snapshot) → StatisticsSet × Except ContractViolation Unit
  | [] => (s, .ok ())
  | (metric, theirs) :: rest =>
    match s.addMetric metric theirs with
    | .ok s => s.absorbList rest
    | .error e => (s, .error e)

/-- Adds another set metric by metric, in the order of the metrics, and stops at the first one whose
snapshots do not fit. What was added before stays. -/
def absorb (s t : StatisticsSet) : StatisticsSet × Except ContractViolation Unit :=
  s.absorbList t.toList

def merge (s t : StatisticsSet) : Except ContractViolation StatisticsSet :=
  match s.absorb t with
  | (sum, .ok ()) => .ok sum
  | (_, .error e) => .error e

/-- The metrics are the same and so are their snapshots. -/
def agrees (s t : StatisticsSet) : Bool :=
  s.byMetric.keys == t.byMetric.keys &&
    (s.byMetric.values.zip t.byMetric.values).all fun (a, b) => a.agrees b

end StatisticsSet

end LoadEngine
