import LoadEngine.Histogram.Layout
import LoadEngine.OrderedMap

/-!
Latency histograms: how many recorded values fell into each slot, how many there are, and the
extremes among them.
-/

namespace LoadEngine

/-- A histogram. Slots without a recorded value are not listed. -/
structure Histogram where
  shape : Histogram.Shape
  counts : OrderedMap Nat Nat
  total : Nat
  highestSeen : Nat
  lowestSeen : Option Nat
deriving DecidableEq

namespace Histogram

def empty (shape : Shape) : Histogram := ⟨shape, ∅, 0, 0, none⟩

def isEmpty (h : Histogram) : Bool := h.total == 0

def countAt (h : Histogram) (slot : Nat) : Nat := (h.counts.get? slot).getD 0

def addCount (counts : OrderedMap Nat Nat) (slot n : Nat) : OrderedMap Nat Nat :=
  counts.update slot fun old => old.getD 0 + n

def least : Option Nat → Option Nat → Option Nat
  | none, b => b
  | a, none => a
  | some a, some b => some (min a b)

def nonZero (v : Nat) : Option Nat := if v = 0 then none else some v

/-- Records one value; one without a slot counts as the highest value. -/
def record (h : Histogram) (v : Nat) : Histogram :=
  let v := h.shape.clamp v
  { h with
    counts := addCount h.counts (h.shape.slotOf v) 1
    total := h.total + 1
    highestSeen := max h.highestSeen v
    lowestSeen := least h.lowestSeen (nonZero v) }

def max (h : Histogram) : Nat :=
  if h.highestSeen = 0 then 0 else h.shape.highestWith h.highestSeen

def minNonZero (h : Histogram) : Option Nat := h.lowestSeen.map h.shape.lowestWith

def min (h : Histogram) : Nat :=
  if h.total = 0 ∨ 0 < h.countAt 0 then 0 else h.minNonZero.getD 0

def reset (h : Histogram) : Histogram := empty h.shape

/-- A histogram of the same shape can be added if none of its values lies above the last slot. -/
def canAdd (h g : Histogram) : Bool := g.max ≤ h.shape.top

def add (h g : Histogram) : Histogram :=
  { h with
    counts := g.counts.toList.foldl (fun counts e => addCount counts e.1 e.2) h.counts
    total := h.total + g.total
    highestSeen := Nat.max h.highestSeen g.highestSeen
    lowestSeen := least h.lowestSeen g.lowestSeen }

def buckets (h : Histogram) : List (Nat × Nat) :=
  h.counts.toList.map fun e => (h.shape.highestOf e.1, e.2)

/-- Two histograms agree if they have the same digits, total and extremes, and every slot of the
first is one of the second with the same count. -/
def agrees (h g : Histogram) : Bool :=
  h.shape.sigfig == g.shape.sigfig && h.total == g.total && h.max == g.max &&
    h.minNonZero == g.minNonZero && h.shape.slots ≤ g.shape.slots &&
    h.counts.toList == g.counts.toList.filter fun e => e.1 < h.shape.slots

end Histogram

end LoadEngine
