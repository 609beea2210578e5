import LoadEngine.Histogram.Basic
import LoadEngine.Decimal.Binary

/-!
Figures derived from a histogram: mean, standard deviation and percentiles. Every value counts as
the middle of its slot for the first two and as the slot's highest value for the percentiles.
-/

namespace LoadEngine.Histogram

open Decimal

def mean (h : Histogram) : Float :=
  if h.isEmpty then 0
  else h.counts.toList.foldl (fun sum e =>
    sum + ofCount (h.shape.middle e.1) * ofCount e.2 / ofCount h.total) 0

def deviation (h : Histogram) : Float :=
  if h.isEmpty then 0
  else
    let mean := h.mean
    let sum := h.counts.toList.foldl (fun sum e =>
      let d := ofCount (h.shape.middle e.1) - mean
      sum + d * d * ofCount e.2) 0
    (sum / ofCount h.total).sqrt

def slotReaching (target : Nat) : Nat → List (Nat × Nat) → Option Nat
  | _, [] => none
  | seen, (slot, n) :: rest =>
    if target ≤ seen + n then some slot else slotReaching target (seen + n) rest

def percentile (h : Histogram) (percent : Float) : Nat :=
  let q := percent / 100
  let q := if 1 < q then 1 else q
  let target := Nat.max 1 (toCount (q * ofCount h.total).ceil)
  match slotReaching target 0 h.counts.toList with
  | none => 0
  | some slot => if q == 0 then h.shape.lowest slot else h.shape.highestOf slot

end LoadEngine.Histogram
