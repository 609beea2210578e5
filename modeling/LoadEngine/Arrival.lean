import LoadEngine.Decimal.Binary
import LoadEngine.Duration

/-!
Arrivals of an open model. The rate of a phase changes linearly from one value to another over its
duration; the number of sessions due at a time is the integral of the rate up to it, less those that
were accounted for before. No rounding adds up, and late looks at the clock change nothing.
-/

namespace LoadEngine.Arrival

open Decimal

def maxSessions : Nat := Nanos.maxCount / 8

def toSeconds (d : Nanos) : Float := ofCount d.seconds + ofCount d.subsecond / 1e9

/-- The rates, in sessions per second, at the start and at the end of a duration. -/
structure Curve where
  duration : Nanos
  initial : Float
  target : Float

namespace Curve

def rateAt (c : Curve) (elapsed : Nanos) : Float :=
  if c.duration = 0 then c.target
  else
    let t := toSeconds elapsed / toSeconds c.duration
    let t := if t < 1 then t else 1
    c.initial + (c.target - c.initial) * t

def toSessions (x : Float) : Nat :=
  if x.isNaN || x < 0 then 0
  else if ofCount maxSessions ≤ x then maxSessions
  else toCount x

/-- The number of sessions that have arrived after some time. None arrive past the duration. -/
def arrived (c : Curve) (elapsed : Nanos) : Nat :=
  if c.duration = 0 then 0
  else
    let d := toSeconds c.duration
    let e := toSeconds (min elapsed c.duration)
    toSessions (c.initial * e + (c.target - c.initial) * e * e / (2 * d))

def due (c : Curve) (elapsed : Nanos) (accounted : Nat) : Nat := c.arrived elapsed - accounted

end Curve

end LoadEngine.Arrival
