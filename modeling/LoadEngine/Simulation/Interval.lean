import LoadEngine.Duration

/-!
Intervals: a clock that ticks over and over again. A tick that comes late does not make the
following ones come early.
-/

namespace LoadEngine

structure Interval where
  due : Nanos
  period : Nanos

namespace Interval

def start (now period : Nanos) : Interval := ⟨now, period⟩

def isDue (i : Interval) (now : Nanos) : Bool := i.due ≤ now

/-- How late a tick may be without moving those behind it. -/
def tolerance : Nanos := .ofMillis 5

def tick (i : Interval) (now : Nanos) : Interval :=
  { i with due := (if i.due + tolerance < now then now else i.due) + i.period }

end Interval

end LoadEngine
