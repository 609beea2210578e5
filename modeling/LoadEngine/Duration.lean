import LoadEngine.Instances

/-!
Lengths of time and points in time, both counted in nanoseconds, and the text of a length of time.
-/

namespace LoadEngine

abbrev Nanos := Nat

namespace Nanos

def perSecond : Nat := 1000000000

def perMilli : Nat := 1000000

def perMicro : Nat := 1000

def ofSeconds (n : Nat) : Nanos := n * perSecond

def ofMillis (n : Nat) : Nanos := n * perMilli

def seconds (d : Nanos) : Nat := d / perSecond

def subsecond (d : Nanos) : Nat := d % perSecond

def ceilMillis (d : Nanos) : Nat := (d + (perMilli - 1)) / perMilli

def maxCount : Nat := 18446744073709551615

/-- A latency, cut off at what a 64-bit counter can hold. -/
def saturate (d : Nanos) : Nat := min d maxCount

def fraction (n width : Nat) : String :=
  let digits := (Nat.toDigits 10 n)
  let padded := List.replicate (width - digits.length) '0' ++ digits
  String.ofList (padded.reverse.dropWhile (· == '0')).reverse

def decimal (n part width : Nat) : String :=
  if part = 0 then toString n else toString n ++ "." ++ fraction part width

def render (d : Nanos) : String :=
  if perSecond ≤ d then decimal (d / perSecond) (d % perSecond) 9 ++ "s"
  else if perMilli ≤ d then decimal (d / perMilli) (d % perMilli) 6 ++ "ms"
  else if perMicro ≤ d then decimal (d / perMicro) (d % perMicro) 3 ++ "µs"
  else toString d ++ "ns"

end Nanos

end LoadEngine
