import LoadEngine.Duration
import LoadEngine.Error
import LoadEngine.Json.Decode

/-!
How the slots of a latency histogram cover the values. The first slots hold one value each; from
there on every doubling of the value doubles the width of the slots, so that a slot is never wider
than its values divided by `10 ^ sigfig`.
-/

namespace LoadEngine.Histogram

/-- The highest value that a histogram is asked to cover, and the significant digits it keeps. -/
structure Shape where
  highest : Nat
  sigfig : Nat
deriving DecidableEq, Repr

def Shape.default : Shape := ⟨60000000000, 2⟩

def Shape.check (s : Shape) : Except ConfigError Unit :=
  if s.highest < 2 then .error (.histogram "HighLessThanTwiceLow")
  else if 5 < s.sigfig then .error (.histogram "SigFigExceedsMax")
  else .ok ()

def Shape.ofJson? (j : Json) : Option Shape := do
  let f ← Json.asFields ["highest_nanos", "sigfig"] j
  let highest ← f.required "highest_nanos" (Json.asNat 64)
  let sigfig ← f.required "sigfig" (Json.asNat 8)
  some ⟨highest, sigfig⟩

def bitLength (n : Nat) : Nat := if n = 0 then 0 else Nat.log2 n + 1

namespace Shape

/-- The least exponent of a power of two that is not below `2 * 10 ^ sigfig`. Values of so many
binary digits have a slot of their own. -/
def resolution (s : Shape) : Nat := bitLength (2 * 10 ^ s.sigfig - 1)

def half (s : Shape) : Nat := 2 ^ (s.resolution - 1)

def widths (s : Shape) : Nat := bitLength s.highest - s.resolution + 1

def slots (s : Shape) : Nat := (s.widths + 1) * s.half

def octave (s : Shape) (v : Nat) : Nat := bitLength v - s.resolution

def slotOf (s : Shape) (v : Nat) : Nat := s.octave v * s.half + v / 2 ^ s.octave v

def slotOctave (s : Shape) (slot : Nat) : Nat := slot / s.half - 1

def lowest (s : Shape) (slot : Nat) : Nat :=
  (slot - s.slotOctave slot * s.half) * 2 ^ s.slotOctave slot

/-- The highest value of a slot, the one before the next slot begins. A slot that reaches to the
largest value a counter can hold ends one below it. -/
def highestOf (s : Shape) (slot : Nat) : Nat :=
  min Nanos.maxCount (s.lowest slot + 2 ^ s.slotOctave slot) - 1

def middle (s : Shape) (slot : Nat) : Nat := s.lowest slot + 2 ^ s.slotOctave slot / 2

def highestWith (s : Shape) (v : Nat) : Nat :=
  if v = Nanos.maxCount then v else s.highestOf (s.slotOf v)

def lowestWith (s : Shape) (v : Nat) : Nat :=
  if v = Nanos.maxCount then v else s.lowest (s.slotOf v)

def top (s : Shape) : Nat := s.highestOf (s.slots - 1)

/-- The value that is recorded in place of `v`: itself, unless there is no slot for it. -/
def clamp (s : Shape) (v : Nat) : Nat := if s.slotOf v < s.slots then v else s.highest

end Shape

end LoadEngine.Histogram
