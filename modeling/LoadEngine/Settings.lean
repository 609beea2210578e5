import LoadEngine.Decimal.Shortest
import LoadEngine.Duration
import LoadEngine.Histogram.Layout
import LoadEngine.Text.Blank

/-!
Settings of the engine itself, apart from any benchmark: their defaults, what the environment makes
of them, and which of them are refused.
-/

namespace LoadEngine

structure Settings where
  shards : Nat
  tick : Nanos
  histogramMax : Nanos
  sigfig : Nat
  percentiles : List Float

namespace Settings

def default (processors : Nat) : Settings where
  shards := processors
  tick := Nanos.ofMillis 100
  histogramMax := Nanos.ofSeconds 60
  sigfig := 2
  percentiles := [50, 90, 99, 99.9, 99.99]

/-- A natural number below `2 ^ bits` in decimal digits, with an optional plus sign and with white
space around it. -/
def number? (bits : Nat) (text : String) : Option Nat :=
  let chars := Text.trim text.toList
  let digits := match chars with
    | '+' :: rest => rest
    | chars => chars
  if digits.isEmpty || !digits.all (fun c => '0' ≤ c && c ≤ '9') then none
  else
    let n := digits.foldl (fun n c => n * 10 + (c.toNat - 48)) 0
    if n < 2 ^ bits then some n else none

/-- The settings with the values found under the names of the environment variables in place of
those in `s`. Values that are no numbers are passed over. -/
def overlay (s : Settings) (lookup : String → Option String) : Settings :=
  let find (name : String) (bits : Nat) : Option Nat := lookup name >>= number? bits
  { s with
    shards := (find "STAMPEDE_SHARDS" 64).getD s.shards
    tick := ((find "STAMPEDE_TICK_MS" 64).map Nanos.ofMillis).getD s.tick
    histogramMax :=
      ((find "STAMPEDE_HISTOGRAM_MAX_SECS" 64).map Nanos.ofSeconds).getD s.histogramMax
    sigfig := (find "STAMPEDE_HISTOGRAM_SIGFIG" 8).getD s.sigfig }

def shape (s : Settings) : Histogram.Shape := ⟨s.histogramMax.saturate, s.sigfig⟩

def validate (s : Settings) : Except ConfigError Unit := do
  if s.shards = 0 then throw (.runtime "at least one shard is required")
  if s.tick = 0 then throw (.runtime "tick must be positive")
  match s.percentiles.find? fun p => !(0 ≤ p && p ≤ 100) with
  | some p =>
    throw (.runtime ("percentile " ++ Decimal.render p ++ " is outside of 0..=100"))
  | none => s.shape.check

end Settings

end LoadEngine
