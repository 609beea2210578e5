import LoadEngine.Decimal.Binary

/-!
The fewest decimal digits that read back as the same binary number, and the text of a number made
of them.
-/

namespace LoadEngine.Decimal

/-- The number `0.d₁d₂…dₙ * 10 ^ point` with the digits of `digits`. -/
structure Digits where
  digits : Nat
  count : Nat
  point : Int
deriving DecidableEq, Repr

/-- The quotient `num / den` of natural numbers. -/
structure Ratio where
  num : Nat
  den : Nat

def Ratio.scaled (n base : Nat) : Int → Ratio
  | .ofNat e => ⟨n * base ^ e, 1⟩
  | .negSucc e => ⟨n, base ^ (e + 1)⟩

def Ratio.lt (x y : Ratio) : Bool := x.num * y.den < y.num * x.den

def Ratio.le (x y : Ratio) : Bool := x.num * y.den ≤ y.num * x.den

/-- The reals that round to one binary number: those between the midpoints to its neighbours, and
the midpoints themselves if its mantissa is even. -/
structure Interval where
  low : Ratio
  high : Ratio
  closed : Bool

def Interval.contains (i : Interval) (x : Ratio) : Bool :=
  if i.closed then i.low.le x && x.le i.high else i.low.lt x && x.lt i.high

/-- Below a power of two the numbers lie twice as dense as above it. -/
def Dyadic.interval (v : Dyadic) : Interval :=
  let dense := v.mantissa = 2 ^ mantissaBits ∧ leastExponent < v.exponent
  { low := .scaled (4 * v.mantissa - (if dense then 1 else 2)) 2 (v.exponent - 2)
    high := .scaled (4 * v.mantissa + 2) 2 (v.exponent - 2)
    closed := v.mantissa % 2 = 0 }

def leadingPower (x : Ratio) : Nat → Int → Int
  | 0, e => e
  | fuel + 1, e =>
    if Ratio.le (.scaled 1 10 e) x then leadingPower x fuel (e + 1)
    else if Ratio.lt x (.scaled 1 10 (e - 1)) then leadingPower x fuel (e - 1)
    else e

def nearestOnGrid (x : Ratio) (i : Interval) (unit : Int) : Option Nat :=
  let grid := Ratio.scaled 1 10 unit
  let below := x.num * grid.den / (x.den * grid.num)
  let inside (k : Nat) : Bool := i.contains ⟨k * grid.num, grid.den⟩
  let twice := Ratio.mk ((2 * below + 1) * grid.num) (2 * grid.den)
  match inside below, inside (below + 1) with
  | true, true => if x.lt twice then some below else some (below + 1)
  | true, false => some below
  | false, true => some (below + 1)
  | false, false => none

def searchDigits (x : Ratio) (i : Interval) (point : Int) : Nat → Nat → Digits
  | 0, count => ⟨0, count, point⟩
  | fuel + 1, count =>
    match nearestOnGrid x i (point - count) with
    | some k => if k = 10 ^ count then ⟨1, 1, point + 1⟩ else ⟨k, count, point⟩
    | none => searchDigits x i point fuel (count + 1)

def Dyadic.shortest (v : Dyadic) : Digits :=
  let x := Ratio.scaled v.mantissa 2 v.exponent
  let guess := (v.exponent + (Nat.log2 v.mantissa : Nat)) * 30103 / 100000
  searchDigits x v.interval (leadingPower x 400 guess) 17 1

def Digits.positional (d : Digits) : String :=
  let text := Nat.toDigits 10 d.digits
  let text := List.replicate (d.count - text.length) '0' ++ text
  let chars :=
    if d.point ≤ 0 then '0' :: '.' :: List.replicate (-d.point).toNat '0' ++ text
    else if text.length ≤ d.point.toNat then
      text ++ List.replicate (d.point.toNat - text.length) '0'
    else text.take d.point.toNat ++ '.' :: text.drop d.point.toNat
  String.ofList chars

def sign (negative : Bool) : String := if negative then "-" else ""

def render (x : Float) : String :=
  match content x with
  | .nan => "NaN"
  | .infinite negative => sign negative ++ "inf"
  | .finite negative v =>
    if v.mantissa = 0 then sign negative ++ "0" else sign negative ++ v.shortest.positional

end LoadEngine.Decimal
