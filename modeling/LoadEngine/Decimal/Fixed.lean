import LoadEngine.Decimal.Shortest

/-!
Numbers written with a fixed count of digits behind the point.
-/

namespace LoadEngine.Decimal

/-- The whole number nearest to `num / den`; of two that are equally near, the even one. -/
def roundHalfEven (num den : Nat) : Nat :=
  let q := num / den
  let r := num % den
  if 2 * r < den then q
  else if den < 2 * r then q + 1
  else if q % 2 = 0 then q else q + 1

def placed (n places : Nat) : String :=
  let part := Nat.toDigits 10 (n % 10 ^ places)
  toString (n / 10 ^ places) ++ "." ++
    String.ofList (List.replicate (places - part.length) '0' ++ part)

def renderFixed (places : Nat) (x : Float) : String :=
  match content x with
  | .nan => "NaN"
  | .infinite negative => sign negative ++ "inf"
  | .finite negative v =>
    let r := Ratio.scaled v.mantissa 2 v.exponent
    sign negative ++ placed (roundHalfEven (r.num * 10 ^ places) r.den) places

end LoadEngine.Decimal
