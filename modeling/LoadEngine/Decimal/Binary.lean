import LoadEngine.Instances

/-!
Binary floating point numbers of 64 bits taken apart: a sign and either a dyadic number, an infinity
or no number at all. Counts enter and leave floating point here as well.
-/

namespace LoadEngine.Decimal

structure Dyadic where
  mantissa : Nat
  exponent : Int
deriving DecidableEq, Repr

inductive Content where
  | nan
  | infinite (negative : Bool)
  | finite (negative : Bool) (value : Dyadic)
deriving DecidableEq, Repr

def mantissaBits : Nat := 52

def leastExponent : Int := -1074

def Content.ofBits (bits : Nat) : Content :=
  let negative := bits / 2 ^ 63 % 2 = 1
  let exponent := bits / 2 ^ mantissaBits % 2 ^ 11
  let fraction := bits % 2 ^ mantissaBits
  if exponent = 2 ^ 11 - 1 then
    if fraction = 0 then .infinite negative else .nan
  else if exponent = 0 then .finite negative ⟨fraction, leastExponent⟩
  else .finite negative ⟨fraction + 2 ^ mantissaBits, leastExponent + (exponent - 1 : Nat)⟩

def content (x : Float) : Content := .ofBits x.toBits.toNat

def ofCount (n : Nat) : Float := n.toUInt64.toFloat

def toCount (x : Float) : Nat := x.toUInt64.toNat

end LoadEngine.Decimal
