/-!
Powers, sums and orders are those of the core library, also where a richer hierarchy of instances is
at hand. So what a definition means does not depend on what else is imported.
-/

namespace LoadEngine

@[default_instance 10001]
instance (priority := high) natPow {α : Type} [NatPow α] : Pow α Nat := instPowNat

instance (priority := high) zeroNat : Zero Nat := ⟨0⟩

instance (priority := high) transString : Trans (α := String) (· < ·) (· < ·) (· < ·) :=
  ⟨String.lt_trans⟩

end LoadEngine
