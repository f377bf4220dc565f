/-!
# Natural numbers

Powers and sums of natural numbers are those of the core library in every module, whether or not the
module sees the same operations of an algebraic hierarchy.
-/

set_option autoImplicit false

namespace Intel8085

instance (priority := high) corePow : Pow Nat Nat :=
  instPowNat

/-- The zero that a sum begins with. -/
instance (priority := high) coreZero : Zero Nat :=
  Zero.ofOfNat0

end Intel8085
