/-!
# `ResponseExport.Export.Capacity`: sizes that a channel can have

A channel, and a pool of workers, have room for at least one and at most `2^61 - 1`. A requested
size of zero counts as one; a larger one than that cannot be had.
-/

set_option autoImplicit false

namespace ResponseExport.Export

/-- The largest size of a channel or a pool of workers, `2^61 - 1`. -/
def maxCapacity : Nat := 2305843009213693951

/-- The size to use for a requested one. -/
def atLeastOne (n : Nat) : Nat := max n 1

/-- Can a channel or a pool of workers have the requested size? -/
def isPossible (n : Nat) : Bool := atLeastOne n ≤ maxCapacity

/-- Zero counts as one, and one can be had: only what is too large cannot. -/
theorem isPossible_iff (n : Nat) : isPossible n = true ↔ n ≤ maxCapacity := by
  have hone : 1 ≤ maxCapacity := by decide
  rw [isPossible, decide_eq_true_iff, atLeastOne]
  omega

end ResponseExport.Export
