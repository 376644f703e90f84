/-!
The integers that 64 bits hold, with a sign and without one.
-/

namespace CoroutineVM.Number

/-- The greatest natural number of 64 bits. -/
def greatestNatural : Nat := Nat.pow 2 64 - 1

/-- The greatest integer of 64 bits with a sign. -/
def greatestInteger : Nat := Nat.pow 2 63 - 1

/-- Whether an integer fits 64 bits with a sign; there is one more below zero than above. -/
def fitsInteger (n : Int) : Bool := -(greatestInteger : Int) - 1 ≤ n && n ≤ greatestInteger

end CoroutineVM.Number
