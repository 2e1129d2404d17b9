/-
  The integers that a machine word of 64 bits holds, and the powers of ten that decimal numbers
  are scaled by.
-/

namespace ProductSpec.Number

/-- Whether a signed word holds an integer. -/
def fitsInt64 (n : Int) : Bool := -0x8000000000000000 ≤ n && n < 0x8000000000000000

/-- The greatest natural number in a word. -/
def maxNat64 : Nat := 0xFFFFFFFFFFFFFFFF

/-- Whether a word holds a natural number. -/
def fitsNat64 (n : Nat) : Bool := n ≤ maxNat64

def powerOfTen (k : Nat) : Nat := Nat.pow 10 k

end ProductSpec.Number
