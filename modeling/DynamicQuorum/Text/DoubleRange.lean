/-
  DynamicQuorum/Text/DoubleRange.lean
  ===================================
  **The range of numbers of double precision.**

  The largest of them is `2 ^ 1024 - 2 ^ 971`.  A number halfway to the next power of two, or
  above that, rounds to infinity.
-/

namespace DynamicQuorum.Text

/-- The least number that rounds to infinity. -/
def doubleLimit : Nat := Nat.pow 2 1024 - Nat.pow 2 970

/-- A number rounded to 53 significant bits, a tie going to the even neighbour. -/
def roundToDouble (n : Nat) : Nat :=
  let unit := Nat.pow 2 (n.log2 + 1 - 53)
  let down := n / unit
  let rest := n % unit
  if unit < 2 * rest ∨ (2 * rest = unit ∧ down % 2 = 1) then (down + 1) * unit else down * unit

end DynamicQuorum.Text
