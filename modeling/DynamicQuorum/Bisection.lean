/-
  DynamicQuorum/Bisection.lean
  ============================
  **The place where a list turns, found by halving.**

  In a list whose first elements all satisfy a test, and whose other elements all fail it, the
  number of the first ones is found without looking at all of them: the element in the middle
  tells which half the turn lies in.
-/

namespace DynamicQuorum.Bisection

variable {α : Type}

/-- The turn of a test on places, in the window of `width` places from `low` on. -/
def search (holds : Nat → Bool) (low width : Nat) : Nat :=
  if width = 0 then low
  else if holds (low + width / 2) then
    search holds (low + width / 2 + 1) (width - width / 2 - 1)
  else search holds low (width / 2)
termination_by width

/-- The number of elements before the turn. -/
def turn (test : α → Bool) (l : List α) : Nat :=
  search (fun i => l[i]?.any test) 0 l.length

end DynamicQuorum.Bisection
