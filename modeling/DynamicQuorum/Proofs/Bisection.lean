/-
  DynamicQuorum/Proofs/Bisection.lean
  ===================================
  **Halving finds the place where a list turns.**

  The window that is searched always holds the turn: what lies before it satisfies the test, and
  what lies behind it fails the test.
-/
import DynamicQuorum.Bisection

namespace DynamicQuorum.Bisection

variable {α : Type}

theorem search_eq {holds : Nat → Bool} {low width place : Nat} (hlow : low ≤ place)
    (hhigh : place ≤ low + width) (hbefore : ∀ i, low ≤ i → i < place → holds i = true)
    (hbehind : ∀ i, place ≤ i → i < low + width → holds i = false) :
    search holds low width = place := by
  fun_induction search holds low width with
  | case1 low => omega
  | case2 low width hwidth hmid ih =>
    -- the middle is before the turn, and so is all up to it
    have hturn : low + width / 2 < place := by
      refine Nat.lt_of_not_le fun hle => ?_
      have hfails := hbehind (low + width / 2) hle (by omega)
      rw [hmid] at hfails
      cases hfails
    refine ih (by omega) (by omega) (fun i hi => hbefore i (by omega)) ?_
    intro i hi hlt
    exact hbehind i hi (by omega)
  | case3 low width hwidth hmid ih =>
    have hturn : place ≤ low + width / 2 := by
      refine Nat.le_of_not_lt fun hlt => hmid ?_
      exact hbefore (low + width / 2) (by omega) hlt
    refine ih hlow hturn hbefore ?_
    intro i hi hlt
    exact hbehind i hi (by omega)

theorem turn_append {test : α → Bool} {front back : List α} (hfront : ∀ a ∈ front, test a = true)
    (hback : ∀ a ∈ back, test a = false) : turn test (front ++ back) = front.length := by
  refine search_eq (Nat.zero_le _) (by simp) ?_ ?_
  · intro i _ hi
    rw [List.getElem?_append_left hi, List.getElem?_eq_getElem hi]
    exact hfront _ (List.getElem_mem hi)
  · intro i hi _
    rw [List.getElem?_append_right hi]
    cases hget : back[i - front.length]? with
    | none => rfl
    | some a => exact hback a (List.mem_of_getElem? hget)

end DynamicQuorum.Bisection
