/-
  DynamicQuorum/Proofs/Word256/Product.lean
  =========================================
  **The schoolbook product is exact.**

  A row of the product runs along the limbs with one sum for each: the limb that stands there, a
  product of two limbs, and what the sum before it left above its own limb.  The largest such sum
  is `(2 ^ 64 - 1) + (2 ^ 64 - 1) ^ 2 + (2 ^ 64 - 1) = 2 ^ 128 - 1`, so two limbs hold every one
  of them and no carry is cut.  A row of a zero limb adds nothing; working through it would leave
  the same limbs as skipping it.
-/
import DynamicQuorum.Proofs.Word256.Arithmetic

namespace DynamicQuorum.Word256

open Limb (radix radix_eq)

variable {a old b : UInt64} {carry : Nat}

/-! ### Sums -/

/-- The sums of a row over pairs of a limb that stands there and a limb to multiply. -/
def sumsAlong (a : UInt64) (carry : Nat) : List (UInt64 × UInt64) → List Nat
  | [] => []
  | (old, b) :: rest =>
    (old.toNat + a.toNat * b.toNat + carry) ::
      sumsAlong a ((old.toNat + a.toNat * b.toNat + carry) / radix) rest

/-- The sums of a row; none if the row is skipped. -/
def rowSums (a : UInt64) (b window : Word256) : List Nat :=
  if a = 0 then [] else sumsAlong a 0 (window.limbs.zip b.limbs)

def productSums (a b : Word256) : List Nat :=
  let r0 := mulRow a.l0 b zero
  let r1 := mulRow a.l1 b (nextWindow r0)
  let r2 := mulRow a.l2 b (nextWindow r1)
  rowSums a.l0 b zero ++ rowSums a.l1 b (nextWindow r0) ++ rowSums a.l2 b (nextWindow r1) ++
    rowSums a.l3 b (nextWindow r2)

theorem sum_lt (h : carry < radix) :
    old.toNat + a.toNat * b.toNat + carry < radix * radix := by
  have hcarry : (UInt64.ofNat carry).toNat = carry := Limb.toNat_ofNat_of_lt h
  have htotal := Limb.mulAdd_total_lt old a b (UInt64.ofNat carry)
  rwa [hcarry] at htotal

/-- Each sum leaves less than `radix` above its limb, which bounds the next sum. -/
theorem sumsAlong_lt (h : carry < radix) (pairs : List (UInt64 × UInt64)) :
    ∀ sum ∈ sumsAlong a carry pairs, sum < radix * radix := by
  induction pairs generalizing carry with
  | nil => simp [sumsAlong]
  | cons pair rest ih =>
    obtain ⟨old, b⟩ := pair
    intro sum hsum
    rcases List.mem_cons.mp hsum with rfl | hrest
    · exact sum_lt h
    · exact ih (Nat.div_lt_of_lt_mul (sum_lt h)) sum hrest

theorem rowSums_lt (a : UInt64) (b window : Word256) :
    ∀ sum ∈ rowSums a b window, sum < radix * radix := by
  rw [rowSums]
  split
  · simp
  · exact sumsAlong_lt Limb.radix_pos _

theorem productSums_lt (a b : Word256) : ∀ sum ∈ productSums a b, sum < radix * radix := by
  intro sum hsum
  simp only [productSums, List.mem_append] at hsum
  rcases hsum with ((hsum | hsum) | hsum) | hsum
  all_goals exact rowSums_lt _ _ _ sum hsum

/-- A row keeps the low limb of each sum, and hands on what the last one leaves above it. -/
theorem mulRow_eq_sums (h : a ≠ 0) (b window : Word256) :
    (mulRow a b window).1.limbs.map (·.toNat) = (rowSums a b window).map (· % radix) ∧
      (rowSums a b window).getLast?.map (· / radix) = some (mulRow a b window).2.toNat := by
  have hlow := fun old b carry => (Limb.mulAdd_toNat old a b carry).1
  have hhigh := fun old b carry => (Limb.mulAdd_toNat old a b carry).2
  simp [mulRow, rowSums, h, limbs, sumsAlong, hlow, hhigh]

/-! ### Rows that are not skipped -/

/-- A row that is worked through whatever its factor. -/
def fullRow (a : UInt64) (b window : Word256) : Word256 × UInt64 :=
  let p0 := Limb.mulAdd window.l0 a b.l0 0
  let p1 := Limb.mulAdd window.l1 a b.l1 p0.2
  let p2 := Limb.mulAdd window.l2 a b.l2 p1.2
  let p3 := Limb.mulAdd window.l3 a b.l3 p2.2
  (⟨p0.1, p1.1, p2.1, p3.1⟩, p3.2)

def wideMulBy (row : UInt64 → Word256 → Word256 → Word256 × UInt64) (a b : Word256) :
    Word256 × Word256 :=
  let r0 := row a.l0 b zero
  let r1 := row a.l1 b (nextWindow r0)
  let r2 := row a.l2 b (nextWindow r1)
  let r3 := row a.l3 b (nextWindow r2)
  (⟨r0.1.l0, r1.1.l0, r2.1.l0, r3.1.l0⟩, nextWindow r3)

theorem mulAdd_zero (old b : UInt64) : Limb.mulAdd old 0 b 0 = (old, 0) := by
  have hold : old.toNat / radix = 0 := Nat.div_eq_of_lt old.toNat_lt
  simp [Limb.mulAdd, hold]

theorem fullRow_eq_mulRow : fullRow = mulRow := by
  funext a b window
  by_cases h : a = 0
  · subst h
    simp [fullRow, mulRow, mulAdd_zero]
  · rw [mulRow, if_neg h, fullRow]

/-! ### The product -/

theorem mul?_eq_some (a b v : Word256) :
    a.mul? b = some v ↔ v.toNat = a.toNat * b.toNat := by
  rw [mul?_eq, word?_eq_some]

theorem mul?_eq_none (a b : Word256) : a.mul? b = none ↔ size ≤ a.toNat * b.toNat := by
  rw [mul?_eq, word?_eq_none]

/-- **Multiplication is exact.**  The product is the one of the natural numbers when it is a word,
    and `none` otherwise.  None of its sums exceeds `2 ^ 128 - 1`; a row that is worked through
    keeps their low limbs and hands on the rest.  Rows of zero limbs may be worked through as
    well, without a change. -/
theorem product_is_exact (a b : Word256) :
    (∀ v, a.mul? b = some v ↔ v.toNat = a.toNat * b.toNat) ∧
      (a.mul? b = none ↔ 2 ^ 256 ≤ a.toNat * b.toNat) ∧
      (∀ sum ∈ productSums a b, sum ≤ 2 ^ 128 - 1) ∧
      (∀ (x : UInt64) (window : Word256), x ≠ 0 →
        (mulRow x b window).1.limbs.map (·.toNat) = (rowSums x b window).map (· % 2 ^ 64) ∧
        (rowSums x b window).getLast?.map (· / 2 ^ 64) = some (mulRow x b window).2.toNat) ∧
      (a.mul? b =
        let p := wideMulBy fullRow a b
        if p.2 = zero then some p.1 else none) := by
  refine ⟨mul?_eq_some a b, mul?_eq_none a b, ?_, ?_, ?_⟩
  · intro sum hsum
    exact Nat.le_sub_one_of_lt (productSums_lt a b sum hsum)
  · intro x window hx
    exact mulRow_eq_sums hx b window
  · rw [fullRow_eq_mulRow]
    rfl

/-- The square of the greatest word is no word, and one of its sums reaches the bound; the square
    of `2 ^ 64`, three rows of which are skipped, is a word. -/
theorem product_is_exact_trial :
    (mk (-1) (-1) (-1) (-1)).mul? (mk (-1) (-1) (-1) (-1)) = none ∧
      2 ^ 128 - 1 ∈ productSums (mk (-1) (-1) (-1) (-1)) (mk (-1) (-1) (-1) (-1)) ∧
      (∀ sum ∈ productSums (mk (-1) (-1) (-1) (-1)) (mk (-1) (-1) (-1) (-1)),
        sum ≤ 2 ^ 128 - 1) ∧
      (mk 0 1 0 0).mul? (mk 0 1 0 0) = some (mk 0 0 1 0) := by
  obtain ⟨-, hnone, hsums, -⟩ := product_is_exact (mk (-1) (-1) (-1) (-1)) (mk (-1) (-1) (-1) (-1))
  obtain ⟨hsome, -⟩ := product_is_exact (mk 0 1 0 0) (mk 0 1 0 0)
  have htight : 2 ^ 128 - 1 ∈ productSums (mk (-1) (-1) (-1) (-1)) (mk (-1) (-1) (-1) (-1)) := by
    decide +kernel
  refine ⟨hnone.mpr ?_, htight, hsums, (hsome _).mpr ?_⟩
  · decide +kernel
  · decide +kernel

end DynamicQuorum.Word256
