/-
  DynamicQuorum/Word256/Arithmetic.lean
  =====================================
  **Checked arithmetic of 256-bit words.**

  Sums and differences ripple a carry through the limbs; products are the schoolbook rows;
  quotients take one of three paths: a dividend below the divisor, a divisor of one limb,
  and long division bit by bit.  `none` stands for "the exact result is not a word", and for
  a division by zero.
-/
import DynamicQuorum.Word256.Basic

namespace DynamicQuorum.Word256

/-! ### Sum and difference -/

/-- The sum modulo `2 ^ 256`, and whether it spilled. -/
def addCarry (a b : Word256) : Word256 × Bool :=
  let s0 := Limb.addCarry a.l0 b.l0 false
  let s1 := Limb.addCarry a.l1 b.l1 s0.2
  let s2 := Limb.addCarry a.l2 b.l2 s1.2
  let s3 := Limb.addCarry a.l3 b.l3 s2.2
  (⟨s0.1, s1.1, s2.1, s3.1⟩, s3.2)

/-- The difference modulo `2 ^ 256`, and whether it had to borrow. -/
def subBorrow (a b : Word256) : Word256 × Bool :=
  let d0 := Limb.subBorrow a.l0 b.l0 false
  let d1 := Limb.subBorrow a.l1 b.l1 d0.2
  let d2 := Limb.subBorrow a.l2 b.l2 d1.2
  let d3 := Limb.subBorrow a.l3 b.l3 d2.2
  (⟨d0.1, d1.1, d2.1, d3.1⟩, d3.2)

def add? (a b : Word256) : Option Word256 :=
  let s := addCarry a b
  if s.2 then none else some s.1

def sub? (a b : Word256) : Option Word256 :=
  let d := subBorrow a b
  if d.2 then none else some d.1

/-! ### Product -/

/-- One row of a product: `window + a * b`, as the four limbs under the row and the limb
    above them. -/
def mulRow (a : UInt64) (b window : Word256) : Word256 × UInt64 :=
  -- a row of zeros is skipped
  if a = 0 then (window, 0)
  else
    let p0 := Limb.mulAdd window.l0 a b.l0 0
    let p1 := Limb.mulAdd window.l1 a b.l1 p0.2
    let p2 := Limb.mulAdd window.l2 a b.l2 p1.2
    let p3 := Limb.mulAdd window.l3 a b.l3 p2.2
    (⟨p0.1, p1.1, p2.1, p3.1⟩, p3.2)

/-- The limbs under the next row, one place higher than those of the row before it. -/
def nextWindow (row : Word256 × UInt64) : Word256 :=
  ⟨row.1.l1, row.1.l2, row.1.l3, row.2⟩

/-- The whole product: its low word and its high word. -/
def wideMul (a b : Word256) : Word256 × Word256 :=
  let r0 := mulRow a.l0 b zero
  let r1 := mulRow a.l1 b (nextWindow r0)
  let r2 := mulRow a.l2 b (nextWindow r1)
  let r3 := mulRow a.l3 b (nextWindow r2)
  (⟨r0.1.l0, r1.1.l0, r2.1.l0, r3.1.l0⟩, nextWindow r3)

def mul? (a b : Word256) : Option Word256 :=
  let p := wideMul a b
  if p.2 = zero then some p.1 else none

/-! ### Quotient and remainder -/

def divModLimb (n : Word256) (divisor : UInt64) : Word256 × UInt64 :=
  let s3 := Limb.divStep divisor 0 n.l3
  let s2 := Limb.divStep divisor s3.2 n.l2
  let s1 := Limb.divStep divisor s2.2 n.l1
  let s0 := Limb.divStep divisor s1.2 n.l0
  (⟨s0.1, s1.1, s2.1, s3.1⟩, s0.2)

/-- One step of long division: bring down a bit of the dividend, and take the divisor away
    once if the remainder now holds it. -/
def divStep (d : Word256) (next : Bool) (acc : Word256 × Word256) : Word256 × Word256 :=
  let shifted := acc.2.pushBit next
  -- the bit that was shifted out counts: with it the remainder exceeds every divisor
  if shifted.2 || d ≤ shifted.1 then
    ((acc.1.pushBit true).1, (subBorrow shifted.1 d).1)
  else
    ((acc.1.pushBit false).1, shifted.1)

/-- Long division of the lowest `pos` bits of `n`, going on from a quotient and a remainder
    of the bits above them. -/
def divModBits (n d : Word256) : Nat → Word256 × Word256 → Word256 × Word256
  | 0, acc => acc
  | pos + 1, acc => divModBits n d pos (divStep d (n.bit pos) acc)

def divMod? (n d : Word256) : Option (Word256 × Word256) :=
  if d = zero then none
  else if n < d then some (zero, n)
  else if d.l1 = 0 ∧ d.l2 = 0 ∧ d.l3 = 0 then
    let qr := divModLimb n d.l0
    some (qr.1, ofUInt64 qr.2)
  else some (divModBits n d n.bitLength (zero, zero))

def div? (n d : Word256) : Option Word256 := (divMod? n d).map Prod.fst

def mod? (n d : Word256) : Option Word256 := (divMod? n d).map Prod.snd

end DynamicQuorum.Word256
