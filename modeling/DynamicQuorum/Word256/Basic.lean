/-
  DynamicQuorum/Word256/Basic.lean
  ================================
  **Unsigned 256-bit words.**

  Vote counts and token supplies are 256-bit numbers.  A `Word256` is four limbs, least
  significant first, and its meaning is the natural number `toNat`.  Arithmetic is checked:
  an operation whose exact result leaves the range answers `none`, and the caller decides
  what an overflow means.
-/
import DynamicQuorum.Word256.Limb

namespace DynamicQuorum

/-- A 256-bit unsigned integer, as four limbs with the least significant first. -/
structure Word256 where
  l0 : UInt64
  l1 : UInt64
  l2 : UInt64
  l3 : UInt64
deriving DecidableEq, Repr

namespace Word256

/-! ### The number a word stands for -/

def toNat (w : Word256) : Nat :=
  w.l0.toNat + Limb.radix * (w.l1.toNat + Limb.radix * (w.l2.toNat + Limb.radix * w.l3.toNat))

/-- The word of `n`, taken modulo `2 ^ 256`. -/
def ofNat (n : Nat) : Word256 :=
  ⟨UInt64.ofNat n, UInt64.ofNat (n / Limb.radix),
   UInt64.ofNat (n / Limb.radix / Limb.radix),
   UInt64.ofNat (n / Limb.radix / Limb.radix / Limb.radix)⟩

/-- The number of words, `2 ^ 256`. -/
def size : Nat := Limb.radix * Limb.radix * (Limb.radix * Limb.radix)

def zero : Word256 := ⟨0, 0, 0, 0⟩
def one : Word256 := ⟨1, 0, 0, 0⟩

instance : Inhabited Word256 := ⟨zero⟩

def ofUInt64 (x : UInt64) : Word256 := ⟨x, 0, 0, 0⟩

def ofUInt16 (x : UInt16) : Word256 := ofUInt64 x.toUInt64

def isZero (w : Word256) : Bool := w = zero

def limbs (w : Word256) : List UInt64 := [w.l0, w.l1, w.l2, w.l3]

def toUInt64? (w : Word256) : Option UInt64 :=
  if w.l1 = 0 ∧ w.l2 = 0 ∧ w.l3 = 0 then some w.l0 else none

/-- The number of two limbs, when the word fits them. -/
def toUInt128? (w : Word256) : Option Nat :=
  if w.l2 = 0 ∧ w.l3 = 0 then some (w.l0.toNat + Limb.radix * w.l1.toNat) else none

/-! ### Order -/

/-- Words are compared from the most significant limb down. -/
instance : Ord Word256 where
  compare a b :=
    (compare a.l3 b.l3).then <| (compare a.l2 b.l2).then <|
      (compare a.l1 b.l1).then (compare a.l0 b.l0)

instance : LT Word256 := ltOfOrd
instance : LE Word256 := leOfOrd

/-! ### Bits -/

def bitLength (w : Word256) : Nat :=
  if w.l3 ≠ 0 then 192 + Limb.bitLength w.l3
  else if w.l2 ≠ 0 then 128 + Limb.bitLength w.l2
  else if w.l1 ≠ 0 then 64 + Limb.bitLength w.l1
  else Limb.bitLength w.l0

/-- The limb that holds the bits `64 * i` and up; zero above the word. -/
def limb (w : Word256) : Nat → UInt64
  | 0 => w.l0
  | 1 => w.l1
  | 2 => w.l2
  | 3 => w.l3
  | _ => 0

def bit (w : Word256) (pos : Nat) : Bool :=
  (w.limb (pos / 64)).toNat.testBit (pos % 64)

/-- The word with every bit one place higher and `b` as the new lowest bit, and the bit that
    left the word at the top. -/
def pushBit (w : Word256) (b : Bool) : Word256 × Bool :=
  (⟨(w.l0 <<< 1) ||| b.toUInt64, (w.l1 <<< 1) ||| (w.l0 >>> 63),
    (w.l2 <<< 1) ||| (w.l1 >>> 63), (w.l3 <<< 1) ||| (w.l2 >>> 63)⟩, w.l3 >>> 63 = 1)

end Word256

end DynamicQuorum
