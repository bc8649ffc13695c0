/-
  DynamicQuorum/Word256/Limb.lean
  ===============================
  **One limb of a wide word, and the steps of wide arithmetic on it.**

  A wide word is written in radix `2 ^ 64`, least significant limb first.  Each step
  below takes one limb of every operand together with what the limb before it carried
  over, and gives one limb of the result and what is carried to the next.  A step is exact:
  limb and carry together hold the whole value, so a chain of steps loses nothing.
-/

namespace DynamicQuorum.Limb

/-- The radix in which wide words are written. -/
def radix : Nat := UInt64.size

/-- `a + b + carry`: the limb of the sum, and whether it spilled. -/
def addCarry (a b : UInt64) (carry : Bool) : UInt64 × Bool :=
  let sum := a + b
  let total := sum + carry.toUInt64
  (total, sum < a || total < sum)

/-- `a - b - borrow`: the limb of the difference, and whether it had to borrow. -/
def subBorrow (a b : UInt64) (borrow : Bool) : UInt64 × Bool :=
  let diff := a - b
  let total := diff - borrow.toUInt64
  (total, a < b || diff < borrow.toUInt64)

/-- `old + a * b + carry`: the low limb of the total and its high limb. -/
def mulAdd (old a b carry : UInt64) : UInt64 × UInt64 :=
  -- the total stays below `2 ^ 128`, so two limbs hold it
  let total := old.toNat + a.toNat * b.toNat + carry.toNat
  (UInt64.ofNat total, UInt64.ofNat (total / radix))

/-- Divide `rem * 2 ^ 64 + limb` by `divisor`: one limb of the quotient, and the remainder
    that goes on to the next lower limb.  The quotient fits a limb as long as
    `rem < divisor`. -/
def divStep (divisor rem limb : UInt64) : UInt64 × UInt64 :=
  let current := rem.toNat * radix + limb.toNat
  (UInt64.ofNat (current / divisor.toNat), UInt64.ofNat (current % divisor.toNat))

def toBytes (x : UInt64) : List UInt8 :=
  [(x >>> 56).toUInt8, (x >>> 48).toUInt8, (x >>> 40).toUInt8, (x >>> 32).toUInt8,
   (x >>> 24).toUInt8, (x >>> 16).toUInt8, (x >>> 8).toUInt8, x.toUInt8]

/-- The limb whose bytes, most significant first, end in `bytes`. -/
def ofBytes (bytes : List UInt8) : UInt64 :=
  bytes.foldl (fun acc b => (acc <<< 8) ||| b.toUInt64) 0

def bitLength (x : UInt64) : Nat :=
  if x = 0 then 0 else x.toNat.log2 + 1

end DynamicQuorum.Limb
