/-
  DynamicQuorum/Json/Number.lean
  ==============================
  **Numerals of JSON text.**

  A numeral is kept as it was written.  Two questions are asked about it: which natural
  number below `2 ^ 64` it writes, if any, and whether its size leaves the range of a
  double-precision number, in which case the text holding it is refused.
-/
import DynamicQuorum.Text.DoubleRange

namespace DynamicQuorum.Json

/-- A numeral as written: the digits before the point, behind it, and those of the
    exponent with its sign. -/
structure Number where
  negative : Bool
  whole : List Nat
  fraction : List Nat
  exponent : Option (Bool × List Nat)
deriving DecidableEq, Repr, Inhabited

namespace Number

/-- The number of digits, most significant first. -/
def ofDigits (digits : List Nat) : Nat := digits.foldl (fun acc d => acc * 10 + d) 0

def digits (n : Nat) : List Nat := (Nat.toDigits 10 n).map fun c => c.toNat - '0'.toNat

def ofInt : Int → Number
  | .ofNat n => ⟨false, digits n, [], none⟩
  | .negSucc n => ⟨true, digits (n + 1), [], none⟩

/-- The natural number below `2 ^ 64` that a numeral writes.  A sign, a point or an exponent
    makes it none. -/
def natural? (n : Number) : Option UInt64 :=
  if n.negative = false ∧ n.fraction = [] ∧ n.exponent = none ∧ ofDigits n.whole < UInt64.size then
    some (UInt64.ofNat (ofDigits n.whole))
  else none

/-- Append digits to a significand as long as it stays below `2 ^ 64`; also count the digits
    that found room. -/
def extend (significand : Nat) : List Nat → Nat × Nat
  | [] => (significand, 0)
  | d :: rest =>
    if significand * 10 + d < UInt64.size then
      let more := extend (significand * 10 + d) rest
      (more.1, more.2 + 1)
    else (significand, 0)

/-- Whether the numeral leaves the range of a double. -/
def overflows (n : Number) : Bool :=
  -- only the leading digits that fit 64 bits count
  let head := extend 0 n.whole
  let tail := extend head.1 n.fraction
  let significand := tail.1
  let scale : Int := (n.whole.length - head.2 : Nat) - (tail.2 : Int)
  let exponent : Int := match n.exponent with
    | none => scale
    | some (true, digits) => scale - (ofDigits digits : Nat)
    | some (false, digits) => scale + (ofDigits digits : Nat)
  -- they are scaled by a power of ten that is itself rounded to a double
  significand ≠ 0 &&
    (308 < exponent ||
      (0 ≤ exponent &&
        Text.doubleLimit ≤
          Text.roundToDouble significand * Text.roundToDouble (Nat.pow 10 exponent.toNat)))

end Number

end DynamicQuorum.Json
