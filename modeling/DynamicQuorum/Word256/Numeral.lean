/-
  DynamicQuorum/Word256/Numeral.lean
  ==================================
  **The written forms of a 256-bit word.**

  * decimal: ASCII digits, read left to right, so that an overflow counts before any bad
    character behind it; printed in chunks of nineteen digits;
  * hexadecimal: `0x` or `0X` and at most sixty-four digits, printed with all of them;
  * bytes: thirty-two of them, most significant first.
-/
import DynamicQuorum.Error
import DynamicQuorum.Text.Padding
import DynamicQuorum.Word256.Arithmetic

namespace DynamicQuorum.Word256

/-! ### Decimal -/

/-- Append the digit `c` to the number read so far; `text` is what the errors quote. -/
def appendDigit (text : String) (acc : Word256) (c : Char) : Except ValueError Word256 :=
  if c.isDigit then
    match (acc.mul? (ofUInt64 10)).bind (·.add? (ofNat (c.toNat - '0'.toNat))) with
    | some w => .ok w
    | none => .error .wordOverflow
  else .error (.wordText text)

def ofDecimal (text : String) : Except ValueError Word256 :=
  if text.toList.isEmpty then .error (.wordText text)
  else text.toList.foldlM (appendDigit text) zero

/-- The chunk of the decimal printer: the largest power of ten in a limb. -/
def chunkDigits : Nat := 19

/-- The base-`10 ^ 19` digits of a word, least significant first and at least one. -/
def decimalChunks : Nat → Word256 → List UInt64
  -- five digits hold every word, so a fuel of five is never used up
  | 0, _ => []
  | fuel + 1, w =>
    let qr := w.divModLimb 10000000000000000000
    qr.2 :: if qr.1 = zero then [] else decimalChunks fuel qr.1

def limbDigits (x : UInt64) : List Char := Nat.toDigits 10 x.toNat

/-- The text of chunks, the most significant first and without zeros in front. -/
def chunkText : List UInt64 → List Char
  | [] => []
  | first :: rest =>
    limbDigits first ++ rest.flatMap fun chunk => Text.zeroPad chunkDigits (limbDigits chunk)

def decimalDigits (w : Word256) : List Char := chunkText (decimalChunks 5 w).reverse

def toDecimal (w : Word256) : String := String.ofList w.decimalDigits

instance : ToString Word256 := ⟨toDecimal⟩

def format (style : Text.FieldStyle) (w : Word256) : String :=
  String.ofList (style.set w.decimalDigits)

/-- The decimal numeral under the name of its type, as journals show it. -/
def describe (w : Word256) : String := "U256(" ++ w.toDecimal ++ ")"

/-! ### Bytes and hexadecimal -/

def toBytes (w : Word256) : List UInt8 :=
  Limb.toBytes w.l3 ++ Limb.toBytes w.l2 ++ Limb.toBytes w.l1 ++ Limb.toBytes w.l0

/-- The word of at most thirty-two bytes, most significant first. -/
def ofBytes? (bytes : List UInt8) : Option Word256 :=
  if bytes.length ≤ 32 then
    let full := List.replicate (32 - bytes.length) 0 ++ bytes
    some ⟨Limb.ofBytes (full.drop 24), Limb.ofBytes ((full.drop 16).take 8),
      Limb.ofBytes ((full.drop 8).take 8), Limb.ofBytes (full.take 8)⟩
  else none

def toHex (w : Word256) : String := String.ofList ('0' :: 'x' :: Text.Hex.encode w.toBytes)

/-- Read the digits behind the `0x`. -/
def ofHexDigits (digits : List UInt8) : Except ValueError Word256 :=
  -- a zero in front moves the positions in errors by one
  let padded := if digits.length % 2 = 1 then 48 :: digits else digits
  match Text.Hex.decode padded with
  | .error cause => .error (.hex cause)
  | .ok bytes =>
    match ofBytes? bytes with
    | some w => .ok w
    | none => .error .wordOverflow

def ofString (text : String) : Except ValueError Word256 :=
  match text.toList with
  | '0' :: 'x' :: digits => ofHexDigits (Text.utf8 digits)
  | '0' :: 'X' :: digits => ofHexDigits (Text.utf8 digits)
  | _ => ofDecimal text

end DynamicQuorum.Word256
