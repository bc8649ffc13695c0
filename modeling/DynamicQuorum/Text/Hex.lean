/-
  DynamicQuorum/Text/Hex.lean
  ===========================
  **Bytes written as pairs of hexadecimal digits.**

  Encoding uses lowercase digits.  Decoding accepts either letter case and works on the
  UTF-8 bytes of the text: an odd number of bytes is refused first, then the first byte that
  is no digit, with its position.
-/

namespace DynamicQuorum.Text

def utf8 (text : List Char) : List UInt8 :=
  text.flatMap String.utf8EncodeChar

namespace Hex

inductive Error where
  | oddLength
  | badDigit (byte : UInt8) (position : Nat)
deriving DecidableEq, Repr

/-- The lowercase digit of a value below sixteen. -/
def digit (value : UInt8) : Char :=
  if value < 10 then Char.ofNat ('0'.toNat + value.toNat)
  else Char.ofNat ('a'.toNat + (value.toNat - 10))

def digitValue? (byte : UInt8) : Option UInt8 :=
  if 48 ≤ byte ∧ byte ≤ 57 then some (byte - 48)
  else if 65 ≤ byte ∧ byte ≤ 70 then some (byte - 55)
  else if 97 ≤ byte ∧ byte ≤ 102 then some (byte - 87)
  else none

def encode (bytes : List UInt8) : List Char :=
  bytes.flatMap fun b => [digit (b / 16), digit (b % 16)]

/-- The bytes written by pairs of digits, the first of which stands at `position`. -/
def decodePairs (position : Nat) : List UInt8 → Except Error (List UInt8)
  | [] => .ok []
  | [_] => .error .oddLength
  | hi :: lo :: rest =>
    match digitValue? hi with
    | none => .error (.badDigit hi position)
    | some h =>
      match digitValue? lo with
      | none => .error (.badDigit lo (position + 1))
      | some l => (decodePairs (position + 2) rest).map ((h * 16 + l) :: ·)

def decode (text : List UInt8) : Except Error (List UInt8) :=
  if text.length % 2 = 1 then .error .oddLength else decodePairs 0 text

/-- A byte read as a Latin-1 character and written between quotes: a quote, a backslash and the
    usual controls by their letters, any other character without a glyph by its code. -/
def quoteByte (byte : UInt8) : String :=
  let inner : String :=
    if byte = 0 then "\\0"
    else if byte = 9 then "\\t"
    else if byte = 10 then "\\n"
    else if byte = 13 then "\\r"
    else if byte = 39 then "\\'"
    else if byte = 92 then "\\\\"
    else if byte < 32 ∨ (127 ≤ byte ∧ byte ≤ 160) ∨ byte = 173 then
      "\\u\x7b" ++ String.ofList (Nat.toDigits 16 byte.toNat) ++ "\x7d"
    else String.singleton (Char.ofNat byte.toNat)
  "'" ++ inner ++ "'"

def Error.message : Error → String
  | .oddLength => "Odd number of digits"
  | .badDigit byte position =>
    "Invalid character " ++ quoteByte byte ++ " at position " ++ toString position

end Hex

end DynamicQuorum.Text
