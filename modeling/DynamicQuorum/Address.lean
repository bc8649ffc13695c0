/-
  DynamicQuorum/Address.lean
  ==========================
  **Accounts: twenty bytes, written as forty hexadecimal digits behind `0x`.**

  Two texts that differ only in letter case are the same account.  `AddressSet` keeps
  accounts in strictly ascending order, so that two sets with the same members are equal.
-/
import DynamicQuorum.Error

namespace DynamicQuorum

structure Address where
  bytes : List UInt8
  length_bytes : bytes.length = 20
deriving DecidableEq, Repr

namespace Address

def zero : Address := ⟨List.replicate 20 0, by decide⟩

instance : Inhabited Address := ⟨zero⟩

def ofBytes (bytes : List UInt8) : Except ValueError Address :=
  if h : bytes.length = 20 then .ok ⟨bytes, h⟩ else .error (.addressLength bytes.length)

def ofString (text : String) : Except ValueError Address :=
  match text.toList with
  | '0' :: 'x' :: digits => ofDigits digits
  | '0' :: 'X' :: digits => ofDigits digits
  | _ => .error (.addressFormat text)
where
  ofDigits (digits : List Char) : Except ValueError Address :=
    match Text.Hex.decode (Text.utf8 digits) with
    | .error cause => .error (.hex cause)
    | .ok bytes => ofBytes bytes

def toChars (a : Address) : List Char := '0' :: 'x' :: Text.Hex.encode a.bytes

def toHex (a : Address) : String := String.ofList a.toChars

instance : ToString Address := ⟨toHex⟩

/-- The first four and the last four digits, for tables. -/
def short (a : Address) : String :=
  String.ofList (a.toChars.take 6 ++ ['.', '.', '.'] ++ a.toChars.drop 38)

/-- The digits under the name of the type, as journals show them. -/
def describe (a : Address) : String := "Address(" ++ a.toHex ++ ")"

def isZero (a : Address) : Bool := a = zero

/-- The number written by the bytes, most significant first.  It orders accounts as their
    texts do. -/
def toNat (a : Address) : Nat := a.bytes.foldl (fun acc b => acc * 256 + b.toNat) 0

end Address

end DynamicQuorum
