/-
  DynamicQuorum/Text/Natural.lean
  ===============================
  **Reading natural numbers below a bound.**

  A numeral is one or more ASCII digits, with an optional plus sign in front.  It is read from
  left to right: a character that is no digit is refused where it stands, and a number that
  has reached the bound is refused at the digit that made it so large.
-/

namespace DynamicQuorum.Text

/-- Why a text is no natural number below a bound. -/
inductive NaturalError where
  | empty
  | badDigit
  | tooLarge
deriving DecidableEq, Repr

def NaturalError.message : NaturalError → String
  | .empty => "cannot parse integer from empty string"
  | .badDigit => "invalid digit found in string"
  | .tooLarge => "number too large to fit in target type"

def digitValue (c : Char) : Nat := c.toNat - '0'.toNat

def appendDigit (bound acc : Nat) (c : Char) : Except NaturalError Nat :=
  if c.isDigit then
    if acc * 10 + digitValue c < bound then .ok (acc * 10 + digitValue c) else .error .tooLarge
  else .error .badDigit

/-- The number below `bound` that a text writes. -/
def readNatural (bound : Nat) (text : List Char) : Except NaturalError Nat :=
  match text with
  | [] => .error .empty
  | ['+'] => .error .badDigit
  | '+' :: digits => digits.foldlM (appendDigit bound) 0
  | digits => digits.foldlM (appendDigit bound) 0

def readUInt16 (text : String) : Except NaturalError UInt16 :=
  (readNatural UInt16.size text.toList).map UInt16.ofNat

def readUInt64 (text : String) : Except NaturalError UInt64 :=
  (readNatural UInt64.size text.toList).map UInt64.ofNat

end DynamicQuorum.Text
