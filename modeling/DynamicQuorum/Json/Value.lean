/-
  DynamicQuorum/Json/Value.lean
  =============================
  **JSON values as they are written.**

  The values that this library writes hold whole numbers only, and their members keep their
  order.  They have two written forms: on one line, and indented by two blanks.
-/
import DynamicQuorum.Json.Token

namespace DynamicQuorum.Json

inductive Value where
  | null
  | bool (value : Bool)
  | number (value : Int)
  | string (value : String)
  | array (items : List Value)
  | object (members : List (String × Value))
deriving Repr, Inhabited

namespace Value

def ofOption (value : Option Value) : Value := value.getD .null

/-! ### On one line -/

mutual

/-- The value on one line, without any blanks. -/
def render : Value → List Char
  | .null => ['n', 'u', 'l', 'l']
  | .bool true => ['t', 'r', 'u', 'e']
  | .bool false => ['f', 'a', 'l', 's', 'e']
  | .number (.ofNat n) => Nat.toDigits 10 n
  | .number (.negSucc n) => '-' :: Nat.toDigits 10 (n + 1)
  | .string s => Token.quote s.toList
  | .array [] => ['[', ']']
  | .array (v :: rest) => '[' :: (render v ++ renderItems rest ++ [']'])
  | .object [] => ['\x7b', '\x7d']
  | .object ((k, v) :: rest) =>
    '\x7b' :: (Token.quote k.toList ++ ':' :: render v ++ renderMembers rest ++ ['\x7d'])

/-- The items behind the first, each with a comma in front. -/
def renderItems : List Value → List Char
  | [] => []
  | v :: rest => ',' :: (render v ++ renderItems rest)

/-- The members behind the first, each with a comma in front. -/
def renderMembers : List (String × Value) → List Char
  | [] => []
  | (k, v) :: rest => ',' :: (Token.quote k.toList ++ ':' :: render v ++ renderMembers rest)

end

/-! ### Indented -/

def newLine (depth : Nat) : List Char := '\n' :: List.replicate (2 * depth) ' '

mutual

/-- The value over several lines; its own first line is `depth` levels deep. -/
def renderIndented (depth : Nat) : Value → List Char
  | .array [] => ['[', ']']
  | .array (v :: rest) =>
    '[' :: (newLine (depth + 1) ++ renderIndented (depth + 1) v ++
      renderIndentedItems (depth + 1) rest ++ newLine depth ++ [']'])
  | .object [] => ['\x7b', '\x7d']
  | .object ((k, v) :: rest) =>
    '\x7b' :: (newLine (depth + 1) ++ Token.quote k.toList ++ ':' :: ' ' ::
      renderIndented (depth + 1) v ++ renderIndentedMembers (depth + 1) rest ++
      newLine depth ++ ['\x7d'])
  | v => render v

def renderIndentedItems (depth : Nat) : List Value → List Char
  | [] => []
  | v :: rest =>
    ',' :: (newLine depth ++ renderIndented depth v ++ renderIndentedItems depth rest)

def renderIndentedMembers (depth : Nat) : List (String × Value) → List Char
  | [] => []
  | (k, v) :: rest =>
    ',' :: (newLine depth ++ Token.quote k.toList ++ ':' :: ' ' :: renderIndented depth v ++
      renderIndentedMembers depth rest)

end

def toText (v : Value) : String := String.ofList v.render

def toIndentedText (v : Value) : String := String.ofList (v.renderIndented 0)

end Value

end DynamicQuorum.Json
