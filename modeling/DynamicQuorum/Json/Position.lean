/-
  DynamicQuorum/Json/Position.lean
  ================================
  **Positions at the end of a message.**

  A reader of text ends its messages with the line and the column at which it stopped, as in
  ` at line 3 column 4`.  The message of another reader that is passed on loses that ending.
-/
import DynamicQuorum.Text.Natural

namespace DynamicQuorum.Json

/-- What stands behind a literal text, if the text starts with it. -/
def behind? : List Char → List Char → Option (List Char)
  | [], text => some text
  | l :: literal, c :: text => if l = c then behind? literal text else none
  | _ :: _, [] => none

/-- A number of a line or of a column. -/
def isCount (digits : List Char) : Bool := (Text.readNatural UInt64.size digits).isOk

def isPosition (text : List Char) : Bool :=
  match behind? " at line ".toList text with
  | none => false
  | some line =>
    match behind? " column ".toList (line.dropWhile Char.isDigit) with
    | none => false
    | some column =>
      isCount (line.takeWhile Char.isDigit) && column.all Char.isDigit && isCount column

/-- The characters in front of a position at the end. -/
def dropPosition : List Char → List Char
  | [] => []
  | c :: rest => if isPosition (c :: rest) then [] else c :: dropPosition rest

def withoutPosition (message : String) : String :=
  String.ofList (dropPosition message.toList)

end DynamicQuorum.Json
