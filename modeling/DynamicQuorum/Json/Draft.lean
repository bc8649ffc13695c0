/-
  DynamicQuorum/Json/Draft.lean
  =============================
  **JSON text as far as it can be read.**

  A draft is the tree of a text that may break off: where the text stops being JSON, the
  draft has a damaged leaf or a container that is not closed, and nothing behind it.  A
  decoder that walks a draft from left to right therefore meets wrong values and broken
  text in the order in which they stand, and the first of them is its answer.

  The tree is built from the tokens with an explicit stack of open containers.
-/
import DynamicQuorum.Json.Value

namespace DynamicQuorum.Json

/-- A value as far as it can be read; `none` stands for a string with half of a surrogate
    pair, as a value and as a key. -/
inductive Draft where
  | null
  | bool (value : Bool)
  | number (value : Number)
  | string (value : Option String)
  | array (items : List Draft) (closed : Bool)
  | object (members : List (Option String × Draft)) (closed : Bool)
  | damaged
deriving Repr, Inhabited

namespace Draft

/-! ### Building from tokens -/

/-- A container that is still open, its parts in order.  An object awaits the value of a
    key. -/
inductive Frame where
  | array (items : List Draft)
  | object (members : List (Option String × Draft)) (key : Option String)
deriving Repr

/-- What may come next: behind an opening bracket or brace, behind a comma or a key in an object,
    behind an item or a member, and behind the whole value. -/
inductive Expectation where
  | value
  | firstItem
  | firstKey
  | key (members : List (Option String × Draft))
  | colon (members : List (Option String × Draft)) (key : Option String)
  | afterItem (items : List Draft)
  | afterMember (members : List (Option String × Draft))
  | nothing (value : Draft)
deriving Repr

/-- The whole draft, when the text breaks off within `d`, inside the open containers. -/
def breakOff (d : Draft) : List Frame → Draft
  | [] => d
  | .array items :: stack => breakOff (.array (items ++ [d]) false) stack
  | .object members key :: stack =>
    breakOff (.object (members ++ [(key, d)]) false) stack

/-- A complete value: what may come behind it, and the containers that are open then. -/
def complete (d : Draft) : List Frame → Expectation × List Frame
  | [] => (.nothing d, [])
  | .array items :: stack => (.afterItem (items ++ [d]), stack)
  | .object members key :: stack => (.afterMember (members ++ [(key, d)]), stack)

/-- The draft when the text breaks off where something was expected. -/
def breakAt (stack : List Frame) : Expectation → Draft
  | .value => breakOff .damaged stack
  | .firstItem => breakOff (.array [] false) stack
  | .firstKey => breakOff (.object [] false) stack
  | .key members => breakOff (.object members false) stack
  | .colon members key => breakOff (.object (members ++ [(key, .damaged)]) false) stack
  | .afterItem items => breakOff (.array items false) stack
  | .afterMember members => breakOff (.object members false) stack
  | .nothing value => value

inductive Step where
  | next (expectation : Expectation) (stack : List Frame)
  | stop (d : Draft)
deriving Repr

def valueStep (stack : List Frame) (token : Token) : Step :=
  let leaf (d : Draft) : Step := .next (complete d stack).1 (complete d stack).2
  match token with
  | .null => leaf .null
  | .bool b => leaf (.bool b)
  | .number n => leaf (.number n)
  | .string s => leaf (.string s)
  | .openBracket => .next .firstItem stack
  | .openBrace => .next .firstKey stack
  | _ => .stop (breakAt stack .value)

def step (expectation : Expectation) (stack : List Frame) (token : Token) : Step :=
  match expectation with
  | .value => valueStep stack token
  | .firstItem =>
    match token with
    | .closeBracket =>
      .next (complete (.array [] true) stack).1 (complete (.array [] true) stack).2
    | token => valueStep (.array [] :: stack) token
  | .firstKey =>
    match token with
    | .closeBrace =>
      .next (complete (.object [] true) stack).1 (complete (.object [] true) stack).2
    | .string key => .next (.colon [] key) stack
    | _ => .stop (breakAt stack .firstKey)
  | .key members =>
    match token with
    | .string key => .next (.colon members key) stack
    | _ => .stop (breakAt stack (.key members))
  | .colon members key =>
    match token with
    | .colon => .next .value (.object members key :: stack)
    | _ => .stop (breakAt stack (.colon members key))
  | .afterItem items =>
    match token with
    | .comma => .next .value (.array items :: stack)
    | .closeBracket =>
      .next (complete (.array items true) stack).1 (complete (.array items true) stack).2
    | _ => .stop (breakAt stack (.afterItem items))
  | .afterMember members =>
    match token with
    | .comma => .next (.key members) stack
    | .closeBrace =>
      .next (complete (.object members true) stack).1 (complete (.object members true) stack).2
    | _ => .stop (breakAt stack (.afterMember members))
  | .nothing value => .stop value

end Draft

/-- A whole text: its draft, and whether more stands behind a complete value. -/
structure Document where
  root : Draft
  trailing : Bool
deriving Repr, Inhabited

namespace Document

/-- Go on with the tokens of a text. -/
def build (expectation : Draft.Expectation) (stack : List Draft.Frame) :
    List Token → Document
  | [] => ⟨Draft.breakAt stack expectation, false⟩
  | token :: rest =>
    match Draft.step expectation stack token with
    | .next expectation stack => build expectation stack rest
    | .stop d => ⟨d, true⟩

def read (text : String) : Document := build .value [] (Token.ofText text.toList)

end Document

/-! ### Whole values -/

mutual

/-- The draft of a value that is to be written. -/
def Value.toDraft : Value → Draft
  | .null => .null
  | .bool b => .bool b
  | .number n => .number (.ofInt n)
  | .string s => .string (some s)
  | .array items => .array (Value.toDrafts items) true
  | .object members => .object (Value.toMemberDrafts members) true

def Value.toDrafts : List Value → List Draft
  | [] => []
  | v :: rest => v.toDraft :: Value.toDrafts rest

def Value.toMemberDrafts : List (String × Value) → List (Option String × Draft)
  | [] => []
  | (k, v) :: rest => (some k, v.toDraft) :: Value.toMemberDrafts rest

end

end DynamicQuorum.Json
