/-
  DynamicQuorum/Journal/Directive.lean
  ====================================
  **What a filter says about some of the notes.**

  A directive is a level, or it names notes and may give them a level:

      target [ span \x7b field = value \x7d ] = level

  Each part may be missing.  A target is the start of the targets that are meant; a field is one
  that the notes must have.  Without a level all notes that are meant are kept.

  A name in brackets, or a value of a field, is about what surrounds a note.  Nothing surrounds
  the notes of this program, so such a directive decides nothing.

  The parts are found in the directive without the blanks around it, but they are cut out of the
  directive with these blanks: a blank in front shifts every part.
-/
import DynamicQuorum.Journal.Note
import DynamicQuorum.Text.Alphanumeric
import DynamicQuorum.Text.Blank
import DynamicQuorum.Text.Bytes
import DynamicQuorum.Text.Natural

namespace DynamicQuorum

/-- A text that is no filter; a part of it may not begin or end inside a character. -/
inductive FilterError where
  | level
  | directive
  | brokenCharacter
deriving DecidableEq, Repr

/-- A bad level is told twice: by the directive, and by the level in it. -/
def FilterError.message : FilterError → String
  | .level => badLevel ++ ": " ++ badLevel
  | .directive => "invalid filter directive"
  | .brokenCharacter => "a part of a filter directive begins or ends inside a character"
where
  badLevel : String :=
    "error parsing level filter: expected one of " ++
      "\"off\", \"error\", \"warn\", \"info\", \"debug\", \"trace\", or a number 0-5"

/-- Notes up to this rank are kept; zero keeps none. -/
abbrev Verbosity := Nat

namespace Verbosity

def everything : Verbosity := Severity.trace.rank

/-- The verbosity of the name or the number of a level. -/
def ofString? (text : String) : Option Verbosity :=
  match Text.readUInt64 text with
  | .ok n => if n.toNat ≤ everything then some n.toNat else none
  | .error _ =>
    let word := String.ofList (text.toList.map (·.toUpper))
    if word = "OFF" then some 0
    else if word = "" then some Severity.error.rank
    else (Severity.all.find? (·.name = word)).map (·.rank)

end Verbosity

/-- A field that a note must have, with or without a value. -/
structure FieldPattern where
  name : String
  hasValue : Bool
deriving DecidableEq, Repr

/-- What a filter says about the notes that it means: those with the start of their target, with
    the name of what surrounds them, and with a field.  What is not given matches every note. -/
structure Directive where
  target : Option String := none
  span : Option String := none
  field : Option FieldPattern := none
  verbosity : Verbosity := .everything
deriving DecidableEq, Repr

def FieldPattern.ofString (text : String) : FieldPattern where
  name := String.ofList (text.toList.takeWhile (· ≠ '='))
  hasValue := text.toList.contains '='

namespace Directive

/-! ### Reading -/

/-- Cuts the part between two positions out of a directive. -/
abbrev Cutter := Nat → Nat → Except FilterError String

def cutter (text : List Char) : Cutter := fun first last =>
  match Text.sliceBytes? first last text with
  | some part => .ok (String.ofList part)
  | none => .error .brokenCharacter

def readLevel (text : List Char) (first : Nat) (d : Directive) : Except FilterError Directive := do
  let level ← cutter text first (Text.byteSize text)
  if level = "" then return d
  match Verbosity.ofString? level with
  | some verbosity => return { d with verbosity := verbosity }
  | none => throw .level

/-- What follows a closing bracket that ends at `position`: nothing, or a level. -/
def readTail (text : List Char) (position : Nat) (rest : List Char) (d : Directive) :
    Except FilterError Directive :=
  match rest with
  | [] => .ok d
  | '=' :: _ => readLevel text (position + 1) d
  | _ => .error .directive

/-- A field that starts at `position`, up to the closing brace and the closing bracket. -/
def readField (text : List Char) (position : Nat) (rest : List Char) (d : Directive) :
    Except FilterError Directive := do
  let last := position + Text.byteSize (rest.takeWhile (· ≠ '\x7d'))
  match rest.dropWhile (· ≠ '\x7d') with
  | [] => throw .directive
  | _ :: behind =>
    let pattern ← cutter text position last
    if pattern = "" then throw .directive
    match behind with
    | ']' :: tail =>
      readTail text (last + 2) tail { d with field := some (.ofString pattern) }
    | _ => throw .directive

/-- The inside of brackets that starts at `position`: a name, a field in braces, or both. -/
def readSpan (text : List Char) (position : Nat) (rest : List Char) (d : Directive) :
    Except FilterError Directive := do
  let isEnd (c : Char) : Bool := c = ']' || c = '\x7b'
  let last := position + Text.byteSize (rest.takeWhile (!isEnd ·))
  match rest.dropWhile (!isEnd ·) with
  | ']' :: tail =>
    let name ← cutter text position last
    readTail text (last + 1) tail { d with span := some name }
  | _ :: field =>
    let name ← cutter text position last
    readField text (last + 1) field { d with span := if name = "" then none else some name }
  | [] => throw .directive

def isStart (c : Char) : Bool := Text.isAlphanumeric c || c = '-' || c = ':' || c = '_'

/-- A level alone, or a target up to an opening bracket or an equality sign. -/
def readName (text trimmed : List Char) : Except FilterError Directive := do
  let isEnd (c : Char) : Bool := c = '=' || c = '['
  let last := Text.byteSize (trimmed.takeWhile (!isEnd ·))
  match trimmed.dropWhile (!isEnd ·) with
  | [] =>
    let name := String.ofList text
    match Verbosity.ofString? name with
    | some verbosity => return { verbosity := verbosity }
    | none => return { target := some name }
  | '[' :: span =>
    let target ← cutter text 0 last
    readSpan text (last + 1) span { target := some target }
  | _ =>
    let target ← cutter text 0 last
    readLevel text (last + 1) { target := some target }

def ofChars (text : List Char) : Except FilterError Directive :=
  match Text.trim text with
  | [] => .error .directive
  | '[' :: span => readSpan text 1 span {}
  | c :: rest => if isStart c then readName text (c :: rest) else .error .directive

/-! ### Meaning -/

/-- The directive is about notes alone, and not about what surrounds them. -/
def decides (d : Directive) : Bool := d.span.isNone && !d.field.any (·.hasValue)

def isAbout (d : Directive) (note : Note) : Bool :=
  d.target.all (fun start => start.toList.isPrefixOf note.target.toList) &&
    d.field.all (fun field => field.name ∈ note.fieldNames)

/-- A longer target is more specific than a shorter one or none; of two alike, the one that names
    a field is, and of two fields the one that comes later in the alphabet. -/
def isMoreSpecific (d e : Directive) : Bool :=
  let length (d : Directive) : Nat := d.target.elim 0 (·.toList.length + 1)
  if length d = length e then
    match d.field, e.field with
    | some a, some b => b.name < a.name
    | some _, none => true
    | none, _ => false
  else length e < length d

end Directive

end DynamicQuorum
