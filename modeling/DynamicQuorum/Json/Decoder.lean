/-
  DynamicQuorum/Json/Decoder.lean
  ===============================
  **Reading typed values from drafts.**

  A decoder walks a draft from left to right and stops at the first fault, which is one of
  three: the text is no JSON there, a value is not of the kind wanted, or the program itself
  refuses it.  Values that nobody asks for are skipped, which is more lenient than reading them:
  a skipped value may be nested without limit, and its numerals and escapes need only be
  well formed.

  A record is described by its fields.  It is read from an object, whatever the order of the
  members, or from an array of its fields in order.
-/
import DynamicQuorum.Error
import DynamicQuorum.Json.Draft
import DynamicQuorum.Json.Position

namespace DynamicQuorum.Json

/-- Why a text does not hold a value: it is no JSON, JSON of another shape, or its content was
    refused. -/
inductive DecodeError where
  | malformed
  | mismatch
  | refused (cause : GovernanceError)
deriving DecidableEq, Repr

/-- A position at the end of a refusal counts as the reader's own, and is not told. -/
def DecodeError.message : DecodeError → String
  | .malformed => "syntax"
  | .mismatch => "data"
  | .refused cause => withoutPosition cause.message

/-- How a draft is read.  `room` is one more than the number of containers that may still be opened,
    and `surplus` is what an array with more items than fields is. -/
structure Reading where
  room : Nat
  surplus : DecodeError
deriving DecidableEq, Repr

namespace Reading

/-- Reading a text: containers may be nested 127 deep. -/
def text : Reading := ⟨128, .malformed⟩

/-- Reading a value that is known to be whole, of any depth. -/
def value : Reading := ⟨UInt64.size, .mismatch⟩

def enter (r : Reading) : Except DecodeError Reading :=
  if r.room ≤ 1 then .error .malformed else .ok { r with room := r.room - 1 }

end Reading

def Decoder (α : Type) : Type := Reading → Draft → Except DecodeError α

namespace Draft

/-- The fault of a value that is not of the kind wanted.  A container is refused at its first
    character; any other value is read to its end first. -/
def otherKind : Draft → DecodeError
  | .string none | .damaged => .malformed
  | .number n => if n.overflows then .malformed else .mismatch
  | _ => .mismatch

mutual

/-- A value that may be skipped: it does not break off. -/
def isSkippable : Draft → Bool
  | .array items closed => closed && areSkippable items
  | .object members closed => closed && membersSkippable members
  | .damaged => false
  | _ => true

def areSkippable : List Draft → Bool
  | [] => true
  | d :: rest => d.isSkippable && areSkippable rest

def membersSkippable : List (Option String × Draft) → Bool
  | [] => true
  | (_, d) :: rest => d.isSkippable && membersSkippable rest

end

mutual

/-- A value that can be read to its end: it does not break off, has a text wherever it has a
    string, its numerals stay in range, and its containers nest less than `room` deep. -/
def isReadable (room : Nat) : Draft → Bool
  | .number n => !n.overflows
  | .string s => s.isSome
  | .array items closed => 2 ≤ room && closed && areReadable (room - 1) items
  | .object members closed => 2 ≤ room && closed && membersReadable (room - 1) members
  | .damaged => false
  | _ => true

def areReadable (room : Nat) : List Draft → Bool
  | [] => true
  | d :: rest => d.isReadable room && areReadable room rest

def membersReadable (room : Nat) : List (Option String × Draft) → Bool
  | [] => true
  | (key, d) :: rest => key.isSome && d.isReadable room && membersReadable room rest

end

end Draft

namespace Decoder

variable {α β σ : Type}

/-! ### Simple values -/

def string : Decoder String := fun _ d =>
  match d with
  | .string (some s) => .ok s
  | d => .error d.otherKind

def bool : Decoder Bool := fun _ d =>
  match d with
  | .bool b => .ok b
  | d => .error d.otherKind

def uint64 : Decoder UInt64 := fun _ d =>
  match d with
  | .number n =>
    match n.natural? with
    | some value => .ok value
    | none => .error d.otherKind
  | d => .error d.otherKind

def below (bound : Nat) : Decoder UInt64 := fun r d => do
  let value ← uint64 r d
  if value.toNat < bound then return value else throw .mismatch

def optional (decode : Decoder α) : Decoder (Option α) := fun r d =>
  match d with
  | .null => .ok none
  | d => (decode r d).map some

def refine (decode : Decoder α) (check : α → Except GovernanceError β) : Decoder β :=
  fun r d => do
    let value ← decode r d
    match check value with
    | .ok b => return b
    | .error cause => throw (.refused cause)

def whole (decode : Decoder α) : Decoder α := fun r d =>
  if d.isReadable r.room then decode r d else .error .malformed

def list (decode : Decoder α) : Decoder (List α) := fun r d =>
  match d with
  | .array items closed => do
    let inner ← r.enter
    let values ← items.mapM (decode inner)
    if closed then return values else throw .malformed
  | d => .error d.otherKind

/-- A name among those of an enumeration, alone or as the key of `null`. -/
def variant (ofName? : String → Option α) : Decoder α := fun r d =>
  match d with
  | .string (some name) => named name
  | .object members closed => do
    let _ ← r.enter
    match members with
    | (some name, content) :: rest =>
      let value ← named name
      match content with
      | .null => if rest.isEmpty && closed then return value else throw .malformed
      | content => throw content.otherKind
    | _ => throw .malformed
  | _ => .error .malformed
where
  named (name : String) : Except DecodeError α :=
    match ofName? name with
    | some value => .ok value
    | none => .error .mismatch

end Decoder

/-! ### Records -/

/-- What happens when a field is absent.  An optional one may be left out of an object, and keeps
    its initial value, but an array must have it; a default one may be left out of either. -/
inductive Absence where
  | required
  | optional
  | default
deriving DecidableEq, Repr

structure RecordField (σ : Type) where
  name : String
  absence : Absence
  read : Reading → Draft → σ → Except DecodeError σ

namespace RecordField

variable {α σ : Type}

def of (name : String) (absence : Absence) (decode : Decoder α) (assign : α → σ → σ) :
    RecordField σ where
  name := name
  absence := absence
  read r d record := (decode r d).map (assign · record)

def required (name : String) (decode : Decoder α) (assign : α → σ → σ) : RecordField σ :=
  of name .required decode assign

def missingFromObject (field : RecordField σ) : Except DecodeError Unit :=
  if field.absence = .required then .error .mismatch else .ok ()

def missingFromArray (field : RecordField σ) : Except DecodeError Unit :=
  if field.absence = .default then .ok () else .error .mismatch

end RecordField

namespace Record

variable {σ : Type}

/-- Read the members of an object in the order in which they stand. -/
def readMembers (fields : List (RecordField σ)) (r : Reading) :
    List (Option String × Draft) → List String → σ → Except DecodeError (σ × List String)
  | [], seen, record => .ok (record, seen)
  | (none, _) :: _, _, _ => .error .malformed
  | (some key, d) :: rest, seen, record =>
    match fields.find? (·.name = key) with
    | some field =>
      -- the second of two is refused at its key, whatever its value
      if key ∈ seen then .error .mismatch
      else do
        let record ← field.read r d record
        readMembers fields r rest (key :: seen) record
    | none =>
      if d.isSkippable then readMembers fields r rest seen record else .error .malformed

/-- The fields that were not seen may be left out. -/
def checkAbsent (fields : List (RecordField σ)) (seen : List String) : Except DecodeError Unit :=
  fields.forM fun field => if field.name ∈ seen then .ok () else field.missingFromObject

/-- Read the members of an object; `closed` tells whether the object ends behind them. -/
def readObject (fields : List (RecordField σ)) (r : Reading)
    (members : List (Option String × Draft)) (closed : Bool) (record : σ) :
    Except DecodeError σ := do
  let (record, seen) ← readMembers fields r members [] record
  if !closed then throw .malformed
  checkAbsent fields seen
  return record

def readArray (r : Reading) (closed : Bool) :
    List (RecordField σ) → List Draft → σ → Except DecodeError σ
  | [], [], record => if closed then .ok record else .error .malformed
  | [], _ :: _, _ => .error r.surplus
  | field :: fields, d :: items, record => do
    let record ← field.read r d record
    readArray r closed fields items record
  | field :: fields, [], record =>
    if closed then do
      field.missingFromArray
      readArray r closed fields [] record
    else .error .malformed

/-- A record with these fields, built up from `initial`. -/
def decode (fields : List (RecordField σ)) (initial : σ) : Decoder σ := fun r d =>
  match d with
  | .object members closed => do
    let inner ← r.enter
    readObject fields inner members closed initial
  | .array items closed => do
    let inner ← r.enter
    readArray inner closed fields items initial
  | d => .error d.otherKind

end Record

/-! ### Texts -/

/-- Read a whole text. -/
def decodeText {α : Type} (decode : Decoder α) (text : String) : Except DecodeError α := do
  let document := Document.read text
  let value ← decode .text document.root
  -- what is wrong with the value is told before that something stands behind it
  if document.trailing then throw .malformed else return value

end DynamicQuorum.Json
