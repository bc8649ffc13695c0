/-
  DynamicQuorum/Toml/Document.lean
  ================================
  **Reading TOML documents.**

  A document is a sequence of lines: entries, and headers of tables.  An entry may span several
  lines of text, because arrays and long strings may.  Containers are nested at most
  seventy-nine deep, and a key has at most seventy-nine parts.

  Readers give a value and the text behind it, or nothing where the text is no TOML.
-/
import DynamicQuorum.Toml.Word

namespace DynamicQuorum.Toml

/-- A limit on the nesting of containers, and on the parts of a key. -/
def depthLimit : Nat := 79

/-! ### Blanks, comments and line ends -/

def skipBlanks (text : List Char) : List Char := text.dropWhile Quoted.isBlank

def skipComment : List Char → List Char
  | '#' :: text => text.dropWhile fun c => !Quoted.isControl c
  | text => text

/-- The text behind the end of a line, on which only a comment may stand; the end of the document
    ends a line, too. -/
def endLine? (text : List Char) : Option (List Char) :=
  match skipComment (skipBlanks text) with
  | [] => some []
  | rest => Quoted.newLine? rest

/-- The text behind blanks, comments and line breaks. -/
def skipSpace (inComment : Bool) : List Char → List Char
  | [] => []
  | '\n' :: rest => skipSpace false rest
  | '\r' :: '\n' :: rest => skipSpace false rest
  | c :: rest =>
    if inComment then (if Quoted.isControl c then c :: rest else skipSpace true rest)
    else if Quoted.isBlank c then skipSpace false rest
    else if c = '#' then skipSpace true rest
    else c :: rest

/-! ### Keys -/

def isBareKeyChar (c : Char) : Bool := c.isAlphanum || c = '-' || c = '_'

def readKey? (text : List Char) : Option (String × List Char) :=
  match Quoted.readLine? text with
  | some (key, rest) => some (String.ofList key, rest)
  | none =>
    let key := text.takeWhile isBareKeyChar
    if key = [] then none else some (String.ofList key, text.dropWhile isBareKeyChar)

/-- A dotted key of at most `parts` parts, and what stands behind it and blanks. -/
def readKeyPath? : Nat → List Char → Option (KeyPath × List Char)
  | 0, _ => none
  | parts + 1, text => do
    let (key, rest) ← readKey? (skipBlanks text)
    match skipBlanks rest with
    | '.' :: rest => do
      let (inner, rest) ← readKeyPath? parts rest
      return (⟨key :: inner.path, inner.key⟩, rest)
    | rest => return (⟨[], key⟩, rest)

/-! ### Values -/

abbrev Reader := List Char → Option (Value × List Char)

def readScalar? : Reader := fun text =>
  match text with
  | '"' :: _ | '\x27' :: _ =>
    (Quoted.read? text).map fun read => (.string (String.ofList read.1), read.2)
  | text => Word.read? text

/-- The items of an array up to its closing bracket; there are at most `count`. -/
def readItems? (item : Reader) : Nat → List Char → Option (List Value × List Char)
  | 0, _ => none
  | count + 1, text =>
    match skipSpace false text with
    | ']' :: rest => some ([], rest)
    | text => do
      let (value, rest) ← item text
      match skipSpace false rest with
      | ',' :: rest => do
        let (values, rest) ← readItems? item count rest
        return (value :: values, rest)
      | ']' :: rest => return ([value], rest)
      | _ => none

def readEntry? (item : Reader) (text : List Char) :
    Option ((KeyPath × Value) × List Char) := do
  let (key, rest) ← readKeyPath? depthLimit text
  match rest with
  | '=' :: rest => do
    let (value, rest) ← item (skipBlanks rest)
    return ((key, value), rest)
  | _ => none

/-- The entries of an inline table up to its closing brace; there are at most `count`. -/
def readMembers? (item : Reader) : Nat → List Char → Option (List (KeyPath × Value) × List Char)
  | 0, _ => none
  | count + 1, text => do
    let (entry, rest) ← readEntry? item text
    match skipBlanks rest with
    | ',' :: rest => do
      let (entries, rest) ← readMembers? item count rest
      return (entry :: entries, rest)
    | '\x7d' :: rest => return ([entry], rest)
    | _ => none

/-- The table of the entries between two braces. -/
def inlineTable? (members : List (KeyPath × Value)) : Option Value := do
  let entries ← members.foldlM
    (fun (entries : Entries) member =>
      entries.insert member.1.path member.1.key member.2) []
  return .table .inline entries

def readInlineTable? (item : Reader) : Reader := fun text =>
  match skipBlanks text with
  | '\x7d' :: rest => some (.table .inline [], rest)
  | text => do
    let (members, rest) ← readMembers? item text.length text
    let table ← inlineTable? members
    return (table, rest)

/-- A value in which containers are nested at most `depth` deep. -/
def readValue? : Nat → Reader
  | 0 => readScalar?
  | depth + 1 => fun text =>
    match text with
    | '[' :: rest =>
      (readItems? (readValue? depth) rest.length rest).map fun read => (.array read.1, read.2)
    | '\x7b' :: rest => readInlineTable? (readValue? depth) rest
    | text => readScalar? text

/-! ### Lines -/

/-- A line, behind which the next one starts. -/
def readStatement? : List Char → Option (Statement × List Char)
  | '[' :: '[' :: text => do
    let (key, rest) ← readKeyPath? depthLimit text
    match rest with
    | ']' :: ']' :: rest => do
      let rest ← endLine? rest
      return (.elementHeader key, rest)
    | _ => none
  | '[' :: text => do
    let (key, rest) ← readKeyPath? depthLimit text
    match rest with
    | ']' :: rest => do
      let rest ← endLine? rest
      return (.tableHeader key, rest)
    | _ => none
  | text => do
    let ((key, value), rest) ← readEntry? (readValue? depthLimit) text
    let rest ← endLine? rest
    return (.entry key value, rest)

def readStatements? : Nat → List Char → Option (List Statement)
  | 0, _ => none
  | count + 1, text =>
    match skipSpace false text with
    | [] => some []
    | text => do
      let (line, rest) ← readStatement? text
      let lines ← readStatements? count rest
      return line :: lines

/-- The text without the mark that some editors put in front. -/
def skipMark : List Char → List Char
  | '\ufeff' :: text => text
  | text => text

def readDocument? (text : String) : Option Entries := do
  let chars := skipMark text.toList
  let lines ← readStatements? (chars.length + 1) chars
  Entries.ofStatements lines

end DynamicQuorum.Toml
