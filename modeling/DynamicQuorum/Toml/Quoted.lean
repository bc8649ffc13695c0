/-
  DynamicQuorum/Toml/Quoted.lean
  ==============================
  **Strings between quotes.**

  TOML has four forms of strings.  Between quotes a backslash starts an escape, between
  apostrophes every character stands for itself, and three of either allow line breaks.
  Reading accepts all of them.  Writing takes the first form, in the order below, that needs
  no escape, a tab aside; a text for which there is none is escaped.
-/

namespace DynamicQuorum.Toml.Quoted

/-! ### Characters -/

def isBlank (c : Char) : Bool := c = ' ' || c = '\t'

/-- A control other than a tab: it never stands in a document, line breaks aside. -/
def isControl (c : Char) : Bool := (c < ' ' && c ≠ '\t') || c = '\x7f'

def apostrophe : Char := '\x27'

def hexDigit? (c : Char) : Option Nat :=
  if '0' ≤ c ∧ c ≤ '9' then some (c.toNat - '0'.toNat)
  else if 'a' ≤ c ∧ c ≤ 'f' then some (c.toNat - 'a'.toNat + 10)
  else if 'A' ≤ c ∧ c ≤ 'F' then some (c.toNat - 'A'.toNat + 10)
  else none

/-- The character of a code point in hexadecimal digits; halves of surrogate pairs have
    none. -/
def codePoint? (digits : List Char) : Option Char := do
  let code ← digits.foldlM (fun acc c => (hexDigit? c).map (acc * 16 + ·)) 0
  if code < 0xD800 ∨ (0xDFFF < code ∧ code < 0x110000) then some (Char.ofNat code) else none

/-- The character that a letter behind a backslash stands for. -/
def unescape? (c : Char) : Option Char :=
  if c = 'b' then some '\x08'
  else if c = 't' then some '\t'
  else if c = 'n' then some '\n'
  else if c = 'f' then some '\x0c'
  else if c = 'r' then some '\r'
  else if c = '"' then some '"'
  else if c = '\\' then some '\\'
  else none

/-! ### Reading

A reader gives the text of the string and what stands behind it. -/

def push (c : Char) (r : Option (List Char × List Char)) : Option (List Char × List Char) :=
  r.map fun read => (c :: read.1, read.2)

def newLine? : List Char → Option (List Char)
  | '\n' :: rest => some rest
  | '\r' :: '\n' :: rest => some rest
  | _ => none

def readBasic : List Char → Option (List Char × List Char)
  | [] => none
  | '"' :: rest => some ([], rest)
  | '\\' :: 'u' :: a :: b :: c :: d :: rest =>
    (codePoint? [a, b, c, d]).bind fun x => push x (readBasic rest)
  | '\\' :: 'U' :: a :: b :: c :: d :: e :: f :: g :: h :: rest =>
    (codePoint? [a, b, c, d, e, f, g, h]).bind fun x => push x (readBasic rest)
  | '\\' :: c :: rest => (unescape? c).bind fun x => push x (readBasic rest)
  | c :: rest => if isControl c then none else push c (readBasic rest)

def readLiteral : List Char → Option (List Char × List Char)
  | [] => none
  | c :: rest =>
    if c = apostrophe then some ([], rest)
    else if isControl c then none
    else push c (readLiteral rest)

/-- The rest of a string between triple quotes; with `trim`, without the blanks and line breaks
    in front of it. -/
def readMultiBasic (trim : Bool) : List Char → Option (List Char × List Char)
  | [] => none
  | '\n' :: rest =>
    if trim then readMultiBasic true rest else push '\n' (readMultiBasic false rest)
  | '\r' :: '\n' :: rest =>
    if trim then readMultiBasic true rest else push '\n' (readMultiBasic false rest)
  -- up to two quotes may stand right in front of the closing three
  | '"' :: '"' :: '"' :: '"' :: '"' :: rest => some (['"', '"'], rest)
  | '"' :: '"' :: '"' :: '"' :: rest => some (['"'], rest)
  | '"' :: '"' :: '"' :: rest => some ([], rest)
  | '\\' :: 'u' :: a :: b :: c :: d :: rest =>
    (codePoint? [a, b, c, d]).bind fun x => push x (readMultiBasic false rest)
  | '\\' :: 'U' :: a :: b :: c :: d :: e :: f :: g :: h :: rest =>
    (codePoint? [a, b, c, d, e, f, g, h]).bind fun x => push x (readMultiBasic false rest)
  | '\\' :: c :: rest =>
    match unescape? c with
    | some x => push x (readMultiBasic false rest)
    | none =>
      -- a backslash may also end its line, blanks aside
      if (newLine? ((c :: rest).dropWhile isBlank)).isSome then readMultiBasic true rest
      else none
  | c :: rest =>
    if trim && isBlank c then readMultiBasic true rest
    else if isControl c then none
    else push c (readMultiBasic false rest)

def readMultiLiteral : List Char → Option (List Char × List Char)
  | [] => none
  | '\n' :: rest => push '\n' (readMultiLiteral rest)
  | '\r' :: '\n' :: rest => push '\n' (readMultiLiteral rest)
  | '\x27' :: '\x27' :: '\x27' :: '\x27' :: '\x27' :: rest => some (['\x27', '\x27'], rest)
  | '\x27' :: '\x27' :: '\x27' :: '\x27' :: rest => some (['\x27'], rest)
  | '\x27' :: '\x27' :: '\x27' :: rest => some ([], rest)
  | c :: rest => if isControl c then none else push c (readMultiLiteral rest)

/-- Behind three quotes a line break is no part of the text. -/
def skipNewLine (text : List Char) : List Char := (newLine? text).getD text

/-- A string on one line, as it may stand in a key. -/
def readLine? : List Char → Option (List Char × List Char)
  | '"' :: rest => readBasic rest
  | '\x27' :: rest => readLiteral rest
  | _ => none

def read? : List Char → Option (List Char × List Char)
  | '"' :: '"' :: '"' :: rest => readMultiBasic false (skipNewLine rest)
  | '\x27' :: '\x27' :: '\x27' :: rest => readMultiLiteral (skipNewLine rest)
  | text => readLine? text

/-! ### Writing -/

inductive Form where
  | basic
  | literal
  | multiBasic
  | multiLiteral
deriving DecidableEq, Repr

/-- The length of the longest run of `q`, when `run` of them stand in front of the text. -/
def longestRun (q : Char) (run : Nat) : List Char → Nat
  | [] => run
  | c :: rest => if c = q then longestRun q (run + 1) rest else max run (longestRun q 0 rest)

def Form.of (text : List Char) : Form :=
  let coded := text.any fun c => isControl c && c ≠ '\n'
  let broken := text.contains '\n'
  let escaping := text.contains '\\'
  let quotes := longestRun '"' 0 text
  let apostrophes := longestRun apostrophe 0 text
  if !coded && !broken && !escaping && quotes = 0 then .basic
  else if !coded && !broken && apostrophes = 0 then .literal
  else if !coded && !escaping && quotes ≤ 2 then .multiBasic
  else if !coded && apostrophes ≤ 2 then .multiLiteral
  else if broken then .multiBasic
  else .basic

def hexChar (n : Nat) : Char :=
  if n < 10 then Char.ofNat ('0'.toNat + n) else Char.ofNat ('A'.toNat + (n - 10))

def escape (c : Char) : List Char :=
  if c = '"' then ['\\', '"']
  else if c = '\\' then ['\\', '\\']
  else if c = '\x08' then ['\\', 'b']
  else if c = '\t' then ['\\', 't']
  else if c = '\n' then ['\\', 'n']
  else if c = '\x0c' then ['\\', 'f']
  else if c = '\r' then ['\\', 'r']
  else if isControl c then
    ['\\', 'u', '0', '0', hexChar (c.toNat / 16), hexChar (c.toNat % 16)]
  else [c]

/-- A text between triple quotes, behind `run` quotes. -/
def escapeMulti (run : Nat) : List Char → List Char
  | [] => []
  | c :: rest =>
    if c = '"' then
      -- three quotes in a row would end the text
      if run < 2 then '"' :: escapeMulti (run + 1) rest
      else '\\' :: '"' :: escapeMulti 0 rest
    else if c = '\n' then '\n' :: escapeMulti 0 rest
    else escape c ++ escapeMulti 0 rest

/-- A text with line breaks starts on a line of its own. -/
def firstBreak (text : List Char) : List Char := if text.contains '\n' then ['\n'] else []

def writeAs (text : List Char) : Form → List Char
  | .basic => '"' :: (text.flatMap escape ++ ['"'])
  | .literal => apostrophe :: (text ++ [apostrophe])
  | .multiBasic =>
    ['"', '"', '"'] ++ firstBreak text ++ escapeMulti 0 text ++ ['"', '"', '"']
  | .multiLiteral =>
    List.replicate 3 apostrophe ++ firstBreak text ++ text ++ List.replicate 3 apostrophe

def write (text : List Char) : List Char := writeAs text (.of text)

end DynamicQuorum.Toml.Quoted
