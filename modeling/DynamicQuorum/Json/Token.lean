/-
  DynamicQuorum/Json/Token.lean
  =============================
  **The tokens of JSON text.**

  `Token.scan` is an automaton that takes one character at a time.  Text that is no token
  ends the scan with `bad`.  A string may hold escapes that name half of a surrogate pair;
  such a string is well formed but has no text, and whether that matters is for the
  reader of the value to decide.
-/
import DynamicQuorum.Json.Number

namespace DynamicQuorum.Json

/-- A token; `string none` is a string with half of a surrogate pair. -/
inductive Token where
  | openBracket
  | closeBracket
  | openBrace
  | closeBrace
  | comma
  | colon
  | null
  | bool (value : Bool)
  | number (value : Number)
  | string (value : Option String)
  | bad
deriving DecidableEq, Repr, Inhabited

namespace Token

/-! ### Numerals -/

/-- Where in a numeral the scan stands.  A leading zero ends the whole part; the mark is the letter
    of the exponent. -/
inductive NumeralPhase where
  | sign
  | zero
  | whole
  | point
  | fraction
  | mark
  | markSign
  | exponent
deriving DecidableEq, Repr

def NumeralPhase.isFinal : NumeralPhase → Bool
  | .zero | .whole | .fraction | .exponent => true
  | _ => false

/-- What a character does to a numeral; when it is done, the character stands behind it. -/
inductive NumeralStep where
  | continue (phase : NumeralPhase) (value : Number)
  | done
  | bad
deriving Repr

def addExponentDigit (value : Number) (d : Nat) : Number :=
  { value with exponent := value.exponent.map fun e => (e.1, e.2 ++ [d]) }

def numeralStep (value : Number) (c : Char) (phase : NumeralPhase) : NumeralStep :=
  let digit := c.toNat - '0'.toNat
  let isMark : Bool := c = 'e' ∨ c = 'E'
  let toWhole := { value with whole := value.whole ++ [digit] }
  let toFraction := { value with fraction := value.fraction ++ [digit] }
  let toMark := { value with exponent := some (false, []) }
  match phase with
  | .sign =>
    if c = '0' then .continue .zero toWhole
    else if c.isDigit then .continue .whole toWhole else .bad
  | .zero =>
    if c.isDigit then .bad
    else if c = '.' then .continue .point value
    else if isMark then .continue .mark toMark else .done
  | .whole =>
    if c.isDigit then .continue .whole toWhole
    else if c = '.' then .continue .point value
    else if isMark then .continue .mark toMark else .done
  | .point => if c.isDigit then .continue .fraction toFraction else .bad
  | .fraction =>
    if c.isDigit then .continue .fraction toFraction
    else if isMark then .continue .mark toMark else .done
  | .mark =>
    if c.isDigit then .continue .exponent (addExponentDigit toMark digit)
    else if c = '+' then .continue .markSign toMark
    else if c = '-' then .continue .markSign { value with exponent := some (true, []) }
    else .bad
  | .markSign =>
    if c.isDigit then .continue .exponent (addExponentDigit value digit) else .bad
  | .exponent =>
    if c.isDigit then .continue .exponent (addExponentDigit value digit) else .done

/-! ### Strings -/

/-- Where in an escape the scan stands; behind `\u` it counts hexadecimal digits. -/
inductive EscapePhase where
  | none
  | backslash
  | hex (count value : Nat)
deriving DecidableEq, Repr

/-- A string as far as it was read, last character first.  `pending` is a first half of a surrogate
    pair whose second half may follow; it is `paired` if no half was left alone. -/
structure StringScan where
  text : List Char := []
  paired : Bool := true
  pending : Option Nat := none
  escape : EscapePhase := .none
deriving Repr

/-- Add a character.  A first half in front of it was left alone. -/
def StringScan.push (s : StringScan) (c : Char) : StringScan :=
  { text := c :: s.text, paired := s.paired && s.pending.isNone }

def isFirstHalf (code : Nat) : Bool := 0xD800 ≤ code && code < 0xDC00
def isSecondHalf (code : Nat) : Bool := 0xDC00 ≤ code && code < 0xE000

/-- Add a code unit named by an escape. -/
def StringScan.pushCode (s : StringScan) (code : Nat) : StringScan :=
  match s.pending with
  | some first =>
    if isSecondHalf code then
      { text := Char.ofNat (0x10000 + (first - 0xD800) * 0x400 + (code - 0xDC00)) :: s.text
        paired := s.paired }
    -- a half that is left alone leaves the whole string without a text
    else { text := s.text, paired := false }
  | none =>
    if isFirstHalf code then { text := s.text, paired := s.paired, pending := some code }
    else if isSecondHalf code then { text := s.text, paired := false }
    else { text := Char.ofNat code :: s.text, paired := s.paired }

def StringScan.result (s : StringScan) : Token :=
  if s.paired && s.pending.isNone then .string (some (String.ofList s.text.reverse))
  else .string none

def hexValue? (c : Char) : Option Nat :=
  if '0' ≤ c ∧ c ≤ '9' then some (c.toNat - '0'.toNat)
  else if 'a' ≤ c ∧ c ≤ 'f' then some (c.toNat - 'a'.toNat + 10)
  else if 'A' ≤ c ∧ c ≤ 'F' then some (c.toNat - 'A'.toNat + 10)
  else none

/-- The character that a letter behind a backslash stands for. -/
def unescape? (c : Char) : Option Char :=
  match c with
  | '"' => some '"'
  | '\\' => some '\\'
  | '/' => some '/'
  | 'b' => some '\x08'
  | 'f' => some '\x0c'
  | 'n' => some '\n'
  | 'r' => some '\r'
  | 't' => some '\t'
  | _ => none

/-! ### The automaton -/

/-- What the scan stands in; of a word, `rest` has to follow. -/
inductive Mode where
  | idle
  | word (rest : List Char) (token : Token)
  | numeral (phase : NumeralPhase) (value : Number)
  | string (s : StringScan)
deriving Repr

def isBlank (c : Char) : Bool := c = ' ' || c = '\n' || c = '\t' || c = '\r'

def start? (c : Char) : Option (List Token × Mode) :=
  if isBlank c then some ([], .idle)
  else if c.isDigit then
    let value : Number := ⟨false, [c.toNat - '0'.toNat], [], none⟩
    some ([], .numeral (if c = '0' then .zero else .whole) value)
  else
    match c with
    | '[' => some ([.openBracket], .idle)
    | ']' => some ([.closeBracket], .idle)
    | '\x7b' => some ([.openBrace], .idle)
    | '\x7d' => some ([.closeBrace], .idle)
    | ',' => some ([.comma], .idle)
    | ':' => some ([.colon], .idle)
    | 'n' => some ([], .word ['u', 'l', 'l'] .null)
    | 't' => some ([], .word ['r', 'u', 'e'] (.bool true))
    | 'f' => some ([], .word ['a', 'l', 's', 'e'] (.bool false))
    | '-' => some ([], .numeral .sign ⟨true, [], [], none⟩)
    | '"' => some ([], .string {})
    | _ => none

/-- One more character: the tokens that it completes, and what is read from then on. -/
def step? (c : Char) : Mode → Option (List Token × Mode)
  | .idle => start? c
  | .word [] _ => none
  | .word [last] token => if c = last then some ([token], .idle) else none
  | .word (next :: rest) token => if c = next then some ([], .word rest token) else none
  | .numeral phase value =>
    match numeralStep value c phase with
    | .continue phase value => some ([], .numeral phase value)
    | .done => (start? c).map fun r => (.number value :: r.1, r.2)
    | .bad => none
  | .string s =>
    match s.escape with
    | .none =>
      if c = '"' then some ([s.result], .idle)
      else if c = '\\' then some ([], .string { s with escape := .backslash })
      else if c < ' ' then none
      else some ([], .string (s.push c))
    | .backslash =>
      if c = 'u' then some ([], .string { s with escape := .hex 0 0 })
      else (unescape? c).map fun c => ([], .string ({ s with escape := .none }.push c))
    | .hex count value =>
      match hexValue? c with
      | none => none
      | some d =>
        if count < 3 then some ([], .string { s with escape := .hex (count + 1) (value * 16 + d) })
        else some ([], .string ({ s with escape := .none }.pushCode (value * 16 + d)))

def finish : Mode → List Token
  | .idle => []
  | .numeral phase value => if phase.isFinal then [.number value] else [.bad]
  | _ => [.bad]

/-- The tokens left when the text breaks off before the character `c`. -/
def breakBefore (c : Char) : Mode → List Token
  | .numeral phase value =>
    match numeralStep value c phase with
    -- the numeral ends there, and is a token still
    | .done => [.number value, .bad]
    | _ => [.bad]
  | _ => [.bad]

/-- The tokens of a text of which the first part was read already: `done` holds its tokens, last
    first, and `mode` what was being read when it ended. -/
def scan (done : List Token) : Mode → List Char → List Token
  | mode, [] => done.reverse ++ finish mode
  | mode, c :: rest =>
    match step? c mode with
    | some (tokens, mode) => scan (tokens.reverseAux done) mode rest
    | none => done.reverse ++ breakBefore c mode

def ofText (text : List Char) : List Token := scan [] .idle text

/-! ### Writing tokens -/

def hexChar (n : Nat) : Char :=
  if n < 10 then Char.ofNat ('0'.toNat + n) else Char.ofNat ('a'.toNat + (n - 10))

/-- A character inside a string: quotes, backslashes and controls are escaped. -/
def escape (c : Char) : List Char :=
  match c with
  | '"' => ['\\', '"']
  | '\\' => ['\\', '\\']
  | '\x08' => ['\\', 'b']
  | '\x0c' => ['\\', 'f']
  | '\n' => ['\\', 'n']
  | '\r' => ['\\', 'r']
  | '\t' => ['\\', 't']
  | c =>
    if c < ' ' then ['\\', 'u', '0', '0', hexChar (c.toNat / 16), hexChar (c.toNat % 16)]
    else [c]

def quote (text : List Char) : List Char := '"' :: (text.flatMap escape ++ ['"'])

end Token

end DynamicQuorum.Json
