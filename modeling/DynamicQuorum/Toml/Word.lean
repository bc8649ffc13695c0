/-
  DynamicQuorum/Toml/Word.lean
  ============================
  **Values that are a single word: truth values, numbers and dates.**

  A word is classified as a whole.  Integers are decimal, or hexadecimal, octal or binary behind
  `0x`, `0o` or `0b`, and fit 64 bits with their sign; single underscores may stand between
  the digits.  A float must not be larger than every number of double precision.  A date has
  to be one of the calendar.
-/
import DynamicQuorum.Text.DoubleRange
import DynamicQuorum.Toml.Quoted
import DynamicQuorum.Toml.Value

namespace DynamicQuorum.Toml.Word

/-! ### Numbers -/

def splitSign : List Char → Bool × List Char
  | '+' :: rest => (false, rest)
  | '-' :: rest => (true, rest)
  | text => (false, text)

/-- More digits, each with at most one underscore in front, and the text behind them. -/
def moreDigits (isDigit : Char → Bool) : List Char → List Char × List Char
  | '_' :: d :: rest =>
    if isDigit d then
      let more := moreDigits isDigit rest
      (d :: more.1, more.2)
    else ([], '_' :: d :: rest)
  | d :: rest =>
    if isDigit d then
      let more := moreDigits isDigit rest
      (d :: more.1, more.2)
    else ([], d :: rest)
  | [] => ([], [])

/-- Digits and the text behind them; there may be none. -/
def digits (isDigit : Char → Bool) : List Char → List Char × List Char
  | [] => ([], [])
  | d :: rest => if isDigit d then moreDigits isDigit (d :: rest) else ([], d :: rest)

def isDigitOf (base : Nat) (c : Char) : Bool := (Quoted.hexDigit? c).any (· < base)

def numeral (base : Nat) (ds : List Char) : Nat :=
  ds.foldl (fun acc c => acc * base + (Quoted.hexDigit? c).getD 0) 0

/-- Digits of a decimal whole number: no zero in front of others. -/
def isWhole : List Char → Bool
  | [] => false
  | ['0'] => true
  | '0' :: _ => false
  | _ => true

/-- Integers are below this number, and not below its negative: `2 ^ 63`. -/
def integerLimit : Nat := UInt64.size / 2

/-- A natural number in a base that was named in front. -/
def based (base : Nat) (text : List Char) : Option Int :=
  let (ds, rest) := digits (isDigitOf base) text
  if ds ≠ [] ∧ rest = [] ∧ numeral base ds < integerLimit then some (numeral base ds) else none

def decimal (text : List Char) : Option Int :=
  let (negative, unsigned) := splitSign text
  let (ds, rest) := digits (isDigitOf 10) unsigned
  let n := numeral 10 ds
  if isWhole ds ∧ rest = [] then
    if negative then (if n ≤ integerLimit then some (-(n : Int)) else none)
    else if n < integerLimit then some n else none
  else none

def integer : List Char → Option Int
  | '0' :: 'x' :: text => based 16 text
  | '0' :: 'o' :: text => based 8 text
  | '0' :: 'b' :: text => based 2 text
  | text => decimal text

/-- The number `significand * 10 ^ exponent` is too large for double precision. -/
def isTooLarge (significand : Nat) (exponent : Int) : Bool :=
  -- the powers are worked out only for a number with 309 digits in front of the point
  let places := (Nat.toDigits 10 significand).length + exponent
  if significand = 0 ∨ places < 309 then false
  else if 309 < places then true
  else if 0 ≤ exponent then Text.doubleLimit ≤ significand * Nat.pow 10 exponent.toNat
  else Text.doubleLimit * Nat.pow 10 (-exponent).toNat ≤ significand

/-- The fraction behind the whole part: its digits, and the text behind them. -/
def fraction? : List Char → Option (List Char × List Char)
  | '.' :: text =>
    let (ds, rest) := digits (isDigitOf 10) text
    if ds = [] then none else some (ds, rest)
  | text => some ([], text)

def exponent? : List Char → Option Int
  | [] => some 0
  | mark :: text =>
    if mark = 'e' ∨ mark = 'E' then
      let (negative, unsigned) := splitSign text
      let (ds, rest) := digits (isDigitOf 10) unsigned
      if ds ≠ [] ∧ rest = [] then
        some (if negative then -(numeral 10 ds : Int) else numeral 10 ds)
      else none
    else none

def isFloat (text : List Char) : Bool :=
  let (negative, unsigned) := splitSign text
  if unsigned = ['i', 'n', 'f'] ∨ unsigned = ['n', 'a', 'n'] then true
  else
    let (whole, rest) := digits (isDigitOf 10) unsigned
    if isWhole whole ∧ rest ≠ [] then
      match fraction? rest with
      | none => false
      | some (fraction, rest) =>
        match exponent? rest with
        | none => false
        | some exponent =>
          negative || !isTooLarge (numeral 10 (whole ++ fraction)) (exponent - fraction.length)
    else false

/-! ### Dates -/

/-- A number of exactly `count` digits, at least `low` and at most `high`, and the text behind
    it. -/
def field? (count low high : Nat) (text : List Char) : Option (Nat × List Char) :=
  let ds := text.take count
  let n := numeral 10 ds
  if ds.length = count ∧ ds.all Char.isDigit ∧ low ≤ n ∧ n ≤ high then some (n, text.drop count)
  else none

/-- The text behind a character that has to be there. -/
def behind? (c : Char) : List Char → Option (List Char)
  | d :: rest => if d = c then some rest else none
  | [] => none

def isLeapYear (year : Nat) : Bool := year % 4 = 0 && (year % 100 ≠ 0 || year % 400 = 0)

def daysIn (year month : Nat) : Nat :=
  if month = 2 then (if isLeapYear year then 29 else 28)
  else if month = 4 ∨ month = 6 ∨ month = 9 ∨ month = 11 then 30
  else 31

def day? (text : List Char) : Option (List Char) := do
  let (year, rest) ← field? 4 0 9999 text
  let rest ← behind? '-' rest
  let (month, rest) ← field? 2 1 12 rest
  let rest ← behind? '-' rest
  let (_, rest) ← field? 2 1 (daysIn year month) rest
  return rest

def time? (text : List Char) : Option (List Char) := do
  let (_, rest) ← field? 2 0 23 text
  let rest ← behind? ':' rest
  let (_, rest) ← field? 2 0 59 rest
  let rest ← behind? ':' rest
  -- a leap second is the sixtieth
  let (_, rest) ← field? 2 0 60 rest
  match rest with
  | '.' :: fraction =>
    if fraction.takeWhile Char.isDigit = [] then none
    else some (fraction.dropWhile Char.isDigit)
  | rest => some rest

/-- The text is the distance from universal time, or empty. -/
def isOffset (text : List Char) : Bool :=
  match text with
  | [] => true
  | ['Z'] => true
  | ['z'] => true
  | sign :: text =>
    (sign = '+' || sign = '-') &&
      (do
        let (_, rest) ← field? 2 0 23 text
        let rest ← behind? ':' rest
        let (_, rest) ← field? 2 0 59 rest
        return rest : Option (List Char)) = some []

def isDate (text : List Char) : Bool :=
  time? text = some [] ||
    match day? text with
    | some [] => true
    | some (mark :: rest) =>
      (mark = 'T' || mark = 't' || mark = ' ') && ((time? rest).any isOffset)
    | none => false

/-! ### Words -/

def isWordChar (c : Char) : Bool :=
  c.isAlphanum || c = '+' || c = '-' || c = '_' || c = '.' || c = ':'

def classify (word : List Char) : Option Value :=
  if word = ['t', 'r', 'u', 'e'] then some (.boolean true)
  else if word = ['f', 'a', 'l', 's', 'e'] then some (.boolean false)
  else if isDate word then some (.date (String.ofList word))
  else if isFloat word then some (.float (String.ofList word))
  else (integer word).map .integer

/-- A word and the text behind it. -/
def split (text : List Char) : List Char × List Char :=
  let word := text.takeWhile isWordChar
  match day? word, text.dropWhile isWordChar with
  -- a time may stand behind the day, with a blank between them
  | some [], ' ' :: d :: rest =>
    if d.isDigit then
      (word ++ ' ' :: (d :: rest).takeWhile isWordChar, (d :: rest).dropWhile isWordChar)
    else (word, ' ' :: d :: rest)
  | _, rest => (word, rest)

def read? (text : List Char) : Option (Value × List Char) :=
  let (word, rest) := split text
  (classify word).map fun value => (value, rest)

end DynamicQuorum.Toml.Word
