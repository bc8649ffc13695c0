/-
  DynamicQuorum/Toml/Page.lean
  ============================
  **Writing TOML documents.**

  A page is a document of a simple shape: entries, then tables of entries, each under its header
  and with an empty line in front.  Its keys need no quotes.
-/
import DynamicQuorum.Toml.Document

namespace DynamicQuorum.Toml

inductive Scalar where
  | string (text : String)
  | natural (value : Nat)
  | boolean (value : Bool)
deriving DecidableEq, Repr

namespace Scalar

def toValue : Scalar → Value
  | .string text => .string text
  | .natural value => .integer value
  | .boolean value => .boolean value

def render : Scalar → List Char
  | .string text => Quoted.write text.toList
  | .natural value => Nat.toDigits 10 value
  | .boolean true => ['t', 'r', 'u', 'e']
  | .boolean false => ['f', 'a', 'l', 's', 'e']

end Scalar

structure Page where
  entries : List (String × Scalar)
  tables : List (String × List (String × Scalar))
deriving DecidableEq, Repr

namespace Page

def renderEntry (entry : String × Scalar) : List Char :=
  entry.1.toList ++ [' ', '=', ' '] ++ entry.2.render ++ ['\n']

def renderTable (table : String × List (String × Scalar)) : List Char :=
  ['\n', '['] ++ table.1.toList ++ [']', '\n'] ++ table.2.flatMap renderEntry

def render (page : Page) : List Char :=
  page.entries.flatMap renderEntry ++ page.tables.flatMap renderTable

def toText (page : Page) : String := String.ofList page.render

/-- The entries with the values that are read back. -/
def values (entries : List (String × Scalar)) : Entries :=
  entries.map fun e => (e.1, e.2.toValue)

def toEntries (page : Page) : Entries :=
  values page.entries ++ page.tables.map fun t => (t.1, .table .header (values t.2))

end Page

end DynamicQuorum.Toml
