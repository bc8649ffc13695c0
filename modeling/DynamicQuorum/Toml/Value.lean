/-
  DynamicQuorum/Toml/Value.lean
  =============================
  **TOML values, and how tables grow.**

  A document says the same table in pieces: under a header, under the headers of tables inside
  it, and by dotted keys.  What may still be added to a table depends on how it came to be, so
  a table carries its origin:

  * a table with a header may not get another one, nor be extended by dotted keys;
  * a table that only the headers inside it imply may get its own header later;
  * a table of dotted keys is extended by dotted keys, but never gets a header;
  * an inline table is complete.

  Entries keep the order in which they were written.
-/

namespace DynamicQuorum.Toml

inductive Origin where
  | header
  | implied
  | dotted
  | inline
deriving DecidableEq, Repr

/-- A value.  Nothing here computes with fractions or with dates, so these stay texts; `tables` are
    those under one header between double brackets. -/
inductive Value where
  | string (text : String)
  | integer (value : Int)
  | boolean (value : Bool)
  | float (text : String)
  | date (text : String)
  | array (items : List Value)
  | table (origin : Origin) (entries : List (String × Value))
  | tables (elements : List (List (String × Value)))
deriving Repr, Inhabited

/-- The keys of a table with their values. -/
abbrev Entries := List (String × Value)

namespace Entries

def find? (entries : Entries) (key : String) : Option Value :=
  (List.find? (·.1 = key) entries).map (·.2)

def replace (entries : Entries) (key : String) (value : Value) : Entries :=
  entries.map fun e => if e.1 = key then (key, value) else e

/-- Change the table at the end of a path; `origin` is that of the table where the path starts.
    The tables that are missing on the way are made in the manner of `making`. -/
def changeAt (making : Origin) (change : Origin → Entries → Option Entries) :
    List String → Origin → Entries → Option Entries
  | [], origin, entries => change origin entries
  | key :: path, _, entries =>
    match entries.find? key with
    | none => do
      let inner ← changeAt making change path making []
      return entries ++ [(key, .table making inner)]
    | some (.table origin inner) =>
      if origin = .inline ∨ (making = .dotted ∧ origin = .header) then none
      else do
        let inner ← changeAt making change path origin inner
        return entries.replace key (.table origin inner)
    | some (.tables elements) =>
      match elements.getLast? with
      | none => none
      | some last => do
        let inner ← changeAt making change path .header last
        return entries.replace key (.tables (elements.dropLast ++ [inner]))
    | some _ => none

def insert (entries : Entries) (path : List String) (key : String) (value : Value) :
    Option Entries :=
  changeAt .dotted (fun origin inner =>
    if path ≠ [] ∧ origin ≠ .dotted then none
    else if (inner.find? key).isSome then none
    else some (inner ++ [(key, value)])) path .header entries

/-- Put the table under a key behind the header of its own. -/
def openTable (entries : Entries) (key : String) : Option Entries :=
  match entries.find? key with
  | none => some (entries ++ [(key, .table .header [])])
  | some (.table .implied inner) =>
    some (entries.filter (·.1 ≠ key) ++ [(key, .table .header inner)])
  | some _ => none

/-- Begin another element of the tables under a key. -/
def openElement (entries : Entries) (key : String) : Option Entries :=
  match entries.find? key with
  | none => some (entries ++ [(key, .tables [[]])])
  | some (.tables elements) => some (entries.replace key (.tables (elements ++ [[]])))
  | some _ => none

end Entries

structure KeyPath where
  path : List String
  key : String
deriving DecidableEq, Repr

inductive Statement where
  | entry (key : KeyPath) (value : Value)
  | tableHeader (key : KeyPath)
  | elementHeader (key : KeyPath)
deriving Repr

/-- A document as far as it was put together, and the table under the last header. -/
structure Assembly where
  root : Entries := []
  current : List String := []
deriving Repr

namespace Assembly

def add (a : Assembly) : Statement → Option Assembly
  | .entry key value => do
    let root ← Entries.changeAt .implied (fun _ inner => inner.insert key.path key.key value)
      a.current .header a.root
    return { a with root := root }
  | .tableHeader key => do
    let root ← Entries.changeAt .implied (fun _ inner => inner.openTable key.key)
      key.path .header a.root
    return ⟨root, key.path ++ [key.key]⟩
  | .elementHeader key => do
    let root ← Entries.changeAt .implied (fun _ inner => inner.openElement key.key)
      key.path .header a.root
    return ⟨root, key.path ++ [key.key]⟩

end Assembly

/-- The entries that the lines of a document make together. -/
def Entries.ofStatements (lines : List Statement) : Option Entries :=
  (lines.foldlM Assembly.add {}).map (·.root)

end DynamicQuorum.Toml
