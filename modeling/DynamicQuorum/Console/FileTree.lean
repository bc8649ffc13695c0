/-
  DynamicQuorum/Console/FileTree.lean
  ===================================
  **Files and folders.**

  A tree holds the files that commands read and write.  A path is followed name by name from the
  top: every name but the last has to lead to a folder, a dot stays where it is, and two dots
  lead back up.  What goes wrong is told by the first name at which it does.
-/
import DynamicQuorum.Text.Split

namespace DynamicQuorum

inductive IoError where
  | notFound
  | notADirectory
  | isADirectory
  | alreadyExists
  | nameTooLong
  | nullCharacter
deriving DecidableEq, Repr

def IoError.message : IoError → String
  | .notFound => "No such file or directory (os error 2)"
  | .notADirectory => "Not a directory (os error 20)"
  | .isADirectory => "Is a directory (os error 21)"
  | .alreadyExists => "File exists (os error 17)"
  | .nameTooLong => "File name too long (os error 36)"
  | .nullCharacter => "file name contained an unexpected NUL byte"

/-- A place in a tree: the names that lead to it from the top. -/
abbrev Location := List String

/-! ### Paths -/

/-- What stands behind the last name of a path.  With a slash the name can only be that of a
    folder; with a dot it is followed, and has to lead to one. -/
inductive PathEnding where
  | nothing
  | slash
  | dot
deriving DecidableEq, Repr

structure Path where
  names : List String
  ending : PathEnding
deriving DecidableEq, Repr

namespace Path

/-- The path of a text.  One that starts with a slash starts at the folder of that name. -/
def ofString (text : String) : Path :=
  let parts := (Text.splitOn '/' text.toList).map String.ofList
  let names := parts.filter fun part => part ≠ "" && part ≠ "."
  { names := if text.toList.head? = some '/' then "/" :: names else names
    ending :=
      if (parts.filter (· ≠ "")).getLast? = some "." then .dot
      else if parts.getLast? = some "" then .slash
      else .nothing }

def parent (p : Path) : List String := p.names.dropLast

end Path

namespace Location

/-- One level up.  The top has nothing above it. -/
def up : Location → Location
  | ["/"] => ["/"]
  | place => place.dropLast

/-- The bytes of the names, and of the slashes between them; the top slash has no name in front
    of it. -/
def size (place : Location) : Nat :=
  (place.filter (· ≠ "/")).foldr (fun name bytes => name.utf8ByteSize + bytes) (place.length - 1)

end Location

/-! ### Trees -/

/-- The folders, besides the one at the top, and the files with their contents. -/
structure FileTree where
  folders : List Location
  files : List (Location × String)
deriving DecidableEq, Repr

namespace FileTree

def empty : FileTree := ⟨[], []⟩

instance : Inhabited FileTree := ⟨empty⟩

def longestName : Nat := 255

def longestPath : Nat := 4095

def checkNames (names : List String) : Except IoError Unit :=
  if names.any (·.toList.contains '\x00') then .error .nullCharacter
  else if longestPath < Location.size names then .error .nameTooLong
  else .ok ()

def content? (t : FileTree) (place : Location) : Option String :=
  (t.files.find? (·.1 = place)).map (·.2)

def isFile (t : FileTree) (place : Location) : Bool := (t.content? place).isSome

def isFolder (t : FileTree) (place : Location) : Bool :=
  place.isEmpty || place = ["/"] || place ∈ t.folders

def checkFolder (t : FileTree) (place : Location) : Except IoError Unit :=
  if t.isFile place then .error .notADirectory
  else if t.isFolder place then .ok ()
  else .error .notFound

/-- The place to which names lead from another one. -/
def follow (t : FileTree) (place : Location) : List String → Except IoError Location
  | [] => .ok place
  | name :: names => do
    t.checkFolder place
    if name = ".." then t.follow (Location.up place) names
    else if longestName < name.utf8ByteSize then throw .nameTooLong
    else t.follow (place ++ [name]) names

def locate (t : FileTree) (p : Path) : Except IoError Location := do
  checkNames p.names
  t.follow [] p.names

def put (t : FileTree) (place : Location) (content : String) : FileTree :=
  { t with files := t.files.filter (·.1 ≠ place) ++ [(place, content)] }

def addFolder (t : FileTree) (place : Location) : FileTree :=
  if t.isFolder place then t else { t with folders := t.folders ++ [place] }

/-- Make the folders to which names lead from a place, as far as they are missing. -/
def makeFolders (t : FileTree) (place : Location) :
    List String → FileTree × Except IoError Unit
  | [] => (t, .ok ())
  | name :: names =>
    if name = ".." then t.makeFolders (Location.up place) names
    else if longestName < name.utf8ByteSize then (t, .error .nameTooLong)
    else if t.isFile (place ++ [name]) then
      (t, .error (if names.isEmpty then .alreadyExists else .notADirectory))
    else (t.addFolder (place ++ [name])).makeFolders (place ++ [name]) names

/-- Make the folders of the names, from the top. -/
def createFolders (t : FileTree) (names : List String) : FileTree × Except IoError Unit :=
  match checkNames names with
  | .ok () => t.makeFolders [] names
  | .error cause => (t, .error cause)

def contains (t : FileTree) (p : Path) : Bool :=
  match t.locate p with
  | .ok place => t.isFolder place || (t.isFile place && p.ending = .nothing)
  | .error _ => false

def read (t : FileTree) (p : Path) : Except IoError String := do
  let place ← t.locate p
  match t.content? place with
  | some content => if p.ending = .nothing then return content else throw .notADirectory
  | none => throw (if t.isFolder place then .isADirectory else .notFound)

/-- Write the file at a path; its folder has to exist. -/
def write (t : FileTree) (p : Path) (content : String) : Except IoError FileTree := do
  match p.ending with
  | .slash =>
    checkNames p.names
    let folder ← t.follow [] p.parent
    t.checkFolder folder
    -- the last name itself is not looked at
    throw .isADirectory
  | .dot =>
    let place ← t.locate p
    t.checkFolder place
    throw .isADirectory
  | .nothing =>
    let place ← t.locate p
    if t.isFolder place then throw .isADirectory else return t.put place content

/-- The files that are not as they were. -/
def changedSince (t before : FileTree) : List (Location × String) :=
  t.files.filter fun file => before.content? file.1 ≠ some file.2

end FileTree

end DynamicQuorum
