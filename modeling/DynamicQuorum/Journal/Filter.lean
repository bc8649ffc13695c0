/-
  DynamicQuorum/Journal/Filter.lean
  =================================
  **Which notes are kept.**

  A filter is a list of directives between commas.  For a note, the most specific of the
  directives about it decides; if there is none, the note is dropped.  The empty filter keeps
  errors only.
-/
import DynamicQuorum.Journal.Directive
import DynamicQuorum.Text.Split

namespace DynamicQuorum

structure Filter where
  directives : List Directive
deriving DecidableEq, Repr

namespace Filter

def ofString (text : String) : Except FilterError Filter := do
  let parts := (Text.splitOn ',' text.toList).filter (!·.isEmpty)
  let directives ← parts.mapM Directive.ofChars
  return ⟨if directives.isEmpty then [{ verbosity := Severity.error.rank }] else directives⟩

/-- The more specific of two directives, the later one of two alike. -/
def choose (best : Option Directive) (d : Directive) : Option Directive :=
  match best with
  | some b => if b.isMoreSpecific d then some b else some d
  | none => some d

def deciding? (f : Filter) (note : Note) : Option Directive :=
  (f.directives.filter fun d => d.decides && d.isAbout note).foldl choose none

def keeps (f : Filter) (note : Note) : Bool :=
  (f.deciding? note).any (note.severity.rank ≤ ·.verbosity)

end Filter

end DynamicQuorum
