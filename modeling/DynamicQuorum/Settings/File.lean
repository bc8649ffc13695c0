/-
  DynamicQuorum/Settings/File.lean
  ================================
  **The file in which settings are kept.**

  The file is a TOML document with at most four entries of its own; others are skipped, and what
  is absent keeps its standard value.  The quorum is a table that must be complete and whose
  bounds must be in order; an array of the same values in the same order will do, too.
  Entries are looked at in the order in which they stand, and the first fault counts.
-/
import DynamicQuorum.Settings.Basic
import DynamicQuorum.Toml.Page

namespace DynamicQuorum

open Toml (Value Entries Scalar Page)

namespace Settings

/-- A file that is no document or has a value of a wrong kind is malformed; a value of the right
    kind may be refused. -/
inductive FileError where
  | malformed
  | refused (cause : GovernanceError)
deriving DecidableEq, Repr

def FileError.message : FileError → String
  | .malformed => "data"
  | .refused cause => cause.message

/-! ### Reading -/

structure QuorumDraft where
  minBps : Option BasisPoints := none
  maxBps : Option BasisPoints := none
  coefficient : Option Word256 := none
deriving DecidableEq, Repr

/-- A ratio is given as a 32-bit number. -/
def bpsOfValue : Value → Except FileError BasisPoints
  | .integer (.ofNat n) =>
    if n < UInt32.size then
      match BasisPoints.ofUInt32 (.ofNat n) with
      | .ok bps => .ok bps
      | .error cause => .error (.refused (.value cause))
    else .error .malformed
  | _ => .error .malformed

/-- A word is given as a numeral in a string, or as a number. -/
def wordOfValue : Value → Except FileError Word256
  | .integer (.ofNat n) => .ok (.ofNat n)
  | .string text =>
    match Word256.ofString text with
    | .ok word => .ok word
    | .error cause => .error (.refused (.value cause))
  | _ => .error .malformed

namespace QuorumDraft

def addMin (q : QuorumDraft) (v : Value) : Except FileError QuorumDraft :=
  (bpsOfValue v).map fun bps => { q with minBps := some bps }

def addMax (q : QuorumDraft) (v : Value) : Except FileError QuorumDraft :=
  (bpsOfValue v).map fun bps => { q with maxBps := some bps }

def addCoefficient (q : QuorumDraft) (v : Value) : Except FileError QuorumDraft :=
  (wordOfValue v).map fun word => { q with coefficient := some word }

def addEntry (q : QuorumDraft) (entry : String × Value) : Except FileError QuorumDraft :=
  if entry.1 = "min_quorum_votes_bps" then q.addMin entry.2
  else if entry.1 = "max_quorum_votes_bps" then q.addMax entry.2
  else if entry.1 = "quorum_coefficient" then q.addCoefficient entry.2
  else .ok q

def finish (q : QuorumDraft) : Except FileError QuorumParams :=
  match q with
  | ⟨some minBps, some maxBps, some coefficient⟩ =>
    match QuorumParams.make minBps maxBps coefficient with
    | .ok params => .ok params
    | .error cause => .error (.refused cause)
  | _ => .error .malformed

end QuorumDraft

def quorumOfValue : Value → Except FileError QuorumParams
  | .table _ entries => do
    let q ← entries.foldlM QuorumDraft.addEntry {}
    q.finish
  -- items are taken in the order of the fields, and those behind the last field are dropped
  | .array items => do
    let adders := [QuorumDraft.addMin, QuorumDraft.addMax, QuorumDraft.addCoefficient]
    let q ← (items.zip adders).foldlM (fun q item => item.2 q item.1) {}
    q.finish
  | _ => .error .malformed

def addEntry (s : Settings) (entry : String × Value) : Except FileError Settings :=
  if entry.1 = "log_level" then
    match entry.2 with
    | .string text => .ok { s with logLevel := text }
    | _ => .error .malformed
  else if entry.1 = "json_logs" then
    match entry.2 with
    | .boolean b => .ok { s with jsonLogs := b }
    | _ => .error .malformed
  else if entry.1 = "dao_v3" then
    match entry.2 with
    | .boolean b => .ok { s with daoV3 := b }
    | _ => .error .malformed
  else if entry.1 = "quorum" then
    (quorumOfValue entry.2).map fun params => { s with quorum := params }
  else .ok s

def ofEntries (entries : Entries) : Except FileError Settings := entries.foldlM addEntry standard

def ofText (text : String) : Except FileError Settings :=
  match Toml.readDocument? text with
  | some entries => ofEntries entries
  | none => .error .malformed

/-! ### Writing -/

def quorumEntries (p : QuorumParams) : List (String × Scalar) :=
  [("min_quorum_votes_bps", .natural p.minBps.toNat),
   ("max_quorum_votes_bps", .natural p.maxBps.toNat),
   ("quorum_coefficient", .string p.coefficient.toDecimal)]

def toPage (s : Settings) : Page where
  entries :=
    [("log_level", .string s.logLevel), ("json_logs", .boolean s.jsonLogs),
     ("dao_v3", .boolean s.daoV3)]
  tables := [("quorum", quorumEntries s.quorum)]

def toText (s : Settings) : String := s.toPage.toText

end Settings

end DynamicQuorum
