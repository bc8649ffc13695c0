/-
  DynamicQuorum/Settings/Basic.lean
  =================================
  **Settings that outlive a command.**

  The settings hold how much is logged, whether the governor is of the third version, and the
  quorum parameters of commands that are given none.  They are read and changed under six
  keys.  A change that would invert the bounds of the quorum is refused.

  A change is carried out in place.  The log and the version are written before the bounds are
  checked, so a refusal leaves everything as it was only if the bounds were in order before.
-/
import DynamicQuorum.InPlace
import DynamicQuorum.Quorum.Params
import DynamicQuorum.Text.Natural

namespace DynamicQuorum

/-- What is logged, as filter directives, and whether as JSON lines; whether the governor is of the
    third version; and the parameters of commands that are given none. -/
structure Settings where
  logLevel : String
  jsonLogs : Bool
  daoV3 : Bool
  quorum : QuorumParams
deriving DecidableEq, Repr

/-- A quorum of 10 % that rises to 40 %, by a basis point for each basis point against. -/
def QuorumParams.standard : QuorumParams where
  minBps := ⟨1000, by decide⟩
  maxBps := ⟨4000, by decide⟩
  coefficient := .ofUInt64 coefficientScale

/-- These parameters, except for those that are given; the outcome must be sound. -/
def QuorumParams.overriddenBy (base : QuorumParams) (minBps maxBps : Option UInt16)
    (coefficient : Option Word256) : Except GovernanceError QuorumParams :=
  ofRaw (minBps.getD base.minBps.val) (maxBps.getD base.maxBps.val)
    (coefficient.getD base.coefficient)

namespace Settings

def standard : Settings where
  logLevel := "warn"
  jsonLogs := false
  daoV3 := true
  quorum := .standard

instance : Inhabited Settings := ⟨standard⟩

/-! ### Keys -/

/-- What can be read and changed by name. -/
inductive Key where
  | logLevel
  | jsonLogs
  | daoV3
  | minBps
  | maxBps
  | coefficient
deriving DecidableEq, Repr

namespace Key

def name : Key → String
  | .logLevel => "log_level"
  | .jsonLogs => "json_logs"
  | .daoV3 => "dao_v3"
  | .minBps => "min_bps"
  | .maxBps => "max_bps"
  | .coefficient => "coefficient"

def all : List Key := [.logLevel, .jsonLogs, .daoV3, .minBps, .maxBps, .coefficient]

def ofName? (name : String) : Option Key := all.find? (·.name = name)

end Key

/-- Why a setting was not read or changed. -/
inductive Error where
  | unknownKey (name : String)
  | truthValue
  | natural (cause : Text.NaturalError)
  | governance (cause : GovernanceError)
deriving DecidableEq, Repr

def Error.message : Error → String
  | .unknownKey name => "Unknown config key: " ++ name
  | .truthValue => "provided string was not \x60true\x60 or \x60false\x60"
  | .natural cause => cause.message
  | .governance cause => cause.message

def Key.ofName (name : String) : Except Error Key :=
  match ofName? name with
  | some key => .ok key
  | none => .error (.unknownKey name)

/-! ### Reading values -/

def truthText (b : Bool) : String := if b then "true" else "false"

def readTruth (text : String) : Except Error Bool :=
  if text = "true" then .ok true
  else if text = "false" then .ok false
  else .error .truthValue

def readBps (text : String) : Except Error BasisPoints :=
  match Text.readUInt16 text with
  | .error cause => .error (.natural cause)
  | .ok value =>
    match BasisPoints.ofUInt16 value with
    | .ok bps => .ok bps
    | .error cause => .error (.governance (.value cause))

def readCoefficient (text : String) : Except Error Word256 :=
  match Word256.ofString text with
  | .ok value => .ok value
  | .error cause => .error (.governance (.value cause))

/-! ### Reading and changing settings -/

def get (s : Settings) : Key → String
  | .logLevel => s.logLevel
  | .jsonLogs => truthText s.jsonLogs
  | .daoV3 => truthText s.daoV3
  | .minBps => toString s.quorum.minBps.toNat
  | .maxBps => toString s.quorum.maxBps.toNat
  | .coefficient => s.quorum.coefficient.toDecimal

/-- Write a value in its place, and give the parameters that the quorum is to have. -/
def assign (key : Key) (value : String) : InPlace Error Settings QuorumParams := do
  let quorum := (← getThe Settings).quorum
  match key with
  | .logLevel =>
    modify ({ · with logLevel := value })
    return quorum
  | .jsonLogs =>
    let b ← readTruth value
    modify ({ · with jsonLogs := b })
    return quorum
  | .daoV3 =>
    let b ← readTruth value
    modify ({ · with daoV3 := b })
    return quorum
  -- the quorum is changed in a copy until its bounds were checked
  | .minBps => return { quorum with minBps := ← readBps value }
  | .maxBps => return { quorum with maxBps := ← readBps value }
  | .coefficient => return { quorum with coefficient := ← readCoefficient value }

def check (quorum : QuorumParams) : Except Error Unit :=
  match quorum.validate with
  | .ok () => .ok ()
  | .error cause => .error (.governance cause)

def set (key : Key) (value : String) : InPlace Error Settings Unit := do
  let quorum ← assign key value
  check quorum
  modify ({ · with quorum := quorum })

def getNamed (s : Settings) (name : String) : Except Error String := do
  let key ← Key.ofName name
  return s.get key

def setNamed (name value : String) : InPlace Error Settings Unit := do
  let key ← Key.ofName name
  set key value

end Settings

end DynamicQuorum
