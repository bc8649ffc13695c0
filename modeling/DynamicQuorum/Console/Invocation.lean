/-
  DynamicQuorum/Console/Invocation.lean
  =====================================
  **The commands and their arguments.**

  There are three commands: `quorum` computes a quorum, `replay` replays a log of events, and
  `config` shows and changes the settings.  Three options may stand behind any part of a
  command line; of several, the one behind the innermost command counts, and an environment
  variable stands in for the settings file.
-/
import DynamicQuorum.Console.Arguments
import DynamicQuorum.Proposal.Registry
import DynamicQuorum.Text.Natural

namespace DynamicQuorum

inductive Command where
  | quorum (votes : VoteSnapshot) (minBps maxBps : Option UInt16)
      (coefficient : Option Word256) (raw : Bool)
  | replay (file : String) (block timestamp : Option UInt64) (proposal : Option UInt64)
      (state : Option ProposalState) (seedParams json : Bool)
  | showSettings
  | setSetting (key value : String)
  | getSetting (key : String)
  | initSettings (force : Bool)
deriving DecidableEq, Repr

/-- The options of all commands; `config` names the settings file. -/
structure Globals where
  config : Option String := none
  logLevel : Option String := none
  jsonLogs : Bool := false
deriving DecidableEq, Repr, Inhabited

def Globals.orElse (inner outer : Globals) : Globals where
  config := inner.config.or outer.config
  logLevel := inner.logLevel.or outer.logLevel
  jsonLogs := inner.jsonLogs || outer.jsonLogs

structure Invocation where
  globals : Globals
  command : Command
deriving DecidableEq, Repr

structure Given (α : Type) where
  globals : Globals := {}
  own : α

/-! ### Values -/

/-- Take a value into the record of a command. -/
def ownTaker {α β : Type} (read : String → Except UsageError β) (assign : β → α → α) :
    Taker (Given α) :=
  fun text g => (read text).map fun value => { g with own := assign value g.own }

def readText (text : String) : Except UsageError String := .ok text

def readPath (text : String) : Except UsageError String :=
  if text = "" then .error .missingValue else .ok text

def readWord (text : String) : Except UsageError Word256 :=
  (Word256.ofString text).mapError fun cause => .badValue (.word cause)

def readState (text : String) : Except UsageError ProposalState :=
  (ProposalState.ofString text).mapError fun cause => .badValue (.state cause)

def readLong (text : String) : Except UsageError UInt64 :=
  (Text.readUInt64 text).mapError fun _ => .badValue .number

def readShort (text : String) : Except UsageError UInt16 :=
  match text.toList with
  -- minus zero is zero
  | '-' :: digit :: digits =>
    if (digit :: digits).all (· = '0') then .ok 0 else .error (.badValue .number)
  | _ => (Text.readUInt16 text).mapError fun _ => .badValue .number

/-! ### Options -/

def globalSwitches {α : Type} : List (Switch (Given α)) :=
  [{ name := "config", letter := some 'c', effect := .value fun text g =>
       (readPath text).map fun path =>
         { g with globals := { g.globals with config := some path } } },
   { name := "log-level", effect := .value fun text g =>
       .ok { g with globals := { g.globals with logLevel := some text } } },
   { name := "json-logs", effect := .flag fun g =>
       { g with globals := { g.globals with jsonLogs := true } } },
   { name := "help", letter := some 'h', effect := .stop .help }]

def ownOption {α β : Type} (name : String) (letter : Option Char)
    (read : String → Except UsageError β) (assign : β → α → α) : Switch (Given α) where
  name := name
  letter := letter
  effect := .value (ownTaker read assign)

def ownFlag {α : Type} (name : String) (set : α → α) : Switch (Given α) where
  name := name
  effect := .flag fun g => { g with own := set g.own }

def ownPositional {α β : Type} (name : String) (read : String → Except UsageError β)
    (assign : β → α → α) : Positional (Given α) :=
  ⟨name, ownTaker read assign⟩

structure QuorumOptions where
  against : Option Word256 := none
  supply : Option Word256 := none
  minBps : Option UInt16 := none
  maxBps : Option UInt16 := none
  coefficient : Option Word256 := none
  raw : Bool := false

namespace QuorumOptions

def grammar : Grammar (Given QuorumOptions) where
  switches := globalSwitches ++
    [ownOption "against" (some 'a') readWord fun v o => { o with against := some v },
     ownOption "supply" (some 's') readWord fun v o => { o with supply := some v },
     ownOption "min-bps" none readShort fun v o => { o with minBps := some v },
     ownOption "max-bps" none readShort fun v o => { o with maxBps := some v },
     ownOption "coefficient" none readWord fun v o => { o with coefficient := some v },
     ownFlag "raw" fun o => { o with raw := true }]

def command? (o : QuorumOptions) : Option Command := do
  let against ← o.against
  let supply ← o.supply
  return .quorum ⟨against, supply⟩ o.minBps o.maxBps o.coefficient o.raw

end QuorumOptions

structure ReplayOptions where
  file : Option String := none
  block : Option UInt64 := none
  timestamp : Option UInt64 := none
  proposal : Option UInt64 := none
  state : Option ProposalState := none
  seedParams : Bool := false
  json : Bool := false

namespace ReplayOptions

def grammar : Grammar (Given ReplayOptions) where
  switches := globalSwitches ++
    [ownOption "block" none readLong fun v o => { o with block := some v },
     ownOption "timestamp" none readLong fun v o => { o with timestamp := some v },
     ownOption "proposal" none readLong fun v o => { o with proposal := some v },
     ownOption "state" none readState fun v o => { o with state := some v },
     ownFlag "seed-params" fun o => { o with seedParams := true },
     ownFlag "json" fun o => { o with json := true }]
  positionals := [ownPositional "file" readPath fun v o => { o with file := some v }]

def command? (o : ReplayOptions) : Option Command := do
  let file ← o.file
  return .replay file o.block o.timestamp o.proposal o.state o.seedParams o.json

end ReplayOptions

structure SettingOptions where
  key : Option String := none
  value : Option String := none
  force : Bool := false

namespace SettingOptions

def keyWord : Positional (Given SettingOptions) :=
  ownPositional "key" readText fun v o => { o with key := some v }

def valueWord : Positional (Given SettingOptions) :=
  ownPositional "value" readText fun v o => { o with value := some v }

def showGrammar : Grammar (Given SettingOptions) where
  switches := globalSwitches

def setGrammar : Grammar (Given SettingOptions) where
  switches := globalSwitches
  positionals := [keyWord, valueWord]

def getGrammar : Grammar (Given SettingOptions) where
  switches := globalSwitches
  positionals := [keyWord]

def initGrammar : Grammar (Given SettingOptions) where
  switches := globalSwitches ++ [ownFlag "force" fun o => { o with force := true }]

def set? (o : SettingOptions) : Option Command := do
  let key ← o.key
  let value ← o.value
  return .setSetting key value

end SettingOptions

/-! ### Command lines -/

namespace Invocation

/-- The settings file that the environment names, unless the arguments do. -/
def checkVariable (variableText : Option String) {α : Type} (s : Scan (Given α)) :
    Except UsageError Unit :=
  if "config" ∈ s.used then .ok ()
  else if variableText = some "" then .error .missingValue
  else .ok ()

def readLeaf {α : Type} (variableText : Option String) (g : Grammar (Given α)) (start : α)
    (command? : α → Option Command) (arguments : List String) :
    Except UsageError Invocation := do
  let (s, _) ← g.scan (g.start { own := start }) arguments
  let s ← s.flush
  checkVariable variableText s
  match command? s.record.own with
  | some command => return ⟨s.record.globals, command⟩
  | none => throw .missingArgument

/-- The arguments behind a command that has inner ones. -/
def readBranch (variableText : Option String) (g : Grammar (Given Unit))
    (inner : String → List String → Except UsageError Invocation) (arguments : List String) :
    Except UsageError Invocation := do
  let (s, next) ← g.scan (g.start { own := () }) arguments
  match next with
  | some (name, rest) =>
    -- a fault behind the inner command is told before one in front of it
    let invocation ← inner name rest
    let s ← s.flush
    checkVariable variableText s
    return { invocation with globals := invocation.globals.orElse s.record.globals }
  | none =>
    let s ← s.flush
    checkVariable variableText s
    throw (if s.used.isEmpty && variableText.isNone then .nothingGiven else .missingCommand)

/-- The commands inside `config`, and the ones at the top. -/
def settingCommands : List String := ["show", "set", "get", "init", "help"]

def commands : List String := ["quorum", "replay", "config", "help"]

def helpOnLeaf (words : List String) : UsageError :=
  if words.isEmpty then .help else .unknownCommand

def helpOnSettings : List String → UsageError
  | [] => .help
  | word :: rest => if word ∈ settingCommands then helpOnLeaf rest else .unknownCommand

def helpOn : List String → UsageError
  | [] => .help
  | word :: rest =>
    if word = "config" then helpOnSettings rest
    else if word ∈ commands then helpOnLeaf rest
    else .unknownCommand

def readSettings (variableText : Option String) : List String → Except UsageError Invocation :=
  readBranch variableText { switches := globalSwitches, commands := settingCommands }
    fun name rest =>
      match name with
      | "show" => readLeaf variableText SettingOptions.showGrammar {}
          (fun _ => some .showSettings) rest
      | "set" => readLeaf variableText SettingOptions.setGrammar {} SettingOptions.set? rest
      | "get" => readLeaf variableText SettingOptions.getGrammar {}
          (fun o => o.key.map .getSetting) rest
      | "init" => readLeaf variableText SettingOptions.initGrammar {}
          (fun o => some (.initSettings o.force)) rest
      | _ => .error (helpOnSettings rest)

def ofArguments (variableText : Option String) (arguments : List String) :
    Except UsageError Invocation := do
  let version : Switch (Given Unit) :=
    { name := "version", letter := some 'V', effect := .stop .version }
  let invocation ← readBranch variableText
    { switches := globalSwitches ++ [version], commands := commands }
    (fun name rest =>
      match name with
      | "quorum" => readLeaf variableText QuorumOptions.grammar {} QuorumOptions.command? rest
      | "replay" => readLeaf variableText ReplayOptions.grammar {} ReplayOptions.command? rest
      | "config" => readSettings variableText rest
      | _ => .error (helpOn rest)) arguments
  let globals := invocation.globals
  return { invocation with globals := { globals with config := globals.config.or variableText } }

end Invocation

end DynamicQuorum
