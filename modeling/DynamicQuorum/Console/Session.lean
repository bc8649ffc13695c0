/-
  DynamicQuorum/Console/Session.lean
  ==================================
  **Carrying out commands.**

  A command reads a tree of files and leaves one, with the text that it shows or the fault that
  stopped it.  A fault leaves the files as they were, but folders that were made for a file stay.
  The notes of a command are a function of the same data.

  All commands but `config init` load the settings first, even if they do not use them.  Settings
  that were never written are the standard ones, unless the user names a file.
-/
import DynamicQuorum.Console.Fault
import DynamicQuorum.Console.Invocation
import DynamicQuorum.Interchange.Events
import DynamicQuorum.Interchange.Proposals
import DynamicQuorum.Journal.Note
import DynamicQuorum.Report.Page

namespace DynamicQuorum

/-- The folder in which the user keeps settings, and the colours. -/
structure Surroundings where
  home : String
  palette : Report.Palette := .plain
deriving DecidableEq, Repr

/-- The files that a command leaves, and what the user is shown unless it fails. -/
structure Outcome where
  files : FileTree
  result : Except Fault String

namespace Surroundings

def settingsFile (w : Surroundings) : String := w.home ++ "/.dynquorum/config.toml"

def settingsPath (w : Surroundings) (named : Option String) : String :=
  named.getD w.settingsFile

end Surroundings

namespace Settings

def load (files : FileTree) (path : String) : Except Fault Settings :=
  match files.read (.ofString path) with
  | .error cause => .error (.readingConfig path cause)
  | .ok text =>
    match ofText text with
    | .error cause => .error (.parsingConfig path cause)
    | .ok settings => .ok settings

/-- The settings in a file that the user named, or in the usual one if there is one. -/
def loadFor (w : Surroundings) (files : FileTree) (named : Option String) :
    Except Fault Settings :=
  match named with
  | some path => load files path
  | none =>
    if files.contains (.ofString w.settingsFile) then load files w.settingsFile else .ok standard

/-- Write the settings to a file, in a folder that is made if need be, and show a text. -/
def save (s : Settings) (files : FileTree) (path text : String) : Outcome :=
  match files.createFolders (Path.ofString path).parent with
  | (files, .error cause) => ⟨files, .error (.creatingFolder cause)⟩
  | (files, .ok ()) =>
    match files.write (.ofString path) s.toText with
    -- folders that were made stay, even if the file cannot be written
    | .error cause => ⟨files, .error (.writingConfig path cause)⟩
    | .ok files => ⟨files, .ok text⟩

end Settings

def loadLog (files : FileTree) (path : String) : Except Fault (List LoggedEvent) :=
  match files.read (.ofString path) with
  | .error cause => .error (.readingLog path cause)
  | .ok text =>
    match Json.decodeText LoggedEvent.logDecoder text with
    | .error cause => .error (.parsingLog path cause)
    | .ok events => .ok events

namespace Command

def line (text : String) : String := text ++ "\n"

def settings (w : Surroundings) (files : FileTree) (named : Option String) :
    Command → Except Fault Settings
  | .initSettings _ => .ok .standard
  | _ => Settings.loadFor w files named

def computeQuorum (s : Settings) (votes : VoteSnapshot) (minBps maxBps : Option UInt16)
    (coefficient : Option Word256) : Except GovernanceError (QuorumParams × Word256) := do
  let params ← s.quorum.overriddenBy minBps maxBps coefficient
  let needed ← params.quorumVotes votes
  return (params, needed)

/-- The parameters that a replay starts with. -/
def seed (s : Settings) (seedParams : Bool) : Option QuorumParams :=
  if seedParams then some s.quorum else none

def showProposal (w : Surroundings) (view : ChainView) (s : Indexer) (id : UInt64)
    (json : Bool) : Except Fault String :=
  match s.proposal? id with
  | none => .error (.proposalNotFound id)
  | some p => .ok (if json then line p.toJson.toIndentedText
      else Report.proposalPage w.palette view p)

def nothingToList (w : Surroundings) : Option ProposalState → String
  | some state => line (Report.Notice.warning.render w.palette
      ("No proposals in state " ++ state.label))
  | none => line (Report.Notice.warning.render w.palette "No proposals in event log")

def listProposals (w : Surroundings) (view : ChainView) (s : Indexer)
    (state : Option ProposalState) (json : Bool) : String :=
  let picked := s.proposals.select state view
  if json then line (Json.Value.array (picked.map Proposal.toJson)).toIndentedText
  else if picked.isEmpty then nothingToList w state
  else
    line (Report.proposalTable view picked) ++
      line (Report.Notice.info.render w.palette
        (toString s.handled ++ " events, " ++ toString picked.length ++ " of " ++
          toString s.proposals.size ++ " proposals"))

def showQuorum (w : Surroundings) (s : Settings) (votes : VoteSnapshot)
    (minBps maxBps : Option UInt16) (coefficient : Option Word256) (raw : Bool) :
    Except Fault String := do
  let (params, needed) ←
    (computeQuorum s votes minBps maxBps coefficient).mapError .governance
  return if raw then line needed.toDecimal
    else Report.quorumPage w.palette params votes needed

/-- What a replay shows of the log in a file: a single proposal, or a list of them. -/
def showReplay (w : Surroundings) (files : FileTree) (s : Settings) (file : String)
    (block timestamp proposal : Option UInt64) (state : Option ProposalState)
    (seedParams json : Bool) : Except Fault String := do
  let events ← loadLog files file
  let final ← (DynamicQuorum.replay events (seed s seedParams)).mapError .replay
  let view := ChainView.afterLog events block timestamp s.daoV3
  match proposal with
  | some id => showProposal w view final id json
  | none => return listProposals w view final state json

/-- Carry out a command.  `named` is the settings file that the user named, and `s` the settings
    that the command starts from. -/
def run (w : Surroundings) (files : FileTree) (named : Option String) (s : Settings) :
    Command → Outcome
  | .quorum votes minBps maxBps coefficient raw =>
    ⟨files, showQuorum w s votes minBps maxBps coefficient raw⟩
  | .replay file block timestamp proposal state seedParams json =>
    ⟨files, showReplay w files s file block timestamp proposal state seedParams json⟩
  | .showSettings => ⟨files, .ok (Report.settingsPage w.palette (w.settingsPath named) s)⟩
  | .setSetting key value =>
    match (Settings.setNamed key value).makes s with
    | .error cause => ⟨files, .error (.settings cause)⟩
    | .ok changed =>
      changed.save files (w.settingsPath named)
        (line (Report.Notice.success.render w.palette ("Set " ++ key ++ " = " ++ value)))
  | .getSetting key =>
    ⟨files, match s.getNamed key with
      | .error cause => .error (.settings cause)
      | .ok value => .ok (line (Report.settingLine w.palette key value))⟩
  | .initSettings force =>
    let path := w.settingsPath named
    if files.contains (.ofString path) && !force then
      ⟨files, .ok (line (Report.Notice.warning.render w.palette
        (path ++ " already exists, pass --force to overwrite")))⟩
    else
      Settings.standard.save files path
        (line (Report.Notice.success.render w.palette ("Wrote " ++ path)))

def notes (files : FileTree) (s : Settings) : Command → List Note
  | .quorum votes minBps maxBps coefficient _ =>
    match computeQuorum s votes minBps maxBps coefficient with
    | .error _ => []
    | .ok (_, needed) => [.quorumComputed votes needed]
  | .replay file _ _ _ _ seedParams _ =>
    match loadLog files file with
    | .error _ => []
    | .ok events =>
      replayNotes events (seed s seedParams) ++
        match DynamicQuorum.replay events (seed s seedParams) with
        | .error _ => []
        | .ok final => [.replayFinished final.handled.toNat final.proposals.size]
  | _ => []

end Command

namespace Invocation

/-- Carry out an invocation. -/
def run (w : Surroundings) (files : FileTree) (i : Invocation) : Outcome :=
  match i.command.settings w files i.globals.config with
  | .error fault => ⟨files, .error fault⟩
  | .ok s => i.command.run w files i.globals.config s

def notes (w : Surroundings) (files : FileTree) (i : Invocation) : List Note :=
  match i.command.settings w files i.globals.config with
  | .error _ => []
  | .ok s => i.command.notes files s

end Invocation

end DynamicQuorum
