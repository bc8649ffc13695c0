/-
  DynamicQuorum/Console/Fault.lean
  ================================
  **Why a command failed.**

  A fault is told by what the program was doing, with the path concerned, and the cause behind
  it.  How the causes that come from files are worded is a parameter.
-/
import DynamicQuorum.Console.FileTree
import DynamicQuorum.Json.Decoder
import DynamicQuorum.Replay
import DynamicQuorum.Settings.File

namespace DynamicQuorum

inductive Fault where
  | readingConfig (path : String) (cause : IoError)
  | parsingConfig (path : String) (cause : Settings.FileError)
  | creatingFolder (cause : IoError)
  | writingConfig (path : String) (cause : IoError)
  | readingLog (path : String) (cause : IoError)
  | parsingLog (path : String) (cause : Json.DecodeError)
  | replay (cause : ReplayFailure)
  | proposalNotFound (id : UInt64)
  | settings (cause : Settings.Error)
  | governance (cause : GovernanceError)
deriving DecidableEq, Repr

structure Wording where
  io : IoError → String
  json : Json.DecodeError → String
  toml : Settings.FileError → String

def Wording.standard : Wording where
  io := IoError.message
  json := Json.DecodeError.message
  toml := Settings.FileError.message

/-- What the program was doing, and the causes behind it. -/
def Fault.messageIn (words : Wording) : Fault → String
  | .readingConfig path cause => "reading config " ++ path ++ ": " ++ words.io cause
  | .parsingConfig path cause => "parsing config " ++ path ++ ": " ++ words.toml cause
  | .creatingFolder cause => words.io cause
  | .writingConfig path cause => "writing config " ++ path ++ ": " ++ words.io cause
  | .readingLog path cause => "reading event log " ++ path ++ ": " ++ words.io cause
  | .parsingLog path cause => "parsing event log " ++ path ++ ": " ++ words.json cause
  | .replay cause => cause.message
  | .proposalNotFound id => "Proposal " ++ toString id ++ " not found"
  | .settings cause => cause.message
  | .governance cause => cause.message

def Fault.message : Fault → String := messageIn .standard

end DynamicQuorum
