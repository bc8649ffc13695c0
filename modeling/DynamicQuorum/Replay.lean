/-
  DynamicQuorum/Replay.lean
  =========================
  **Replaying a log of events.**

  A replay folds a whole log into a fresh indexer.  The history of parameters is empty at first,
  or it starts with given parameters at block zero.  The first event that is refused ends the
  replay, and the error tells which one it was.

  States are shown at a chain position; where it is not given, it is that of the last event.
-/
import DynamicQuorum.Indexer

namespace DynamicQuorum

inductive ReplayFailure where
  | seed (cause : GovernanceError)
  | event (error : ReplayError)
deriving DecidableEq, Repr

def ReplayError.place (e : ReplayError) : String :=
  "event #" ++ toString e.position ++ " at block " ++ toString e.block

def ReplayFailure.message : ReplayFailure → String
  | .seed cause => cause.message
  | .event error => error.place ++ ": " ++ error.cause.message

def Indexer.seeded : Option QuorumParams → Except GovernanceError Indexer
  | none => .ok .empty
  | some params => (ParamsHistory.withInitial 0 params).map .withHistory

def replay (events : List LoggedEvent) (seed : Option QuorumParams) :
    Except ReplayFailure Indexer :=
  match Indexer.seeded seed with
  | .error cause => .error (.seed cause)
  | .ok start =>
    match start.replayFrom 0 events with
    | .error error => .error (.event error)
    | .ok final => .ok final

/-- The position of the chain, as far as it is given, and else that of the last event. -/
def ChainView.afterLog (events : List LoggedEvent) (block : Option BlockNumber)
    (timestamp : Option UInt64) (daoV3 : Bool) : ChainView where
  block := block.or (events.getLast?.map (·.block))
  timestamp := timestamp.or (events.getLast?.map (·.timestamp))
  daoV3 := daoV3

end DynamicQuorum
