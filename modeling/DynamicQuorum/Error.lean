/-
  DynamicQuorum/Error.lean
  ========================
  **What can go wrong, as causes.**

  `ValueError` says why a text or number is no value of its type; `GovernanceError` says why
  a governance operation was refused.  The wording stands in the two `message` functions
  and nowhere else.
-/
import DynamicQuorum.Text.Hex

namespace DynamicQuorum

/-- Why something is not a value of its type. -/
inductive ValueError where
  | addressFormat (text : String)
  | addressLength (bytes : Nat)
  | wordOverflow
  | wordText (text : String)
  | bpsOutOfRange (value : Nat)
  | hex (cause : Text.Hex.Error)
deriving DecidableEq, Repr

def ValueError.message : ValueError → String
  | .addressFormat text => "Invalid address format: " ++ text
  | .addressLength bytes => "Invalid address length: expected 20, got " ++ toString bytes
  | .wordOverflow => "U256 overflow"
  | .wordText text => "Invalid U256 decimal string: " ++ text
  | .bpsOutOfRange value => "Basis points out of range: " ++ toString value ++ " > 10000"
  | .hex cause => "Invalid hex: " ++ cause.message

inductive QuorumBound where
  | min
  | max
deriving DecidableEq, Repr

def QuorumBound.field : QuorumBound → String
  | .min => "min_quorum_votes_bps"
  | .max => "max_quorum_votes_bps"

/-- What is wrong with quorum parameters: a bound is no ratio, or the ceiling lies below the
    floor. -/
inductive ParamsFault where
  | bound (which : QuorumBound) (cause : ValueError)
  | inverted (max min : Nat)
deriving DecidableEq, Repr

def ParamsFault.message : ParamsFault → String
  | .bound which cause => which.field ++ ": " ++ cause.message
  | .inverted max min =>
    QuorumBound.max.field ++ " " ++ toString max ++ " is below " ++
      QuorumBound.min.field ++ " " ++ toString min

/-- A quantity that may leave the 256-bit range: the two shares are in basis points, `votesOfShare`
    is a share of the supply in votes, and a tally the sum of the votes of one kind. -/
inductive Quantity where
  | againstShare
  | quorumShare
  | votesOfShare
  | tally
deriving DecidableEq, Repr

def Quantity.name : Quantity → String
  | .againstShare => "against votes share"
  | .quorumShare => "quorum bps"
  | .votesOfShare => "bps to votes"
  | .tally => "vote tally"

/-- Why a governance operation was refused. -/
inductive GovernanceError where
  | invalidParameters (fault : ParamsFault)
  | overflow (quantity : Quantity)
  | checkpointOutOfOrder (block latest : UInt64)
  | proposalExists (id : UInt64)
  | proposalNotFound (id : UInt64)
  | alreadyVoted
  | invalidSupport (code : UInt8)
  | unknownState (name : String)
  | value (cause : ValueError)
deriving DecidableEq, Repr

def GovernanceError.message : GovernanceError → String
  | .invalidParameters fault => "Invalid quorum parameters: " ++ fault.message
  | .overflow quantity => "Arithmetic overflow in " ++ quantity.name
  | .checkpointOutOfOrder block latest =>
    "Checkpoint out of order: block " ++ toString block ++
      " precedes latest checkpoint at " ++ toString latest
  | .proposalExists id => "Invalid proposal: Proposal " ++ toString id ++ " already exists"
  | .proposalNotFound id => "Proposal not found: " ++ toString id
  | .alreadyVoted => "Already voted"
  | .invalidSupport code => "Invalid vote support value: " ++ toString code
  | .unknownState name => "Unknown proposal state: " ++ name
  | .value cause => cause.message

end DynamicQuorum
