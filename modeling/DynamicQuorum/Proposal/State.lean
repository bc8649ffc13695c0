/-
  DynamicQuorum/Proposal/State.lean
  =================================
  **Where a proposal stands.**

  The stored status changes only with lifecycle events; the state shown to users depends on
  the chain position as well.  Each state has a name, under which it is stored, and a label,
  which is shown.
-/
import DynamicQuorum.Error

namespace DynamicQuorum

/-- The status last recorded from governance events. -/
inductive ProposalStatus where
  | pending
  | active
  | cancelled
  | vetoed
  | queued
  | executed
deriving DecidableEq, Repr, Inhabited

namespace ProposalStatus

def name : ProposalStatus → String
  | .pending => "Pending"
  | .active => "Active"
  | .cancelled => "Cancelled"
  | .vetoed => "Vetoed"
  | .queued => "Queued"
  | .executed => "Executed"

def all : List ProposalStatus := [.pending, .active, .cancelled, .vetoed, .queued, .executed]

def ofName? (name : String) : Option ProposalStatus := all.find? (·.name = name)

end ProposalStatus

/-- The state shown to users at a chain position; it is undetermined where the position is not known
    well enough.  The objection period is a window that a flip at the last minute opened. -/
inductive ProposalState where
  | undetermined
  | pending
  | active
  | cancelled
  | defeated
  | succeeded
  | queued
  | expired
  | executed
  | vetoed
  | objectionPeriod
  | updatable
deriving DecidableEq, Repr, Inhabited

namespace ProposalState

def name : ProposalState → String
  | .undetermined => "Undetermined"
  | .pending => "Pending"
  | .active => "Active"
  | .cancelled => "Cancelled"
  | .defeated => "Defeated"
  | .succeeded => "Succeeded"
  | .queued => "Queued"
  | .expired => "Expired"
  | .executed => "Executed"
  | .vetoed => "Vetoed"
  | .objectionPeriod => "ObjectionPeriod"
  | .updatable => "Updatable"

def label : ProposalState → String
  | .objectionPeriod => "Objection period"
  | state => state.name

def all : List ProposalState :=
  [.undetermined, .pending, .active, .cancelled, .defeated, .succeeded, .queued, .expired,
    .executed, .vetoed, .objectionPeriod, .updatable]

def ofName? (name : String) : Option ProposalState := all.find? (·.name = name)

/-- How a typed word is compared: ASCII letters in lower case, hyphens and blanks as
    underscores. -/
def foldWord (text : String) : String :=
  String.ofList (text.toList.map fun c => if c = '-' ∨ c = ' ' then '_' else c.toLower)

/-- Read a state as a user types it, such as `active` or `objection-period`. -/
def ofString (text : String) : Except GovernanceError ProposalState :=
  match foldWord text with
  | "undetermined" => .ok .undetermined
  | "pending" => .ok .pending
  | "active" => .ok .active
  | "cancelled" => .ok .cancelled
  | "canceled" => .ok .cancelled
  | "defeated" => .ok .defeated
  | "succeeded" => .ok .succeeded
  | "queued" => .ok .queued
  | "expired" => .ok .expired
  | "executed" => .ok .executed
  | "vetoed" => .ok .vetoed
  | "objection_period" => .ok .objectionPeriod
  | "objectionperiod" => .ok .objectionPeriod
  | "updatable" => .ok .updatable
  | _ => .error (.unknownState text)

end ProposalState

inductive VoteSupport where
  | against
  | for
  | abstain
deriving DecidableEq, Repr, Inhabited

namespace VoteSupport

def name : VoteSupport → String
  | .against => "Against"
  | .for => "For"
  | .abstain => "Abstain"

def code : VoteSupport → UInt8
  | .against => 0
  | .for => 1
  | .abstain => 2

def ofCode (code : UInt8) : Except GovernanceError VoteSupport :=
  if code = 0 then .ok .against
  else if code = 1 then .ok .for
  else if code = 2 then .ok .abstain
  else .error (.invalidSupport code)

end VoteSupport

end DynamicQuorum
