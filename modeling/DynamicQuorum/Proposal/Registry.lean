/-
  DynamicQuorum/Proposal/Registry.lean
  ====================================
  **All proposals, by id.**

  The listing is in ascending order of the ids, and no id stands in it twice.
-/
import DynamicQuorum.Proposal.Resolution

namespace DynamicQuorum

def Proposal.key (p : Proposal) : Nat := p.id.toNat

abbrev Registry := Ascending Proposal Proposal.key

namespace Registry

def empty : Registry := Ascending.empty

def get? (r : Registry) (id : UInt64) : Option Proposal := r.find? id.toNat

def get (r : Registry) (id : UInt64) : Except GovernanceError Proposal :=
  match r.get? id with
  | some p => .ok p
  | none => .error (.proposalNotFound id)

/-- Add a proposal under an id of its own. -/
def insert (p : Proposal) : InPlace GovernanceError Registry Unit := do
  if (← getThe Registry).hasKey p.key then throw (.proposalExists p.id)
  else modify (·.put p)

/-- Carry out a procedure on the proposal with an id. -/
def onProposal {α : Type} (id : UInt64) (m : InPlace GovernanceError Proposal α) :
    InPlace GovernanceError Registry α := do
  let p ← (← getThe Registry).get id
  m.onPart (fun _ => p) Ascending.put

def inState (r : Registry) (state : ProposalState) (view : ChainView) : List Proposal :=
  r.toList.filter (·.stateAt view = state)

/-- The proposals to list: those in a state, or all of them. -/
def select (r : Registry) (state : Option ProposalState) (view : ChainView) : List Proposal :=
  match state with
  | some s => r.inState s view
  | none => r.toList

end Registry

end DynamicQuorum
