/-
  DynamicQuorum/Interchange/Scalars.lean
  ======================================
  **The JSON forms of single values.**

  Words and accounts travel as strings, so that no reader loses digits; a word may also be
  given as a number.  Ratios and the kinds of votes are numbers, statuses and states are
  names.
-/
import DynamicQuorum.Json.Decoder
import DynamicQuorum.Proposal.Registry

namespace DynamicQuorum

open Json

def liftValue {α β : Type} (check : α → Except ValueError β) (a : α) :
    Except GovernanceError β :=
  match check a with
  | .ok b => .ok b
  | .error cause => .error (.value cause)

namespace Word256

def toJson (w : Word256) : Value := .string w.toDecimal

/-- The word of a string or of a number. -/
def ofDraft : Decoder Word256 := fun r d =>
  match d with
  | .number _ => (Decoder.uint64 r d).map ofUInt64
  | d => Decoder.refine Decoder.string (liftValue ofString) r d

/-- A word is read to its end before it is looked at. -/
def decoder : Decoder Word256 := Decoder.whole ofDraft

end Word256

namespace Address

def toJson (a : Address) : Value := .string a.toHex

def decoder : Decoder Address := Decoder.refine Decoder.string (liftValue ofString)

end Address

namespace BasisPoints

def toJson (b : BasisPoints) : Value := .number b.toNat

def decoder : Decoder BasisPoints :=
  Decoder.refine (Decoder.below UInt32.size) (liftValue fun n => ofUInt32 n.toUInt32)

end BasisPoints

namespace VoteSupport

def toJson (s : VoteSupport) : Value := .number s.code.toNat

/-- An 8-bit number that stands for a kind of vote. -/
def decoder : Decoder VoteSupport :=
  Decoder.refine (Decoder.below UInt8.size) fun n => ofCode n.toUInt8

end VoteSupport

namespace ProposalStatus

def toJson (s : ProposalStatus) : Value := .string s.name

def decoder : Decoder ProposalStatus := Decoder.variant ofName?

end ProposalStatus

namespace ProposalState

def toJson (s : ProposalState) : Value := .string s.name

def decoder : Decoder ProposalState := Decoder.variant ofName?

end ProposalState

def uint64ToJson (n : UInt64) : Value := .number n.toNat

end DynamicQuorum
