/-
  DynamicQuorum/Interchange/Params.lean
  =====================================
  **The JSON forms of quorum parameters and vote snapshots.**

  Parameters are checked on the way in, once all their fields have been read.
-/
import DynamicQuorum.Interchange.Scalars

namespace DynamicQuorum

open Json

namespace QuorumParams

def toJson (p : QuorumParams) : Value := .object
  [("min_quorum_votes_bps", p.minBps.toJson),
   ("max_quorum_votes_bps", p.maxBps.toJson),
   ("quorum_coefficient", p.coefficient.toJson)]

def fields : List (RecordField QuorumParams) :=
  [.required "min_quorum_votes_bps" BasisPoints.decoder fun b p => { p with minBps := b },
   .required "max_quorum_votes_bps" BasisPoints.decoder fun b p => { p with maxBps := b },
   .required "quorum_coefficient" Word256.decoder fun w p => { p with coefficient := w }]

def checked (p : QuorumParams) : Except GovernanceError QuorumParams :=
  make p.minBps p.maxBps p.coefficient

def decoder : Decoder QuorumParams := Decoder.refine (Record.decode fields zero) checked

end QuorumParams

namespace VoteSnapshot

def toJson (s : VoteSnapshot) : Value := .object
  [("against_votes", s.againstVotes.toJson), ("total_supply", s.totalSupply.toJson)]

def fields : List (RecordField VoteSnapshot) :=
  [.required "against_votes" Word256.decoder fun w s => { s with againstVotes := w },
   .required "total_supply" Word256.decoder fun w s => { s with totalSupply := w }]

def decoder : Decoder VoteSnapshot := Record.decode fields ⟨.zero, .zero⟩

end VoteSnapshot

end DynamicQuorum
