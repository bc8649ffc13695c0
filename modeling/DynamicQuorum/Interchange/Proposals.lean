/-
  DynamicQuorum/Interchange/Proposals.lean
  ========================================
  **The JSON form of proposals.**

  The voters may be listed in any order, and are written in ascending order; an account listed
  twice is one voter.
-/
import DynamicQuorum.Interchange.Params

namespace DynamicQuorum.Proposal

open Json

/-- The proposal with its voters listed in the given order. -/
def toJsonListing (p : Proposal) (voters : List Address) : Value := .object
  [("id", uint64ToJson p.id),
   ("proposer", p.proposer.toJson),
   ("created_block", uint64ToJson p.createdBlock),
   ("start_block", uint64ToJson p.startBlock),
   ("end_block", uint64ToJson p.endBlock),
   ("update_period_end_block", uint64ToJson p.updatePeriodEnd),
   ("objection_period_end_block", uint64ToJson p.objectionPeriodEnd),
   ("vote_snapshot_block", uint64ToJson p.voteSnapshotBlock),
   ("for_votes", p.forVotes.toJson),
   ("against_votes", p.againstVotes.toJson),
   ("abstain_votes", p.abstainVotes.toJson),
   ("total_supply", p.totalSupply.toJson),
   ("quorum_votes", p.quorumVotes.toJson),
   ("quorum_params", .ofOption (p.quorumParams.map QuorumParams.toJson)),
   ("execution_eta", .ofOption (p.executionEta.map uint64ToJson)),
   ("status", p.status.toJson),
   ("on_timelock_v1", .bool p.onTimelockV1),
   ("voters", .array (voters.map Address.toJson))]

def toJson (p : Proposal) : Value := p.toJsonListing p.voters.toList

def fields : List (RecordField Proposal) :=
  [.required "id" Decoder.uint64 fun v p => { p with id := v },
   .required "proposer" Address.decoder fun v p => { p with proposer := v },
   .required "created_block" Decoder.uint64 fun v p => { p with createdBlock := v },
   .required "start_block" Decoder.uint64 fun v p => { p with startBlock := v },
   .required "end_block" Decoder.uint64 fun v p => { p with endBlock := v },
   .required "update_period_end_block" Decoder.uint64
     fun v p => { p with updatePeriodEnd := v },
   .required "objection_period_end_block" Decoder.uint64
     fun v p => { p with objectionPeriodEnd := v },
   .required "vote_snapshot_block" Decoder.uint64 fun v p => { p with voteSnapshotBlock := v },
   .required "for_votes" Word256.decoder fun v p => { p with forVotes := v },
   .required "against_votes" Word256.decoder fun v p => { p with againstVotes := v },
   .required "abstain_votes" Word256.decoder fun v p => { p with abstainVotes := v },
   .required "total_supply" Word256.decoder fun v p => { p with totalSupply := v },
   .required "quorum_votes" Word256.decoder fun v p => { p with quorumVotes := v },
   .of "quorum_params" .optional (Decoder.optional QuorumParams.decoder)
     fun v p => { p with quorumParams := v },
   .of "execution_eta" .optional (Decoder.optional Decoder.uint64)
     fun v p => { p with executionEta := v },
   .required "status" ProposalStatus.decoder fun v p => { p with status := v },
   .required "on_timelock_v1" Decoder.bool fun v p => { p with onTimelockV1 := v },
   .required "voters" (Decoder.list Address.decoder)
     fun v p => { p with voters := AddressSet.ofList v }]

def decoder : Decoder Proposal := Record.decode fields (create 0 .zero 0 0 0 .zero)

end DynamicQuorum.Proposal
