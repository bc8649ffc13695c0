/-
  DynamicQuorum/Proofs/Interchange/Proposals.lean
  ===============================================
  **Proposals survive JSON, and only sound parameters come out of it.**

  Parameters are checked once all their fields are read, so those with a ceiling below the floor
  are written but not read back.  No other field of a proposal is checked against another, and
  none of them touches the parameters.
-/
import DynamicQuorum.Interchange.Proposals
import DynamicQuorum.Proofs.AddressSet
import DynamicQuorum.Proofs.Interchange.Scalars

namespace DynamicQuorum

open Json Json.Decoder Json.Record

variable {depth : Nat} {r : Reading} {d : Draft}

/-! ### Parameters -/

namespace QuorumParams

variable {p : QuorumParams}

theorem make_eq_ok {minBps maxBps : BasisPoints} {coefficient : Word256} :
    make minBps maxBps coefficient = .ok p ↔ p = ⟨minBps, maxBps, coefficient⟩ ∧ p.IsOrdered := by
  rw [make, Except.bind_eq_ok]
  constructor
  · rintro ⟨⟨⟩, hvalid, hp⟩
    cases hp
    rw [validate] at hvalid
    split at hvalid
    next hordered => exact ⟨rfl, hordered⟩
    next => cases hvalid
  · rintro ⟨rfl, hordered⟩
    exact ⟨(), if_pos hordered, rfl⟩

theorem writes (p : QuorumParams) : Writes depth fields
    [("min_quorum_votes_bps", p.minBps.toJson), ("max_quorum_votes_bps", p.maxBps.toJson),
      ("quorum_coefficient", p.coefficient.toJson)] zero p :=
  .cons p.minBps.reads <| .cons p.maxBps.reads <| .cons p.coefficient.reads <| .nil p

theorem reads (h : p.IsOrdered) : Reads decoder (depth + 1) p.toJson p :=
  (p.writes.reads (by decide)).refine (make_eq_ok.mpr ⟨rfl, h⟩)

theorem isOrdered_of_decoder (h : decoder r d = .ok p) : p.IsOrdered := by
  obtain ⟨q, -, hchecked⟩ := refine_eq_ok h
  exact (make_eq_ok.mp hchecked).2

end QuorumParams

/-! ### Proposals -/

namespace Proposal

variable {p : Proposal}

def HasOrderedParams (p : Proposal) : Prop := ∀ params ∈ p.quorumParams, params.IsOrdered

/-- A proposal is read from its object, with the voters in any order. -/
theorem reads (h : p.HasOrderedParams) {voters : List Address}
    (hvoters : voters.Perm p.voters.toList) :
    Reads decoder (depth + 2) (p.toJsonListing voters) p := by
  have hparams : ∀ params ∈ p.quorumParams, params.toJson.toDraft ≠ .null ∧
      Reads QuorumParams.decoder (depth + 1) params.toJson params :=
    fun params hp => ⟨nofun, QuorumParams.reads (h params hp)⟩
  have heta : ∀ eta : UInt64,
      (uint64ToJson eta).toDraft ≠ .null ∧ Reads uint64 (depth + 1) (uint64ToJson eta) eta :=
    fun eta => ⟨nofun, reads_uint64 eta⟩
  -- a set of voters does not keep the order in which they are listed
  have hset : { p with voters := AddressSet.ofList voters } = p := by
    rw [AddressSet.ofList_of_perm hvoters]
  have hwrites : Writes (depth + 1) fields _ (create 0 .zero 0 0 0 .zero)
      { p with voters := AddressSet.ofList voters } :=
    .cons (reads_uint64 p.id) <| .cons p.proposer.reads <|
      .cons (reads_uint64 p.createdBlock) <| .cons (reads_uint64 p.startBlock) <|
      .cons (reads_uint64 p.endBlock) <| .cons (reads_uint64 p.updatePeriodEnd) <|
      .cons (reads_uint64 p.objectionPeriodEnd) <| .cons (reads_uint64 p.voteSnapshotBlock) <|
      .cons p.forVotes.reads <| .cons p.againstVotes.reads <| .cons p.abstainVotes.reads <|
      .cons p.totalSupply.reads <| .cons p.quorumVotes.reads <| .cons (.optional hparams) <|
      .cons (.optional fun eta _ => heta eta) <| .cons p.status.reads <|
      .cons (reads_bool p.onTimelockV1) <| .cons (.list fun a _ => a.reads) <| .nil _
  rw [hset] at hwrites
  exact hwrites.reads (by decide)

theorem hasOrderedParams_of_decoder (h : decoder r d = .ok p) : p.HasOrderedParams := by
  have hblank : (create 0 .zero 0 0 0 .zero).HasOrderedParams := by
    intro params hparams
    cases hparams
  refine decode_keeps ?_ h hblank
  have hparams : Keeps HasOrderedParams (.of "quorum_params" .optional
      (optional QuorumParams.decoder) fun v (p : Proposal) => { p with quorumParams := v }) :=
    keeps_of fun _ _ _ _ hread _ _ hp => QuorumParams.isOrdered_of_decoder (optional_eq_ok hread hp)
  simp only [fields, List.forall_mem_cons]
  refine ⟨?_, ?_, ?_, ?_, ?_, ?_, ?_, ?_, ?_, ?_, ?_, ?_, ?_, hparams, ?_, ?_, ?_, ?_, nofun⟩
  -- every other field leaves the parameters as they are
  all_goals exact keeps_of fun _ _ _ _ _ hp => hp

end Proposal

end DynamicQuorum
