/-
  DynamicQuorum/Proofs/Interchange/RoundTrip.lean
  ===============================================
  **What is written as JSON text is read back, and reading admits sound parameters only.**

  The one exception is a proposal whose parameters have their ceiling below their floor.  No state
  that a log leads to holds such a proposal, since stored proposals are in sync.
-/
import DynamicQuorum.Replay
import DynamicQuorum.Proofs.Indexer.Sync
import DynamicQuorum.Proofs.Interchange.Events
import DynamicQuorum.Proofs.Interchange.Proposals

namespace DynamicQuorum

open Json

variable {events : List LoggedEvent} {p : Proposal} {text : String}

theorem decodeText_log (h : (LoggedEvent.logToJson events).IsText text) :
    decodeText LoggedEvent.logDecoder text = .ok events := by
  have hreads : Decoder.Reads LoggedEvent.logDecoder 3 _ events := LoggedEvent.reads_log events
  exact hreads.decodeText (by decide) h

theorem decodeText_params {params : QuorumParams} (hordered : params.IsOrdered)
    (h : params.toJson.IsText text) : decodeText QuorumParams.decoder text = .ok params := by
  have hreads : Decoder.Reads QuorumParams.decoder 1 _ params := QuorumParams.reads hordered
  exact hreads.decodeText (by decide) h

theorem decodeText_proposal (hordered : p.HasOrderedParams) {voters : List Address}
    (hvoters : voters.Perm p.voters.toList) (h : (p.toJsonListing voters).IsText text) :
    decodeText Proposal.decoder text = .ok p := by
  have hreads : Decoder.Reads Proposal.decoder 2 _ p := Proposal.reads hordered hvoters
  exact hreads.decodeText (by decide) h

theorem hasOrderedParams_of_decodeText (h : decodeText Proposal.decoder text = .ok p) :
    p.HasOrderedParams := by
  obtain ⟨d, hread⟩ := Decoder.decodeText_eq_ok h
  exact Proposal.hasOrderedParams_of_decoder hread

theorem Indexer.hasOrderedParams_of_stored {s : Indexer} (start : Initial s)
    (stored : p ∈ (handleEach s events).proposals.toList) : p.HasOrderedParams := by
  have found : (handleEach s events).proposal? p.id = some p :=
    Registry.get?_eq_some.mpr ⟨stored, rfl⟩
  have hsync := (accepts_accepted s events).inSync start found
  exact fun params hparams => (hsync params hparams).1

/-- **JSON texts are read back.**  A log that was written is read back, and so its replay is that
    of the log itself.  A proposal that was written, with its voters in any order, is read back
    exactly if its parameters, as far as it has any, are in order; those of a stored proposal
    are.  The other way round, parameters that were read from any text, alone or in a
    proposal, are in order and in range, and what was read is read again once it is written. -/
theorem written_texts_read_back :
    (∀ (events : List LoggedEvent) text, (LoggedEvent.logToJson events).IsText text →
      decodeText LoggedEvent.logDecoder text = .ok events ∧
        ∀ seed, (decodeText LoggedEvent.logDecoder text).map (replay · seed) =
          .ok (replay events seed)) ∧
    (∀ (p : Proposal) voters text, voters.Perm p.voters.toList →
      (p.toJsonListing voters).IsText text →
        (decodeText Proposal.decoder text = .ok p ↔
          ∀ params ∈ p.quorumParams, params.minBps ≤ params.maxBps)) ∧
    (∀ s events p voters text, Indexer.Initial s →
      p ∈ (Indexer.handleEach s events).proposals.toList → voters.Perm p.voters.toList →
        (p.toJsonListing voters).IsText text → decodeText Proposal.decoder text = .ok p) ∧
    (∀ text params, decodeText QuorumParams.decoder text = .ok params →
      params.minBps ≤ params.maxBps ∧ params.maxBps.toNat ≤ 10000 ∧
        ∀ text', params.toJson.IsText text' →
          decodeText QuorumParams.decoder text' = .ok params) ∧
    (∀ text p, decodeText Proposal.decoder text = .ok p →
      (∀ params ∈ p.quorumParams,
        params.minBps ≤ params.maxBps ∧ params.maxBps.toNat ≤ 10000) ∧
        ∀ voters text', voters.Perm p.voters.toList → (p.toJsonListing voters).IsText text' →
          decodeText Proposal.decoder text' = .ok p) := by
  refine ⟨?_, ?_, ?_, ?_, ?_⟩
  · intro events text htext
    have hread := decodeText_log htext
    refine ⟨hread, fun seed => ?_⟩
    rw [hread]
    rfl
  · intro p voters text hvoters htext
    exact ⟨hasOrderedParams_of_decodeText, fun hordered =>
      decodeText_proposal hordered hvoters htext⟩
  · intro s events p voters text start stored hvoters htext
    exact decodeText_proposal (Indexer.hasOrderedParams_of_stored start stored) hvoters htext
  · intro text params hread
    obtain ⟨d, hdecoded⟩ := Decoder.decodeText_eq_ok hread
    -- what was read has its bounds in order, so it can be written and read again
    have hordered := QuorumParams.isOrdered_of_decoder hdecoded
    exact ⟨hordered, params.maxBps.le_denominator, fun text' => decodeText_params hordered⟩
  · intro text p hread
    have hordered := hasOrderedParams_of_decodeText hread
    refine ⟨fun params hparams => ⟨hordered params hparams, params.maxBps.le_denominator⟩, ?_⟩
    exact fun voters text' => decodeText_proposal hordered

/-- A log, a stored proposal with its two voters listed backwards, and parameters that were given
    as an array, with a hexadecimal slope; a proposal whose floor is the whole is refused. -/
theorem written_texts_read_back_trial :
    (∀ text, (LoggedEvent.logToJson Indexer.trialLog).IsText text →
      decodeText LoggedEvent.logDecoder text = .ok Indexer.trialLog) ∧
    (∃ p, (Indexer.handleEach (.withHistory Indexer.trialHistory) Indexer.trialLog).proposal? 1 =
        some p ∧
      p.quorumParams.isSome ∧ p.voters.size = 2 ∧
      decodeText Proposal.decoder (p.toJsonListing p.voters.toList.reverse).toText = .ok p ∧
      decodeText Proposal.decoder p.toJson.toIndentedText = .ok p) ∧
    (∃ params text, decodeText QuorumParams.decoder text = .ok params ∧
      params.toJson.toText ≠ text ∧
      decodeText QuorumParams.decoder params.toJson.toText = .ok params) ∧
    (∃ p : Proposal, decodeText Proposal.decoder p.toJson.toText ≠ .ok p) := by
  obtain ⟨hlog, hproposal, hstored, hparams, hagain⟩ := written_texts_read_back
  refine ⟨fun text htext => (hlog _ text htext).1, ?_, ?_, ?_⟩
  · have hfields : ((Indexer.handleEach (.withHistory Indexer.trialHistory)
        Indexer.trialLog).proposal? 1).map (fun p => (p.quorumParams.isSome, p.voters.size)) =
          some (true, 2) := by
      decide +kernel
    obtain ⟨p, found, hp⟩ := Option.map_eq_some_iff.mp hfields
    obtain ⟨hsome, hsize⟩ := Prod.mk.inj hp
    have hread : decodeText Proposal.decoder
        (p.toJsonListing p.voters.toList.reverse).toText = .ok p :=
      hstored _ _ p _ _ (.withHistory Indexer.trialHistory)
        (Registry.get?_eq_some.mp found).1 (List.reverse_perm _) (.inl rfl)
    refine ⟨p, found, hsome, hsize, hread, ?_⟩
    exact (hagain _ p hread).2 _ _ (List.Perm.refl _) (.inr rfl)
  · let written : Value := .array [.number 1500, .number 3000, .string "0x0F4240"]
    have hread : decodeText QuorumParams.decoder written.toText =
        .ok ⟨⟨1500, by decide⟩, ⟨3000, by decide⟩, .ofUInt64 1000000⟩ := by
      rw [decodeText, Document.read_of_isText (.inl rfl)]
      decide +kernel
    refine ⟨_, written.toText, hread, ?_, (hparams _ _ hread).2.2 _ (.inl rfl)⟩
    decide +kernel
  · let p : Proposal := { Proposal.create 1 .zero 0 0 0 .zero with
      quorumParams := some ⟨.whole, .zero, .zero⟩ }
    refine ⟨p, fun hread => ?_⟩
    have hordered := (hproposal p _ _ (List.Perm.refl _) (.inl rfl)).mp hread _ rfl
    exact absurd hordered (by decide)

end DynamicQuorum
