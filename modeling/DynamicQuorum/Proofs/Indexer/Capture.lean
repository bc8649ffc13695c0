/-
  DynamicQuorum/Proofs/Indexer/Capture.lean
  =========================================
  **The parameters a proposal was created with are those of its block, for good.**

  A creation reads the parameters in force at its block out of a history that later events go on
  to write.  In a log in order of its blocks they only write behind that block, unless a change
  of parameters follows a creation within one block.  Where that does not happen either, the
  history never gives another answer for the block than the one the proposal was created with.
-/
import DynamicQuorum.Proofs.Indexer.Progress
import DynamicQuorum.Proofs.Quorum.Updates

namespace DynamicQuorum

/-! ### What a creation takes -/

namespace Announcement

variable {a : Announcement} {block : BlockNumber} {inForce : Option QuorumParams} {p : Proposal}

theorem toProposal_createdBlock (h : a.toProposal block inForce = .ok p) :
    p.createdBlock = block := by
  obtain ⟨supply, rfl⟩ | ⟨supply, params, quorum, -, -, -, -, -, rfl⟩ := toProposal_cases h
  · rfl
  · rfl

/-- With a supply, a new proposal takes the parameters in force if they are dynamic. -/
theorem toProposal_quorumParams (h : a.toProposal block inForce = .ok p)
    (hsupply : a.totalSupply ≠ none) : p.quorumParams = inForce.filter (·.isDynamic) := by
  obtain ⟨supply, hsupply⟩ := Option.ne_none_iff_exists'.mp hsupply
  rw [toProposal, hsupply] at h
  dsimp only at h
  split at h
  next hnone =>
    cases h
    exact hnone.symm
  next params hsome =>
    obtain ⟨-, quorum, -, rfl⟩ := Proposal.withDynamicQuorum_eq_ok.mp h
    exact hsome.symm

end Announcement

namespace Indexer

variable {s t : Indexer} {e : LoggedEvent} {events : List LoggedEvent} {block : BlockNumber}

/-! ### What later events leave of the history -/

theorem Step.built (h : Step e s t) (hs : s.history.Built) : t.history.Built := by
  obtain ⟨c, -, hchange⟩ | ⟨-, hsame⟩ := h.history
  · exact .run (u := .change e.block c) hs hchange
  · rw [hsame]
    exact hs

theorem Step.paramsAt_of_later (h : Step e s t) (hs : s.history.Built)
    (hlater : e.event.change? ≠ none → block < e.block) :
    t.history.paramsAt block = s.history.paramsAt block := by
  obtain ⟨c, kind, hchange⟩ | ⟨-, hsame⟩ := h.history
  · have hbefore : block < e.block := hlater (by simp [kind])
    rw [ParamsHistory.Update.paramsAt_run (u := .change e.block c) hs.ascends hchange]
    exact if_neg (UInt64.not_le.mpr hbefore)
  · rw [hsame]

theorem Accepts.built (h : Accepts s events t) (hs : s.history.Built) : t.history.Built := by
  induction h with
  | nil s => exact hs
  | cons first run ih => exact ih ((handle_eq_ok.mp first).built hs)

theorem Accepts.paramsAt_of_later (h : Accepts s events t) (hs : s.history.Built)
    (hlater : ∀ e ∈ events, e.event.change? ≠ none → block < e.block) :
    t.history.paramsAt block = s.history.paramsAt block := by
  induction h with
  | nil s => rfl
  | cons first run ih =>
    obtain ⟨hfirst, hrest⟩ := List.forall_mem_cons.mp hlater
    have hstep := handle_eq_ok.mp first
    rw [ih (hstep.built hs) hrest, hstep.paramsAt_of_later hs hfirst]

/-! ### Logs in order -/

/-- The blocks of the log do not descend, and within a block no change of parameters follows a
    creation. -/
structure Chronological (events : List LoggedEvent) : Prop where
  ordered : events.Pairwise fun x y => x.block ≤ y.block
  settled : events.Pairwise fun x y => ∀ a, x.event = .proposalCreated a →
    y.event.change? ≠ none → y.block ≠ x.block

theorem Chronological.sublist {part : List LoggedEvent} (h : Chronological events)
    (hpart : part.Sublist events) : Chronological part :=
  ⟨h.ordered.sublist hpart, h.settled.sublist hpart⟩

theorem Chronological.changes_later {a : Announcement} {before after : List LoggedEvent}
    (h : Chronological (before ++ e :: after)) (kind : e.event = .proposalCreated a) :
    ∀ y ∈ after, y.event.change? ≠ none → e.block < y.block := by
  obtain ⟨hordered, -⟩ := List.pairwise_cons.mp (List.pairwise_append.mp h.ordered).2.1
  obtain ⟨hsettled, -⟩ := List.pairwise_cons.mp (List.pairwise_append.mp h.settled).2.1
  intro y hy hchange
  exact UInt64.lt_of_le_of_ne (hordered y hy) (hsettled y hy a kind hchange).symm

/-! ### The end of a log -/

/-- What an accepted creation took is what the history at the end has for its block. -/
theorem Accepts.captured {a : Announcement} (h : Accepts s events t) (hs : s.history.Built)
    (chronological : Chronological events) (he : e ∈ events)
    (kind : e.event = .proposalCreated a) :
    ∃ p, t.proposal? a.id = some p ∧ p.createdBlock = e.block ∧
      (a.totalSupply ≠ none →
        p.quorumParams = (t.history.paramsAt p.createdBlock).filter (·.isDynamic)) := by
  obtain ⟨before, after, rfl⟩ := List.append_of_mem he
  obtain ⟨u, v, new, hbefore, -, opened, hsame, found, hafter⟩ := h.creation kind
  obtain ⟨p, found', hgrows⟩ := hafter.grows found
  have hblock : p.createdBlock = e.block :=
    (congrArg Founding.createdBlock hgrows.founding).trans
      (Announcement.toProposal_createdBlock opened)
  refine ⟨p, found', hblock, ?_⟩
  intro hsupply
  have hparams : p.quorumParams = new.quorumParams :=
    congrArg Founding.quorumParams hgrows.founding
  have hv : v.history.Built := by
    rw [hsame]
    exact hbefore.built hs
  -- changes behind the creation belong to later blocks
  have hkept := hafter.paramsAt_of_later hv (chronological.changes_later kind)
  rw [hparams, hblock, hkept, hsame]
  exact Announcement.toProposal_quorumParams opened hsupply

/-- **Captured parameters agree with the final history.**  Handle a log past refusals, in which
    the blocks do not descend and no change of parameters follows a creation within its block.
    Every stored proposal then stems from an accepted creation.  If this came with a supply, the
    proposal has the parameters that the final history puts in force at its block, as
    far as they are dynamic, and none if there are no such parameters. -/
theorem captured_params_agree {p : Proposal} (start : Initial s) (built : s.history.Built)
    (chronological : Chronological events)
    (stored : p ∈ (handleEach s events).proposals.toList) :
    (∃ e ∈ accepted s events, ∃ a, e.event = .proposalCreated a ∧ a.id = p.id) ∧
      ∀ e ∈ accepted s events, ∀ a, e.event = .proposalCreated a → a.id = p.id →
        p.createdBlock = e.block ∧ (a.totalSupply ≠ none →
          p.quorumParams =
            ((handleEach s events).history.paramsAt p.createdBlock).filter (·.isDynamic)) := by
  have hrun := accepts_accepted s events
  have found : (handleEach s events).proposal? p.id = some p :=
    Registry.get?_eq_some.mpr ⟨stored, rfl⟩
  constructor
  · -- nothing was stored at the start, so the proposal was announced
    rcases hrun.origin found with ⟨q, hq⟩ | ⟨a, ha, hid⟩
    · rw [start.proposal? p.id] at hq
      cases hq
    · obtain ⟨e, he, kind⟩ := mem_announcements.mp ha
      exact ⟨e, he, a, kind, hid⟩
  · intro e he a kind hid
    obtain ⟨q, found', hq⟩ := hrun.captured built
      (chronological.sublist (accepted_sublist s events)) he kind
    rw [hid, found] at found'
    cases found'
    exact hq

/-- A floor of zero comes after the first vote; an earlier one is refused, for the history
    has a later checkpoint. -/
def trialChanges : List LoggedEvent :=
  [⟨5, 0, .minQuorumSet .zero .zero⟩, trialCreation, trialVote 1 .against 40,
    ⟨31, 0, .minQuorumSet .zero .zero⟩]

theorem captured_params_agree_trial :
    ∃ p, (handleEach (withHistory trialHistory) trialChanges).proposals.toList = [p] ∧
      p.createdBlock = 20 ∧
      p.quorumParams = ((handleEach (withHistory trialHistory) trialChanges).history.paramsAt
        p.createdBlock).filter (·.isDynamic) ∧
      p.quorumParams = trialHistory.paramsAt 10 ∧
      (handleEach (withHistory trialHistory) trialChanges).history.paramsAt 31 ≠
        trialHistory.paramsAt 10 := by
  have hbuilt : (withHistory trialHistory).history.Built :=
    .run (u := .write 10 trialHistory.latestParams) .empty rfl
  have hchronological : Chronological trialChanges := by
    constructor
    · decide
    · simp [trialChanges, trialCreation, trialVote, Event.change?]
  have hone : (handleEach (withHistory trialHistory) trialChanges).proposals.toList.map (·.id) =
      [1] := by decide +kernel
  obtain ⟨p, hp, hid⟩ := List.map_eq_singleton_iff.mp hone
  have hstored : p ∈ (handleEach (withHistory trialHistory) trialChanges).proposals.toList := by
    rw [hp]
    exact List.mem_singleton_self p
  obtain ⟨-, hcreations⟩ :=
    captured_params_agree (.withHistory trialHistory) hbuilt hchronological hstored
  have haccepted : trialCreation ∈ accepted (withHistory trialHistory) trialChanges := by
    decide +kernel
  obtain ⟨hblock, hparams⟩ := hcreations trialCreation haccepted _ rfl hid.symm
  have hcaptured := hparams (by decide)
  have hfinal : ((handleEach (withHistory trialHistory) trialChanges).history.paramsAt 20).filter
      (·.isDynamic) = trialHistory.paramsAt 10 := by decide +kernel
  refine ⟨p, hp, hblock, hcaptured, ?_, by decide +kernel⟩
  rw [hcaptured, hblock]
  exact hfinal

end Indexer

end DynamicQuorum
