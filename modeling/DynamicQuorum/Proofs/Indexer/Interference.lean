/-
  DynamicQuorum/Proofs/Indexer/Interference.lean
  ==============================================
  **Proposals do not interfere.**

  What becomes of a proposal depends on the events that name it, and until it is created on the
  parameters.  Two states are alike for an id if they agree on the proposal, and on the history as
  long as there is none.  An event that concerns the id is accepted in both of two such states or
  in neither, and leads to states that are alike again; every other event can be left out on
  one side.
-/
import DynamicQuorum.Proofs.Indexer.Run

namespace DynamicQuorum.Indexer

variable {s t s' : Indexer} {e : LoggedEvent} {id : UInt64}

/-! ### States that are alike for a proposal -/

/-- A stored proposal stays stored, also past refusals. -/
theorem proposal?_leaves_ne_none (e : LoggedEvent) (stored : s.proposal? id ≠ none) :
    ((handle e).leaves s).proposal? id ≠ none := by
  obtain ⟨p, found⟩ := Option.ne_none_iff_exists'.mp stored
  obtain ⟨t, hstep, hleaves⟩ | ⟨-, hleaves⟩ := leaves_cases e s
  · obtain ⟨q, found', -⟩ := hstep.follow found
    rw [hleaves, found']
    exact Option.some_ne_none q
  · rwa [hleaves]

/-- The states agree on what is stored under `id`, and on the history while nothing is. -/
structure Alike (id : UInt64) (s s' : Indexer) : Prop where
  proposal : s'.proposal? id = s.proposal? id
  history : s.proposal? id = none → s'.history = s.history

theorem Alike.refl (id : UInt64) (s : Indexer) : Alike id s s := ⟨rfl, fun _ => rfl⟩

theorem Alike.symm (h : Alike id s s') : Alike id s' s :=
  ⟨h.proposal.symm, fun missing => (h.history (h.proposal ▸ missing)).symm⟩

theorem Alike.of_stored {p : Proposal} (found : s.proposal? id = some p)
    (found' : s'.proposal? id = some p) : Alike id s s' := by
  refine ⟨found'.trans found.symm, fun missing => ?_⟩
  rw [found] at missing
  cases missing

def Concerns (e : LoggedEvent) (id : UInt64) (s : Indexer) : Prop :=
  e.event.proposalId? = some id ∨ (e.event.change? ≠ none ∧ s.proposal? id = none)

/-- An accepted event that concerns the proposal is accepted in a state that is alike. -/
theorem Alike.transfer (h : Alike id s s') (hconcerns : Concerns e id s) (hstep : Step e s t) :
    ∃ t', Step e s' t' ∧ Alike id t t' := by
  rcases hconcerns with named | ⟨hchange, missing⟩
  · cases hbefore : s.proposal? id with
    | some p =>
      obtain ⟨q, edit, found⟩ := hstep.edits named hbefore
      obtain rfl := id_of_proposal? hbefore
      have found' : (s'.store q).counted.proposal? p.id = some q := by simp [edit.id_eq]
      exact ⟨_, .edited edit (h.proposal.trans hbefore), .of_stored found found'⟩
    | none =>
      obtain ⟨a, p, kind, rfl, opened, found⟩ := hstep.opens named hbefore
      have found' : (s'.store p).counted.proposal? a.id = some p := by
        simp [Announcement.toProposal_id opened]
      rw [← h.history hbefore] at opened
      exact ⟨_, .created kind (h.proposal.trans hbefore) opened, .of_stored found found'⟩
  · -- a change of parameters: the histories agree while nothing is stored
    obtain ⟨c, kind, write⟩ | ⟨kind, -⟩ := hstep.history
    · have hother : e.event.proposalId? ≠ some id := by
        rw [Event.proposalId?_of_change? kind]
        exact nofun
      rw [← h.history missing] at write
      exact ⟨_, .changed kind write, h.proposal.trans (hstep.frame hother).symm, fun _ => rfl⟩
    · exact absurd kind hchange

/-- An event that does not concern the proposal may be left out. -/
theorem Alike.skip (h : Alike id s s') (hother : ¬ Concerns e id s) :
    Alike id ((handle e).leaves s) s' := by
  obtain ⟨t, hstep, hleaves⟩ | ⟨-, hleaves⟩ := leaves_cases e s
  · have hframe := hstep.frame fun named => hother (.inl named)
    rw [hleaves]
    refine ⟨h.proposal.trans hframe.symm, fun missing => ?_⟩
    rw [hframe] at missing
    obtain ⟨c, kind, -⟩ | ⟨-, hhistory⟩ := hstep.history
    · exact absurd (.inr ⟨by simp [kind], missing⟩) hother
    · rw [h.history missing, hhistory]
  · rwa [hleaves]

/-- States that agree still do after one more event, refused or not. -/
theorem Alike.event (h : Alike id s s') (e : LoggedEvent) :
    Alike id ((handle e).leaves s) ((handle e).leaves s') := by
  by_cases hconcerns : Concerns e id s
  · have hconcerns' : Concerns e id s' := by rwa [Concerns, h.proposal]
    obtain ⟨t, hstep, hleaves⟩ | ⟨hrefused, hleaves⟩ := leaves_cases e s
    · obtain ⟨t', hstep', halike⟩ := h.transfer hconcerns hstep
      rwa [hleaves, leaves_of_step hstep']
    · obtain ⟨t', hstep', -⟩ | ⟨-, hleaves'⟩ := leaves_cases e s'
      · -- what is accepted on one side only cannot concern the proposal
        obtain ⟨t, hstep, -⟩ := h.symm.transfer hconcerns' hstep'
        exact absurd hstep (hrefused t)
      · rwa [hleaves, hleaves']
  · have hother' : ¬ Concerns e id s' := by rwa [Concerns, h.proposal]
    exact ((h.skip hconcerns).symm.skip hother').symm

theorem Alike.log (h : Alike id s s') (events : List LoggedEvent) :
    Alike id (handleEach s events) (handleEach s' events) := by
  induction events generalizing s s' with
  | nil => exact h
  | cons e rest ih => exact ih (h.event e)

/-! ### The part of a log that matters to a proposal -/

def opens (id : UInt64) (s : Indexer) (e : LoggedEvent) : Bool :=
  match e.event, handle e s with
  | .proposalCreated a, .ok _ _ => a.id = id
  | _, _ => false

/-- The events that name `id`, and the changes of parameters before the accepted creation. -/
def relevantTo (id : UInt64) (s : Indexer) : List LoggedEvent → List LoggedEvent
  | [] => []
  | e :: rest =>
    if opens id s e then e :: rest.filter (·.event.proposalId? = some id)
    else if e.event.proposalId? = some id ∨ e.event.change?.isSome then
      e :: relevantTo id ((handle e).leaves s) rest
    else relevantTo id ((handle e).leaves s) rest

theorem stored_of_opens (h : opens id s e) : ((handle e).leaves s).proposal? id ≠ none := by
  rw [opens] at h
  split at h
  next a _ t kind hok =>
    obtain rfl : a.id = id := by simpa using h
    have hstep := handle_eq_ok.mp hok
    obtain ⟨p, -, -, found⟩ := hstep.creates kind
    rw [leaves_of_step hstep, found]
    exact Option.some_ne_none p
  next => cases h

/-- Once the proposal is there, only the events that name it matter. -/
theorem Alike.named (h : Alike id s s') (stored : s.proposal? id ≠ none)
    (events : List LoggedEvent) :
    Alike id (handleEach s events)
      (handleEach s' (events.filter (·.event.proposalId? = some id))) := by
  induction events generalizing s s' with
  | nil => exact h
  | cons e rest ih =>
    have stored' := proposal?_leaves_ne_none e stored
    by_cases named : e.event.proposalId? = some id
    · rw [List.filter_cons_of_pos (by simpa using named)]
      exact ih (h.event e) stored'
    · rw [List.filter_cons_of_neg (by simpa using named)]
      refine ih (h.skip ?_) stored'
      rintro (hnamed | ⟨-, missing⟩)
      · exact named hnamed
      · exact stored missing

theorem Alike.relevant (h : Alike id s s') (events : List LoggedEvent) :
    Alike id (handleEach s events) (handleEach s' (relevantTo id s events)) := by
  induction events generalizing s s' with
  | nil => exact h
  | cons e rest ih =>
    rw [relevantTo]
    split
    -- once the proposal is stored, the history no longer matters
    next hopens => exact (h.event e).named (stored_of_opens hopens) rest
    next =>
      split
      next => exact ih (h.event e)
      next hother =>
        refine ih (h.skip ?_)
        rintro (named | ⟨hchange, -⟩)
        · exact hother (.inl named)
        · exact hother (.inr (Option.isSome_iff_ne_none.mpr hchange))

/-- **Proposals do not interfere.**  Handle any log past its refusals.  What is stored under an id
    is what the events that name it leave there, together with the changes of parameters before
    its accepted creation.  So an event that names another proposal, or changes parameters after
    the creation, can be taken out of the log without any effect on the proposal. -/
theorem proposals_do_not_interfere (s : Indexer) (id : UInt64) (events : List LoggedEvent) :
    (handleEach s events).proposal? id = (handleEach s (relevantTo id s events)).proposal? id ∧
    ∀ before e after, events = before ++ e :: after → e.event.proposalId? ≠ some id →
      (e.event.change? = none ∨ (handleEach s before).proposal? id ≠ none) →
      (handleEach s events).proposal? id = (handleEach s (before ++ after)).proposal? id := by
  constructor
  · exact ((Alike.refl id s).relevant events).proposal.symm
  · rintro before e after rfl named hchange
    have hskip : Alike id ((handle e).leaves (handleEach s before)) (handleEach s before) := by
      refine (Alike.refl id _).skip ?_
      rintro (hnamed | ⟨hchanged, missing⟩)
      · exact named hnamed
      · rcases hchange with hnone | stored
        · exact hchanged hnone
        · exact stored missing
    rw [handleEach, handleEach, List.foldl_append, List.foldl_append, List.foldl_cons]
    exact (hskip.log after).proposal.symm

def trialChange : LoggedEvent := ⟨22, 0, .minQuorumSet .zero .zero⟩

/-- The quorum of 210 votes still rests on the floor at creation. -/
theorem proposals_do_not_interfere_trial :
    ∃ p, (handleEach (withHistory trialHistory)
        [trialCreation, trialChange, trialVote 2 .against 60]).proposal? 1 = some p ∧
      (handleEach (withHistory trialHistory)
        [trialCreation, trialVote 2 .against 60]).proposal? 1 = some p ∧
      p.quorumVotes = .ofUInt64 210 := by
  have hvotes : ((handleEach (withHistory trialHistory)
      [trialCreation, trialVote 2 .against 60]).proposal? 1).map (·.quorumVotes) =
        some (.ofUInt64 210) := by decide +kernel
  have hcreated : (handleEach (withHistory trialHistory) [trialCreation]).proposal? 1 ≠ none := by
    decide +kernel
  obtain ⟨p, found, hp⟩ := Option.map_eq_some_iff.mp hvotes
  obtain ⟨-, hout⟩ := proposals_do_not_interfere (withHistory trialHistory) 1
    [trialCreation, trialChange, trialVote 2 .against 60]
  have hsame := hout [trialCreation] trialChange [trialVote 2 .against 60] rfl nofun (.inr hcreated)
  exact ⟨p, hsame.trans found, found, hp⟩

end DynamicQuorum.Indexer
