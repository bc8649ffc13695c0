/-
  DynamicQuorum/Proofs/Indexer/Lifecycle.lean
  ===========================================
  **What the events on a proposal have made of it.**

  The events that set the status, the time of execution or the end of the objection period look
  at nothing that is stored, and no transition is guarded.  So each of the three fields is what
  the last event that sets it has set (`lastOn`).  Ballots write the status as well, but only over
  a pending one, so they show in it only while no other event has set it.

  `Traces` says this of a proposal and the log since its creation.  It holds of a new proposal and
  the empty log, an edit extends both sides, and every other event leaves both alone.  What links
  the status to the time of execution is read off the log: whatever queues a proposal sets a time,
  and nothing else does.  With that link the timeline of an open proposal is that of every
  reachable one, and no state is left undetermined.
-/
import DynamicQuorum.Proofs.Indexer.Conservation
import DynamicQuorum.Proofs.Proposal.Exchange
import DynamicQuorum.Proofs.Proposal.Timeline

namespace DynamicQuorum

namespace Event

/-! ### What events set -/

def statusSet? : Event → Option ProposalStatus
  | .proposalCanceled _ => some .cancelled
  | .proposalVetoed _ => some .vetoed
  | .proposalQueued _ _ => some .queued
  | .proposalExecuted _ => some .executed
  | _ => none

def etaSet? : Event → Option UInt64
  | .proposalQueued _ eta => some eta
  | _ => none

def objectionEndSet? : Event → Option BlockNumber
  | .objectionPeriodSet _ endBlock => some endBlock
  | _ => none

variable {e : Event} {p q : Proposal}

theorem not_isOpen_of_statusSet? {status : ProposalStatus} (h : e.statusSet? = some status) :
    ¬ status.IsOpen := by
  cases e <;> cases h <;> simp [ProposalStatus.IsOpen]

/-- A time of execution is set where a proposal is queued. -/
theorem etaSet?_ne_none_iff : e.etaSet? ≠ none ↔ e.statusSet? = some .queued := by
  cases e <;> simp [etaSet?, statusSet?]

theorem Edits.status (h : e.Edits p q) :
    q.status = e.statusSet?.getD
      (if p.status = .pending ∧ e.ballotOn? p.id ≠ none then .active else p.status) := by
  cases h with
  | ballot named count =>
    rw [Proposal.status_countBallot count]
    simp [statusSet?, ballotOn?, named]
  | lifecycle kind => cases e <;> cases kind <;> simp [statusSet?, ballotOn?]

theorem Edits.executionEta (h : e.Edits p q) :
    q.executionEta = e.etaSet?.or p.executionEta := by
  cases h with
  | ballot named count =>
    obtain ⟨-, tally, quorum, -, -, rfl⟩ := Proposal.countBallot_eq_ok.mp count
    rfl
  | lifecycle kind => cases e <;> cases kind <;> rfl

theorem Edits.objectionPeriodEnd (h : e.Edits p q) :
    q.objectionPeriodEnd = e.objectionEndSet?.getD p.objectionPeriodEnd := by
  cases h with
  | ballot named count =>
    obtain ⟨-, tally, quorum, -, -, rfl⟩ := Proposal.countBallot_eq_ok.mp count
    rfl
  | lifecycle kind => cases e <;> cases kind <;> rfl

end Event

namespace Indexer

variable {s t : Indexer} {e : LoggedEvent} {events log : List LoggedEvent} {id : UInt64}
  {p q : Proposal} {α : Type} {f : Event → Option α}

/-! ### The last event that sets a field -/

/-- What the last of the events on a proposal that sets a field has set. -/
def lastOn (id : UInt64) (f : Event → Option α) (log : List LoggedEvent) : Option α :=
  ((log.filter (·.event.proposalId? = some id)).filterMap (f ·.event)).getLast?

theorem lastOn_append_named (named : e.event.proposalId? = some id) :
    lastOn id f (log ++ [e]) = (f e.event).or (lastOn id f log) := by
  simp only [lastOn, List.filter_append, List.filterMap_append, List.getLast?_append]
  cases hset : f e.event <;> simp [named, hset]

theorem lastOn_append_other (hother : e.event.proposalId? ≠ some id) :
    lastOn id f (log ++ [e]) = lastOn id f log := by
  simp [lastOn, hother]

theorem lastOn_eq_none :
    lastOn id f log = none ↔ ∀ e ∈ log, e.event.proposalId? = some id → f e.event = none := by
  simp [lastOn]

theorem exists_of_lastOn {a : α} (h : lastOn id f log = some a) :
    ∃ e ∈ log, e.event.proposalId? = some id ∧ f e.event = some a := by
  have hmem := List.mem_of_getLast? h
  simp only [List.mem_filterMap, List.mem_filter, decide_eq_true_eq] at hmem
  obtain ⟨e, ⟨he, named⟩, hset⟩ := hmem
  exact ⟨e, he, named, hset⟩

def statusAfter (id : UInt64) (log : List LoggedEvent) : ProposalStatus :=
  (lastOn id Event.statusSet? log).getD (if ballotsOn id log = [] then .pending else .active)

theorem isOpen_statusAfter :
    (statusAfter id log).IsOpen ↔ lastOn id Event.statusSet? log = none := by
  rw [statusAfter]
  cases hlast : lastOn id Event.statusSet? log with
  | some status =>
    obtain ⟨x, -, -, hx⟩ := exists_of_lastOn hlast
    simpa using Event.not_isOpen_of_statusSet? hx
  | none => by_cases hcast : ballotsOn id log = [] <;> simp [hcast, ProposalStatus.IsOpen]

/-- One more event on the proposal does to the status what `Event.Edits.status` says. -/
theorem statusAfter_append_named (named : e.event.proposalId? = some id) :
    statusAfter id (log ++ [e]) = e.event.statusSet?.getD
      (if statusAfter id log = .pending ∧ e.event.ballotOn? id ≠ none then .active
        else statusAfter id log) := by
  cases hset : e.event.statusSet? with
  | some status => simp [statusAfter, lastOn_append_named named, hset]
  | none =>
    cases hlast : lastOn id Event.statusSet? log with
    | some status =>
      -- a status that was set is not pending, so a ballot leaves it
      obtain ⟨x, -, -, hx⟩ := exists_of_lastOn hlast
      have hclosed : status ≠ .pending := by
        rintro rfl
        exact Event.not_isOpen_of_statusSet? hx (.inl rfl)
      simp [statusAfter, lastOn_append_named named, hset, hlast, hclosed]
    | none =>
      cases hballot : e.event.ballotOn? id <;> by_cases hcast : ballotsOn id log = [] <;>
        simp_all [statusAfter, lastOn_append_named, ballotsOn]

structure Traces (id : UInt64) (log : List LoggedEvent) (p : Proposal) : Prop where
  status : p.status = statusAfter id log
  eta : p.executionEta = lastOn id Event.etaSet? log
  objectionEnd : p.objectionPeriodEnd = (lastOn id Event.objectionEndSet? log).getD 0

/-! ### Extending the log -/

theorem Traces.of_toProposal {a : Announcement} {block : BlockNumber}
    {inForce : Option QuorumParams} (h : a.toProposal block inForce = .ok p) :
    Traces id [] p := by
  rcases Announcement.toProposal_cases h with
    ⟨supply, rfl⟩ | ⟨supply, params, quorum, -, -, -, -, -, rfl⟩
  · exact ⟨rfl, rfl, rfl⟩
  · exact ⟨rfl, rfl, rfl⟩

theorem Traces.edits (h : Traces p.id log p) (edit : e.event.Edits p q) :
    Traces p.id (log ++ [e]) q := by
  have named := edit.proposalId?
  refine ⟨?_, ?_, ?_⟩
  · rw [edit.status, h.status, statusAfter_append_named named]
  · rw [edit.executionEta, h.eta, lastOn_append_named named]
  · rw [edit.objectionPeriodEnd, h.objectionEnd, lastOn_append_named named]
    cases e.event.objectionEndSet? <;> rfl

theorem Traces.other (h : Traces id log p) (hother : e.event.proposalId? ≠ some id) :
    Traces id (log ++ [e]) p := by
  have hballots : ballotsOn id (log ++ [e]) = ballotsOn id log := by
    simp [ballotsOn, Event.ballotOn?_of_other hother]
  refine ⟨?_, ?_, ?_⟩
  · rw [h.status, statusAfter, statusAfter, lastOn_append_other hother, hballots]
  · rw [h.eta, lastOn_append_other hother]
  · rw [h.objectionEnd, lastOn_append_other hother]

theorem Traces.run (hp : Traces id log p) (h : Accepts s events t)
    (found : s.proposal? id = some p) :
    ∃ q, t.proposal? id = some q ∧ Traces id (log ++ events) q := by
  induction h generalizing p log with
  | nil s => exact ⟨p, found, by simpa using hp⟩
  | @cons s t u e rest first run ih =>
    have hstep := handle_eq_ok.mp first
    by_cases named : e.event.proposalId? = some id
    · obtain ⟨q, edit, found'⟩ := hstep.edits named found
      obtain rfl := id_of_proposal? found
      simpa using ih (hp.edits edit) found'
    · simpa using ih (hp.other named) ((hstep.frame named).trans found)

/-- The accepted log falls into what came before the creation of a proposal and did not name it,
    and what has come since, which has left its traces. -/
theorem Accepts.traces (start : Initial s) (h : Accepts s events t)
    (found : t.proposal? id = some p) :
    ∃ before e after a, events = before ++ e :: after ∧ e.event = .proposalCreated a ∧
      a.id = id ∧ (∀ x ∈ before, x.event.proposalId? ≠ some id) ∧ Traces id after p := by
  rcases h.origin found with ⟨q, hq⟩ | ⟨a, ha, rfl⟩
  · rw [start.proposal? id] at hq
    cases hq
  · obtain ⟨e, he, kind⟩ := mem_announcements.mp ha
    obtain ⟨before, after, rfl⟩ := List.append_of_mem he
    obtain ⟨u, v, q, hbefore, fresh, opened, -, stored, hafter⟩ := h.creation kind
    -- no field is set at the creation, and the rest of the log is traced from there
    obtain ⟨r, found', hr⟩ := (Traces.of_toProposal opened).run hafter stored
    cases found.symm.trans found'
    exact ⟨before, e, after, a, rfl, kind, rfl, hbefore.unnamed fresh, by simpa using hr⟩

/-! ### The status and the time of execution -/

theorem Traces.isOpen_iff (h : Traces id log p) :
    p.status.IsOpen ↔ lastOn id Event.statusSet? log = none := by
  rw [h.status, isOpen_statusAfter]

theorem Traces.eta_of_isOpen (h : Traces id log p) (hopen : p.status.IsOpen) :
    p.executionEta = none := by
  have hunset := lastOn_eq_none.mp (h.isOpen_iff.mp hopen)
  rw [h.eta, lastOn_eq_none]
  intro e he named
  by_contra hset
  rw [← ne_eq, Event.etaSet?_ne_none_iff, hunset e he named] at hset
  cases hset

/-- A queued proposal has a time, for the event that queued it also set the time. -/
theorem Traces.eta_of_queued (h : Traces id log p) (hqueued : p.status = .queued) :
    p.executionEta ≠ none := by
  cases hlast : lastOn id Event.statusSet? log with
  | none =>
    -- without such an event the proposal is still open
    have hopen := h.isOpen_iff.mpr hlast
    rw [hqueued] at hopen
    rcases hopen with hopen | hopen <;> cases hopen
  | some status =>
    have hstatus := h.status
    rw [statusAfter, hlast, hqueued] at hstatus
    cases hstatus
    obtain ⟨e, he, named, hset⟩ := exists_of_lastOn hlast
    rw [h.eta]
    intro hnone
    exact Event.etaSet?_ne_none_iff.mpr hset (lastOn_eq_none.mp hnone e he named)

theorem Step.status_of_vote {b : Ballot} (h : Step e s t) (vote : e.event = .voteCast b)
    (found : s.proposal? b.proposalId = some p) (hset : p.status ≠ .pending) :
    ∃ q, t.proposal? b.proposalId = some q ∧ q.status = p.status := by
  obtain ⟨q, edit, found'⟩ := h.edits (by rw [vote]; rfl) found
  refine ⟨q, found', ?_⟩
  rw [edit.status, vote]
  simp [Event.statusSet?, hset]

/-! ### Every reachable proposal -/

/-- **The trace of a proposal determines its lifecycle fields.**  Handle any log past its refusals.
    The accepted events since the creation of a stored proposal tell its status: it is the one
    that the last cancellation, veto, queueing or execution has set, and without any of them it
    says whether there was a ballot.  They also tell the time of execution and the end of the
    objection period.  So a further ballot leaves a status that was set, a queued proposal has a
    time of execution, and an open one has none. -/
theorem trace_determines_lifecycle (start : Initial s) (events : List LoggedEvent)
    (stored : (handleEach s events).proposal? id = some p) :
    (∃ before e after a, accepted s events = before ++ e :: after ∧
      e.event = .proposalCreated a ∧ a.id = id ∧
      (∀ x ∈ before, x.event.proposalId? ≠ some id) ∧
      p.status = (lastOn id Event.statusSet? after).getD
        (if ballotsOn id after = [] then .pending else .active) ∧
      p.executionEta = lastOn id Event.etaSet? after ∧
      p.objectionPeriodEnd = (lastOn id Event.objectionEndSet? after).getD 0) ∧
    (∀ e b t, e.event = .voteCast b → b.proposalId = id →
      handle e (handleEach s events) = .ok () t →
      (∃ x ∈ accepted s events, x.event.proposalId? = some id ∧ x.event.statusSet? ≠ none) →
      ∃ q, t.proposal? id = some q ∧ q.status = p.status) ∧
    (p.status = .queued → p.executionEta ≠ none) ∧
    (p.status = .pending ∨ p.status = .active → p.executionEta = none) := by
  obtain ⟨before, e, after, a, hlog, kind, named, hbefore, htraces⟩ :=
    (accepts_accepted s events).traces start stored
  refine ⟨⟨before, e, after, a, hlog, kind, named, hbefore, htraces.status, htraces.eta,
    htraces.objectionEnd⟩, ?_, htraces.eta_of_queued, htraces.eta_of_isOpen⟩
  rintro v b t vote rfl hok ⟨x, hx, hnamed, hset⟩
  refine (handle_eq_ok.mp hok).status_of_vote vote stored ?_
  intro hpending
  have hunset := lastOn_eq_none.mp (htraces.isOpen_iff.mp (.inl hpending))
  rw [hlog, List.mem_append, List.mem_cons] at hx
  rcases hx with hx | rfl | hx
  · exact hbefore x hx hnamed
  · rw [kind] at hset
    exact hset rfl
  · exact hset (hunset x hx hnamed)

def trialLifecycle : List LoggedEvent :=
  [trialCreation, trialVote 1 .for 160, ⟨36, 0, .objectionPeriodSet 1 40⟩,
    ⟨45, 0, .proposalQueued 1 500⟩, ⟨46, 0, .proposalVetoed 1⟩]

theorem trace_determines_lifecycle_trial :
    ∃ p t q, (handleEach (withHistory trialHistory) trialLifecycle).proposal? 1 = some p ∧
      p.status = .vetoed ∧ p.executionEta = some 500 ∧ p.objectionPeriodEnd = 40 ∧
      handle (trialVote 3 .for 5) (handleEach (withHistory trialHistory) trialLifecycle) =
        .ok () t ∧ t.proposal? 1 = some q ∧ q.status = .vetoed := by
  have hstored : ((handleEach (withHistory trialHistory) trialLifecycle).proposal? 1).isSome =
      true := by decide +kernel
  have hvote : (handle (trialVote 3 .for 5)).makes
      (handleEach (withHistory trialHistory) trialLifecycle) =
        .ok ((handle (trialVote 3 .for 5)).leaves
          (handleEach (withHistory trialHistory) trialLifecycle)) := by decide +kernel
  have hlog : accepted (withHistory trialHistory) trialLifecycle = trialLifecycle := by
    decide +kernel
  obtain ⟨p, stored⟩ := Option.isSome_iff_exists.mp hstored
  obtain ⟨⟨⟩, hok⟩ := InPlace.makes_eq_ok.mp hvote
  obtain ⟨⟨before, e, after, a, hsplit, -, -, hbefore, hstatus, heta, hobjection⟩, hkept, -, -⟩ :=
    trace_determines_lifecycle (.withHistory trialHistory) trialLifecycle stored
  rw [hlog] at hsplit hkept
  cases before with
  | cons x before =>
    obtain ⟨rfl, -⟩ := List.cons.inj hsplit
    exact absurd rfl (hbefore trialCreation List.mem_cons_self)
  | nil =>
    cases hsplit
    have hvetoed : p.status = .vetoed := hstatus.trans (by decide +kernel)
    obtain ⟨q, found, hq⟩ := hkept (trialVote 3 .for 5) (trialBallot 3 .for 5) _ rfl rfl hok
      ⟨⟨46, 0, .proposalVetoed 1⟩, by simp [trialLifecycle], rfl, by decide⟩
    exact ⟨p, _, q, stored, hvetoed, heta.trans (by decide +kernel),
      hobjection.trans (by decide +kernel), hok, found, hq.trans hvetoed⟩

/-- **The state of a proposal moves one way.**  Take a proposal that any log has left open, and a
    governor that either has update and objection periods or has not.  From the time in which it
    may be edited it moves on to the wait, the vote, the objections and the verdict; a later
    block never shows an earlier stage, and a verdict stands.  Behind the ends of all windows the
    state is the verdict of the votes.  No reachable proposal, open or not, is undetermined once
    the block and the time are known. -/
theorem state_moves_one_way (start : Initial s) (events : List LoggedEvent)
    (stored : (handleEach s events).proposal? id = some p) :
    (p.status = .pending ∨ p.status = .active →
      (∀ (view other : ChainView) (block later : BlockNumber), view.block = some block →
        other.block = some later → other.daoV3 = view.daoV3 → block ≤ later →
        ∃ i j, (p.stateAt view).stage? = some i ∧ (p.stateAt other).stage? = some j ∧ i ≤ j ∧
          (i = 4 → p.stateAt other = p.stateAt view)) ∧
      ∀ (view : ChainView) (block : BlockNumber), view.block = some block →
        p.startBlock < block → p.endBlock < block → p.objectionPeriodEnd < block →
        (view.daoV3 = true → p.updatePeriodEnd < block) →
        p.stateAt view = if p.isDefeated then .defeated else .succeeded) ∧
    ∀ (view : ChainView) (block now : UInt64), view.block = some block →
      view.timestamp = some now → p.stateAt view ≠ .undetermined := by
  obtain ⟨-, -, after, -, -, -, -, -, htraces⟩ := (accepts_accepted s events).traces start stored
  constructor
  · intro hopen
    have heta := htraces.eta_of_isOpen hopen
    constructor
    · intro view other block later hblock hlater hv3 hle
      rw [Proposal.stateAt_of_isOpen hopen, Proposal.stateAt_of_isOpen hopen]
      exact Proposal.openState_later hv3 hblock hlater hle heta
    · intro view block hblock hstart hend hobjection hupdate
      rw [Proposal.stateAt_of_isOpen hopen]
      exact Proposal.openState_of_ends_lt hblock heta hstart hend hobjection hupdate
  · intro view block now hblock hnow
    cases hstatus : p.status with
    -- an open proposal asks for the block, a queued one for the time
    | pending | active =>
      have hopen : p.status.IsOpen := by simp [ProposalStatus.IsOpen, hstatus]
      rw [Proposal.stateAt_of_isOpen hopen]
      exact Proposal.openState_ne_undetermined hblock (htraces.eta_of_isOpen hopen)
    | queued =>
      obtain ⟨eta, heta⟩ := Option.ne_none_iff_exists'.mp (htraces.eta_of_queued hstatus)
      rw [Proposal.stateAt, hstatus]
      exact Proposal.queuedState_ne_undetermined hnow heta
    | cancelled | vetoed | executed => simp [Proposal.stateAt, hstatus]

/-- The objection period ends before voting does, so the vote is followed by the verdict. -/
theorem state_moves_one_way_trial :
    ∃ p, (handleEach (withHistory trialHistory)
        (trialLog ++ [⟨31, 0, .objectionPeriodSet 1 33⟩])).proposal? 1 = some p ∧
      (∃ i j, (p.stateAt { block := some 34, daoV3 := true }).stage? = some i ∧
        (p.stateAt { block := some 36, daoV3 := true }).stage? = some j ∧ i ≤ j) ∧
      p.stateAt { block := some 36, daoV3 := true } = .defeated ∧
      p.stateAt { block := some 36, timestamp := some 7 } ≠ .undetermined := by
  have hfields : ((handleEach (withHistory trialHistory)
      (trialLog ++ [⟨31, 0, .objectionPeriodSet 1 33⟩])).proposal? 1).map
        (fun p => (p.status, p.startBlock, p.endBlock, p.updatePeriodEnd, p.objectionPeriodEnd,
          p.isDefeated)) = some (.active, 25, 35, 0, 33, true) := by decide +kernel
  obtain ⟨p, stored, hp⟩ := Option.map_eq_some_iff.mp hfields
  simp only [Prod.mk.injEq] at hp
  obtain ⟨hstatus, hstart, hend, hupdate, hobjection, hdefeated⟩ := hp
  obtain ⟨hopen, hdetermined⟩ := state_moves_one_way (.withHistory trialHistory)
    (trialLog ++ [⟨31, 0, .objectionPeriodSet 1 33⟩]) stored
  obtain ⟨hlater, hends⟩ := hopen (.inr hstatus)
  obtain ⟨i, j, hi, hj, hle, -⟩ := hlater { block := some 34, daoV3 := true }
    { block := some 36, daoV3 := true } 34 36 rfl rfl rfl (by decide)
  have hverdict := hends { block := some 36, daoV3 := true } 36 rfl (by rw [hstart]; decide)
    (by rw [hend]; decide) (by rw [hobjection]; decide) (fun _ => by rw [hupdate]; decide)
  rw [hdefeated] at hverdict
  exact ⟨p, stored, ⟨i, j, hi, hj, hle⟩, hverdict,
    hdetermined { block := some 36, timestamp := some 7 } 36 7 rfl rfl⟩

end Indexer

end DynamicQuorum
