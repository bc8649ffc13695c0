/-
  DynamicQuorum/Proofs/Indexer/Run.lean
  =====================================
  **Runs of the indexer, and where they stop.**

  `Accepts s events t` says that the events are accepted one after another, from `s` to `t`.
  Since a refusal leaves the state as it was, a log that is handled up to its first refusal
  ends where its accepted prefix does, and one that is handled past refusals ends where its
  accepted events alone would have led.  So what is proved of accepted events holds of every
  log.
-/
import DynamicQuorum.Proofs.Indexer.Step

namespace DynamicQuorum.Indexer

open InPlace

variable {s t u : Indexer} {e : LoggedEvent} {events rest : List LoggedEvent} {id : UInt64}
  {p q : Proposal}

/-- The events are accepted one after another. -/
inductive Accepts : Indexer → List LoggedEvent → Indexer → Prop
  | nil (s : Indexer) : Accepts s [] s
  | cons {s t u : Indexer} {e : LoggedEvent} {rest : List LoggedEvent}
      (first : handle e s = .ok () t) (run : Accepts t rest u) : Accepts s (e :: rest) u

/-! ### Up to the first refusal -/

theorem handleAll_eq_ok : handleAll events s = .ok () t ↔ Accepts s events t := by
  constructor
  · intro h
    induction events generalizing s with
    | nil =>
      cases h
      exact .nil t
    | cons e rest ih =>
      obtain ⟨⟨⟩, u, first, h⟩ := bind_eq_ok.mp h
      exact .cons first (ih h)
  · intro h
    induction h with
    | nil s => rfl
    | cons first run ih => exact bind_eq_ok.mpr ⟨(), _, first, ih⟩

/-- A refused log has an accepted prefix, and the next event is refused where it ends. -/
theorem handleAll_eq_error {cause : GovernanceError} :
    handleAll events s = .error cause t ↔ ∃ before e after, events = before ++ e :: after ∧
      Accepts s before t ∧ handle e t = .error cause t := by
  constructor
  · intro h
    induction events generalizing s with
    | nil => cases h
    | cons e rest ih =>
      rcases bind_eq_error.mp h with hfirst | ⟨⟨⟩, u, first, hrest⟩
      · -- the refused event leaves the state that it found
        obtain rfl := handle_atomic e _ _ _ hfirst
        exact ⟨[], e, rest, rfl, .nil t, hfirst⟩
      · obtain ⟨before, e', after, rfl, run, hrefused⟩ := ih hrest
        exact ⟨e :: before, e', after, rfl, .cons first run, hrefused⟩
  · rintro ⟨before, e, after, rfl, run, hrefused⟩
    induction run with
    | nil s => exact bind_eq_error.mpr (.inl hrefused)
    | cons first run ih => exact bind_eq_error.mpr (.inr ⟨(), _, first, ih hrefused⟩)

/-- A log of two parts is accepted one part after the other. -/
theorem accepts_append {before after : List LoggedEvent} :
    Accepts s (before ++ after) u ↔ ∃ t, Accepts s before t ∧ Accepts t after u := by
  constructor
  · intro h
    induction before generalizing s with
    | nil => exact ⟨s, .nil s, h⟩
    | cons e rest ih =>
      cases h with
      | cons first run =>
        obtain ⟨t, hrest, hafter⟩ := ih run
        exact ⟨t, .cons first hrest, hafter⟩
  · rintro ⟨t, hbefore, hafter⟩
    induction hbefore with
    | nil s => exact hafter
    | cons first run ih => exact .cons first (ih hafter)

/-! ### Past refusals -/

/-- The events of a log that are accepted when it is handled past refusals. -/
def accepted (s : Indexer) : List LoggedEvent → List LoggedEvent
  | [] => []
  | e :: rest =>
    match handle e s with
    | .ok _ t => e :: accepted t rest
    | .error _ t => accepted t rest

/-- Refused events have no effect. -/
theorem accepts_accepted (s : Indexer) (events : List LoggedEvent) :
    Accepts s (accepted s events) (handleEach s events) := by
  induction events generalizing s with
  | nil => exact .nil s
  | cons e rest ih =>
    rw [accepted, handleEach, List.foldl_cons, leaves]
    cases h : handle e s with
    | ok a t => exact .cons h (ih t)
    | error cause t =>
      obtain rfl := handle_atomic e _ _ _ h
      exact ih t

theorem accepted_sublist (s : Indexer) (events : List LoggedEvent) :
    (accepted s events).Sublist events := by
  induction events generalizing s with
  | nil => exact .slnil
  | cons e rest ih =>
    rw [accepted]
    cases handle e s with
    | ok _ t => exact (ih t).cons_cons e
    | error cause t => exact (ih t).cons e

theorem leaves_of_step (h : Step e s t) : (handle e).leaves s = t := by
  rw [leaves, handle_eq_ok.mpr h]

/-- An event is accepted, or it leaves the state as it was. -/
theorem leaves_cases (e : LoggedEvent) (s : Indexer) :
    (∃ t, Step e s t ∧ (handle e).leaves s = t) ∨
      ((∀ t, ¬ Step e s t) ∧ (handle e).leaves s = s) := by
  cases h : handle e s with
  | ok _ t =>
    have hstep := handle_eq_ok.mp h
    exact .inl ⟨t, hstep, leaves_of_step hstep⟩
  | error cause t =>
    refine .inr ⟨fun u hstep => ?_, ?_⟩
    · rw [handle_eq_ok.mpr hstep] at h
      cases h
    · rw [leaves, h]
      exact handle_atomic e _ _ _ h

/-! ### Properties of stored proposals -/

variable {P : Proposal → Prop}

/-- A property that every edit keeps stays with a proposal. -/
theorem Accepts.kept (h : Accepts s events t) (hedit : ∀ e p q, Event.Edits e p q → P p → P q)
    (found : s.proposal? id = some p) (hp : P p) : ∃ q, t.proposal? id = some q ∧ P q := by
  induction h generalizing p with
  | nil s => exact ⟨p, found, hp⟩
  | cons first run ih =>
    obtain ⟨q, found', hq⟩ := (handle_eq_ok.mp first).follow found
    rcases hq with rfl | hq
    · exact ih found' hp
    · exact ih found' (hedit _ _ _ hq hp)

/-- A property of new proposals that every edit keeps holds of all of them. -/
theorem Accepts.stored (h : Accepts s events t)
    (hnew : ∀ a block inForce p, Announcement.toProposal a block inForce = .ok p → P p)
    (hedit : ∀ e p q, Event.Edits e p q → P p → P q)
    (hs : ∀ id p, s.proposal? id = some p → P p) : ∀ id p, t.proposal? id = some p → P p := by
  induction h with
  | nil s => exact hs
  | cons first run ih =>
    refine ih fun id q found => ?_
    rcases (handle_eq_ok.mp first).origin found with ⟨a, -, -, -, opened⟩ | ⟨p, before, hq⟩
    · exact hnew _ _ _ _ opened
    · rcases hq with rfl | hq
      · exact hs id q before
      · exact hedit _ _ _ hq (hs id p before)

def announcements (events : List LoggedEvent) : List Announcement :=
  events.filterMap fun e =>
    match e.event with
    | .proposalCreated a => some a
    | _ => none

theorem mem_announcements {a : Announcement} :
    a ∈ announcements events ↔ ∃ e ∈ events, e.event = .proposalCreated a := by
  rw [announcements, List.mem_filterMap]
  refine exists_congr fun e => and_congr_right fun _ => ?_
  cases e.event <;> simp

/-- An accepted announcement opens a proposal, which keeps what every edit keeps. -/
theorem Accepts.announced {a : Announcement} (h : Accepts s events t)
    (ha : a ∈ announcements events)
    (hnew : ∀ block inForce p, a.toProposal block inForce = .ok p → P p)
    (hedit : ∀ e p q, Event.Edits e p q → P p → P q) :
    ∃ p, t.proposal? a.id = some p ∧ P p := by
  induction h with
  | nil s => cases ha
  | @cons s t u e rest first run ih =>
    obtain ⟨e', hmem, kind⟩ := mem_announcements.mp ha
    rcases List.mem_cons.mp hmem with rfl | hrest
    · obtain ⟨p, -, opened, found⟩ := (handle_eq_ok.mp first).creates kind
      exact run.kept hedit found (hnew _ _ _ opened)
    · exact ih (mem_announcements.mpr ⟨e', hrest, kind⟩)

/-- A stored proposal was there at the start or was announced. -/
theorem Accepts.origin (h : Accepts s events t) (found : t.proposal? id = some q) :
    (∃ p, s.proposal? id = some p) ∨ ∃ a ∈ announcements events, a.id = id := by
  induction h with
  | nil s => exact .inl ⟨q, found⟩
  | @cons s t u e rest first run ih =>
    rcases ih found with ⟨p, hp⟩ | ⟨a, ha, hid⟩
    · rcases (handle_eq_ok.mp first).origin hp with ⟨a, kind, hid, -, -⟩ | ⟨r, hr, -⟩
      · exact .inr ⟨a, mem_announcements.mpr ⟨e, List.mem_cons_self, kind⟩, hid⟩
      · exact .inl ⟨r, hr⟩
    · obtain ⟨e', hrest, kind⟩ := mem_announcements.mp ha
      exact .inr ⟨a, mem_announcements.mpr ⟨e', List.mem_cons_of_mem e hrest, kind⟩, hid⟩

/-- An id that nothing is stored under was not named by any accepted event. -/
theorem Accepts.unnamed (h : Accepts s events t) (missing : t.proposal? id = none) :
    ∀ e ∈ events, e.event.proposalId? ≠ some id := by
  induction h with
  | nil s => simp
  | cons first run ih =>
    intro e he named
    rcases List.mem_cons.mp he with rfl | he
    · obtain ⟨p, stored⟩ := (handle_eq_ok.mp first).stores named
      obtain ⟨q, found, -⟩ :=
        run.kept (P := fun _ => True) (fun _ _ _ _ _ => trivial) stored trivial
      rw [missing] at found
      cases found
    · exact ih missing e he named

/-- An accepted log, taken apart at a creation. -/
theorem Accepts.creation {a : Announcement} {before after : List LoggedEvent}
    (h : Accepts s (before ++ e :: after) t) (kind : e.event = .proposalCreated a) :
    ∃ u v p, Accepts s before u ∧ u.proposal? a.id = none ∧
      a.toProposal e.block (u.history.paramsAt e.block) = .ok p ∧
      v.history = u.history ∧ v.proposal? a.id = some p ∧ Accepts v after t := by
  obtain ⟨u, hbefore, hrest⟩ := accepts_append.mp h
  cases hrest with
  | cons first run =>
    have hstep := handle_eq_ok.mp first
    obtain ⟨p, fresh, opened, found⟩ := hstep.creates kind
    have hsame : _ = u.history := hstep.history_eq (by rw [kind]; rfl)
    exact ⟨u, _, p, hbefore, fresh, opened, hsame, found, run⟩

/-! ### Initial states -/

/-- An indexer that has handled nothing yet. -/
inductive Initial : Indexer → Prop
  | empty : Initial empty
  | withHistory (history : ParamsHistory) : Initial (withHistory history)

theorem Initial.proposal? (h : Initial s) (id : UInt64) : s.proposal? id = none := by
  cases h <;> rfl

/-- From an initial state on, a property of new proposals that every edit keeps holds always. -/
theorem Accepts.stored_of_initial (start : Initial s) (h : Accepts s events t)
    (hnew : ∀ a block inForce p, Announcement.toProposal a block inForce = .ok p → P p)
    (hedit : ∀ e p q, Event.Edits e p q → P p → P q) (found : t.proposal? id = some p) : P p := by
  refine h.stored hnew hedit (fun id p hp => ?_) id p found
  rw [start.proposal? id] at hp
  cases hp

/-! ### A small log -/

/-- A floor of 15 % and a ceiling of 30 % of the supply, with a slope of one. -/
def trialHistory : ParamsHistory :=
  ⟨[⟨10, ⟨⟨1500, by decide⟩, ⟨3000, by decide⟩, .ofUInt64 coefficientScale⟩⟩]⟩

def trialCreation : LoggedEvent where
  block := 20
  timestamp := 0
  event := .proposalCreated {
    id := 1
    proposer := .zero
    startBlock := 25
    endBlock := 35
    updatePeriodEnd := 0
    voteSnapshotBlock := none
    quorumVotes := .zero
    totalSupply := some (.ofUInt64 1000)
    onTimelockV1 := false }

def trialBallot (voter : UInt8) (support : VoteSupport) (votes : UInt64) : Ballot where
  voter := ⟨voter :: List.replicate 19 0, by simp⟩
  proposalId := 1
  support := support
  votes := .ofUInt64 votes

def trialVote (voter : UInt8) (support : VoteSupport) (votes : UInt64) : LoggedEvent :=
  ⟨30, 0, .voteCast (trialBallot voter support votes)⟩

/-- A vote for and one against, and a second vote of one account. -/
def trialLog : List LoggedEvent :=
  [trialCreation, trialVote 1 .for 160, trialVote 2 .against 60, trialVote 2 .abstain 5]

/-! ### Atomicity -/

/-- The count of events grows with each one, until it wraps. -/
theorem Accepts.toNat_handled (h : Accepts s events t)
    (hfits : s.handled.toNat + events.length < UInt64.size) :
    t.handled.toNat = s.handled.toNat + events.length := by
  induction h with
  | nil s => rfl
  | @cons s t u e rest first run ih =>
    rw [List.length_cons] at hfits ⊢
    have hnext : t.handled.toNat = s.handled.toNat + 1 := by
      rw [(handle_eq_ok.mp first).handled, UInt64.toNat_add]
      exact Nat.mod_eq_of_lt (show s.handled.toNat + 1 < UInt64.size by omega)
    rw [ih (by omega)]
    omega

/-- **Refusals leave no trace.**  A refused event leaves the whole state as it was, and an
    accepted one is counted once.  A log is handled up to its longest accepted prefix: it is
    accepted when its events are, one after another; otherwise the cause is that of the first
    refused event, and the state is the one that the events before it lead to. -/
theorem refusals_leave_no_trace (s : Indexer) :
    (∀ e cause t, handle e s = .error cause t → t = s) ∧
      (s.handled.toNat + 1 < UInt64.size →
        ∀ e t, handle e s = .ok () t → t.handled.toNat = s.handled.toNat + 1) ∧
      (∀ events t, handleAll events s = .ok () t ↔ Accepts s events t) ∧
      (∀ events cause t, handleAll events s = .error cause t ↔
        ∃ before e after, events = before ++ e :: after ∧ Accepts s before t ∧
          handle e t = .error cause t) ∧
      (∀ events t, s.handled.toNat + events.length < UInt64.size → Accepts s events t →
        t.handled.toNat = s.handled.toNat + events.length) := by
  refine ⟨fun e cause t => handle_atomic e s t cause, fun hfits e t h => ?_,
    fun events t => handleAll_eq_ok, fun events cause t => handleAll_eq_error,
    fun events t hfits h => h.toNat_handled hfits⟩
  exact (Accepts.cons h (.nil t)).toNat_handled hfits

/-- The second vote of an account is refused, and the votes before it stand. -/
theorem refusals_leave_no_trace_trial :
    ∃ before e after t, trialLog = before ++ e :: after ∧
      Accepts (withHistory trialHistory) before t ∧ handle e t = .error .alreadyVoted t := by
  have hrefused : (handleAll trialLog).makes (withHistory trialHistory) = .error .alreadyVoted := by
    decide +kernel
  obtain ⟨t, hrefused⟩ := makes_eq_error.mp hrefused
  obtain ⟨-, -, -, hfirst, -⟩ := refusals_leave_no_trace (withHistory trialHistory)
  obtain ⟨before, e, after, hlog, hrun, he⟩ := (hfirst trialLog .alreadyVoted t).mp hrefused
  exact ⟨before, e, after, t, hlog, hrun, he⟩

end DynamicQuorum.Indexer
