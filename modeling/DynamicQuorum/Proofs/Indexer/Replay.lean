/-
  DynamicQuorum/Proofs/Indexer/Replay.lean
  ========================================
  **A replay is a run, and seeding it is a run of three more events.**

  A replay stops where the run of its log does, and tells where.  An event looks at the history and
  at the proposals, never at the count of events; so from states that differ in the count alone
  two runs go the same way.  Parameters that are written at block zero leave the history
  that the three setters leave there, whatever their order: on the way the bounds may be inverted,
  which no setter looks at.
-/
import DynamicQuorum.Replay
import DynamicQuorum.Proofs.Indexer.Run
import DynamicQuorum.Proofs.Quorum.Setters

namespace DynamicQuorum

namespace Indexer

open InPlace

variable {s t u : Indexer} {events : List LoggedEvent}

/-! ### Positions -/

/-- A replay succeeds exactly on the logs that are accepted. -/
theorem replayFrom_eq_ok (position : Nat) :
    s.replayFrom position events = .ok t ↔ Accepts s events t := by
  constructor
  · intro h
    induction events generalizing s position with
    | nil =>
      cases h
      exact .nil t
    | cons e rest ih =>
      rw [replayFrom] at h
      split at h
      next first => exact .cons first (ih _ h)
      next => cases h
  · intro h
    induction h generalizing position with
    | nil s => rfl
    | cons first run ih =>
      rw [replayFrom, first]
      exact ih _

/-- A replay fails at the first event that is refused, and tells its place and its block. -/
theorem replayFrom_eq_error (position : Nat) {error : ReplayError} :
    s.replayFrom position events = .error error ↔ ∃ before e after cause t,
      events = before ++ e :: after ∧ Accepts s before t ∧ handle e t = .error cause t ∧
        error = ⟨position + before.length, e.block, cause⟩ := by
  constructor
  · intro h
    induction events generalizing s position with
    | nil => cases h
    | cons e rest ih =>
      rw [replayFrom] at h
      split at h
      next t first =>
        obtain ⟨before, e', after, cause, u, rfl, run, hrefused, rfl⟩ := ih _ h
        refine ⟨e :: before, e', after, cause, u, rfl, .cons first run, hrefused, ?_⟩
        rw [List.length_cons, Nat.add_right_comm, Nat.add_assoc]
      next cause t hrefused =>
        cases h
        -- the state before a refused event is the one after it
        obtain rfl := handle_atomic e _ _ _ hrefused
        exact ⟨[], e, rest, cause, t, rfl, .nil t, hrefused, rfl⟩
  · rintro ⟨before, e, after, cause, t, rfl, run, hrefused, rfl⟩
    induction run generalizing position with
    | nil s =>
      rw [List.nil_append, replayFrom, hrefused]
      rfl
    | @cons s t u first rest first_ok run ih =>
      rw [List.cons_append, replayFrom, first_ok]
      have hrest := ih (position + 1) hrefused
      rwa [Nat.add_right_comm, Nat.add_assoc] at hrest

/-- A log goes on behind an accepted part of it. -/
theorem Accepts.replayFrom (position : Nat) {before : List LoggedEvent} (h : Accepts s before t) :
    s.replayFrom position (before ++ events) =
      t.replayFrom (position + before.length) events := by
  induction h generalizing position with
  | nil s => rfl
  | cons first run ih =>
    rw [List.cons_append, Indexer.replayFrom, first]
    exact (ih (position + 1)).trans
      (by rw [List.length_cons, Nat.add_right_comm, Nat.add_assoc])

/-! ### The count of events -/

def later (k : UInt64) (s : Indexer) : Indexer := { s with handled := s.handled + k }

def laterResult (k : UInt64) :
    EStateM.Result GovernanceError Indexer Unit → EStateM.Result GovernanceError Indexer Unit
  | .ok a t => .ok a (t.later k)
  | .error cause t => .error cause (t.later k)

theorem onHistory_later (m : InPlace GovernanceError ParamsHistory Unit) (k : UInt64) :
    onHistory m (s.later k) = laterResult k (onHistory m s) := by
  rw [onHistory, onPart, onPart, show (s.later k).history = s.history from rfl]
  cases m s.history <;> rfl

theorem onProposals_later (m : InPlace GovernanceError Registry Unit) (k : UInt64) :
    onProposals m (s.later k) = laterResult k (onProposals m s) := by
  rw [onProposals, onPart, onPart, show (s.later k).proposals = s.proposals from rfl]
  cases m s.proposals <;> rfl

/-- No event looks at the count. -/
theorem apply_later (e : LoggedEvent) (s : Indexer) (k : UInt64) :
    apply e.block e.event (s.later k) = laterResult k (apply e.block e.event s) := by
  obtain ⟨a, kind⟩ | ⟨b, kind⟩ | ⟨id, f, kind⟩ | ⟨c, kind⟩ := e.event.kinds
  · rw [kind, apply, bind_run, bind_run, get_run, get_run]
    change (liftM (a.toProposal e.block (s.history.paramsAt e.block)) >>= _ :
        InPlace GovernanceError Indexer Unit) (s.later k) =
      laterResult k ((liftM (a.toProposal e.block (s.history.paramsAt e.block)) >>= _ :
        InPlace GovernanceError Indexer Unit) s)
    -- the proposal does not depend on the count
    cases a.toProposal e.block (s.history.paramsAt e.block) with
    | ok p => exact onProposals_later (Registry.insert p) k
    | error cause => rfl
  · rw [kind, apply]
    exact onProposals_later _ k
  · rw [apply_of_lifecycle? kind]
    exact onProposals_later _ k
  · rw [apply_of_change? kind]
    exact onHistory_later _ k

theorem handle_later (e : LoggedEvent) (s : Indexer) (k : UInt64) :
    handle e (s.later k) = laterResult k (handle e s) := by
  rw [handle, bind_run, bind_run, apply_later]
  cases apply e.block e.event s with
  | ok a t =>
    change EStateM.Result.ok () (t.later k).counted = .ok () (t.counted.later k)
    rw [counted, counted, later, later]
    simp only [UInt64.add_assoc, UInt64.add_comm k]
  | error cause t => rfl

/-- Two runs from states that differ in the count end alike. -/
theorem replayFrom_later (events : List LoggedEvent) (s : Indexer) (position n : Nat)
    (k : UInt64) :
    (∃ t, s.replayFrom position events = .ok t ∧
      (s.later k).replayFrom (position + n) events = .ok (t.later k)) ∨
    ∃ error : ReplayError, s.replayFrom position events = .error error ∧
      (s.later k).replayFrom (position + n) events =
        .error { error with position := error.position + n } := by
  induction events generalizing s position with
  | nil => exact .inl ⟨s, rfl, rfl⟩
  | cons e rest ih =>
    rw [replayFrom, replayFrom, handle_later]
    cases handle e s with
    | ok a t =>
      rw [Nat.add_right_comm]
      exact ih t (position + 1)
    | error cause t => exact .inr ⟨⟨position, e.block, cause⟩, rfl, rfl⟩

/-! ### Seeding by events -/

/-- Parameter events of one block make their changes in order. -/
theorem accepts_changes {block : BlockNumber} {h : ParamsHistory}
    (hevents : ∀ e ∈ events, e.block = block ∧ e.event.change?.isSome)
    (hrun : ParamsHistory.changeAll block (events.filterMap (·.event.change?)) s.history =
      .ok () h) :
    ∃ t, Accepts s events t ∧ t.history = h ∧ t.proposals = s.proposals := by
  induction events generalizing s with
  | nil =>
    cases hrun
    exact ⟨s, .nil s, rfl, rfl⟩
  | cons e rest ih =>
    obtain ⟨rfl, hchange⟩ := hevents e List.mem_cons_self
    obtain ⟨c, kind⟩ := Option.isSome_iff_exists.mp hchange
    rw [List.filterMap_cons_some (f := fun e : LoggedEvent => e.event.change?) kind] at hrun
    obtain ⟨⟨⟩, h', write, hrest⟩ := bind_eq_ok.mp hrun
    have hstep : Step e s ({ s with history := h' } : Indexer).counted := .changed kind write
    obtain ⟨t, run, hhistory, hproposals⟩ := ih (s := ({ s with history := h' } : Indexer).counted)
      (fun e he => hevents e (List.mem_cons_of_mem _ he)) hrest
    exact ⟨t, .cons (handle_eq_ok.mpr hstep) run, hhistory, hproposals⟩

/-- The events set the three parameters at block zero, in some order. -/
def SetsAtStart (params : QuorumParams) (events : List LoggedEvent) : Prop :=
  ∃ minTime maxTime coefficientTime oldMin oldMax oldCoefficient, events.Perm
    [⟨0, minTime, .minQuorumSet oldMin params.minBps⟩,
      ⟨0, maxTime, .maxQuorumSet oldMax params.maxBps⟩,
      ⟨0, coefficientTime, .coefficientSet oldCoefficient params.coefficient⟩]

variable {params : QuorumParams}

def startingWith (params : QuorumParams) : ParamsHistory := ParamsHistory.empty.endingAt 0 params

theorem seeded_of_ordered (h : params.IsOrdered) :
    seeded (some params) = .ok (withHistory (startingWith params)) := by
  have hwrite : ParamsHistory.write 0 params .empty = .ok () (startingWith params) := by
    refine bind_eq_ok.mpr ⟨(), .empty, liftM_eq_ok.mpr ⟨if_pos h, rfl⟩, ?_⟩
    exact (ParamsHistory.record_eq_ok List.Pairwise.nil).mpr ⟨nofun, rfl⟩
  have hinitial : ParamsHistory.withInitial 0 params = .ok (startingWith params) :=
    makes_eq_ok.mpr ⟨(), hwrite⟩
  rw [seeded, hinitial]
  rfl

theorem seeded_of_inverted (h : ¬ params.IsOrdered) :
    seeded (some params) =
      .error (.invalidParameters (.inverted params.maxBps.toNat params.minBps.toNat)) := by
  have hrefused : ParamsHistory.withInitial 0 params =
      .error (.invalidParameters (.inverted params.maxBps.toNat params.minBps.toNat)) := by
    refine makes_eq_error.mpr ⟨.empty, bind_eq_error.mpr (.inl ?_)⟩
    rw [QuorumParams.validate, if_neg h]
    rfl
  rw [seeded, hrefused]
  rfl

/-- The three events lead where the written parameters do, with three events counted. -/
theorem accepts_setters (h : SetsAtStart params events) :
    Accepts empty events ((withHistory (startingWith params)).later 3) ∧ events.length = 3 := by
  obtain ⟨_, _, _, _, _, _, hperm⟩ := h
  have hlength : events.length = 3 := hperm.length_eq
  have hchanges : (events.filterMap (·.event.change?)).Perm
      [.min params.minBps, .max params.maxBps, .coefficient params.coefficient] :=
    hperm.filterMap _
  have hne : events.filterMap (·.event.change?) ≠ [] := by
    intro hnil
    rw [hnil] at hchanges
    cases hchanges.length_eq
  have hrun : ParamsHistory.changeAll 0 _ .empty = .ok () _ :=
    ParamsHistory.changeAll_eq_ok List.Pairwise.nil nofun hne
  -- the fields are different ones, so their order does not matter
  rw [ParamsHistory.changed_of_perm hchanges] at hrun
  have hevents : ∀ e ∈ events, e.block = 0 ∧ e.event.change?.isSome := by
    intro e he
    have he' := hperm.mem_iff.mp he
    simp only [List.mem_cons, List.not_mem_nil, or_false] at he'
    rcases he' with rfl | rfl | rfl <;> exact ⟨rfl, rfl⟩
  obtain ⟨t, run, hhistory, hproposals⟩ := accepts_changes (s := empty) hevents hrun
  have hhandled : t.handled = 3 := by
    have hcount := run.toNat_handled (by rw [hlength]; decide)
    rw [hlength] at hcount
    exact UInt64.toNat_inj.mp hcount
  refine ⟨?_, hlength⟩
  obtain ⟨history, proposals, handled⟩ := t
  obtain rfl : history = startingWith params := hhistory
  obtain rfl : proposals = .empty := hproposals
  obtain rfl : handled = 3 := hhandled
  exact run

/-! ### Replays -/

/-- A replay that starts `n` events later ends alike: with the same history and proposals, or at
    the same event. -/
inductive Delayed (n : Nat) : Except ReplayFailure Indexer → Except ReplayFailure Indexer → Prop
  | accepted {s t : Indexer} (history : t.history = s.history)
      (proposals : t.proposals = s.proposals) (handled : t.handled = s.handled + UInt64.ofNat n) :
      Delayed n (.ok s) (.ok t)
  | refused {position : Nat} {block : BlockNumber} {cause : GovernanceError} :
      Delayed n (.error (.event ⟨position, block, cause⟩))
        (.error (.event ⟨position + n, block, cause⟩))

theorem replay_none_eq_ok : replay events none = .ok s ↔ handleAll events empty = .ok () s := by
  rw [handleAll_eq_ok, ← replayFrom_eq_ok 0, replay, seeded]
  dsimp only
  cases replayFrom empty 0 events with
  | ok t => simp
  | error error => simp

theorem replay_none_eq_error {failure : ReplayFailure} :
    replay events none = .error failure ↔
      ∃ error, replayFrom empty 0 events = .error error ∧ failure = .event error := by
  rw [replay, seeded]
  dsimp only
  cases replayFrom empty 0 events with
  | ok t => simp
  | error error => simp [eq_comm]

theorem replay_some_eq_ok (hordered : params.IsOrdered) :
    replay events (some params) = .ok s ↔ Accepts (withHistory (startingWith params)) events s := by
  rw [← replayFrom_eq_ok 0, replay, seeded_of_ordered hordered]
  dsimp only
  cases replayFrom (withHistory (startingWith params)) 0 events with
  | ok t => simp
  | error error => simp

theorem replay_some_handled (hordered : params.IsOrdered) (hfits : events.length < UInt64.size)
    (h : replay events (some params) = .ok s) : s.handled.toNat = events.length := by
  have hcount := ((replay_some_eq_ok hordered).mp h).toNat_handled
    (Nat.lt_of_le_of_lt (Nat.le_of_eq (Nat.zero_add _)) hfits)
  exact hcount.trans (Nat.zero_add _)

theorem replay_none_handled (hfits : events.length < UInt64.size)
    (h : replay events none = .ok s) : s.handled.toNat = events.length := by
  have hcount := (handleAll_eq_ok.mp (replay_none_eq_ok.mp h)).toNat_handled
    (Nat.lt_of_le_of_lt (Nat.le_of_eq (Nat.zero_add _)) hfits)
  exact hcount.trans (Nat.zero_add _)

/-- A seed is as good as the three events that set it. -/
theorem replay_delayed {setters : List LoggedEvent} (events : List LoggedEvent)
    (hordered : params.IsOrdered) (hsetters : SetsAtStart params setters) :
    Delayed 3 (replay events (some params)) (replay (setters ++ events) none) := by
  obtain ⟨hrun, hlength⟩ := accepts_setters hsetters
  rw [replay, replay, seeded_of_ordered hordered, seeded]
  dsimp only
  rw [hrun.replayFrom, hlength]
  rcases replayFrom_later events (withHistory (startingWith params)) 0 3 3 with
    ⟨t, hfirst, hsecond⟩ | ⟨error, hfirst, hsecond⟩
  · rw [hfirst, hsecond]
    exact .accepted rfl rfl rfl
  · rw [hfirst, hsecond]
    exact .refused

/-- **A replay is a run that tells where it stops.**  Without parameters it is accepted as the log
    is, with the same state; otherwise it names the first refused event, behind an accepted part
    of the log, by its index and block, with the cause.  With ordered parameters it ends as the
    replay of a longer log does, in which three events set these parameters at block zero
    in any order; only the count of events and the index of a refused one grow by three.  With
    inverted parameters it is refused at once. -/
theorem replay_agrees_with_runs (events : List LoggedEvent) :
    (∀ s, replay events none = .ok s ↔ handleAll events empty = .ok () s) ∧
      (∀ failure, replay events none = .error failure ↔ ∃ before e after cause s,
        events = before ++ e :: after ∧ handleAll before empty = .ok () s ∧
          handle e s = .error cause s ∧ failure = .event ⟨before.length, e.block, cause⟩) ∧
      (∀ position block cause, (ReplayFailure.event ⟨position, block, cause⟩).message =
        "event #" ++ toString position ++ " at block " ++ toString block ++ ": " ++
          cause.message) ∧
      (∀ (params : QuorumParams) setters, params.minBps ≤ params.maxBps →
        SetsAtStart params setters →
          Delayed 3 (replay events (some params)) (replay (setters ++ events) none) ∧
          (events.length + 3 < UInt64.size → ∀ s t, replay events (some params) = .ok s →
            replay (setters ++ events) none = .ok t → t.handled.toNat = s.handled.toNat + 3)) ∧
      (∀ params : QuorumParams, ¬ params.minBps ≤ params.maxBps →
        replay events (some params) = .error (.seed (.invalidParameters
          (.inverted params.maxBps.toNat params.minBps.toNat)))) := by
  refine ⟨fun s => replay_none_eq_ok, fun failure => ?_, fun _ _ _ => rfl, ?_, ?_⟩
  · rw [replay_none_eq_error]
    constructor
    · rintro ⟨error, herror, rfl⟩
      obtain ⟨before, e, after, cause, s, hlog, run, hrefused, rfl⟩ :=
        (replayFrom_eq_error 0).mp herror
      refine ⟨before, e, after, cause, s, hlog, handleAll_eq_ok.mpr run, hrefused, ?_⟩
      rw [Nat.zero_add]
    · rintro ⟨before, e, after, cause, s, hlog, run, hrefused, rfl⟩
      refine ⟨⟨before.length, e.block, cause⟩, (replayFrom_eq_error 0).mpr ?_, rfl⟩
      exact ⟨before, e, after, cause, s, hlog, handleAll_eq_ok.mp run, hrefused,
        by rw [Nat.zero_add]⟩
  · intro params setters hordered hsetters
    have hdelayed := replay_delayed events hordered hsetters
    refine ⟨hdelayed, fun hfits s t hs ht => ?_⟩
    have hshort : s.handled.toNat = events.length :=
      replay_some_handled hordered (Nat.lt_of_le_of_lt (Nat.le_add_right _ 3) hfits) hs
    have hlength : (setters ++ events).length = events.length + 3 := by
      rw [List.length_append, (accepts_setters hsetters).2, Nat.add_comm]
    have hlong : t.handled.toNat = events.length + 3 :=
      hlength ▸ replay_none_handled (hlength ▸ hfits) ht
    rw [hlong, hshort]
  · intro params hinverted
    rw [replay, seeded_of_inverted hinverted]

/-- From an empty history the bounds are inverted after the first of these events. -/
def trialSetters (params : QuorumParams) : List LoggedEvent :=
  [⟨0, 5, .minQuorumSet .zero params.minBps⟩,
    ⟨0, 7, .coefficientSet .zero params.coefficient⟩,
    ⟨0, 6, .maxQuorumSet .zero params.maxBps⟩]

theorem replay_agrees_with_runs_trial :
    ∃ params, replay trialLog (some params) = .error (.event ⟨3, 30, .alreadyVoted⟩) ∧
      replay (trialSetters params ++ trialLog) none = .error (.event ⟨6, 30, .alreadyVoted⟩) ∧
      ∃ s t, replay (trialLog.take 3) (some params) = .ok s ∧
        replay (trialSetters params ++ trialLog.take 3) none = .ok t ∧
        t.history = s.history ∧ t.proposals = s.proposals ∧
        t.handled.toNat = s.handled.toNat + 3 := by
  let params : QuorumParams := ⟨⟨1500, by decide⟩, ⟨3000, by decide⟩, .ofUInt64 coefficientScale⟩
  have hsetters : SetsAtStart params (trialSetters params) :=
    ⟨5, 6, 7, .zero, .zero, .zero, .cons _ (.swap _ _ _)⟩
  have hordered : params.minBps ≤ params.maxBps := by decide
  have hlog : replay trialLog (some params) = .error (.event ⟨3, 30, .alreadyVoted⟩) := by
    decide +kernel
  obtain ⟨-, -, -, hseeded, -⟩ := replay_agrees_with_runs trialLog
  obtain ⟨-, -, -, hshorter, -⟩ := replay_agrees_with_runs (trialLog.take 3)
  have hwhole := (hseeded params (trialSetters params) hordered hsetters).1
  obtain ⟨hpart, hhandled⟩ := hshorter params (trialSetters params) hordered hsetters
  rw [hlog] at hwhole
  refine ⟨params, hlog, ?_⟩
  generalize hlonger : replay (trialSetters params ++ trialLog) none = longer at hwhole
  cases hwhole
  refine ⟨rfl, ?_⟩
  have haccepted : (replay (trialLog.take 3) (some params)).isOk = true := by decide +kernel
  generalize hs : replay (trialLog.take 3) (some params) = first at hpart haccepted
  generalize ht : replay (trialSetters params ++ trialLog.take 3) none = second at hpart
  cases hpart with
  | @accepted s t history proposals handled =>
    exact ⟨s, t, rfl, rfl, history, proposals, hhandled (by decide) s t hs ht⟩
  | refused => cases haccepted

end Indexer

end DynamicQuorum
