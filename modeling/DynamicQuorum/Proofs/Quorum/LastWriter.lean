/-
  DynamicQuorum/Proofs/Quorum/LastWriter.lean
  ===========================================
  **Within one block the last setter of each field wins.**

  Setters that come behind the last checkpoint, or at it, leave one checkpoint at their block.  The
  first of them starts from the latest parameters and the others from what they find there, so
  a field ends with the last value that was set, or else with the latest one.  Nobody validates what
  stands in between.  Setters before the last checkpoint are refused, one like the other.
-/
import DynamicQuorum.Proofs.Quorum.Setters
import DynamicQuorum.Proofs.Quorum.Updates

namespace DynamicQuorum.ParamsHistory

open InPlace

variable {h t : ParamsHistory} {block : BlockNumber} {changes changes' : List Change}
  {last : Checkpoint} {cause : GovernanceError}

/-! ### The last value of a field -/

def Change.min? : Change → Option BasisPoints
  | .min bps => some bps
  | _ => none

def Change.max? : Change → Option BasisPoints
  | .max bps => some bps
  | _ => none

def Change.coefficient? : Change → Option Word256
  | .coefficient value => some value
  | _ => none

/-- The last value that changes give to a field, if they give it any. -/
def lastOf {α : Type} (field : Change → Option α) (changes : List Change) : Option α :=
  (changes.filterMap field).getLast?

def overlaid (changes : List Change) (params : QuorumParams) : QuorumParams where
  minBps := (lastOf Change.min? changes).getD params.minBps
  maxBps := (lastOf Change.max? changes).getD params.maxBps
  coefficient := (lastOf Change.coefficient? changes).getD params.coefficient

/-- The same last value for each field. -/
structure EndAlike (changes changes' : List Change) : Prop where
  min : lastOf Change.min? changes' = lastOf Change.min? changes
  max : lastOf Change.max? changes' = lastOf Change.max? changes
  coefficient : lastOf Change.coefficient? changes' = lastOf Change.coefficient? changes

theorem lastOf_cons {α : Type} (field : Change → Option α) (c : Change) (rest : List Change) :
    lastOf field (c :: rest) = (lastOf field rest).or (field c) := by
  cases hc : field c with
  | none => simp [lastOf, hc]
  | some value =>
    rw [lastOf, List.filterMap_cons_some hc, List.getLast?_cons, ← lastOf]
    cases lastOf field rest <;> rfl

/-- Changes made one after another leave the last values. -/
theorem changed_eq_overlaid (changes : List Change) (params : QuorumParams) :
    changed changes params = overlaid changes params := by
  induction changes generalizing params with
  | nil => rfl
  | cons c rest ih =>
    rw [changed, List.foldl_cons, ← changed, ih]
    cases c <;> simp [overlaid, lastOf_cons, Change.apply, Change.min?, Change.max?,
      Change.coefficient?]

theorem EndAlike.overlaid_eq (alike : EndAlike changes changes') (params : QuorumParams) :
    overlaid changes' params = overlaid changes params := by
  simp only [overlaid, alike.min, alike.max, alike.coefficient]

theorem EndAlike.ne_nil (alike : EndAlike changes changes') (hne : changes ≠ []) :
    changes' ≠ [] := by
  rintro rfl
  cases changes with
  | nil => exact hne rfl
  | cons c rest =>
    have hmin := alike.min
    have hmax := alike.max
    have hcoefficient := alike.coefficient
    rw [lastOf_cons] at hmin hmax hcoefficient
    cases c with
    | min bps => simp [lastOf, Change.min?] at hmin
    | max bps => simp [lastOf, Change.max?] at hmax
    | coefficient value => simp [lastOf, Change.coefficient?] at hcoefficient

/-! ### Before the last checkpoint -/

theorem change_eq_error (hlast : h.latest? = some last) (hlt : block < last.fromBlock)
    (c : Change) : change block c h = .error (.checkpointOutOfOrder block last.fromBlock) h :=
  record_eq_error hlast hlt

/-- Changes that are all refused leave no trace. -/
theorem updateEach_of_refused (refused : ∀ c ∈ changes, change block c h = .error cause h) :
    acceptedUpdates h (changes.map (.change block)) = [] ∧
      updateEach h (changes.map (.change block)) = h := by
  induction changes with
  | nil => exact ⟨rfl, rfl⟩
  | cons c rest ih =>
    obtain ⟨hc, hrest⟩ := List.forall_mem_cons.mp refused
    have hrun : (Update.change block c).run h = .error cause h := hc
    -- the history stays, so what comes next is refused by the same one
    obtain ⟨hnone, hsame⟩ := ih hrest
    constructor
    · rw [List.map_cons, acceptedUpdates, hrun]
      exact hnone
    · rw [List.map_cons, updateEach, List.foldl_cons, leaves, hrun]
      exact hsame

/-! ### At the last checkpoint, or behind it -/

theorem updateEach_of_changeAll (accepted : changeAll block changes h = .ok () t) :
    updateEach h (changes.map (.change block)) = t := by
  induction changes generalizing h with
  | nil =>
    cases accepted
    rfl
  | cons c rest ih =>
    obtain ⟨⟨⟩, u, hc, hrest⟩ := bind_eq_ok.mp accepted
    have hrun : (Update.change block c).run h = .ok () u := hc
    rw [List.map_cons, updateEach, List.foldl_cons, leaves, hrun]
    exact ih hrest

/-- The new checkpoint replaces the last one if that is at its block, and else comes behind it. -/
theorem checkpoints_endingAt (hasc : h.Ascends)
    (behind : ∀ last, h.latest? = some last → last.fromBlock ≤ block) (params : QuorumParams) :
    (h.endingAt block params).checkpoints =
      (if h.latest?.map (·.fromBlock) = some block then h.checkpoints.dropLast
        else h.checkpoints) ++ [⟨block, params⟩] := by
  rw [endingAt, filter_before_eq hasc behind]

/-- No other checkpoint stands at that block. -/
theorem filter_checkpoints_endingAt (params : QuorumParams) :
    (h.endingAt block params).checkpoints.filter (·.fromBlock = block) = [⟨block, params⟩] := by
  have hnone : (h.checkpoints.filter (·.fromBlock < block)).filter (·.fromBlock = block) = [] := by
    rw [List.filter_filter, List.filter_eq_nil_iff]
    intro c _ hc
    rw [Bool.and_eq_true, decide_eq_true_iff, decide_eq_true_iff] at hc
    exact UInt64.ne_of_lt hc.2 hc.1
  rw [endingAt, List.filter_append, hnone]
  simp

/-! ### All setters of a block -/

theorem changeAll_eq_overlaid (hasc : h.Ascends)
    (behind : ∀ last, h.latest? = some last → last.fromBlock ≤ block) (hne : changes ≠ []) :
    changeAll block changes h = .ok () (h.endingAt block (overlaid changes h.latestParams)) := by
  rw [changeAll_eq_ok hasc ((fromBlock_le_iff hasc).mpr behind) hne, changed_eq_overlaid]

theorem write_eq_endingAt (hasc : h.Ascends)
    (behind : ∀ last, h.latest? = some last → last.fromBlock ≤ block) {params : QuorumParams}
    (hordered : params.IsOrdered) : write block params h = .ok () (h.endingAt block params) := by
  have hvalid : params.validate = .ok () := by rw [QuorumParams.validate, if_pos hordered]
  refine bind_eq_ok.mpr ⟨(), h, liftM_eq_ok.mpr ⟨hvalid, rfl⟩, ?_⟩
  exact (record_eq_ok hasc).mpr ⟨(fromBlock_le_iff hasc).mpr behind, rfl⟩

/-- **Setters within one block leave the last value of each field.**  Before the last checkpoint
    all of them are refused for it, and the history stays.  Otherwise all of them are accepted, and
    one checkpoint at their block takes the place of one that is there, or comes behind the others.
    It holds the latest parameters with the last value of each field that was set; bounds that are
    inverted on the way do not matter.  So these values alone decide the history, and if what they
    make is sound, one write of it leads there as well. -/
theorem setters_leave_last_values (hasc : h.Ascends) (block : BlockNumber) (hne : changes ≠ []) :
    (∀ last, h.latest? = some last → block < last.fromBlock →
      (∀ c ∈ changes, change block c h = .error (.checkpointOutOfOrder block last.fromBlock) h) ∧
      acceptedUpdates h (changes.map (.change block)) = [] ∧
      updateEach h (changes.map (.change block)) = h) ∧
    ((∀ last, h.latest? = some last → last.fromBlock ≤ block) →
      ∃ t, changeAll block changes h = .ok () t ∧
        updateEach h (changes.map (.change block)) = t ∧
        t.checkpoints =
          (if h.latest?.map (·.fromBlock) = some block then h.checkpoints.dropLast
            else h.checkpoints) ++ [⟨block, overlaid changes h.latestParams⟩] ∧
        t.checkpoints.filter (·.fromBlock = block) =
          [⟨block, overlaid changes h.latestParams⟩] ∧
        ((overlaid changes h.latestParams).IsOrdered →
          write block (overlaid changes h.latestParams) h = .ok () t)) ∧
    (∀ changes', EndAlike changes changes' →
      updateEach h (changes'.map (.change block)) =
        updateEach h (changes.map (.change block))) := by
  have hrefused : ∀ last, h.latest? = some last → block < last.fromBlock →
      ∀ changes : List Change, ∀ c ∈ changes,
        change block c h = .error (.checkpointOutOfOrder block last.fromBlock) h := by
    intro last hlast hlt changes c _
    exact change_eq_error hlast hlt c
  refine ⟨?_, ?_, ?_⟩
  · intro last hlast hlt
    exact ⟨hrefused last hlast hlt changes, updateEach_of_refused (hrefused last hlast hlt changes)⟩
  · intro behind
    have hall := changeAll_eq_overlaid hasc behind hne
    exact ⟨_, hall, updateEach_of_changeAll hall, checkpoints_endingAt hasc behind _,
      filter_checkpoints_endingAt _, write_eq_endingAt hasc behind⟩
  · intro changes' halike
    by_cases behind : ∀ last, h.latest? = some last → last.fromBlock ≤ block
    · have hall := changeAll_eq_overlaid hasc behind hne
      have hall' := changeAll_eq_overlaid hasc behind (halike.ne_nil hne)
      rw [updateEach_of_changeAll hall, updateEach_of_changeAll hall', halike.overlaid_eq]
    · -- a refusal does not depend on what is set
      simp only [Classical.not_forall, UInt64.not_le, exists_prop] at behind
      obtain ⟨last, hlast, hlt⟩ := behind
      obtain ⟨-, hstays⟩ := updateEach_of_refused (hrefused last hlast hlt changes)
      obtain ⟨-, hstays'⟩ := updateEach_of_refused (hrefused last hlast hlt changes')
      rw [hstays, hstays']

/-- The floor passes the ceiling on the way, and the slope is set twice. -/
def trialCrossing : List Change :=
  [.min ⟨2100, by decide⟩, .coefficient (.ofUInt64 7), .max ⟨3100, by decide⟩,
    .coefficient (.ofUInt64 9)]

def trialReordered : List Change :=
  [.max ⟨3100, by decide⟩, .coefficient (.ofUInt64 9), .min ⟨70, by decide⟩,
    .min ⟨2100, by decide⟩]

def trialLatest : ParamsHistory := ⟨[⟨10, ⟨⟨450, by decide⟩, ⟨950, by decide⟩, .zero⟩⟩]⟩

/-- Setters behind the checkpoint, at it and before it. -/
theorem setters_leave_last_values_trial :
    (∃ t, changeAll 20 trialCrossing trialLatest = .ok () t ∧ t.checkpoints.length = 2 ∧
      updateEach trialLatest (trialReordered.map (.change 20)) = t ∧
      write 20 ⟨⟨2100, by decide⟩, ⟨3100, by decide⟩, .ofUInt64 9⟩ trialLatest = .ok () t) ∧
    (∃ t, changeAll 10 trialCrossing trialLatest = .ok () t ∧
      t.checkpoints = [⟨10, ⟨⟨2100, by decide⟩, ⟨3100, by decide⟩, .ofUInt64 9⟩⟩]) ∧
    updateEach trialLatest (trialCrossing.map (.change 5)) = trialLatest := by
  have hasc : trialLatest.Ascends := List.pairwise_singleton _ _
  have hne : trialCrossing ≠ [] := List.cons_ne_nil _ _
  have hlatest : ∀ {block : BlockNumber}, 10 ≤ block →
      ∀ last, trialLatest.latest? = some last → last.fromBlock ≤ block := by
    intro block hle last hlast
    cases hlast
    exact hle
  have hvalues : overlaid trialCrossing trialLatest.latestParams =
      ⟨⟨2100, by decide⟩, ⟨3100, by decide⟩, .ofUInt64 9⟩ := by decide
  refine ⟨?_, ?_, ?_⟩
  · obtain ⟨-, hbehind, halike⟩ := setters_leave_last_values hasc 20 hne
    obtain ⟨t, hall, hend, hcheckpoints, -, hwrite⟩ := hbehind (hlatest (by decide))
    refine ⟨t, hall, ?_, ?_, ?_⟩
    · rw [hcheckpoints]
      rfl
    · rw [halike trialReordered ⟨by decide, by decide, by decide⟩, hend]
    · rw [hvalues] at hwrite
      exact hwrite (by decide)
  · obtain ⟨-, hbehind, -⟩ := setters_leave_last_values hasc 10 hne
    obtain ⟨t, hall, -, hcheckpoints, -⟩ := hbehind (hlatest (by decide))
    rw [hvalues] at hcheckpoints
    exact ⟨t, hall, hcheckpoints⟩
  · obtain ⟨hbefore, -⟩ := setters_leave_last_values hasc 5 hne
    obtain ⟨-, -, hstays⟩ := hbefore _ rfl (by decide)
    exact hstays

end DynamicQuorum.ParamsHistory
