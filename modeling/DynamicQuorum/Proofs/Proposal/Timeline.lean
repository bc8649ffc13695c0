/-
  DynamicQuorum/Proofs/Proposal/Timeline.lean
  ===========================================
  **An open proposal moves one way.**

  At every block an open proposal is in one of five stages: it may be edited, it waits, it is
  voted on, it is objected to, or it is decided.  Nothing orders the four blocks at which its
  windows end.  They may overlap, be empty or be upside down, so a stage may be skipped, and no
  window need lie between its neighbours.

  The stages are in order all the same.  What keeps a proposal from a stage is a bar that late
  blocks clear (`Cleared`), and the stage at a block is the last one before the first bar that
  stands (`stage_openState`).  A later block clears all the bars that an earlier one does, so it
  cannot show an earlier stage.
-/
import DynamicQuorum.Proofs.Proposal.Sway

namespace DynamicQuorum

/-- How far along a state of an open proposal is; both verdicts come last. -/
def ProposalState.stage? : ProposalState → Option Nat
  | .updatable => some 0
  | .pending => some 1
  | .active => some 2
  | .objectionPeriod => some 3
  | .defeated | .succeeded => some 4
  | _ => none

namespace Proposal

variable {p : Proposal} {daoV3 : Bool} {block later : BlockNumber} {view : ChainView}
  {stage : Nat}

/-! ### Bars between the stages -/

/-- The block lies behind what keeps the proposal from a stage once it has come to the stage
    before. -/
def Cleared (p : Proposal) (daoV3 : Bool) (block : BlockNumber) : Nat → Prop
  | 0 => True
  | 1 => daoV3 = true → 0 < p.updatePeriodEnd → p.updatePeriodEnd < block
  | 2 => p.startBlock < block
  | 3 => p.endBlock < block ∧ (daoV3 = true ∨ p.objectionPeriodEnd < block)
  | 4 => p.objectionPeriodEnd < block
  | _ => False

/-- What lies behind a block lies behind every later one. -/
theorem Cleared.mono (h : p.Cleared daoV3 block stage) (hle : block ≤ later) :
    p.Cleared daoV3 later stage := by
  have hlater : ∀ {place : BlockNumber}, place < block → place < later := by
    intro place hplace
    exact UInt64.lt_of_lt_of_le hplace hle
  match stage, h with
  | 0, _ => trivial
  | 1, h =>
    intro hv3 hperiod
    exact hlater (h hv3 hperiod)
  | 2, h => exact hlater h
  | 3, ⟨hended, hobjection⟩ =>
    refine ⟨hlater hended, ?_⟩
    rcases hobjection with hv3 | hsettled
    · exact .inl hv3
    · exact .inr (hlater hsettled)
  | 4, h => exact hlater h

def Reaches (p : Proposal) (daoV3 : Bool) (block : BlockNumber) (stage : Nat) : Prop :=
  ∀ i ≤ stage, p.Cleared daoV3 block i

theorem reaches_zero : p.Reaches daoV3 block 0 := by
  intro i hi
  obtain rfl := Nat.le_zero.mp hi
  trivial

theorem Reaches.succ (h : p.Reaches daoV3 block stage)
    (hnext : p.Cleared daoV3 block (stage + 1)) : p.Reaches daoV3 block (stage + 1) := by
  intro i hi
  rcases Nat.le_succ_iff.mp hi with hi | rfl
  · exact h i hi
  · exact hnext

theorem Reaches.mono (h : p.Reaches daoV3 block stage) (hle : block ≤ later) :
    p.Reaches daoV3 later stage := by
  intro i hi
  exact Cleared.mono (h i hi) hle

/-! ### The stage at a block -/

/-- The stage is the last one before the first bar that stands. -/
theorem stage_openState (hblock : view.block = some block) (heta : p.executionEta = none) :
    ∃ stage, (p.openState view).stage? = some stage ∧ p.Reaches view.daoV3 block stage ∧
      ¬ p.Cleared view.daoV3 block (stage + 1) := by
  unfold openState
  rw [hblock, heta]
  dsimp only
  split
  next hupdatable =>
    obtain ⟨hv3, hperiod, hle⟩ := hupdatable
    refine ⟨0, rfl, reaches_zero, ?_⟩
    intro h
    exact UInt64.not_le.mpr (h hv3 hperiod) hle
  next hedited =>
    have hwaits : p.Reaches view.daoV3 block 1 := by
      refine reaches_zero.succ ?_
      intro hv3 hperiod
      rw [← UInt64.not_le]
      intro hle
      exact hedited ⟨hv3, hperiod, hle⟩
    split
    next hpending => exact ⟨1, rfl, hwaits, UInt64.not_lt.mpr hpending⟩
    next hstarted =>
      rw [UInt64.not_le] at hstarted
      have hvoted : p.Reaches view.daoV3 block 2 := hwaits.succ hstarted
      split
      next hobjection =>
        obtain ⟨hv3, hended, -, hle⟩ := hobjection
        exact ⟨3, rfl, hvoted.succ ⟨hended, .inl hv3⟩, UInt64.not_lt.mpr hle⟩
      next hunobjected =>
        split
        next hclosed =>
          obtain ⟨hended, hsettled⟩ := hclosed
          refine ⟨4, ?_, (hvoted.succ ⟨hended, .inr hsettled⟩).succ hsettled, fun h => h⟩
          cases p.isDefeated <;> rfl
        next hopen =>
          refine ⟨2, rfl, hvoted, ?_⟩
          rintro ⟨hended, hnext⟩
          have hle : block ≤ p.objectionPeriodEnd := by
            rw [← UInt64.not_lt]
            intro hsettled
            exact hopen ⟨hended, hsettled⟩
          -- voting has started, so a period that is not over does not end at zero
          have hperiod : 0 < p.objectionPeriodEnd :=
            UInt64.lt_of_le_of_lt UInt64.zero_le (UInt64.lt_of_lt_of_le hstarted hle)
          rcases hnext with hv3 | hsettled
          · exact hunobjected ⟨hv3, hended, hperiod, hle⟩
          · exact UInt64.not_le.mpr hsettled hle

theorem openState_of_reaches (hblock : view.block = some block)
    (h : p.Reaches view.daoV3 block 4) : p.openState view = p.verdict := by
  have hedited : ¬ (view.daoV3 = true ∧ 0 < p.updatePeriodEnd ∧ block ≤ p.updatePeriodEnd) := by
    rintro ⟨hv3, hperiod, hle⟩
    exact UInt64.not_le.mpr (h 1 (by decide) hv3 hperiod) hle
  have hstarted : p.startBlock < block := h 2 (by decide)
  obtain ⟨hended, -⟩ := h 3 (by decide)
  have hsettled : p.objectionPeriodEnd < block := h 4 (by decide)
  unfold openState verdict
  simp [hblock, hedited, hstarted, hended, hsettled, UInt64.not_le.mpr]

/-! ### The timeline -/

/-- An open proposal never goes back, and a verdict is final. -/
theorem openState_later {other : ChainView} (hv3 : other.daoV3 = view.daoV3)
    (hblock : view.block = some block) (hlater : other.block = some later) (hle : block ≤ later)
    (heta : p.executionEta = none) :
    ∃ i j, (p.openState view).stage? = some i ∧ (p.openState other).stage? = some j ∧ i ≤ j ∧
      (i = 4 → p.openState other = p.openState view) := by
  obtain ⟨i, hi, hreaches, -⟩ := stage_openState hblock heta
  obtain ⟨j, hj, -, hbar⟩ := stage_openState hlater heta
  have hstill : p.Reaches other.daoV3 later i := by
    rw [hv3]
    exact hreaches.mono hle
  refine ⟨i, j, hi, hj, ?_, ?_⟩
  · by_contra hlt
    -- otherwise the block lies behind the bar at which the later state stops
    exact hbar (hstill (j + 1) (by omega))
  · rintro rfl
    rw [openState_of_reaches hlater hstill, openState_of_reaches hblock hreaches]

theorem openState_of_ends_lt (hblock : view.block = some block) (heta : p.executionEta = none)
    (hstart : p.startBlock < block) (hend : p.endBlock < block)
    (hobjection : p.objectionPeriodEnd < block)
    (hupdate : view.daoV3 = true → p.updatePeriodEnd < block) :
    p.openState view = if p.isDefeated then .defeated else .succeeded := by
  have hwaits : p.Reaches view.daoV3 block 1 := reaches_zero.succ fun hv3 _ => hupdate hv3
  have hvoted : p.Reaches view.daoV3 block 2 := hwaits.succ hstart
  have hclosed : p.Reaches view.daoV3 block 3 := hvoted.succ ⟨hend, .inr hobjection⟩
  rw [openState_of_reaches hblock (hclosed.succ hobjection), verdict, heta]
  rfl

/-! ### Determined states -/

theorem openState_ne_undetermined (hblock : view.block = some block)
    (heta : p.executionEta = none) : p.openState view ≠ .undetermined := by
  obtain ⟨stage, hstage, -⟩ := stage_openState hblock heta
  intro h
  rw [h] at hstage
  cases hstage

theorem queuedState_ne_undetermined {now eta : UInt64} (hnow : view.timestamp = some now)
    (heta : p.executionEta = some eta) : p.queuedState view ≠ .undetermined := by
  unfold queuedState
  rw [hnow, heta]
  dsimp only
  split <;> simp

end Proposal

end DynamicQuorum
