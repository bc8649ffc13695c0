/-
  DynamicQuorum/Proofs/Quorum/Setters.lean
  ========================================
  **Setters within one block leave a single checkpoint.**

  The first of them writes a checkpoint at the block, and each later one replaces it, starting from
  the parameters that it finds there.  So together they write what they make of the latest
  parameters.  Each sets one field, so setters of different fields may change places.
-/
import DynamicQuorum.Proofs.Quorum.Checkpoints

namespace DynamicQuorum.ParamsHistory

open InPlace

variable {h t : ParamsHistory} {block : BlockNumber} {changes : List Change}

def changeAll (block : BlockNumber) : List Change → InPlace GovernanceError ParamsHistory Unit
  | [] => return
  | c :: rest => do
    change block c
    changeAll block rest

def changed (changes : List Change) (params : QuorumParams) : QuorumParams :=
  changes.foldl (fun params c => c.apply params) params

/-- The history with a last checkpoint at a block, in place of one that is there. -/
def endingAt (h : ParamsHistory) (block : BlockNumber) (params : QuorumParams) : ParamsHistory :=
  ⟨h.checkpoints.filter (·.fromBlock < block) ++ [⟨block, params⟩]⟩

@[simp] theorem latestParams_endingAt (params : QuorumParams) :
    (h.endingAt block params).latestParams = params := by
  simp [latestParams, latest?, endingAt]

@[simp] theorem endingAt_endingAt (params params' : QuorumParams) :
    (h.endingAt block params).endingAt block params' = h.endingAt block params' := by
  simp [endingAt, List.filter_append, List.filter_filter]

theorem endingAt_le (params : QuorumParams) :
    ∀ c ∈ (h.endingAt block params).checkpoints, c.fromBlock ≤ block := by
  intro c hc
  rcases List.mem_append.mp hc with hc | hc
  · exact UInt64.le_of_lt (by simpa using (List.mem_filter.mp hc).2)
  · rw [List.mem_singleton.mp hc]
    exact UInt64.le_refl block

theorem change_eq_ok (hasc : h.Ascends) {c : Change} :
    change block c h = .ok () t ↔ (∀ d ∈ h.checkpoints, d.fromBlock ≤ block) ∧
      t = h.endingAt block (c.apply h.latestParams) :=
  record_eq_ok hasc

/-- Changes at or behind the last checkpoint are accepted, and leave one checkpoint there. -/
theorem changeAll_eq_ok (hasc : h.Ascends) (hle : ∀ d ∈ h.checkpoints, d.fromBlock ≤ block)
    (hne : changes ≠ []) :
    changeAll block changes h = .ok () (h.endingAt block (changed changes h.latestParams)) := by
  induction changes generalizing h with
  | nil => exact absurd rfl hne
  | cons c rest ih =>
    have hfirst : change block c h = .ok () (h.endingAt block (c.apply h.latestParams)) :=
      (change_eq_ok hasc).mpr ⟨hle, rfl⟩
    refine bind_eq_ok.mpr ⟨(), _, hfirst, ?_⟩
    cases rest with
    | nil => rfl
    | cons d rest =>
      -- the next change takes the place of the checkpoint just written
      have hrest := ih (Ascends.record hasc hfirst) (endingAt_le _) (List.cons_ne_nil d rest)
      rw [latestParams_endingAt, endingAt_endingAt] at hrest
      exact hrest

/-- Setters of the three fields, in any order, set them all. -/
theorem changed_of_perm {params : QuorumParams}
    (h : changes.Perm [.min params.minBps, .max params.maxBps, .coefficient params.coefficient])
    (start : QuorumParams) : changed changes start = params := by
  have hcomm : ∀ c ∈ changes, ∀ d ∈ changes, ∀ p : QuorumParams,
      d.apply (c.apply p) = c.apply (d.apply p) := by
    intro c hc d hd p
    have hc' := h.mem_iff.mp hc
    have hd' := h.mem_iff.mp hd
    simp only [List.mem_cons, List.not_mem_nil, or_false] at hc' hd'
    rcases hc' with rfl | rfl | rfl <;> rcases hd' with rfl | rfl | rfl <;> rfl
  exact h.foldl_eq' hcomm start

end DynamicQuorum.ParamsHistory
