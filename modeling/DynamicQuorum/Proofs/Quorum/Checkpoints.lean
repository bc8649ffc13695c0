/-
  DynamicQuorum/Proofs/Quorum/Checkpoints.lean
  ============================================
  **Looking parameters up, and writing them, in a history in order.**

  While the checkpoints stand at ascending blocks, the search by halving finds the last one at or
  before a block.  A checkpoint that is accepted stands last, behind all earlier blocks, so it
  decides for its own block and all later ones, and for no block before it.
-/
import DynamicQuorum.Proofs.Bisection
import DynamicQuorum.Proofs.Quorum.History

namespace DynamicQuorum.ParamsHistory

open InPlace

variable {h t : ParamsHistory} {block : BlockNumber} {params : QuorumParams}

def Ascends (h : ParamsHistory) : Prop :=
  h.checkpoints.Pairwise fun a b => a.fromBlock < b.fromBlock

/-! ### Looking up -/

/-- What lies at or before a block comes first. -/
theorem past_append_future {l : List Checkpoint} (block : BlockNumber)
    (hl : l.Pairwise fun a b => a.fromBlock < b.fromBlock) :
    l.filter (·.fromBlock ≤ block) ++ l.filter (fun c => !decide (c.fromBlock ≤ block)) = l := by
  induction l with
  | nil => rfl
  | cons c rest ih =>
    obtain ⟨hc, hrest⟩ := List.pairwise_cons.mp hl
    by_cases hpast : c.fromBlock ≤ block
    · simp [hpast, ih hrest]
    · -- nothing behind a later checkpoint lies at or before the block
      have hfuture : ∀ d ∈ rest, ¬ d.fromBlock ≤ block := by
        intro d hd hle
        exact hpast (UInt64.le_of_lt (UInt64.lt_of_lt_of_le (hc d hd) hle))
      have hnone : rest.filter (·.fromBlock ≤ block) = [] := by
        simpa [List.filter_eq_nil_iff] using hfuture
      have hall : rest.filter (fun d => !decide (d.fromBlock ≤ block)) = rest := by
        simpa [List.filter_eq_self] using hfuture
      simp [hpast, hnone, hall]

/-- The search finds the last checkpoint at or before the block. -/
theorem paramsAt_eq (hasc : h.Ascends) (block : BlockNumber) :
    h.paramsAt block =
      (h.checkpoints.filter (·.fromBlock ≤ block)).getLast?.map (·.params) := by
  have hsplit := past_append_future block hasc
  have hturn : Bisection.turn (·.fromBlock ≤ block) h.checkpoints =
      (h.checkpoints.filter (·.fromBlock ≤ block)).length := by
    conv => lhs; rw [← hsplit]
    apply Bisection.turn_append
    · intro c hc
      exact (List.mem_filter.mp hc).2
    · intro c hc
      simpa using (List.mem_filter.mp hc).2
  rw [paramsAt, hturn, List.getLast?_eq_getElem?]
  cases hlength : (h.checkpoints.filter (·.fromBlock ≤ block)).length with
  | zero => simp [List.eq_nil_of_length_eq_zero hlength]
  | succ before =>
    have hplace : h.checkpoints[before]? =
        (h.checkpoints.filter (·.fromBlock ≤ block))[before]? := by
      conv => lhs; rw [← hsplit]
      exact List.getElem?_append_left (by omega)
    simp [hplace]

/-! ### Writing -/

theorem latest?_eq_some {last : Checkpoint} (hasc : h.Ascends) (hlast : h.latest? = some last) :
    ∃ init, h.checkpoints = init ++ [last] ∧ ∀ c ∈ init, c.fromBlock < last.fromBlock := by
  obtain ⟨init, hinit⟩ := List.getLast?_eq_some_iff.mp hlast
  refine ⟨init, hinit, ?_⟩
  rw [Ascends, hinit] at hasc
  intro c hc
  exact (List.pairwise_append.mp hasc).2.2 c hc last (List.mem_singleton_self last)

/-- The last checkpoint tells whether a block lies before any of them. -/
theorem fromBlock_le_iff (hasc : h.Ascends) :
    (∀ c ∈ h.checkpoints, c.fromBlock ≤ block) ↔
      ∀ last, h.latest? = some last → last.fromBlock ≤ block := by
  constructor
  · intro hall last hlast
    exact hall last (List.mem_of_getLast? hlast)
  · intro hlatest c hc
    cases hlast : h.latest? with
    | none =>
      rw [List.getLast?_eq_none_iff.mp hlast] at hc
      cases hc
    | some last =>
      obtain ⟨init, hinit, hbefore⟩ := latest?_eq_some hasc hlast
      have hle := hlatest last hlast
      rw [hinit] at hc
      rcases List.mem_append.mp hc with hc | hc
      · exact UInt64.le_of_lt (UInt64.lt_of_lt_of_le (hbefore c hc) hle)
      · rw [List.mem_singleton.mp hc]
        exact hle

/-- Only the last checkpoint may stand at a block that none of them lies behind. -/
theorem filter_before_eq (hasc : h.Ascends)
    (hlatest : ∀ last, h.latest? = some last → last.fromBlock ≤ block) :
    h.checkpoints.filter (·.fromBlock < block) =
      if h.latest?.map (·.fromBlock) = some block then h.checkpoints.dropLast
      else h.checkpoints := by
  cases hlast : h.latest? with
  | none =>
    rw [List.getLast?_eq_none_iff.mp hlast]
    rfl
  | some last =>
    obtain ⟨init, hinit, hbefore⟩ := latest?_eq_some hasc hlast
    have hle := hlatest last hlast
    have hkept : init.filter (·.fromBlock < block) = init := by
      rw [List.filter_eq_self]
      intro c hc
      simpa using UInt64.lt_of_lt_of_le (hbefore c hc) hle
    rw [hinit, List.filter_append, hkept, List.dropLast_concat]
    by_cases hsame : last.fromBlock = block
    · simp [hsame]
    · have hlt := UInt64.lt_of_le_of_ne hle hsame
      simp [hsame, hlt]

/-- A checkpoint before the last one is refused for it. -/
theorem record_eq_error {last : Checkpoint} (hlast : h.latest? = some last)
    (hlt : block < last.fromBlock) :
    record block params h = .error (.checkpointOutOfOrder block last.fromBlock) h := by
  rw [record, bind_run, get_run]
  dsimp only
  rw [hlast]
  dsimp only
  rw [if_pos hlt]
  rfl

/-- A checkpoint is accepted unless it lies before another one, and replaces one at its block. -/
theorem record_eq_ok (hasc : h.Ascends) :
    record block params h = .ok () t ↔ (∀ c ∈ h.checkpoints, c.fromBlock ≤ block) ∧
      t = ⟨h.checkpoints.filter (·.fromBlock < block) ++ [⟨block, params⟩]⟩ := by
  have hset : ∀ u : ParamsHistory,
      (set u : InPlace GovernanceError ParamsHistory PUnit) h = .ok () t ↔ t = u := by
    intro u
    constructor
    · rintro ⟨⟩
      rfl
    · rintro rfl
      rfl
  rw [fromBlock_le_iff hasc]
  by_cases hlatest : ∀ last, h.latest? = some last → last.fromBlock ≤ block
  · rw [filter_before_eq hasc hlatest, and_iff_right hlatest, record, bind_run, get_run]
    dsimp only
    cases hlast : h.latest? with
    | none => exact hset _
    | some last =>
      dsimp only
      rw [if_neg (UInt64.not_lt.mpr (hlatest last hlast))]
      by_cases hsame : last.fromBlock = block
      · -- in place of the last checkpoint
        rw [if_pos hsame.symm, if_pos (by simp [hsame])]
        exact hset _
      · -- behind the last checkpoint
        rw [if_neg (Ne.symm hsame), if_neg (by simp [hsame])]
        exact hset _
  · -- before the last checkpoint
    simp only [Classical.not_forall, UInt64.not_le, exists_prop] at hlatest
    obtain ⟨last, hlast, hlt⟩ := hlatest
    rw [record_eq_error hlast hlt]
    exact ⟨nofun, fun hok => absurd hlt (UInt64.not_lt.mpr (hok.1 last hlast))⟩

theorem Ascends.record (hasc : h.Ascends) (hwrite : record block params h = .ok () t) :
    t.Ascends := by
  obtain ⟨-, rfl⟩ := (record_eq_ok hasc).mp hwrite
  refine List.pairwise_append.mpr ⟨List.Pairwise.filter _ hasc, List.pairwise_singleton _ _, ?_⟩
  intro c hc d hd
  rw [List.mem_singleton.mp hd]
  simpa using (List.mem_filter.mp hc).2

theorem latestParams_record (hasc : h.Ascends) (hwrite : record block params h = .ok () t) :
    t.latestParams = params := by
  obtain ⟨-, rfl⟩ := (record_eq_ok hasc).mp hwrite
  simp [latestParams, latest?]

/-- A checkpoint decides from its block on, and leaves the blocks before it alone. -/
theorem paramsAt_record (hasc : h.Ascends) (hwrite : record block params h = .ok () t)
    (place : BlockNumber) :
    t.paramsAt place = if block ≤ place then some params else h.paramsAt place := by
  rw [paramsAt_eq (hasc.record hwrite), paramsAt_eq hasc]
  obtain ⟨-, rfl⟩ := (record_eq_ok hasc).mp hwrite
  rw [List.filter_append]
  split
  next hle => simp [hle]
  next hgt =>
    -- a block before the new checkpoint sees the old ones only, and all that it saw
    have hsame : (h.checkpoints.filter (·.fromBlock < block)).filter (·.fromBlock ≤ place) =
        h.checkpoints.filter (·.fromBlock ≤ place) := by
      rw [List.filter_filter]
      refine List.filter_congr fun c _ => ?_
      have hearlier : c.fromBlock ≤ place → c.fromBlock < block := fun hle =>
        UInt64.lt_of_le_of_lt hle (UInt64.not_le.mp hgt)
      simpa using hearlier
    simp [hsame, hgt]

end DynamicQuorum.ParamsHistory
