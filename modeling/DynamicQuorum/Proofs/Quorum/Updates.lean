/-
  DynamicQuorum/Proofs/Quorum/Updates.lean
  ========================================
  **A history of parameters stands for the plain log of its updates.**

  The checkpoints are an index of the log of accepted updates: the parameters in force at a block
  are what those updates make of zero parameters that were made at or before it.  A setter starts
  from the latest parameters, and that is right because no update is accepted behind another
  one.  `Indexes` relates a log to a history, and every accepted update extends both sides.
-/
import DynamicQuorum.Proofs.Quorum.Checkpoints

namespace DynamicQuorum.ParamsHistory

open InPlace

/-- A call that writes to a history: all parameters at once, or one field. -/
inductive Update where
  | write (block : BlockNumber) (params : QuorumParams)
  | change (block : BlockNumber) (c : Change)
deriving DecidableEq, Repr

namespace Update

def block : Update → BlockNumber
  | .write block _ => block
  | .change block _ => block

def run : Update → InPlace GovernanceError ParamsHistory Unit
  | .write block params => ParamsHistory.write block params
  | .change block c => ParamsHistory.change block c

def apply : Update → QuorumParams → QuorumParams
  | .write _ params, _ => params
  | .change _ c, params => c.apply params

end Update

/-- Make updates one after another, and go on after those that are refused. -/
def updateEach (h : ParamsHistory) (updates : List Update) : ParamsHistory :=
  updates.foldl (fun h u => u.run.leaves h) h

def acceptedUpdates (h : ParamsHistory) : List Update → List Update
  | [] => []
  | u :: rest =>
    match u.run h with
    | .ok _ t => u :: acceptedUpdates t rest
    | .error _ t => acceptedUpdates t rest

/-- What updates make of zero parameters. -/
def settled (log : List Update) : QuorumParams := log.foldl (fun params u => u.apply params) .zero

/-- What the updates at or before a block make of zero parameters, if there are any. -/
def inForce (log : List Update) (block : BlockNumber) : Option QuorumParams :=
  match log.filter (·.block ≤ block) with
  | [] => none
  | past => some (settled past)

variable {h t : ParamsHistory} {u : Update} {log updates : List Update}

/-! ### One update -/

theorem Update.run_atomic (u : Update) : Atomic u.run := by
  cases u with
  | write block params => exact write_atomic block params
  | change block c => exact change_atomic block c

theorem Update.record_of_run (accepted : u.run h = .ok () t) :
    record u.block (u.apply h.latestParams) h = .ok () t := by
  cases u with
  | write block params =>
    obtain ⟨⟨⟩, _, hvalid, hrecord⟩ := bind_eq_ok.mp accepted
    obtain ⟨-, rfl⟩ := liftM_eq_ok.mp hvalid
    exact hrecord
  | change block c => exact accepted

/-- An accepted update has an effect from its block on. -/
theorem Update.paramsAt_run (hasc : h.Ascends) (accepted : u.run h = .ok () t)
    (block : BlockNumber) :
    t.paramsAt block =
      if u.block ≤ block then some (u.apply h.latestParams) else h.paramsAt block :=
  paramsAt_record hasc (record_of_run accepted) block

/-! ### The log -/

theorem settled_append (log : List Update) (u : Update) :
    settled (log ++ [u]) = u.apply (settled log) := by
  simp [settled]

theorem inForce_append_of_past {block : BlockNumber} (hlog : ∀ v ∈ log, v.block ≤ u.block)
    (hpast : u.block ≤ block) : inForce (log ++ [u]) block = some (u.apply (settled log)) := by
  have hall : (log ++ [u]).filter (·.block ≤ block) = log ++ [u] := by
    rw [List.filter_eq_self]
    intro v hv
    rcases List.mem_append.mp hv with hv | hv
    · simpa using UInt64.le_trans (hlog v hv) hpast
    · simpa [List.mem_singleton.mp hv] using hpast
  rw [inForce, hall, ← settled_append]
  split
  next hnil => simp at hnil
  next => rfl

theorem inForce_append_of_future {block : BlockNumber} (hfuture : ¬ u.block ≤ block) :
    inForce (log ++ [u]) block = inForce log block := by
  simp [inForce, List.filter_append, hfuture]

/-! ### The log and its index -/

structure Indexes (log : List Update) (h : ParamsHistory) : Prop where
  ascends : h.Ascends
  covered : ∀ v ∈ log, ∃ c ∈ h.checkpoints, v.block ≤ c.fromBlock
  latest : h.latestParams = settled log
  inForce : ∀ block, h.paramsAt block = inForce log block

theorem Indexes.empty : Indexes [] empty :=
  ⟨List.Pairwise.nil, nofun, rfl, fun _ => paramsAt_eq List.Pairwise.nil _⟩

/-- An accepted update keeps the history an index of the log. -/
theorem Indexes.run (hlog : Indexes log h) (accepted : u.run h = .ok () t) :
    Indexes (log ++ [u]) t := by
  have hrecord := Update.record_of_run accepted
  obtain ⟨hle, ht⟩ := (record_eq_ok hlog.ascends).mp hrecord
  have hbefore : ∀ v ∈ log, v.block ≤ u.block := by
    intro v hv
    obtain ⟨c, hc, hvc⟩ := hlog.covered v hv
    exact UInt64.le_trans hvc (hle c hc)
  refine ⟨hlog.ascends.record hrecord, ?_, ?_, ?_⟩
  · intro v hv
    refine ⟨⟨u.block, u.apply h.latestParams⟩, by simp [ht], ?_⟩
    rcases List.mem_append.mp hv with hv | hv
    · exact hbefore v hv
    · rw [List.mem_singleton.mp hv]
      exact UInt64.le_refl _
  · rw [latestParams_record hlog.ascends hrecord, settled_append, hlog.latest]
  · intro block
    rw [Update.paramsAt_run hlog.ascends accepted]
    split
    next hpast => rw [inForce_append_of_past hbefore hpast, hlog.latest]
    next hfuture => rw [inForce_append_of_future hfuture, hlog.inForce]

/-- A history stays an index of the accepted updates, whatever is refused in between. -/
theorem Indexes.updateEach (hlog : Indexes log h) (updates : List Update) :
    Indexes (log ++ acceptedUpdates h updates) (updateEach h updates) := by
  induction updates generalizing log h with
  | nil => simpa [acceptedUpdates, ParamsHistory.updateEach] using hlog
  | cons u rest ih =>
    rw [acceptedUpdates, ParamsHistory.updateEach, List.foldl_cons, leaves]
    cases hrun : u.run h with
    | ok _ t =>
      have hrest := ih (hlog.run hrun)
      rwa [List.append_assoc] at hrest
    | error cause t =>
      obtain rfl := u.run_atomic _ _ _ hrun
      -- a refused update leaves no trace, and does not count as accepted
      exact ih hlog

/-! ### Histories that come about -/

/-- A history that accepted updates have made of no checkpoint. -/
inductive Built : ParamsHistory → Prop
  | empty : Built empty
  | run {h t : ParamsHistory} {u : Update} (before : Built h) (accepted : u.run h = .ok () t) :
      Built t

theorem Built.ascends (hh : Built h) : h.Ascends := by
  induction hh with
  | empty => exact List.Pairwise.nil
  | run before accepted ih => exact ih.record (Update.record_of_run accepted)

/-- **A history stands for the log of its accepted updates.**  Start from no checkpoint and make
    any updates, at any blocks.  The checkpoints stand at ascending blocks; the parameters in force
    at a block are what the accepted updates at or before it make of zero parameters.  A
    refused update leaves the history as it was, and an accepted one leaves all blocks before it as
    they were. -/
theorem history_stands_for_updates (updates : List Update) :
    (updateEach empty updates).checkpoints.Pairwise (fun a b => a.fromBlock < b.fromBlock) ∧
      (∀ block, (updateEach empty updates).paramsAt block =
        inForce (acceptedUpdates empty updates) block) ∧
      (∀ (u : Update) cause t, u.run (updateEach empty updates) = .error cause t →
        t = updateEach empty updates) ∧
      (∀ (u : Update) t, u.run (updateEach empty updates) = .ok () t →
        ∀ block, block < u.block →
          t.paramsAt block = (updateEach empty updates).paramsAt block) := by
  have hindex : Indexes (acceptedUpdates empty updates) (updateEach empty updates) := by
    simpa using Indexes.empty.updateEach updates
  refine ⟨hindex.ascends, hindex.inForce, fun u cause t => u.run_atomic _ t cause, ?_⟩
  intro u t accepted block hbefore
  rw [Update.paramsAt_run hindex.ascends accepted, if_neg (UInt64.not_le.mpr hbefore)]

/-- Two fields are set within one block, a late setter and inverted bounds are refused, and a
    setter changes one field of a checkpoint of its block. -/
def trialUpdates : List Update :=
  [.change 10 (.min ⟨400, by decide⟩), .change 10 (.max ⟨900, by decide⟩),
    .change 5 (.min .zero), .write 20 ⟨.zero, ⟨200, by decide⟩, .zero⟩,
    .write 30 ⟨⟨400, by decide⟩, .zero, .zero⟩, .change 20 (.coefficient (.ofUInt64 7))]

theorem history_stands_for_updates_trial :
    (updateEach empty trialUpdates).paramsAt 9 = none ∧
      (updateEach empty trialUpdates).paramsAt 10 =
        some ⟨⟨400, by decide⟩, ⟨900, by decide⟩, .zero⟩ ∧
      (updateEach empty trialUpdates).paramsAt 30 =
        some ⟨.zero, ⟨200, by decide⟩, .ofUInt64 7⟩ := by
  obtain ⟨-, hinForce, -⟩ := history_stands_for_updates trialUpdates
  rw [hinForce, hinForce, hinForce]
  decide +kernel

end DynamicQuorum.ParamsHistory
