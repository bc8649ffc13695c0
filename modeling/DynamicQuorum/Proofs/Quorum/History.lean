/-
  DynamicQuorum/Proofs/Quorum/History.lean
  ========================================
  **A refused checkpoint leaves the history as it was.**

  Whether a checkpoint is in order is decided against the last one, before anything is written.
-/
import DynamicQuorum.Quorum.History
import DynamicQuorum.Proofs.InPlace

namespace DynamicQuorum.ParamsHistory

open InPlace

theorem record_atomic (block : BlockNumber) (params : QuorumParams) :
    Atomic (record block params) := by
  refine .after_readOnly .get fun h => ?_
  cases h.latest? with
  | none => exact (Unfailing.set _).atomic
  | some last =>
    dsimp only
    split
    · exact (ReadOnly.throw _).atomic
    split
    · exact (Unfailing.set _).atomic
    · exact (Unfailing.set _).atomic

theorem write_atomic (block : BlockNumber) (params : QuorumParams) :
    Atomic (write block params) :=
  .after_readOnly (.lift _) fun _ => record_atomic _ _

theorem change_atomic (block : BlockNumber) (c : Change) : Atomic (change block c) :=
  .after_readOnly .get fun _ => record_atomic _ _

end DynamicQuorum.ParamsHistory
