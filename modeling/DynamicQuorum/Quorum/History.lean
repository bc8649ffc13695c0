/-
  DynamicQuorum/Quorum/History.lean
  =================================
  **Quorum parameters over the blocks of a chain.**

  A history is a list of checkpoints, oldest first: each change of the parameters writes
  one, and the parameters in force at a block are those of the last checkpoint at or before
  it, which is found by halving.  A change at the block of the last checkpoint replaces it,
  so several changes within one block leave a single checkpoint; a change before that block
  is refused.

  The setters change one field at a time.  Between two of them the bounds may be inverted,
  so whoever reads parameters back validates them.
-/
import DynamicQuorum.Bisection
import DynamicQuorum.InPlace
import DynamicQuorum.Quorum.Params

namespace DynamicQuorum

/-- A height of the governed chain. -/
abbrev BlockNumber := UInt64

/-- Parameters in force from a block on. -/
structure Checkpoint where
  fromBlock : BlockNumber
  params : QuorumParams
deriving DecidableEq, Repr, Inhabited

/-- The checkpoints written so far, oldest first. -/
structure ParamsHistory where
  checkpoints : List Checkpoint
deriving DecidableEq, Repr, Inhabited

namespace ParamsHistory

def empty : ParamsHistory := ⟨[]⟩

def latest? (h : ParamsHistory) : Option Checkpoint := h.checkpoints.getLast?

def latestParams (h : ParamsHistory) : QuorumParams :=
  match h.latest? with
  | some last => last.params
  | none => .zero

/-- Write a checkpoint without looking at its parameters. -/
def record (block : BlockNumber) (params : QuorumParams) :
    InPlace GovernanceError ParamsHistory Unit := do
  let h ← get
  match h.latest? with
  | none => set (ParamsHistory.mk (h.checkpoints ++ [⟨block, params⟩]))
  | some last =>
    if block < last.fromBlock then throw (.checkpointOutOfOrder block last.fromBlock)
    else if block = last.fromBlock then
      -- a block has one checkpoint, and the last one written stands
      set (ParamsHistory.mk (h.checkpoints.dropLast ++ [⟨block, params⟩]))
    else set (ParamsHistory.mk (h.checkpoints ++ [⟨block, params⟩]))

/-- Put sound parameters in force from `block`. -/
def write (block : BlockNumber) (params : QuorumParams) :
    InPlace GovernanceError ParamsHistory Unit := do
  params.validate
  record block params

def withInitial (block : BlockNumber) (params : QuorumParams) :
    Except GovernanceError ParamsHistory :=
  (write block params).makes empty

/-- One field of the parameters with its new value. -/
inductive Change where
  | min (bps : BasisPoints)
  | max (bps : BasisPoints)
  | coefficient (value : Word256)
deriving DecidableEq, Repr

def Change.apply : Change → QuorumParams → QuorumParams
  | .min bps, p => { p with minBps := bps }
  | .max bps, p => { p with maxBps := bps }
  | .coefficient value, p => { p with coefficient := value }

def change (block : BlockNumber) (c : Change) : InPlace GovernanceError ParamsHistory Unit := do
  record block (c.apply (← get).latestParams)

/-- The parameters in force at `block`; `none` before the first checkpoint. -/
def paramsAt (h : ParamsHistory) (block : BlockNumber) : Option QuorumParams :=
  match Bisection.turn (·.fromBlock ≤ block) h.checkpoints with
  | 0 => none
  | before + 1 => h.checkpoints[before]?.map (·.params)

end ParamsHistory

end DynamicQuorum
