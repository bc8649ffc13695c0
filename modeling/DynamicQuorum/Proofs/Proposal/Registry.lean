/-
  DynamicQuorum/Proofs/Proposal/Registry.lean
  ===========================================
  **The registry is a function from ids to proposals.**

  The two procedures on it are described by the look-ups before and after them.  Neither
  writes when it is refused: a proposal is added only after its id was found free, and a
  change that is refused puts the same proposal back.
-/
import DynamicQuorum.Proposal.Registry
import DynamicQuorum.Proofs.Ascending
import DynamicQuorum.Proofs.InPlace

namespace DynamicQuorum.Registry

open InPlace

variable {r t : Registry} {id : UInt64} {p : Proposal} {α : Type}

/-! ### Look-up -/

theorem get?_eq_some : r.get? id = some p ↔ p ∈ r.toList ∧ p.id = id := by
  rw [get?, Ascending.find?_eq_some, Proposal.key, UInt64.toNat_inj]

theorem get?_put (r : Registry) (p : Proposal) (id : UInt64) :
    get? (r.put p) id = if id = p.id then some p else r.get? id := by
  simp only [get?, Ascending.find?_put, Proposal.key, UInt64.toNat_inj]

theorem key_ne_of_fresh (fresh : r.get? p.id = none) : ∀ q ∈ r.toList, q.key ≠ p.key := by
  intro q hq hkey
  have found := get?_eq_some.mpr ⟨hq, UInt64.toNat_inj.mp hkey⟩
  rw [fresh] at found
  cases found

theorem size_put (fresh : r.get? p.id = none) : (r.put p).size = r.size + 1 :=
  Ascending.size_put r (key_ne_of_fresh fresh)

theorem get_eq_ok : r.get id = .ok p ↔ r.get? id = some p := by
  rw [get]
  cases r.get? id with
  | none => exact ⟨nofun, nofun⟩
  | some q =>
    constructor
    · rintro ⟨⟩
      rfl
    · rintro ⟨⟩
      rfl

/-! ### Adding a proposal -/

theorem insert_eq_ok : insert p r = .ok () t ↔ r.get? p.id = none ∧ t = r.put p := by
  rw [insert, bind_run, getThe_run]
  change (if r.hasKey p.key then _ else _ : InPlace _ _ _) r = _ ↔ _
  rw [Ascending.hasKey, get?, ← Proposal.key]
  cases r.find? p.key with
  | none =>
    constructor
    · rintro ⟨⟩
      exact ⟨rfl, rfl⟩
    · rintro ⟨-, rfl⟩
      rfl
  | some q => exact ⟨nofun, nofun⟩

theorem insert_eq_error {cause : GovernanceError} :
    insert p r = .error cause t ↔
      (∃ q, r.get? p.id = some q) ∧ cause = .proposalExists p.id ∧ t = r := by
  rw [insert, bind_run, getThe_run]
  change (if r.hasKey p.key then _ else _ : InPlace _ _ _) r = _ ↔ _
  rw [Ascending.hasKey, get?, ← Proposal.key]
  cases r.find? p.key with
  | none =>
    constructor
    · rintro ⟨⟩
    · rintro ⟨⟨q, ⟨⟩⟩, -, -⟩
  | some q =>
    constructor
    · rintro ⟨⟩
      exact ⟨⟨q, rfl⟩, rfl, rfl⟩
    · rintro ⟨-, rfl, rfl⟩
      rfl

theorem insert_atomic (p : Proposal) : Atomic (insert p) := by
  refine .after_readOnly .get fun r => ?_
  split
  · exact (ReadOnly.throw _).atomic
  · exact (Unfailing.modify _).atomic

/-! ### Changing a proposal -/

theorem onProposal_eq_ok {m : InPlace GovernanceError Proposal α} {a : α} :
    onProposal id m r = .ok a t ↔
      ∃ p q, r.get? id = some p ∧ m p = .ok a q ∧ t = r.put q := by
  rw [onProposal, bind_run, getThe_run]
  simp only [bind_eq_ok, liftM_eq_ok, get_eq_ok, onPart_eq_ok]
  constructor
  · rintro ⟨p, _, ⟨hp, rfl⟩, q, hq, rfl⟩
    exact ⟨p, q, hp, hq, rfl⟩
  · rintro ⟨p, q, hp, hq, rfl⟩
    exact ⟨p, r, ⟨hp, rfl⟩, q, hq, rfl⟩

theorem onProposal_atomic {m : InPlace GovernanceError Proposal α} (hm : Atomic m) :
    Atomic (onProposal id m) := by
  intro r t e h
  rw [onProposal, bind_run, getThe_run] at h
  rcases bind_eq_error.mp h with hget | ⟨p, _, hget, hpart⟩
  · exact (ReadOnly.lift _).atomic _ _ _ hget
  · obtain ⟨hget, rfl⟩ := liftM_eq_ok.mp hget
    obtain ⟨q, hq, rfl⟩ := onPart_eq_error.mp hpart
    obtain ⟨-, hid⟩ := get?_eq_some.mp (get_eq_ok.mp hget)
    -- the refused change left the proposal as it was found
    rw [hm _ _ _ hq]
    refine Ascending.put_of_find? ?_
    rw [Proposal.key, hid]
    exact get_eq_ok.mp hget

/-! ### Listings -/

def ids (r : Registry) : List UInt64 := r.toList.map (·.id)

theorem pairwise_ids (r : Registry) : r.ids.Pairwise (· < ·) := by
  refine List.pairwise_map.mpr (r.ascending.imp fun {p q} hkey => ?_)
  exact UInt64.lt_iff_toNat_lt.mpr hkey

theorem ids_put_of_fresh (fresh : r.get? p.id = none) : (ids (r.put p)).Perm (p.id :: r.ids) :=
  (r.perm_put (key_ne_of_fresh fresh)).map _

theorem ids_put_of_found {q : Proposal} (found : r.get? id = some p) (hid : q.id = id) :
    ids (r.put q) = r.ids := by
  obtain ⟨hp, rfl⟩ := get?_eq_some.mp found
  exact r.map_put _ hp (congrArg UInt64.toNat hid.symm) hid.symm

/-- Listed state by state, every proposal in one of the states stands there once. -/
theorem perm_flatMap_inState (r : Registry) (view : ChainView) {states : List ProposalState}
    (hnodup : states.Nodup) :
    (states.flatMap fun state => r.inState state view).Perm
      (r.toList.filter fun p => p.stateAt view ∈ states) := by
  induction states with
  | nil => simp
  | cons state rest ih =>
    obtain ⟨hstate, hrest⟩ := List.nodup_cons.mp hnodup
    have hsplit := List.filter_append_perm (fun p => decide (p.stateAt view = state))
      (r.toList.filter fun p => p.stateAt view ∈ state :: rest)
    -- those in the first state, and those in one of the others
    have hhere : (r.toList.filter fun p => p.stateAt view ∈ state :: rest).filter
        (fun p => decide (p.stateAt view = state)) = r.inState state view := by
      rw [List.filter_filter, inState]
      refine List.filter_congr fun p _ => ?_
      by_cases hp : p.stateAt view = state <;> simp [hp]
    have hthere : (r.toList.filter fun p => p.stateAt view ∈ state :: rest).filter
        (fun p => !decide (p.stateAt view = state)) =
          r.toList.filter fun p => p.stateAt view ∈ rest := by
      rw [List.filter_filter]
      refine List.filter_congr fun p _ => ?_
      by_cases hp : p.stateAt view = state
      · simp [hp, hstate]
      · simp [hp]
    rw [hhere, hthere] at hsplit
    rw [List.flatMap_cons]
    exact ((ih hrest).append_left _).trans hsplit

end DynamicQuorum.Registry
