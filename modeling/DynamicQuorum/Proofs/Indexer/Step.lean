/-
  DynamicQuorum/Proofs/Indexer/Step.lean
  ======================================
  **What an accepted event does.**

  Ten kinds of events have three kinds of effects: a proposal is stored under a fresh id, a stored
  one is edited, or the history of parameters changes.  `Step` has one constructor for each,
  with all that the event must meet and all that it changes; it is exactly what `handle`
  accepts.  An event that is not accepted leaves the state as it was.
-/
import DynamicQuorum.Proofs.Proposal.Registry
import DynamicQuorum.Proofs.Proposal.Sync
import DynamicQuorum.Proofs.Quorum.History

namespace DynamicQuorum

namespace Indexer

open InPlace

variable {s t u : Indexer} {e : LoggedEvent} {id : UInt64} {p q : Proposal}

/-! ### Effects on a state -/

def store (s : Indexer) (p : Proposal) : Indexer := { s with proposals := s.proposals.put p }

def counted (s : Indexer) : Indexer := { s with handled := s.handled + 1 }

@[simp] theorem proposal?_store (s : Indexer) (p : Proposal) (id : UInt64) :
    (s.store p).proposal? id = if id = p.id then some p else s.proposal? id :=
  Registry.get?_put s.proposals p id

@[simp] theorem proposal?_counted (s : Indexer) (id : UInt64) :
    s.counted.proposal? id = s.proposal? id := rfl

theorem id_of_proposal? (h : s.proposal? id = some p) : p.id = id :=
  (Registry.get?_eq_some.mp h).2

/-! ### Procedures on the state -/

theorem insertProposal_eq_ok :
    onProposals (Registry.insert p) s = .ok () t ↔ s.proposal? p.id = none ∧ t = s.store p := by
  rw [onProposals, onPart_eq_ok]
  constructor
  · rintro ⟨r, hr, rfl⟩
    obtain ⟨fresh, rfl⟩ := Registry.insert_eq_ok.mp hr
    exact ⟨fresh, rfl⟩
  · rintro ⟨fresh, rfl⟩
    exact ⟨_, Registry.insert_eq_ok.mpr ⟨fresh, rfl⟩, rfl⟩

theorem insertProposal_eq_error {cause : GovernanceError} :
    onProposals (Registry.insert p) s = .error cause t ↔
      (∃ q, s.proposal? p.id = some q) ∧ cause = .proposalExists p.id ∧ t = s := by
  rw [onProposals, onPart_eq_error]
  constructor
  · rintro ⟨r, hr, rfl⟩
    obtain ⟨stored, rfl, rfl⟩ := Registry.insert_eq_error.mp hr
    exact ⟨stored, rfl, rfl⟩
  · rintro ⟨stored, rfl, rfl⟩
    exact ⟨_, Registry.insert_eq_error.mpr ⟨stored, rfl, rfl⟩, rfl⟩

theorem changeProposal_eq_ok {m : InPlace GovernanceError Proposal Unit} :
    onProposals (Registry.onProposal id m) s = .ok () t ↔
      ∃ p q, s.proposal? id = some p ∧ m p = .ok () q ∧ t = s.store q := by
  rw [onProposals, onPart_eq_ok]
  constructor
  · rintro ⟨r, hr, rfl⟩
    obtain ⟨p, q, found, hq, rfl⟩ := Registry.onProposal_eq_ok.mp hr
    exact ⟨p, q, found, hq, rfl⟩
  · rintro ⟨p, q, found, hq, rfl⟩
    exact ⟨_, Registry.onProposal_eq_ok.mpr ⟨p, q, found, hq, rfl⟩, rfl⟩

theorem apply_of_lifecycle? {event : Event} {f : Proposal → Proposal}
    (kind : event.lifecycle? = some (id, f)) (block : BlockNumber) :
    apply block event = onProposals (Registry.onProposal id (modify f)) := by
  cases event <;> cases kind <;> rfl

theorem apply_of_change? {event : Event} {c : ParamsHistory.Change}
    (kind : event.change? = some c) (block : BlockNumber) :
    apply block event = onHistory (ParamsHistory.change block c) := by
  cases event <;> cases kind <;> rfl

/-! ### Steps -/

/-- The event `e` is accepted in `s` and leads to `t`. -/
inductive Step (e : LoggedEvent) (s : Indexer) : Indexer → Prop
  | created {a : Announcement} {p : Proposal} (kind : e.event = .proposalCreated a)
      (fresh : s.proposal? a.id = none)
      (opened : a.toProposal e.block (s.history.paramsAt e.block) = .ok p) :
      Step e s (s.store p).counted
  | edited {p q : Proposal} (edit : e.event.Edits p q) (found : s.proposal? p.id = some p) :
      Step e s (s.store q).counted
  | changed {c : ParamsHistory.Change} {h : ParamsHistory} (kind : e.event.change? = some c)
      (write : ParamsHistory.change e.block c s.history = .ok () h) :
      Step e s ({ s with history := h } : Indexer).counted

/-- An applied event is a step, once it is counted. -/
theorem apply_counted (h : apply e.block e.event s = .ok () u) : Step e s u.counted := by
  obtain ⟨a, kind⟩ | ⟨b, kind⟩ | ⟨id, f, kind⟩ | ⟨c, kind⟩ := e.event.kinds
  · -- a creation: the proposal is made first, and then its id has to be free
    rw [kind, apply] at h
    obtain ⟨_, _, ⟨⟩, h⟩ := bind_eq_ok.mp h
    obtain ⟨p, _, hopen, hinsert⟩ := bind_eq_ok.mp h
    obtain ⟨opened, rfl⟩ := liftM_eq_ok.mp hopen
    obtain ⟨fresh, rfl⟩ := insertProposal_eq_ok.mp hinsert
    rw [Announcement.toProposal_id opened] at fresh
    exact .created kind fresh opened
  · rw [kind, apply] at h
    obtain ⟨p, q, found, count, rfl⟩ := changeProposal_eq_ok.mp h
    have hid := id_of_proposal? found
    exact .edited (kind ▸ .ballot hid.symm count) (hid ▸ found)
  · rw [apply_of_lifecycle? kind] at h
    obtain ⟨p, _, found, ⟨⟩, rfl⟩ := changeProposal_eq_ok.mp h
    obtain rfl := id_of_proposal? found
    exact .edited (.lifecycle kind) found
  · rw [apply_of_change? kind] at h
    obtain ⟨h, write, rfl⟩ := onPart_eq_ok.mp h
    exact .changed kind write

/-- The steps are what `handle` accepts. -/
theorem handle_eq_ok : handle e s = .ok () t ↔ Step e s t := by
  rw [handle, bind_eq_ok]
  constructor
  · rintro ⟨⟨⟩, u, h, ⟨⟩⟩
    exact apply_counted h
  · intro h
    cases h with
    | created kind fresh opened =>
      refine ⟨(), _, ?_, rfl⟩
      rw [kind, apply]
      refine bind_eq_ok.mpr ⟨s, s, rfl, bind_eq_ok.mpr ⟨_, s, liftM_eq_ok.mpr ⟨opened, rfl⟩, ?_⟩⟩
      exact insertProposal_eq_ok.mpr ⟨Announcement.toProposal_id opened ▸ fresh, rfl⟩
    | edited edit found =>
      refine ⟨(), _, ?_, rfl⟩
      -- the event is no variable, so its edits cannot be told apart before
      generalize e.event = event at edit
      cases edit with
      | ballot named count =>
        exact changeProposal_eq_ok.mpr ⟨_, _, named ▸ found, count, rfl⟩
      | lifecycle kind =>
        rw [apply_of_lifecycle? kind]
        exact changeProposal_eq_ok.mpr ⟨_, _, found, rfl, rfl⟩
    | changed kind write =>
      refine ⟨(), _, ?_, rfl⟩
      rw [apply_of_change? kind]
      exact onPart_eq_ok.mpr ⟨_, write, rfl⟩

theorem handle_eq_error {cause : GovernanceError} :
    handle e s = .error cause t ↔ apply e.block e.event s = .error cause t := by
  rw [handle, bind_eq_error, or_iff_left]
  -- counting the event is not refused
  rintro ⟨⟨⟩, u, -, ⟨⟩⟩

/-- No event writes before the last point at which it may be refused. -/
theorem apply_atomic (e : LoggedEvent) : Atomic (apply e.block e.event) := by
  have hproposals : ∀ {m : InPlace GovernanceError Registry Unit}, Atomic m →
      Atomic (onProposals m) := fun hm => hm.onPart fun _ => rfl
  obtain ⟨a, kind⟩ | ⟨b, kind⟩ | ⟨id, f, kind⟩ | ⟨c, kind⟩ := e.event.kinds
  · rw [kind, apply]
    -- what may fail is read before the only write
    exact .after_readOnly .get fun s => .after_readOnly (.lift _) fun p =>
      hproposals (Registry.insert_atomic p)
  · rw [kind, apply]
    exact hproposals (Registry.onProposal_atomic (Proposal.countBallot_atomic b))
  · rw [apply_of_lifecycle? kind]
    exact hproposals (Registry.onProposal_atomic (Unfailing.modify f).atomic)
  · rw [apply_of_change? kind]
    exact (ParamsHistory.change_atomic e.block c).onPart fun _ => rfl

theorem handle_atomic (e : LoggedEvent) : Atomic (handle e) :=
  (apply_atomic e).before_unfailing fun _ => .modify _

/-! ### What a step leaves -/

theorem Step.handled (h : Step e s t) : t.handled = s.handled + 1 := by
  cases h <;> rfl

theorem Step.history (h : Step e s t) :
    (∃ c, e.event.change? = some c ∧
      ParamsHistory.change e.block c s.history = .ok () t.history) ∨
    (e.event.change? = none ∧ t.history = s.history) := by
  cases h with
  | created kind fresh opened =>
    rw [kind]
    exact .inr ⟨rfl, rfl⟩
  | edited edit found => exact .inr ⟨edit.change?, rfl⟩
  | changed kind write => exact .inl ⟨_, kind, write⟩

theorem Step.history_eq (h : Step e s t) (kind : e.event.change? = none) :
    t.history = s.history := by
  obtain ⟨c, hchange, -⟩ | ⟨-, hsame⟩ := h.history
  · cases kind.symm.trans hchange
  · exact hsame

/-- A proposal that the event does not name is untouched. -/
theorem Step.frame (h : Step e s t) (hother : e.event.proposalId? ≠ some id) :
    t.proposal? id = s.proposal? id := by
  cases h with
  | @created a p kind fresh opened =>
    have hne : id ≠ p.id := by
      rintro rfl
      exact hother (by rw [kind, Event.proposalId?, Announcement.toProposal_id opened])
    simp [hne]
  | @edited p q edit found =>
    have hne : id ≠ q.id := by
      rintro rfl
      exact hother (by rw [edit.proposalId?, edit.id_eq])
    simp [hne]
  | changed kind write => rfl

/-- A stored proposal that the event names is edited. -/
theorem Step.edits (h : Step e s t) (named : e.event.proposalId? = some id)
    (found : s.proposal? id = some p) :
    ∃ q, e.event.Edits p q ∧ t.proposal? id = some q := by
  cases h with
  | created kind fresh opened =>
    -- a creation names a fresh id
    rw [kind, Event.proposalId?, Option.some_inj] at named
    rw [named, found] at fresh
    cases fresh
  | @edited p' q edit found' =>
    rw [edit.proposalId?, Option.some_inj] at named
    rw [named, found] at found'
    cases found'
    exact ⟨q, edit, by simp [edit.id_eq, named]⟩
  | changed kind write => cases (Event.proposalId?_of_change? kind).symm.trans named

/-- An event that names a fresh id creates a proposal under it. -/
theorem Step.opens (h : Step e s t) (named : e.event.proposalId? = some id)
    (fresh : s.proposal? id = none) :
    ∃ a p, e.event = .proposalCreated a ∧ a.id = id ∧
      a.toProposal e.block (s.history.paramsAt e.block) = .ok p ∧ t.proposal? id = some p := by
  cases h with
  | @created a p kind fresh' opened =>
    have hid := Announcement.toProposal_id opened
    rw [kind, Event.proposalId?, Option.some_inj] at named
    exact ⟨a, p, kind, named, opened, by simp [hid, named]⟩
  | edited edit found =>
    rw [edit.proposalId?, Option.some_inj] at named
    rw [named, fresh] at found
    cases found
  | changed kind write => cases (Event.proposalId?_of_change? kind).symm.trans named

/-- A creation is accepted only under a fresh id. -/
theorem Step.creates {a : Announcement} (h : Step e s t) (kind : e.event = .proposalCreated a) :
    ∃ p, s.proposal? a.id = none ∧
      a.toProposal e.block (s.history.paramsAt e.block) = .ok p ∧ t.proposal? a.id = some p := by
  cases h with
  | @created a' p kind' fresh opened =>
    cases kind.symm.trans kind'
    exact ⟨p, fresh, opened, by simp [Announcement.toProposal_id opened]⟩
  | edited edit found =>
    rw [kind] at edit
    cases edit with
    | lifecycle kind' => cases kind'
  | changed kind' write =>
    rw [kind] at kind'
    cases kind'

/-- What an accepted event names is stored after it. -/
theorem Step.stores (h : Step e s t) (named : e.event.proposalId? = some id) :
    ∃ p, t.proposal? id = some p := by
  cases hbefore : s.proposal? id with
  | none =>
    obtain ⟨_, p, -, -, -, found⟩ := h.opens named hbefore
    exact ⟨p, found⟩
  | some p =>
    obtain ⟨q, -, found⟩ := h.edits named hbefore
    exact ⟨q, found⟩

/-- No proposal is lost. -/
theorem Step.follow (h : Step e s t) (found : s.proposal? id = some p) :
    ∃ q, t.proposal? id = some q ∧ (q = p ∨ e.event.Edits p q) := by
  by_cases named : e.event.proposalId? = some id
  · obtain ⟨q, edit, found'⟩ := h.edits named found
    exact ⟨q, found', .inr edit⟩
  · exact ⟨p, (h.frame named).trans found, .inl rfl⟩

/-- A proposal found after a step is new, or was found before under its id. -/
theorem Step.origin (h : Step e s t) (found : t.proposal? id = some q) :
    (∃ a, e.event = .proposalCreated a ∧ a.id = id ∧ s.proposal? id = none ∧
      a.toProposal e.block (s.history.paramsAt e.block) = .ok q) ∨
    ∃ p, s.proposal? id = some p ∧ (q = p ∨ e.event.Edits p q) := by
  cases hbefore : s.proposal? id with
  | some p =>
    obtain ⟨q', found', hq⟩ := h.follow hbefore
    cases found'.symm.trans found
    exact .inr ⟨p, rfl, hq⟩
  | none =>
    -- what was not there before is there through this event
    have named : e.event.proposalId? = some id := by
      by_contra hother
      rw [h.frame hother, hbefore] at found
      cases found
    obtain ⟨a, q', kind, hid, opened, found'⟩ := h.opens named hbefore
    cases found'.symm.trans found
    exact .inl ⟨a, kind, hid, rfl, opened⟩

/-! ### Locality -/

variable {s' t' : Indexer}

/-- What becomes of the history depends on the history alone. -/
theorem Step.history_local (h : Step e s t) (h' : Step e s' t')
    (hhistory : s'.history = s.history) :
    t'.history = t.history := by
  obtain ⟨c, kind, write⟩ | ⟨kind, hsame⟩ := h.history
  · obtain ⟨c', kind', write'⟩ | ⟨kind', -⟩ := h'.history
    · cases kind.symm.trans kind'
      rw [hhistory, write] at write'
      exact (EStateM.Result.ok.inj write').2.symm
    · cases kind.symm.trans kind'
  · obtain ⟨c', kind', -⟩ | ⟨-, hsame'⟩ := h'.history
    · cases kind.symm.trans kind'
    · rw [hsame', hsame, hhistory]

/-- What becomes of a proposal depends on that proposal and on the history alone. -/
theorem Step.proposal?_local (h : Step e s t) (h' : Step e s' t')
    (hhistory : s'.history = s.history) (hsame : s'.proposal? id = s.proposal? id) :
    t'.proposal? id = t.proposal? id := by
  by_cases named : e.event.proposalId? = some id
  · cases hbefore : s.proposal? id with
    | some p =>
      obtain ⟨q, edit, found⟩ := h.edits named hbefore
      obtain ⟨q', edit', found'⟩ := h'.edits named (hsame.trans hbefore)
      rw [found', found, edit.unique edit']
    | none =>
      obtain ⟨a, p, kind, -, opened, found⟩ := h.opens named hbefore
      obtain ⟨a', p', kind', -, opened', found'⟩ := h'.opens named (hsame.trans hbefore)
      cases kind.symm.trans kind'
      rw [hhistory, opened] at opened'
      cases opened'
      rw [found', found]
  · rw [h'.frame named, h.frame named, hsame]

end Indexer

end DynamicQuorum
