/-
  DynamicQuorum/Proofs/Indexer/Listing.lean
  =========================================
  **The listing holds every announced proposal once.**

  An accepted announcement puts one id into the listing, and no other event changes the ids that
  stand there: an edited proposal keeps its id, and so its place.  Resolving the listed
  proposals at a chain position then sorts them into the lists of the twelve states.
-/
import DynamicQuorum.Proofs.Indexer.Creation

namespace DynamicQuorum

theorem Event.Edits.ne_created {event : Event} {p q : Proposal} (h : event.Edits p q)
    (a : Announcement) : event ≠ .proposalCreated a := by
  rintro rfl
  cases h with
  | lifecycle kind => cases kind

theorem ProposalState.mem_all (state : ProposalState) : state ∈ all := by
  cases state <;> decide

namespace Indexer

variable {s t : Indexer} {e : LoggedEvent} {events : List LoggedEvent}

/-! ### The ids of a run -/

def announcedIds (events : List LoggedEvent) : List UInt64 := (announcements events).map (·.id)

theorem announcedIds_of_created {a : Announcement} (kind : e.event = .proposalCreated a)
    (rest : List LoggedEvent) : announcedIds (e :: rest) = a.id :: announcedIds rest := by
  simp [announcedIds, announcements, kind]

theorem announcedIds_of_other (kind : ∀ a, e.event ≠ .proposalCreated a)
    (rest : List LoggedEvent) : announcedIds (e :: rest) = announcedIds rest := by
  rw [announcedIds, announcements, List.filterMap_cons]
  cases hevent : e.event with
  | proposalCreated a => exact absurd hevent (kind a)
  | _ => rfl

/-- An accepted event adds the id that it announces, if any, and no other. -/
theorem Step.ids (h : Step e s t) (rest : List LoggedEvent) :
    (announcedIds rest ++ t.proposals.ids).Perm (announcedIds (e :: rest) ++ s.proposals.ids) := by
  cases h with
  | @created a p kind fresh opened =>
    have hid := Announcement.toProposal_id opened
    rw [announcedIds_of_created kind, ← hid]
    rw [← hid] at fresh
    exact ((Registry.ids_put_of_fresh fresh).append_left _).trans List.perm_middle
  | @edited p q edit found =>
    rw [announcedIds_of_other edit.ne_created]
    exact .of_eq (congrArg _ (Registry.ids_put_of_found found edit.id_eq))
  | changed kind write =>
    rw [announcedIds_of_other]
    · rfl
    · intro a hevent
      rw [hevent] at kind
      cases kind

theorem Accepts.ids (h : Accepts s events t) :
    t.proposals.ids.Perm (announcedIds events ++ s.proposals.ids) := by
  induction h with
  | nil s => rfl
  | @cons s t u e rest first run ih => exact ih.trans ((handle_eq_ok.mp first).ids rest)

theorem Initial.ids (start : Initial s) : s.proposals.ids = [] := by
  cases start <;> rfl

/-! ### The listing -/

/-- **The listing loses and duplicates nothing.**  Handle any log past its refusals.  The ids of
    the listed proposals are strictly increasing, and they are the ids of the accepted
    announcements, each of which adds one to the size.  What is found under an id is what is
    listed under it, and it has this id.  At any chain position, all proposals are listed in
    that order, and those in a state are listed in that order, too; the lists of two states
    have no proposal in common, and those of all twelve states have every one. -/
theorem listing_is_complete (start : Initial s) (events : List LoggedEvent) :
    let r := (handleEach s events).proposals
    r.ids.Pairwise (· < ·) ∧
    r.ids.Perm ((announcements (accepted s events)).map (·.id)) ∧
    r.size = (announcements (accepted s events)).length ∧
    (∀ id p, r.get? id = some p ↔ p ∈ r.toList ∧ p.id = id) ∧
    ∀ view,
      r.select none view = r.toList ∧
      (∀ state, (r.select (some state) view).Sublist r.toList) ∧
      (∀ state p, p ∈ r.select (some state) view ↔ p ∈ r.toList ∧ p.stateAt view = state) ∧
      (∀ state other, state ≠ other →
        (r.select (some state) view).Disjoint (r.select (some other) view)) ∧
      (ProposalState.all.flatMap fun state => r.select (some state) view).Perm r.toList := by
  intro r
  have hids : r.ids.Perm (announcedIds (accepted s events)) := by
    have hrun := (accepts_accepted s events).ids
    rwa [start.ids, List.append_nil] at hrun
  have hin : ∀ view state p,
      p ∈ r.select (some state) view ↔ p ∈ r.toList ∧ p.stateAt view = state := by
    intro view state p
    simp [Registry.select, Registry.inState]
  refine ⟨r.pairwise_ids, hids, ?_, fun id p => Registry.get?_eq_some, fun view => ?_⟩
  · simpa [Registry.ids, announcedIds, Ascending.size] using hids.length_eq
  · refine ⟨rfl, fun state => List.filter_sublist, hin view, ?_, ?_⟩
    · intro state other hne p hp hp'
      exact hne (((hin view state p).mp hp).2.symm.trans ((hin view other p).mp hp').2)
    · -- every proposal is in one state, so the twelve lists make up the whole
      have hall := r.perm_flatMap_inState view (show ProposalState.all.Nodup by decide)
      simpa [ProposalState.mem_all, Registry.select] using hall

/-- Proposals announced as five, two and five again, and a vote on the second. -/
def trialListing : List LoggedEvent :=
  let announce := fun id : UInt64 =>
    (⟨20, 0, .proposalCreated { trialAnnouncement with id := id }⟩ : LoggedEvent)
  [announce 5, announce 2, announce 5,
    ⟨30, 0, .voteCast { trialBallot 1 .for 160 with proposalId := 2 }⟩]

/-- They are listed as two and five, and behind the last block the second proposal is found among
    those that succeeded. -/
theorem listing_is_complete_trial :
    let r := (handleEach (withHistory trialHistory) trialListing).proposals
    r.ids = [2, 5] ∧ r.size = 2 ∧
      ∃ p, r.get? 2 = some p ∧ p ∈ r.select (some .succeeded) ⟨some 36, none, true⟩ := by
  intro r
  have haccepted : (announcements (accepted (withHistory trialHistory) trialListing)).map (·.id) =
      [5, 2] := by
    decide +kernel
  have hstate : (r.get? 2).map (·.stateAt ⟨some 36, none, true⟩) = some .succeeded := by
    decide +kernel
  obtain ⟨hascending, hids, hsize, hget, hlists⟩ :=
    listing_is_complete (.withHistory trialHistory) trialListing
  obtain ⟨-, -, hin, -, -⟩ := hlists ⟨some 36, none, true⟩
  rw [haccepted] at hids
  refine ⟨?_, ?_, ?_⟩
  · have hswap : r.ids.Perm [2, 5] := hids.trans (.swap 2 5 [])
    refine hswap.eq_of_pairwise (fun a b _ _ hab hba => ?_) hascending (by decide)
    exact absurd hab (UInt64.lt_asymm hba)
  · rw [hsize, ← List.length_map (·.id), haccepted]
    rfl
  · obtain ⟨p, found, hp⟩ := Option.map_eq_some_iff.mp hstate
    exact ⟨p, found, (hin _ p).mpr ⟨((hget 2 p).mp found).1, hp⟩⟩

end Indexer

end DynamicQuorum
