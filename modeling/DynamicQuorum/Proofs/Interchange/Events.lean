/-
  DynamicQuorum/Proofs/Interchange/Events.lean
  ============================================
  **Logs survive JSON.**

  The members of an event besides its kind hold no containers, so they can be read to the end
  of the event before they are interpreted; none of them is called like the kind.  What then
  remains is a record, with the fields of the kind.
-/
import DynamicQuorum.Interchange.Events
import DynamicQuorum.Proofs.Interchange.Scalars

namespace DynamicQuorum

open Json Json.Decoder Json.Record

variable {depth : Nat}

/-! ### Fields of each kind -/

theorem Announcement.writes (a : Announcement) :
    Writes depth Announcement.fields a.members Announcement.blank a := by
  have hblock : ∀ b : BlockNumber,
      (uint64ToJson b).toDraft ≠ .null ∧ Reads uint64 depth (uint64ToJson b) b :=
    fun b => ⟨nofun, reads_uint64 b⟩
  have hword : ∀ w : Word256,
      w.toJson.toDraft ≠ .null ∧ Reads Word256.decoder depth w.toJson w :=
    fun w => ⟨nofun, w.reads⟩
  exact .cons (reads_uint64 a.id) <| .cons a.proposer.reads <|
    .cons (reads_uint64 a.startBlock) <| .cons (reads_uint64 a.endBlock) <|
    .cons (reads_uint64 a.updatePeriodEnd) <| .cons (.optional fun b _ => hblock b) <|
    .cons a.quorumVotes.reads <| .cons (.optional fun w _ => hword w) <|
    .cons (reads_bool a.onTimelockV1) <| .nil a

theorem Ballot.writes (b : Ballot) : Writes depth Ballot.fields b.members Ballot.blank b :=
  .cons b.voter.reads <| .cons (reads_uint64 b.proposalId) <| .cons b.support.reads <|
    .cons b.votes.reads <| .nil b

namespace Event

theorem read_members {σ : Type} {fields : List (RecordField σ)} {members : List (String × Value)}
    {initial final : σ} (h : Writes 0 fields members initial final)
    (hnodup : (fields.map (·.name)).Nodup) :
    (Parts.members (Value.toMemberDrafts members)).read fields initial = .ok final :=
  h.readObject hnodup (by decide)

theorem read_pair {α β : Type} {first second : String} (hne : first ≠ second)
    {decodeFirst : Decoder α} {decodeSecond : Decoder β} {v w : Value} {a : α} {b : β}
    (ha : Reads decodeFirst 0 v a) (hb : Reads decodeSecond 0 w b) (initial : α × β) :
    (Parts.members (Value.toMemberDrafts [(first, v), (second, w)])).read
      (pairFields first second decodeFirst decodeSecond) initial = .ok (a, b) := by
  have hnodup : [first, second].Nodup := by simp [hne]
  exact read_members (.cons ha <| .cons hb <| .nil (a, b)) hnodup

theorem read_id (id initial : UInt64) :
    (Parts.members (Value.toMemberDrafts [("id", uint64ToJson id)])).read idFields initial =
      .ok id :=
  read_members (.cons (reads_uint64 id) <| .nil id) (by decide)

/-- The members of an event besides its kind are interpreted as the event. -/
theorem ofParts_members (e : Event) :
    ofParts (.members (Value.toMemberDrafts e.members)) e.kind = .ok e := by
  have hbps : "old_bps" ≠ "new_bps" := by decide
  have hcoefficient : "old_coefficient" ≠ "new_coefficient" := by decide
  have hperiod : "id" ≠ "objection_period_end_block" := by decide
  have hqueued : "id" ≠ "eta" := by decide
  cases e with
  | proposalCreated a =>
    exact congrArg (Except.map proposalCreated) (read_members a.writes (by decide))
  | voteCast b => exact congrArg (Except.map voteCast) (read_members b.writes (by decide))
  | minQuorumSet old new =>
    exact congrArg (Except.map fun p => minQuorumSet p.1 p.2)
      (read_pair hbps old.reads new.reads _)
  | maxQuorumSet old new =>
    exact congrArg (Except.map fun p => maxQuorumSet p.1 p.2)
      (read_pair hbps old.reads new.reads _)
  | coefficientSet old new =>
    exact congrArg (Except.map fun p => coefficientSet p.1 p.2)
      (read_pair hcoefficient old.reads new.reads _)
  | objectionPeriodSet id endBlock =>
    exact congrArg (Except.map fun p => objectionPeriodSet p.1 p.2)
      (read_pair hperiod (reads_uint64 id) (reads_uint64 endBlock) _)
  | proposalCanceled id => exact congrArg (Except.map proposalCanceled) (read_id id 0)
  | proposalVetoed id => exact congrArg (Except.map proposalVetoed) (read_id id 0)
  | proposalQueued id eta =>
    exact congrArg (Except.map fun p => proposalQueued p.1 p.2)
      (read_pair hqueued (reads_uint64 id) (reads_uint64 eta) _)
  | proposalExecuted id => exact congrArg (Except.map proposalExecuted) (read_id id 0)

/-! ### Telling the kind from the rest -/

theorem readable_uint64 (n : UInt64) : Readable (uint64ToJson n) := readable_number n.toNat_lt

theorem readable_ratio (b : BasisPoints) : Readable b.toJson :=
  readable_number (Nat.lt_trans b.val.toNat_lt (by decide))

theorem readable_support (s : VoteSupport) : Readable s.toJson :=
  readable_number (Nat.lt_trans s.code.toNat_lt (by decide))

theorem type_not_mem_members (e : Event) : "type" ∉ e.members.map (·.1) := by
  cases e <;> simp [members, Announcement.members, Ballot.members]

theorem readable_members (e : Event) : ∀ m ∈ e.members, Readable m.2 := by
  cases e with
  | proposalCreated a =>
    simp only [members, Announcement.members, List.forall_mem_cons]
    exact ⟨readable_uint64 _, readable_string _, readable_uint64 _, readable_uint64 _,
      readable_uint64 _, readable_ofOption readable_uint64 _, readable_string _,
      readable_ofOption (fun _ => readable_string _) _, readable_bool _, nofun⟩
  | voteCast b =>
    simp only [members, Ballot.members, List.forall_mem_cons]
    exact ⟨readable_string _, readable_uint64 _, readable_support _, readable_string _, nofun⟩
  | minQuorumSet old new | maxQuorumSet old new =>
    simp only [members, List.forall_mem_cons]
    exact ⟨readable_ratio _, readable_ratio _, nofun⟩
  | coefficientSet old new =>
    simp only [members, List.forall_mem_cons]
    exact ⟨readable_string _, readable_string _, nofun⟩
  | objectionPeriodSet id block | proposalQueued id block =>
    simp only [members, List.forall_mem_cons]
    exact ⟨readable_uint64 _, readable_uint64 _, nofun⟩
  | proposalCanceled id | proposalVetoed id | proposalExecuted id =>
    simp only [members, List.forall_mem_cons]
    exact ⟨readable_uint64 _, nofun⟩

/-- Members that are not called like the kind are kept for later, if they can be read. -/
theorem splitMembers_others {members : List (String × Value)}
    (hkeys : "type" ∉ members.map (·.1)) (hreadable : ∀ m ∈ members, Readable m.2) (r : Reading)
    (kind : Option Kind) (others : List (Option String × Draft)) :
    splitMembers r (Value.toMemberDrafts members) kind others =
      .ok (kind, others ++ Value.toMemberDrafts members) := by
  induction members generalizing others with
  | nil =>
    rw [Value.toMemberDrafts, List.append_nil]
    rfl
  | cons m rest ih =>
    obtain ⟨key, v⟩ := m
    rw [List.map_cons, List.mem_cons, not_or] at hkeys
    obtain ⟨hkey, hrest⟩ := hkeys
    obtain ⟨hv, hreadable⟩ := List.forall_mem_cons.mp hreadable
    rw [Value.toMemberDrafts, splitMembers, if_neg (Ne.symm hkey), if_pos (hv r.room),
      ih hrest hreadable, List.append_assoc, List.singleton_append]

theorem Kind.decoder_name (kind : Kind) (r : Reading) :
    decoder r (.string (some kind.name)) = .ok kind := by
  cases kind <;> rfl

/-- An event is read from its object, whose first member names its kind. -/
theorem reads (e : Event) : Reads decoder (depth + 1) e.toJson e := by
  intro r hr
  obtain ⟨inner, henter, -⟩ := enter_of_lt hr
  have hsplit : splitMembers inner ((some "type", .string (some e.kind.name)) ::
      Value.toMemberDrafts e.members) none [] =
        .ok (some e.kind, Value.toMemberDrafts e.members) := by
    rw [splitMembers, if_pos rfl]
    change Kind.decoder inner (.string (some e.kind.name)) >>= _ = _
    rw [Kind.decoder_name]
    -- no other member has this key, and all of them are kept for later
    exact splitMembers_others e.type_not_mem_members e.readable_members inner _ []
  change (r.enter >>= fun inner => splitMembers inner ((some "type", .string (some e.kind.name)) ::
    Value.toMemberDrafts e.members) none [] >>= _) = _
  rw [henter]
  change (splitMembers inner _ none [] >>= _) = _
  rw [hsplit]
  exact e.ofParts_members

end Event

namespace LoggedEvent

theorem reads (e : LoggedEvent) : Reads decoder (depth + 2) e.toJson e := by
  have hwrites : Writes (depth + 1) fields _ ⟨0, 0, .proposalExecuted 0⟩ e :=
    .cons (reads_uint64 e.block) <| .cons (reads_uint64 e.timestamp) <| .cons e.event.reads <|
      .nil e
  exact hwrites.reads (by decide)

theorem reads_log (events : List LoggedEvent) :
    Reads logDecoder (depth + 3) (logToJson events) events :=
  .list fun e _ => e.reads

end LoggedEvent

end DynamicQuorum
