/-
  DynamicQuorum/Interchange/Events.lean
  =====================================
  **The JSON form of events.**

  An event is an object whose member `type` names its kind, or an array that begins with
  that name.  The kind is looked up as soon as its name is met; the other members are read
  to the end of the event before they are interpreted, again in the order of the text.
-/
import DynamicQuorum.Interchange.Params
import DynamicQuorum.Event

namespace DynamicQuorum

open Json

/-! ### Fields of each kind -/

namespace Announcement

def members (a : Announcement) : List (String × Value) :=
  [("id", uint64ToJson a.id),
   ("proposer", a.proposer.toJson),
   ("start_block", uint64ToJson a.startBlock),
   ("end_block", uint64ToJson a.endBlock),
   ("update_period_end_block", uint64ToJson a.updatePeriodEnd),
   ("vote_snapshot_block", .ofOption (a.voteSnapshotBlock.map uint64ToJson)),
   ("quorum_votes", a.quorumVotes.toJson),
   ("total_supply", .ofOption (a.totalSupply.map Word256.toJson)),
   ("on_timelock_v1", .bool a.onTimelockV1)]

def fields : List (RecordField Announcement) :=
  [.required "id" Decoder.uint64 fun v a => { a with id := v },
   .required "proposer" Address.decoder fun v a => { a with proposer := v },
   .required "start_block" Decoder.uint64 fun v a => { a with startBlock := v },
   .required "end_block" Decoder.uint64 fun v a => { a with endBlock := v },
   .of "update_period_end_block" .default Decoder.uint64
     fun v a => { a with updatePeriodEnd := v },
   .of "vote_snapshot_block" .default (Decoder.optional Decoder.uint64)
     fun v a => { a with voteSnapshotBlock := v },
   .required "quorum_votes" Word256.decoder fun v a => { a with quorumVotes := v },
   .of "total_supply" .default (Decoder.optional Word256.decoder)
     fun v a => { a with totalSupply := v },
   .of "on_timelock_v1" .default Decoder.bool fun v a => { a with onTimelockV1 := v }]

def blank : Announcement := ⟨0, .zero, 0, 0, 0, none, .zero, none, false⟩

end Announcement

namespace Ballot

def members (b : Ballot) : List (String × Value) :=
  [("voter", b.voter.toJson),
   ("proposal_id", uint64ToJson b.proposalId),
   ("support", b.support.toJson),
   ("votes", b.votes.toJson)]

def fields : List (RecordField Ballot) :=
  [.required "voter" Address.decoder fun v b => { b with voter := v },
   .required "proposal_id" Decoder.uint64 fun v b => { b with proposalId := v },
   .required "support" VoteSupport.decoder fun v b => { b with support := v },
   .required "votes" Word256.decoder fun v b => { b with votes := v }]

def blank : Ballot := ⟨.zero, 0, .against, .zero⟩

end Ballot

namespace Event

inductive Kind where
  | proposalCreated
  | voteCast
  | minQuorumSet
  | maxQuorumSet
  | coefficientSet
  | objectionPeriodSet
  | proposalCanceled
  | proposalVetoed
  | proposalQueued
  | proposalExecuted
deriving DecidableEq, Repr

namespace Kind

def name : Kind → String
  | .proposalCreated => "proposal_created"
  | .voteCast => "vote_cast"
  | .minQuorumSet => "min_quorum_votes_bps_set"
  | .maxQuorumSet => "max_quorum_votes_bps_set"
  | .coefficientSet => "quorum_coefficient_set"
  | .objectionPeriodSet => "proposal_objection_period_set"
  | .proposalCanceled => "proposal_canceled"
  | .proposalVetoed => "proposal_vetoed"
  | .proposalQueued => "proposal_queued"
  | .proposalExecuted => "proposal_executed"

def all : List Kind :=
  [.proposalCreated, .voteCast, .minQuorumSet, .maxQuorumSet, .coefficientSet,
    .objectionPeriodSet, .proposalCanceled, .proposalVetoed, .proposalQueued, .proposalExecuted]

def ofName? (name : String) : Option Kind := all.find? (·.name = name)

/-- A name that must be that of a kind. -/
def decoder : Decoder Kind := fun r d => do
  let name ← Decoder.string r d
  match ofName? name with
  | some kind => return kind
  | none => throw .mismatch

end Kind

def kind : Event → Kind
  | .proposalCreated _ => .proposalCreated
  | .voteCast _ => .voteCast
  | .minQuorumSet _ _ => .minQuorumSet
  | .maxQuorumSet _ _ => .maxQuorumSet
  | .coefficientSet _ _ => .coefficientSet
  | .objectionPeriodSet _ _ => .objectionPeriodSet
  | .proposalCanceled _ => .proposalCanceled
  | .proposalVetoed _ => .proposalVetoed
  | .proposalQueued _ _ => .proposalQueued
  | .proposalExecuted _ => .proposalExecuted

def members : Event → List (String × Value)
  | .proposalCreated a => a.members
  | .voteCast b => b.members
  | .minQuorumSet old new => [("old_bps", old.toJson), ("new_bps", new.toJson)]
  | .maxQuorumSet old new => [("old_bps", old.toJson), ("new_bps", new.toJson)]
  | .coefficientSet old new =>
    [("old_coefficient", old.toJson), ("new_coefficient", new.toJson)]
  | .objectionPeriodSet id endBlock =>
    [("id", uint64ToJson id), ("objection_period_end_block", uint64ToJson endBlock)]
  | .proposalCanceled id => [("id", uint64ToJson id)]
  | .proposalVetoed id => [("id", uint64ToJson id)]
  | .proposalQueued id eta => [("id", uint64ToJson id), ("eta", uint64ToJson eta)]
  | .proposalExecuted id => [("id", uint64ToJson id)]

def toJson (e : Event) : Value := .object (("type", .string e.kind.name) :: e.members)

/-! ### Reading -/

/-- The parts of an event besides its kind, in the form in which they were written. -/
inductive Parts where
  | members (members : List (Option String × Draft))
  | items (items : List Draft)
deriving Repr

/-- Interpret parts that were read to their end. -/
def Parts.read {σ : Type} (parts : Parts) (fields : List (RecordField σ)) (initial : σ) :
    Except DecodeError σ :=
  match parts with
  | .members ms => Record.readObject fields .value ms true initial
  | .items ds => Record.readArray .value true fields ds initial

def pairFields {α β : Type} (first second : String) (decodeFirst : Decoder α)
    (decodeSecond : Decoder β) : List (RecordField (α × β)) :=
  [.required first decodeFirst fun v p => (v, p.2),
   .required second decodeSecond fun v p => (p.1, v)]

def idFields : List (RecordField UInt64) := [.required "id" Decoder.uint64 fun v _ => v]

def ofParts (parts : Parts) : Kind → Except DecodeError Event
  | .proposalCreated => (parts.read Announcement.fields Announcement.blank).map .proposalCreated
  | .voteCast => (parts.read Ballot.fields Ballot.blank).map .voteCast
  | .minQuorumSet => (bpsPair parts).map fun p => .minQuorumSet p.1 p.2
  | .maxQuorumSet => (bpsPair parts).map fun p => .maxQuorumSet p.1 p.2
  | .coefficientSet =>
    (parts.read (pairFields "old_coefficient" "new_coefficient" Word256.decoder Word256.decoder)
      (.zero, .zero)).map fun p => .coefficientSet p.1 p.2
  | .objectionPeriodSet =>
    (parts.read (pairFields "id" "objection_period_end_block" Decoder.uint64 Decoder.uint64)
      (0, 0)).map fun p => .objectionPeriodSet p.1 p.2
  | .proposalCanceled => (parts.read idFields 0).map .proposalCanceled
  | .proposalVetoed => (parts.read idFields 0).map .proposalVetoed
  | .proposalQueued =>
    (parts.read (pairFields "id" "eta" Decoder.uint64 Decoder.uint64) (0, 0)).map
      fun p => .proposalQueued p.1 p.2
  | .proposalExecuted => (parts.read idFields 0).map .proposalExecuted
where
  bpsPair (parts : Parts) : Except DecodeError (BasisPoints × BasisPoints) :=
    parts.read (pairFields "old_bps" "new_bps" BasisPoints.decoder BasisPoints.decoder)
      (.zero, .zero)

/-- Read the members of an event to their end: its kind, if it is given, and the others. -/
def splitMembers (r : Reading) :
    List (Option String × Draft) → Option Kind → List (Option String × Draft) →
      Except DecodeError (Option Kind × List (Option String × Draft))
  | [], kind, others => .ok (kind, others)
  | (none, _) :: _, _, _ => .error .malformed
  | (some key, d) :: rest, kind, others =>
    if key = "type" then
      if kind.isSome then .error .mismatch
      else do
        let kind ← Kind.decoder r d
        splitMembers r rest (some kind) others
    else if d.isReadable r.room then splitMembers r rest kind (others ++ [(some key, d)])
    else .error .malformed

def decoder : Decoder Event := fun r d =>
  match d with
  | .object members closed => do
    let inner ← r.enter
    let (kind, others) ← splitMembers inner members none []
    if !closed then throw .malformed
    match kind with
    | none => throw .mismatch
    | some kind => ofParts (.members others) kind
  | .array [] closed => do
    let _ ← r.enter
    throw (if closed then .mismatch else .malformed)
  | .array (tag :: items) closed => do
    let inner ← r.enter
    let kind ← Kind.decoder inner tag
    if !(Draft.areReadable inner.room items && closed) then throw .malformed
    ofParts (.items items) kind
  | d => .error d.otherKind

end Event

namespace LoggedEvent

def toJson (e : LoggedEvent) : Value := .object
  [("block_number", uint64ToJson e.block),
   ("block_timestamp", uint64ToJson e.timestamp),
   ("event", e.event.toJson)]

def fields : List (RecordField LoggedEvent) :=
  [.required "block_number" Decoder.uint64 fun v e => { e with block := v },
   .of "block_timestamp" .default Decoder.uint64 fun v e => { e with timestamp := v },
   .required "event" Event.decoder fun v e => { e with event := v }]

def decoder : Decoder LoggedEvent := Record.decode fields ⟨0, 0, .proposalExecuted 0⟩

def logDecoder : Decoder (List LoggedEvent) := Decoder.list decoder

def logToJson (events : List LoggedEvent) : Value := .array (events.map toJson)

end LoggedEvent

end DynamicQuorum
