/-
  DynamicQuorum/Proofs/Json/Decoder.lean
  ======================================
  **Decoders read what was written.**

  `Reads decode depth v a` says that a decoder reads `a` from the written form `v`, wherever
  containers may still be nested `depth` deep.  There is one rule for each way to build a
  decoder.  A record whose members stand in the order of its fields is read field by field:
  `Writes` follows the record from its initial value to the value that was written.

  In the other direction, whatever a decoder of a record accepts has every property that
  the initial record has and each field keeps.
-/
import DynamicQuorum.Json.Decoder
import DynamicQuorum.Proofs.Except
import DynamicQuorum.Proofs.Json.Document
import DynamicQuorum.Proofs.Json.Number

namespace DynamicQuorum.Json

namespace Decoder

variable {α β : Type} {decode : Decoder α} {depth : Nat} {v : Value} {a : α}

/-- The decoder reads `a` from the value, where `depth` levels of containers may be opened. -/
def Reads (decode : Decoder α) (depth : Nat) (v : Value) (a : α) : Prop :=
  ∀ r : Reading, depth < r.room → decode r v.toDraft = .ok a

theorem Reads.decodeText {text : String} (h : Reads decode depth v a) (hdepth : depth < 128)
    (htext : v.IsText text) : decodeText decode text = .ok a := by
  rw [Json.decodeText, Document.read_of_isText htext]
  dsimp only
  rw [h .text hdepth]
  rfl

theorem decodeText_eq_ok {text : String} (h : Json.decodeText decode text = .ok a) :
    ∃ d, decode .text d = .ok a := by
  rw [Json.decodeText] at h
  obtain ⟨b, hread, h⟩ := Except.bind_eq_ok.mp h
  split at h
  next => cases h
  next =>
    cases h
    exact ⟨_, hread⟩

theorem refine_eq_ok {check : α → Except GovernanceError β} {r : Reading} {d : Draft} {b : β}
    (h : refine decode check r d = .ok b) : ∃ a, decode r d = .ok a ∧ check a = .ok b := by
  obtain ⟨a, hread, h⟩ := Except.bind_eq_ok.mp h
  refine ⟨a, hread, ?_⟩
  split at h
  next b' hcheck =>
    cases h
    exact hcheck
  next => cases h

theorem optional_eq_ok {r : Reading} {d : Draft} {value : Option α}
    (h : optional decode r d = .ok value) (ha : a ∈ value) : decode r d = .ok a := by
  unfold optional at h
  split at h
  next =>
    cases h
    cases ha
  next =>
    obtain ⟨b, hread, rfl⟩ := Except.map_eq_ok.mp h
    cases ha
    exact hread

/-! ### Simple values -/

theorem reads_string (s : String) : Reads string depth (.string s) s := fun _ _ => rfl

theorem reads_bool (b : Bool) : Reads bool depth (.bool b) b := fun _ _ => rfl

theorem reads_uint64 (n : UInt64) : Reads uint64 depth (.number n.toNat) n := by
  intro r _
  rw [Value.toDraft, uint64, Number.natural?_ofInt n.toNat_lt, UInt64.ofNat_toNat]

theorem reads_below {bound : Nat} {n : UInt64} (h : n.toNat < bound) :
    Reads (below bound) depth (.number n.toNat) n := by
  intro r hr
  rw [below, reads_uint64 n r hr]
  exact if_pos h

theorem Reads.refine {check : α → Except GovernanceError β} {b : β} (h : Reads decode depth v a)
    (hcheck : check a = .ok b) : Reads (refine decode check) depth v b := by
  intro r hr
  refine Except.bind_eq_ok.mpr ⟨a, h r hr, ?_⟩
  rw [hcheck]
  rfl

theorem reads_variant {ofName? : String → Option α} {name : String} (h : ofName? name = some a) :
    Reads (variant ofName?) depth (.string name) a := by
  intro r _
  change variant.named ofName? name = .ok a
  rw [variant.named, h]

theorem Reads.optional {encode : α → Value} {value : Option α}
    (h : ∀ a ∈ value, (encode a).toDraft ≠ .null ∧ Reads decode depth (encode a) a) :
    Reads (optional decode) depth (.ofOption (value.map encode)) value := by
  intro r hr
  cases value with
  | none => rfl
  | some a =>
    obtain ⟨hne, ha⟩ := h a rfl
    change Decoder.optional decode r (encode a).toDraft = .ok (some a)
    rw [Decoder.optional, ha r hr]
    · rfl
    · exact hne

theorem mapM_toDrafts {encode : α → Value} {r : Reading} {values : List α}
    (h : ∀ a ∈ values, decode r (encode a).toDraft = .ok a) :
    (Value.toDrafts (values.map encode)).mapM (decode r) = .ok values := by
  induction values with
  | nil => rfl
  | cons a rest ih =>
    rw [List.map_cons, Value.toDrafts, List.mapM_cons, h a List.mem_cons_self,
      ih fun b hb => h b (List.mem_cons_of_mem _ hb)]
    rfl

theorem enter_of_lt {r : Reading} (h : depth + 1 < r.room) :
    ∃ inner, r.enter = .ok inner ∧ depth < inner.room := by
  refine ⟨_, if_neg (by omega), ?_⟩
  change depth < r.room - 1
  omega

theorem Reads.list {encode : α → Value} {values : List α}
    (h : ∀ a ∈ values, Reads decode depth (encode a) a) :
    Reads (list decode) (depth + 1) (.array (values.map encode)) values := by
  intro r hr
  obtain ⟨inner, henter, hinner⟩ := enter_of_lt hr
  rw [Value.toDraft, Decoder.list, henter]
  change (Value.toDrafts (values.map encode)).mapM (decode inner) >>= _ = _
  rw [mapM_toDrafts fun a ha => h a ha inner hinner]
  rfl

end Decoder

/-! ### Values without containers -/

/-- The written value can be read to its end, and has no containers in it. -/
def Readable (v : Value) : Prop := ∀ room, v.toDraft.isReadable room = true

theorem readable_string (s : String) : Readable (.string s) := fun _ => rfl

theorem readable_bool (b : Bool) : Readable (.bool b) := fun _ => rfl

theorem readable_number {n : Nat} (h : n < UInt64.size) : Readable (.number n) := by
  intro room
  change (!(Number.ofInt n).overflows) = true
  rw [Number.overflows_ofInt h]
  rfl

theorem readable_ofOption {α : Type} {encode : α → Value} (h : ∀ a, Readable (encode a))
    (value : Option α) : Readable (.ofOption (value.map encode)) := by
  cases value with
  | none => exact fun _ => rfl
  | some a => exact h a

/-! ### Records -/

section

open Decoder (Reads enter_of_lt)

variable {σ : Type} {fields : List (RecordField σ)} {members : List (String × Value)}
  {depth : Nat} {s t : σ} {r : Reading}

theorem RecordField.read_of {α : Type} {name : String} {absence : Absence} {decode : Decoder α}
    {assign : α → σ → σ} {v : Value} {a : α} (h : Reads decode depth v a) (s : σ)
    (hr : depth < r.room) :
    (RecordField.of name absence decode assign).read r v.toDraft s = .ok (assign a s) := by
  change (decode r v.toDraft).map (assign · s) = .ok (assign a s)
  rw [h r hr]
  rfl

namespace Record

/-- Reading the members as the fields in order leads from one record to the other. -/
inductive Writes (depth : Nat) :
    List (RecordField σ) → List (String × Value) → σ → σ → Prop
  | nil (s : σ) : Writes depth [] [] s s
  | cons {α : Type} {name : String} {absence : Absence} {decode : Decoder α}
      {assign : α → σ → σ} {fields : List (RecordField σ)} {v : Value} {a : α}
      {members : List (String × Value)} {s t : σ} (first : Reads decode depth v a)
      (rest : Writes depth fields members (assign a s) t) :
      Writes depth (.of name absence decode assign :: fields) ((name, v) :: members) s t

/-- A field is found by its name, where no two fields share one. -/
theorem find?_name (hnodup : (fields.map (·.name)).Nodup) {field : RecordField σ}
    (h : field ∈ fields) : fields.find? (·.name = field.name) = some field := by
  induction fields with
  | nil => cases h
  | cons first rest ih =>
    obtain ⟨hfirst, hrest⟩ := List.nodup_cons.mp hnodup
    rcases List.mem_cons.mp h with rfl | h
    · exact List.find?_cons_of_pos (by simp)
    · have hmem : field.name ∈ rest.map (·.name) := List.mem_map_of_mem h
      have hne : first.name ≠ field.name := by
        intro heq
        rw [← heq] at hmem
        exact hfirst hmem
      rw [List.find?_cons_of_neg (by simpa using hne)]
      exact ih hrest h

/-- Members that stand for the fields in order are read to the end, and every field is seen. -/
theorem Writes.readMembers {all : List (RecordField σ)} (h : Writes depth fields members s t)
    (hall : ∀ field ∈ fields, all.find? (·.name = field.name) = some field)
    (hnodup : (fields.map (·.name)).Nodup) {seen : List String}
    (hseen : ∀ field ∈ fields, field.name ∉ seen) (hr : depth < r.room) :
    readMembers all r (Value.toMemberDrafts members) seen s =
      .ok (t, (fields.map (·.name)).reverse ++ seen) := by
  induction h generalizing seen with
  | nil s => rfl
  | @cons α name absence decode assign fields v a members s t first rest ih =>
    obtain ⟨hname, hrest⟩ := List.nodup_cons.mp hnodup
    have hfind : all.find? (·.name = name) = some (.of name absence decode assign) :=
      hall _ List.mem_cons_self
    have hnew : name ∉ seen := hseen _ List.mem_cons_self
    rw [Value.toMemberDrafts, Record.readMembers, hfind]
    dsimp only
    rw [if_neg hnew, RecordField.read_of first s hr]
    -- the name is seen from now on, and no later field has it
    refine (ih (fun field hf => hall field (List.mem_cons_of_mem _ hf)) hrest ?_).trans ?_
    · intro field hf hmem
      rcases List.mem_cons.mp hmem with heq | hmem
      · have hlater : field.name ∈ fields.map (·.name) := List.mem_map_of_mem hf
        rw [heq] at hlater
        exact hname hlater
      · exact hseen field (List.mem_cons_of_mem _ hf) hmem
    · simp [RecordField.of]

theorem checkAbsent_of_seen {seen : List String} (h : ∀ field ∈ fields, field.name ∈ seen) :
    checkAbsent fields seen = .ok () := by
  induction fields with
  | nil => rfl
  | cons field rest ih =>
    have hrest := ih fun f hf => h f (List.mem_cons_of_mem _ hf)
    change (if field.name ∈ seen then _ else _) >>= (fun _ => checkAbsent rest seen) = _
    rw [if_pos (h field List.mem_cons_self)]
    exact hrest

/-- Nothing is missing behind such members, so the object is read. -/
theorem Writes.readObject (h : Writes depth fields members s t)
    (hnodup : (fields.map (·.name)).Nodup) (hr : depth < r.room) :
    readObject fields r (Value.toMemberDrafts members) true s = .ok t := by
  have hmembers : Record.readMembers fields r (Value.toMemberDrafts members) [] s =
      .ok (t, (fields.map (·.name)).reverse ++ []) :=
    h.readMembers (fun _ => find?_name hnodup) hnodup (fun _ _ => List.not_mem_nil) hr
  have habsent : checkAbsent fields ((fields.map (·.name)).reverse ++ []) = .ok () := by
    refine checkAbsent_of_seen fun field hf => ?_
    rw [List.append_nil, List.mem_reverse]
    exact List.mem_map_of_mem hf
  rw [Record.readObject, hmembers]
  change checkAbsent fields _ >>= _ = _
  rw [habsent]
  rfl

theorem Writes.reads (h : Writes depth fields members s t)
    (hnodup : (fields.map (·.name)).Nodup) :
    Reads (Record.decode fields s) (depth + 1) (.object members) t := by
  intro r hr
  obtain ⟨inner, henter, hinner⟩ := enter_of_lt hr
  rw [Value.toDraft, Record.decode, henter]
  exact h.readObject hnodup hinner

/-! ### What is accepted -/

def Keeps (P : σ → Prop) (field : RecordField σ) : Prop :=
  ∀ r d s t, field.read r d s = .ok t → P s → P t

theorem keeps_of {α : Type} {P : σ → Prop} {name : String} {absence : Absence}
    {decode : Decoder α} {assign : α → σ → σ}
    (h : ∀ r d a s, decode r d = .ok a → P s → P (assign a s)) :
    Keeps P (RecordField.of name absence decode assign) := by
  intro r d s t hread hs
  obtain ⟨a, hdecode, rfl⟩ := Except.map_eq_ok.mp hread
  exact h r d a s hdecode hs

variable {P : σ → Prop}

theorem readMembers_keeps (hfields : ∀ field ∈ fields, Keeps P field)
    {members : List (Option String × Draft)} {seen seen' : List String}
    (h : readMembers fields r members seen s = .ok (t, seen')) (hs : P s) : P t := by
  induction members generalizing seen s with
  | nil =>
    cases h
    exact hs
  | cons m rest ih =>
    obtain ⟨key, d⟩ := m
    cases key with
    | none => cases h
    | some key =>
      rw [Record.readMembers] at h
      split at h
      next field hfind =>
        split at h
        next => cases h
        next =>
          obtain ⟨u, hread, hrest⟩ := Except.bind_eq_ok.mp h
          exact ih hrest (hfields field (List.mem_of_find?_eq_some hfind) r d s u hread hs)
      next =>
        split at h
        next => exact ih h hs
        next => cases h

theorem readArray_keeps {closed : Bool} (hfields : ∀ field ∈ fields, Keeps P field)
    {items : List Draft} (h : readArray r closed fields items s = .ok t) (hs : P s) : P t := by
  induction fields generalizing items s with
  | nil =>
    cases items with
    | nil =>
      rw [Record.readArray] at h
      split at h
      next =>
        cases h
        exact hs
      next => cases h
    | cons d items => cases h
  | cons field rest ih =>
    have hrest : ∀ f ∈ rest, Keeps P f := fun f hf => hfields f (List.mem_cons_of_mem _ hf)
    cases items with
    | nil =>
      rw [Record.readArray] at h
      split at h
      next =>
        obtain ⟨-, -, h⟩ := Except.bind_eq_ok.mp h
        exact ih hrest h hs
      next => cases h
    | cons d items =>
      obtain ⟨u, hread, h⟩ := Except.bind_eq_ok.mp h
      exact ih hrest h (hfields field List.mem_cons_self r d s u hread hs)

/-- A record that was read has what the initial record has and every field keeps. -/
theorem decode_keeps (hfields : ∀ field ∈ fields, Keeps P field) {d : Draft}
    (h : Record.decode fields s r d = .ok t) (hs : P s) : P t := by
  rw [Record.decode.eq_def] at h
  split at h
  next members closed =>
    obtain ⟨inner, -, h⟩ := Except.bind_eq_ok.mp h
    obtain ⟨⟨u, seen⟩, hmembers, h⟩ := Except.bind_eq_ok.mp h
    have hu : P u := readMembers_keeps hfields hmembers hs
    dsimp only at h
    split at h
    next => cases h
    next =>
      -- the fields that are absent were only checked
      obtain ⟨-, -, h⟩ := Except.bind_eq_ok.mp h
      cases h
      exact hu
  next items closed =>
    obtain ⟨inner, -, h⟩ := Except.bind_eq_ok.mp h
    exact readArray_keeps hfields h hs
  next => cases h

end Record

end

end DynamicQuorum.Json
