/-
  DynamicQuorum/Proofs/Settings/Edit.lean
  =======================================
  **Edits of the settings, and what refused ones leave behind.**

  An accepted edit puts a value in one place.  A refused one may have written already: the bounds
  of the quorum are checked last, and by then the log and the version are changed.  But these do
  not move the bounds, so in settings whose bounds are in order only an edit of a bound is
  refused that late, and that one has worked on a copy.  The standard settings have their bounds in
  order, and every edit keeps it so.
-/
import DynamicQuorum.Proofs.InPlace
import DynamicQuorum.Proofs.Settings.Key

namespace DynamicQuorum.Settings

open InPlace

variable {s t : Settings} {key : Key} {name text : String} {cause : Error}

/-! ### A single edit -/

/-- What is read is put in its place; the parameters of the quorum are given and not yet written. -/
theorem assign_of_read {v : key.Value} (h : key.read text = .ok v) :
    assign key text s = .ok (s.put key v).quorum { s.put key v with quorum := s.quorum } := by
  cases key with
  | logLevel =>
    cases h
    rfl
  | _ => exact bind_eq_ok.mpr ⟨s, s, rfl, bind_eq_ok.mpr ⟨v, s, liftM_eq_ok.mpr ⟨h, rfl⟩, rfl⟩⟩

theorem assign_of_unread (h : key.read text = .error cause) :
    assign key text s = .error cause s := by
  cases key with
  | logLevel => cases h
  | _ =>
    refine bind_eq_error.mpr (.inr ⟨s, s, rfl, bind_eq_error.mpr (.inl ?_)⟩)
    exact liftM_eq_error.mpr ⟨h, rfl⟩

theorem check_eq_ok {quorum : QuorumParams} : check quorum = .ok () ↔ quorum.IsOrdered := by
  rw [check, QuorumParams.validate]
  by_cases hordered : quorum.IsOrdered <;> simp [hordered]

/-- An edit is accepted if its text is read and the bounds are in order afterwards. -/
theorem set_eq_ok :
    set key text s = .ok () t ↔
      ∃ v, key.read text = .ok v ∧ (s.put key v).quorum.IsOrdered ∧ t = s.put key v := by
  rw [set, bind_eq_ok]
  cases hread : key.read text with
  | error cause => simp [assign_of_unread hread]
  | ok v =>
    rw [assign_of_read hread]
    simp only [bind_eq_ok, liftM_eq_ok]
    constructor
    · rintro ⟨_, _, ⟨⟩, ⟨⟩, _, ⟨hcheck, rfl⟩, ⟨⟩⟩
      exact ⟨v, rfl, check_eq_ok.mp hcheck, rfl⟩
    · rintro ⟨_, ⟨⟩, hordered, rfl⟩
      exact ⟨_, _, rfl, (), _, ⟨check_eq_ok.mpr hordered, rfl⟩, rfl⟩

/-- Only an edit of the quorum moves its parameters, and it writes nothing else. -/
theorem put_cases (s : Settings) (key : Key) (v : key.Value) :
    (s.put key v).quorum = s.quorum ∨ { s.put key v with quorum := s.quorum } = s := by
  cases key with
  | logLevel => exact .inl rfl
  | jsonLogs => exact .inl rfl
  | daoV3 => exact .inl rfl
  | minBps => exact .inr rfl
  | maxBps => exact .inr rfl
  | coefficient => exact .inr rfl

/-- While the bounds are in order, a refusal leaves the settings as they were. -/
theorem set_eq_error (hordered : s.quorum.IsOrdered) (h : set key text s = .error cause t) :
    t = s := by
  rw [set, bind_eq_error] at h
  cases hread : key.read text with
  | error cause' =>
    rw [assign_of_unread hread] at h
    rcases h with ⟨⟨⟩⟩ | ⟨_, _, ⟨⟩, -⟩
    rfl
  | ok v =>
    rw [assign_of_read hread] at h
    rcases h with ⟨⟨⟩⟩ | ⟨quorum, u, ⟨⟩, h⟩
    rcases bind_eq_error.mp h with hcheck | ⟨_, _, -, ⟨⟩⟩
    obtain ⟨hcheck, rfl⟩ := liftM_eq_error.mp hcheck
    -- what is changed at once leaves the quorum, which is sound
    rcases s.put_cases key v with hsame | hsame
    · rw [hsame, check_eq_ok.mpr hordered] at hcheck
      cases hcheck
    · exact hsame

/-! ### Edits by name -/

theorem setNamed_eq_ok :
    setNamed name text s = .ok () t ↔ ∃ key, key.name = name ∧ set key text s = .ok () t := by
  rw [setNamed, bind_eq_ok]
  constructor
  · rintro ⟨key, _, hlift, hset⟩
    obtain ⟨hkey, rfl⟩ := liftM_eq_ok.mp hlift
    exact ⟨key, Key.ofName_eq_ok.mp hkey, hset⟩
  · rintro ⟨key, hkey, hset⟩
    exact ⟨key, s, liftM_eq_ok.mpr ⟨Key.ofName_eq_ok.mpr hkey, rfl⟩, hset⟩

theorem setNamed_eq_error (hordered : s.quorum.IsOrdered)
    (h : setNamed name text s = .error cause t) : t = s := by
  rcases bind_eq_error.mp h with hkey | ⟨key, _, hkey, hset⟩
  · exact (liftM_eq_error.mp hkey).2
  · obtain ⟨-, rfl⟩ := liftM_eq_ok.mp hkey
    exact set_eq_error hordered hset

def edited (s : Settings) (edits : List (String × String)) : Settings :=
  edits.foldl (fun s edit => (setNamed edit.1 edit.2).leaves s) s

/-- No edit, accepted or refused, puts the bounds out of order. -/
theorem isOrdered_leaves (name text : String) (hordered : s.quorum.IsOrdered) :
    ((setNamed name text).leaves s).quorum.IsOrdered := by
  rw [leaves]
  cases h : setNamed name text s with
  | ok a t =>
    obtain ⟨key, -, hset⟩ := setNamed_eq_ok.mp h
    obtain ⟨v, -, hput, rfl⟩ := set_eq_ok.mp hset
    exact hput
  | error cause t =>
    obtain rfl := setNamed_eq_error hordered h
    exact hordered

theorem isOrdered_edited (edits : List (String × String)) (hordered : s.quorum.IsOrdered) :
    (s.edited edits).quorum.IsOrdered := by
  induction edits generalizing s with
  | nil => exact hordered
  | cons edit rest ih => exact ih (isOrdered_leaves edit.1 edit.2 hordered)

theorem isOrdered_standard : standard.quorum.IsOrdered := by decide

/-! ### Independence -/

theorem getNamed_put_of_ne {other : String} (s : Settings) (v : key.Value) (h : other ≠ key.name) :
    (s.put key v).getNamed other = s.getNamed other := by
  rw [getNamed, getNamed]
  cases hother : Key.ofName other with
  | error cause => rfl
  | ok key' =>
    have hne : key' ≠ key := by
      rintro rfl
      exact h (Key.ofName_eq_ok.mp hother).symm
    refine congrArg Except.ok ?_
    rw [get_eq, get_eq, value_put_of_ne s v hne]

theorem getNamed_put (s : Settings) (v : key.Value) :
    (s.put key v).getNamed key.name = .ok (key.canonical v) := by
  rw [getNamed_name, get_eq, value_put]

/-- What is shown under a key can be set again, and changes nothing. -/
theorem set_canonical (hordered : s.quorum.IsOrdered) (key : Key) :
    set key (key.canonical (s.value key)) s = .ok () s := by
  have hput := s.put_value key
  exact set_eq_ok.mpr ⟨_, key.read_canonical _, hput.symm ▸ hordered, hput.symm⟩

/-- **Edits are atomic and independent, and keep the bounds in order.**  Take the standard settings
    after any edits, refused ones included.  The floor is at most the ceiling, and that is at most
    the whole.  A further edit is accepted if its key is known, its text is read, and the
    bounds would be in order; otherwise the settings are as they were.  After an accepted one
    the key shows the canonical text of the value that was read, every other name shows what it
    showed before, and setting what is shown is accepted and changes nothing. -/
theorem edits_are_atomic_and_independent (edits : List (String × String)) (name text : String) :
    let s := standard.edited edits
    s.quorum.minBps ≤ s.quorum.maxBps ∧ s.quorum.maxBps.toNat ≤ 10000 ∧
    (∀ cause t, setNamed name text s = .error cause t → t = s) ∧
    ((∃ t, setNamed name text s = .ok () t) ↔ ∃ (key : Key) (v : key.Value), key.name = name ∧
      key.read text = .ok v ∧ (s.put key v).quorum.IsOrdered) ∧
    ∀ t, setNamed name text s = .ok () t →
      (∃ (key : Key) (v : key.Value), key.name = name ∧ key.read text = .ok v ∧
        t.getNamed name = .ok (key.canonical v)) ∧
      (∀ other, other ≠ name → t.getNamed other = s.getNamed other) ∧
      ∃ shown, t.getNamed name = .ok shown ∧ setNamed name shown t = .ok () t := by
  intro s
  have hordered : s.quorum.IsOrdered := isOrdered_edited edits isOrdered_standard
  refine ⟨hordered, s.quorum.maxBps.toNat_le, fun cause t => setNamed_eq_error hordered, ?_, ?_⟩
  · constructor
    · rintro ⟨t, h⟩
      obtain ⟨key, hname, hset⟩ := setNamed_eq_ok.mp h
      obtain ⟨v, hread, hput, -⟩ := set_eq_ok.mp hset
      exact ⟨key, v, hname, hread, hput⟩
    · rintro ⟨key, v, hname, hread, hput⟩
      exact ⟨_, setNamed_eq_ok.mpr ⟨key, hname, set_eq_ok.mpr ⟨v, hread, hput, rfl⟩⟩⟩
  · intro t h
    obtain ⟨key, rfl, hset⟩ := setNamed_eq_ok.mp h
    obtain ⟨v, hread, hput, rfl⟩ := set_eq_ok.mp hset
    have hshown := s.getNamed_put v
    refine ⟨⟨key, v, rfl, hread, hshown⟩, fun other => s.getNamed_put_of_ne v, _, hshown, ?_⟩
    -- the value shown is read back as the one that stands there
    have hagain := set_canonical hput key
    rw [value_put] at hagain
    exact setNamed_eq_ok.mpr ⟨key, rfl, hagain⟩

/-- A floor above the ceiling is refused, and one below it accepted; then a ceiling is given with a
    sign and a zero in front, and shown without them. -/
theorem edits_are_atomic_and_independent_trial :
    ∃ t, setNamed "max_bps" "+06000" (standard.edited [("min_bps", "9000"), ("min_bps", "500")]) =
        .ok () t ∧
      t.getNamed "max_bps" = .ok "6000" ∧ t.getNamed "min_bps" = .ok "500" ∧
      setNamed "max_bps" "6000" t = .ok () t := by
  obtain ⟨-, -, -, -, heffect⟩ := edits_are_atomic_and_independent
    [("min_bps", "9000"), ("min_bps", "500")] "max_bps" "+06000"
  have hmakes : (setNamed "max_bps" "+06000").makes
      (standard.edited [("min_bps", "9000"), ("min_bps", "500")]) =
        .ok { standard with
          quorum := ⟨⟨500, by decide⟩, ⟨6000, by decide⟩, .ofUInt64 1000000⟩ } := by
    decide +kernel
  obtain ⟨⟨⟩, h⟩ := makes_eq_ok.mp hmakes
  obtain ⟨-, hother, shown, hshown, hagain⟩ := heffect _ h
  obtain rfl : "6000" = shown := Except.ok.inj hshown
  refine ⟨_, h, rfl, (hother "min_bps" (by decide)).trans ?_, hagain⟩
  decide +kernel

end DynamicQuorum.Settings
