/-
  DynamicQuorum/Proofs/Console/Settings.lean
  ==========================================
  **Settings that are kept in a file, from command to command.**

  A file that holds settings can be loaded, and a command that changes them writes it again: the
  way to it is open, and its folders are there.  So after any commands the file holds what these
  make of the settings, one after another.  A command that fails has not come to writing.
-/
import DynamicQuorum.Console.Session
import DynamicQuorum.Proofs.Console.FileTree
import DynamicQuorum.Proofs.Settings.Edit
import DynamicQuorum.Proofs.Settings.File

namespace DynamicQuorum

variable {w : Surroundings} {files : FileTree} {s t : Settings} {path text : String}

namespace Settings

/-! ### Saving and loading -/

/-- The file at the path holds the settings, and can be written again. -/
def IsKept (s : Settings) (files : FileTree) (path : String) : Prop :=
  ∃ (before : FileTree) (place : Location), before.Admits (.ofString path) place ∧
    files = before.put place s.toText

theorem isKept_save {shown : String} (h : (s.save files path text).result = .ok shown) :
    s.IsKept (s.save files path text).files path := by
  rw [save] at h ⊢
  split at h
  · cases h
  next before hfolders =>
    split at h
    · cases h
    next after hwrite =>
      obtain ⟨place, hadmits, rfl⟩ := FileTree.write_eq_ok.mp hwrite
      exact ⟨before, place, hadmits, rfl⟩

namespace IsKept

theorem read (h : s.IsKept files path) : files.read (.ofString path) = .ok s.toText := by
  obtain ⟨before, place, hadmits, rfl⟩ := h
  exact hadmits.read_put _

theorem load (h : s.IsKept files path) (hordered : s.quorum.IsOrdered) :
    load files path = .ok s := by
  rw [Settings.load, h.read]
  simp only [ofText_toText hordered]

theorem contains (h : s.IsKept files path) : files.contains (.ofString path) = true := by
  obtain ⟨before, place, hadmits, rfl⟩ := h
  exact hadmits.contains_put _

theorem loadFor {named : Option String} (h : s.IsKept files (w.settingsPath named))
    (hordered : s.quorum.IsOrdered) : loadFor w files named = .ok s := by
  have hload := h.load hordered
  cases named with
  | some path => exact hload
  | none => exact (if_pos h.contains).trans hload

/-- Settings that are kept can be replaced. -/
theorem save (h : s.IsKept files path) (t : Settings) (text : String) :
    (t.save files path text).result = .ok text ∧ t.IsKept (t.save files path text).files path := by
  have hresult : (t.save files path text).result = .ok text := by
    obtain ⟨before, place, hadmits, rfl⟩ := h
    have hagain := hadmits.put s.toText
    have hwrite : (before.put place s.toText).write (.ofString path) t.toText =
        .ok ((before.put place s.toText).put place t.toText) :=
      FileTree.write_eq_ok.mpr ⟨place, hagain, rfl⟩
    rw [Settings.save, hagain.createFolders_parent]
    simp only [hwrite]
  exact ⟨hresult, isKept_save hresult⟩

end IsKept

end Settings

/-! ### Commands -/

def Command.leaves (s : Settings) : Command → Settings
  | .setSetting key value => (Settings.setNamed key value).leaves s
  | .initSettings true => .standard
  | _ => s

theorem Command.isOrdered_leaves (c : Command) (h : s.quorum.IsOrdered) :
    (c.leaves s).quorum.IsOrdered := by
  cases c with
  | setSetting key value => exact Settings.isOrdered_leaves key value h
  | initSettings force =>
    cases force with
    | true => exact Settings.isOrdered_standard
    | false => exact h
  | _ => exact h

/-- A command either leaves the files and the settings as they are, or succeeds and keeps other
    settings in the file. -/
theorem Command.run_cases {named : Option String} (c : Command)
    (h : s.IsKept files (w.settingsPath named)) (hordered : s.quorum.IsOrdered) :
    (c.run w files named s).files = files ∧ c.leaves s = s ∨
      (∃ text, (c.run w files named s).result = .ok text) ∧
        (c.leaves s).IsKept (c.run w files named s).files (w.settingsPath named) := by
  cases c with
  | setSetting key value =>
    rw [run, leaves, InPlace.leaves, InPlace.makes]
    cases hset : Settings.setNamed key value s with
    | ok a t =>
      obtain ⟨hresult, hkept⟩ := h.save t _
      exact .inr ⟨⟨_, hresult⟩, hkept⟩
    | error cause t =>
      -- nothing is written, and a refused value changes nothing
      exact .inl ⟨rfl, Settings.setNamed_eq_error hordered hset⟩
  | initSettings force =>
    rw [run]
    cases force with
    | true =>
      obtain ⟨hresult, hkept⟩ := h.save .standard _
      rw [Bool.not_true, Bool.and_false]
      exact .inr ⟨⟨_, hresult⟩, hkept⟩
    | false =>
      have hthere := h.contains
      rw [Bool.not_false, Bool.and_true]
      exact .inl ⟨by rw [if_pos hthere], rfl⟩
  -- no other command writes
  | _ => exact .inl ⟨rfl, rfl⟩

/-- A command that sets a value fails only if the edit is refused. -/
theorem Command.result_setSetting {named : Option String} {key value : String}
    (h : s.IsKept files (w.settingsPath named)) :
    (∃ text, ((Command.setSetting key value).run w files named s).result = .ok text) ↔
      ∃ t, Settings.setNamed key value s = .ok () t := by
  rw [run, InPlace.makes]
  cases hset : Settings.setNamed key value s with
  | ok a t =>
    obtain ⟨hresult, -⟩ := h.save t _
    exact ⟨fun _ => ⟨t, rfl⟩, fun _ => ⟨_, hresult⟩⟩
  | error cause t => simp

namespace Invocation

def ofEdit (edit : Globals × String × String) : Invocation :=
  ⟨edit.1, .setSetting edit.2.1 edit.2.2⟩

def runAll (w : Surroundings) (files : FileTree) (invocations : List Invocation) : FileTree :=
  invocations.foldl (fun files i => (i.run w files).files) files

variable {i : Invocation}

/-- Every command starts from the settings that are kept. -/
theorem run_eq (h : s.IsKept files (w.settingsPath i.globals.config))
    (hordered : s.quorum.IsOrdered) :
    i.run w files = i.command.run w files i.globals.config s := by
  have hload := h.loadFor hordered
  obtain ⟨globals, command⟩ := i
  cases command with
  | initSettings force => rfl
  | _ =>
    rw [run, Command.settings, hload]
    rintro force ⟨⟩

theorem isKept_run (h : s.IsKept files (w.settingsPath i.globals.config))
    (hordered : s.quorum.IsOrdered) :
    (i.command.leaves s).IsKept (i.run w files).files (w.settingsPath i.globals.config) := by
  rw [run_eq h hordered]
  rcases i.command.run_cases h hordered with ⟨hfiles, hleaves⟩ | ⟨-, hkept⟩
  · rw [hfiles, hleaves]
    exact h
  · exact hkept

theorem files_of_run_eq_error {fault : Fault}
    (h : s.IsKept files (w.settingsPath i.globals.config)) (hordered : s.quorum.IsOrdered)
    (hfault : (i.run w files).result = .error fault) : (i.run w files).files = files := by
  rw [run_eq h hordered] at hfault ⊢
  rcases i.command.run_cases h hordered with ⟨hfiles, -⟩ | ⟨⟨text, hresult⟩, -⟩
  · exact hfiles
  · rw [hresult] at hfault
    cases hfault

/-- Any commands on the same file keep in it what they make of the settings. -/
theorem isKept_runAll {named : Option String} {invocations : List Invocation}
    (hnamed : ∀ i ∈ invocations, i.globals.config = named)
    (h : s.IsKept files (w.settingsPath named)) (hordered : s.quorum.IsOrdered) :
    (invocations.foldl (fun s i => i.command.leaves s) s).IsKept (runAll w files invocations)
      (w.settingsPath named) := by
  induction invocations generalizing s files with
  | nil => exact h
  | cons i rest ih =>
    obtain ⟨rfl, hrest⟩ := List.forall_mem_cons.mp hnamed
    exact ih hrest (isKept_run h hordered) (i.command.isOrdered_leaves hordered)

/-- Commands that edit one file lead to the edited settings in it. -/
theorem isKept_edits {named : Option String} {edits : List (Globals × String × String)}
    (hnamed : ∀ edit ∈ edits, edit.1.config = named)
    (h : s.IsKept files (w.settingsPath named)) (hordered : s.quorum.IsOrdered) :
    (s.edited (edits.map (·.2))).IsKept (runAll w files (edits.map ofEdit))
      (w.settingsPath named) := by
  have hinvocations : ∀ i ∈ edits.map ofEdit, i.globals.config = named := by
    intro i hi
    obtain ⟨edit, hedit, rfl⟩ := List.mem_map.mp hi
    exact hnamed edit hedit
  have hkept := isKept_runAll hinvocations h hordered
  rw [List.foldl_map] at hkept
  rw [Settings.edited, List.foldl_map]
  exact hkept

/-- The standard settings are kept once they were written. -/
theorem isKept_init {globals : Globals} {force : Bool} {shown : String}
    (hwrites : force = true ∨
      files.contains (.ofString (w.settingsPath globals.config)) = false)
    (hresult : (run w files ⟨globals, .initSettings force⟩).result = .ok shown) :
    Settings.standard.IsKept (run w files ⟨globals, .initSettings force⟩).files
      (w.settingsPath globals.config) := by
  have hcond : ¬ (files.contains (.ofString (w.settingsPath globals.config)) && !force) = true := by
    rcases hwrites with rfl | hfree
    · simp
    · simp [hfree]
  have hrun : run w files ⟨globals, .initSettings force⟩ =
      Settings.standard.save files (w.settingsPath globals.config)
        (Command.line (Report.Notice.success.render w.palette
          ("Wrote " ++ w.settingsPath globals.config))) := if_neg hcond
  rw [hrun] at hresult ⊢
  exact Settings.isKept_save hresult

end Invocation

/-! ### The round trip -/

namespace Settings

open Toml (Entries)

theorem load_eq {entries : Entries} (hfile : files.read (.ofString path) = .ok text)
    (hdocument : Toml.readDocument? text = some entries) :
    load files path = .ok s ↔ s.IsReadFrom entries := by
  rw [← ofEntries_eq_ok (Toml.isKeyed_readDocument? hdocument), ← ofText_eq hdocument, load, hfile]
  cases htext : ofText text <;> simp [htext]

/-- **The file of the settings round-trips across commands.**  Settings whose bounds are in order
    are loaded from the file to which they were saved.  After `config init` has written a file and
    any commands have set values in it, refused ones included, the file holds the settings after
    these edits and loads to them; the next command fails exactly if its edit is refused, and leaves
    all files as they were then.  In a file that someone else wrote, each of the four entries may be
    absent, and its field is the standard one; a quorum section is rejected with inverted bounds,
    with a bound that is no number up to 10000, or with a value missing. -/
theorem file_round_trip (w : Surroundings) (files : FileTree) :
    (∀ (s : Settings) (path text shown : String), s.quorum.IsOrdered →
      (s.save files path text).result = .ok shown →
      load (s.save files path text).files path = .ok s) ∧
    (∀ (globals : Globals) (force : Bool) (shown : String),
      let path := w.settingsPath globals.config
      let init := Invocation.run w files ⟨globals, .initSettings force⟩
      init.result = .ok shown → force = true ∨ files.contains (.ofString path) = false →
      ∀ edits : List (Globals × String × String),
      (∀ edit ∈ edits, edit.1.config = globals.config) →
      let after := Invocation.runAll w init.files (edits.map Invocation.ofEdit)
      let s := standard.edited (edits.map (·.2))
      after.read (.ofString path) = .ok s.toText ∧
      load after path = .ok s ∧ loadFor w after globals.config = .ok s ∧
      ∀ (next : Globals) (key value : String), next.config = globals.config →
        let ran := Invocation.run w after (.ofEdit (next, key, value))
        ((∃ text, ran.result = .ok text) ↔ ∃ t, setNamed key value s = .ok () t) ∧
        ∀ fault, ran.result = .error fault → ran.files = after) ∧
    ∀ (path text : String) (entries : Entries), files.read (.ofString path) = .ok text →
      Toml.readDocument? text = some entries →
      (∀ s, load files path = .ok s ↔ s.IsReadFrom entries) ∧
      ∀ quorum, entries.find? "quorum" = some quorum →
        (∀ lo hi, (members quorum).find? "min_quorum_votes_bps" = some (.integer lo) →
          (members quorum).find? "max_quorum_votes_bps" = some (.integer hi) → hi < lo →
          ∃ fault, load files path = .error fault) ∧
        (∀ name ∈ boundKeys, ∀ bound, (members quorum).find? name = some bound →
          (∀ n : Nat, n ≤ 10000 → bound ≠ .integer n) →
          ∃ fault, load files path = .error fault) ∧
        ∀ name ∈ memberKeys, (members quorum).find? name = none →
          ∃ fault, load files path = .error fault := by
  refine ⟨?_, ?_, ?_⟩
  · intro s path text shown hordered hresult
    exact (isKept_save hresult).load hordered
  · intro globals force shown path init hresult hwrites edits hedits after s
    have hordered : s.quorum.IsOrdered := isOrdered_edited _ isOrdered_standard
    have hkept : s.IsKept after path :=
      Invocation.isKept_edits hedits (Invocation.isKept_init hwrites hresult) isOrdered_standard
    refine ⟨hkept.read, hkept.load hordered, hkept.loadFor hordered, ?_⟩
    intro next key value hnext ran
    have hpath : s.IsKept after (w.settingsPath next.config) := hnext ▸ hkept
    have hran : ran = (Command.setSetting key value).run w after next.config s :=
      Invocation.run_eq (i := .ofEdit (next, key, value)) hpath hordered
    refine ⟨?_, fun fault => Invocation.files_of_run_eq_error hpath hordered⟩
    rw [hran]
    exact Command.result_setSetting hpath
  · intro path text entries hfile hdocument
    have hkeyed := Toml.isKeyed_readDocument? hdocument
    refine ⟨fun s => load_eq hfile hdocument, ?_⟩
    intro quorum hquorum
    -- an accepted file has its quorum from the section, so what the section lacks refuses the file
    have hread : ∀ s, load files path = .ok s → quorumOfValue quorum = .ok s.quorum := by
      intro s hload
      rcases ((load_eq hfile hdocument).mp hload).quorum with ⟨habsent, -⟩ | ⟨v, hfound, hread⟩
      · rw [hquorum] at habsent
        cases habsent
      · rw [hquorum] at hfound
        cases hfound
        exact hread
    refine ⟨?_, ?_, ?_⟩
    · intro lo hi hlo hhi hinverted
      refine Except.eq_error fun s hload => ?_
      obtain ⟨-, hle, -⟩ := members_of_quorumOfValue (hkeyed.find? hquorum) (hread s hload)
      exact absurd (hle lo hi hlo hhi) (Int.not_le.mpr hinverted)
    · intro name hname bound hbound hrange
      refine Except.eq_error fun s hload => ?_
      obtain ⟨hall, -⟩ := members_of_quorumOfValue (hkeyed.find? hquorum) (hread s hload)
      obtain ⟨n, hn, hfound⟩ := hall name hname
      rw [hbound] at hfound
      exact hrange n hn (Option.some.inj hfound)
    · intro name hname hmissing
      refine Except.eq_error fun s hload => ?_
      obtain ⟨-, -, hall⟩ := members_of_quorumOfValue (hkeyed.find? hquorum) (hread s hload)
      exact hall name hname hmissing

def oddSettings : Settings := { standard with logLevel := "\u2713'''\"\"\"\\\r\n\x00" }

/-- Edits of one file; the second would put the floor above the ceiling. -/
def fileEdits : List (Globals × String × String) :=
  [({ config := "c.toml" }, "log_level", "info"), ({ config := "c.toml" }, "min_bps", "9000"),
    ({ config := "c.toml" }, "max_bps", "5000")]

def foreignFile (page : Toml.Page) : FileTree := FileTree.empty.put ["c.toml"] page.toText

def partialPage : Toml.Page := ⟨[("log_level", .string "debug")], []⟩

def quorumPage (minBps maxBps : Nat) : Toml.Page :=
  ⟨[], [("quorum", [("min_quorum_votes_bps", .natural minBps),
    ("max_quorum_votes_bps", .natural maxBps)])]⟩

/-- The odd settings are saved and loaded, and the refused edit leaves no trace.  Of three foreign
    files the first says one of the four entries; the others have inverted bounds, a bound above the
    whole, and no coefficient. -/
theorem file_round_trip_trial :
    load (oddSettings.save .empty "c.toml" "").files "c.toml" = .ok oddSettings ∧
    load (Invocation.runAll ⟨"", .plain⟩
        (Invocation.run ⟨"", .plain⟩ .empty ⟨{ config := "c.toml" }, .initSettings false⟩).files
        (fileEdits.map Invocation.ofEdit)) "c.toml" =
      .ok ⟨"info", false, true, ⟨⟨1000, by decide⟩, ⟨5000, by decide⟩, .ofUInt64 1000000⟩⟩ ∧
    load (foreignFile partialPage) "c.toml" = .ok { standard with logLevel := "debug" } ∧
    (∃ fault, load (foreignFile (quorumPage 4000 1000)) "c.toml" = .error fault) ∧
    (∃ fault, load (foreignFile (quorumPage 4000 10001)) "c.toml" = .error fault) ∧
    ∃ fault, load (foreignFile (quorumPage 1000 4000)) "c.toml" = .error fault := by
  have hforeign : ∀ page : Toml.Page, page.IsPlain →
      (foreignFile page).read (.ofString "c.toml") = .ok page.toText ∧
        Toml.readDocument? page.toText = some page.toEntries :=
    fun page hplain => ⟨rfl, Toml.Page.readDocument?_toText hplain⟩
  obtain ⟨hsave, hcommands, -⟩ := file_round_trip ⟨"", .plain⟩ .empty
  refine ⟨hsave oddSettings "c.toml" "" "" (by decide) rfl, ?_, ?_, ?_, ?_, ?_⟩
  · have hedited : standard.edited (fileEdits.map (·.2)) =
        ⟨"info", false, true, ⟨⟨1000, by decide⟩, ⟨5000, by decide⟩, .ofUInt64 1000000⟩⟩ := by
      decide +kernel
    have hsame : ∀ edit ∈ fileEdits, edit.1.config = some "c.toml" := by simp [fileEdits]
    rw [← hedited]
    exact (hcommands { config := "c.toml" } false _ rfl (.inr rfl) fileEdits hsame).2.1
  · obtain ⟨hfile, hdocument⟩ := hforeign partialPage (by decide)
    obtain ⟨-, -, hread⟩ := file_round_trip ⟨"", .plain⟩ (foreignFile partialPage)
    exact ((hread _ _ _ hfile hdocument).1 _).mpr
      ⟨.inr rfl, .inl ⟨rfl, rfl⟩, .inl ⟨rfl, rfl⟩, .inl ⟨rfl, rfl⟩⟩
  · obtain ⟨hfile, hdocument⟩ := hforeign (quorumPage 4000 1000) (by decide)
    obtain ⟨-, -, hread⟩ := file_round_trip ⟨"", .plain⟩ (foreignFile (quorumPage 4000 1000))
    obtain ⟨hinverted, -⟩ := (hread _ _ _ hfile hdocument).2 _ rfl
    exact hinverted 4000 1000 rfl rfl (by decide)
  · obtain ⟨hfile, hdocument⟩ := hforeign (quorumPage 4000 10001) (by decide)
    obtain ⟨-, -, hread⟩ := file_round_trip ⟨"", .plain⟩ (foreignFile (quorumPage 4000 10001))
    obtain ⟨-, hrange, -⟩ := (hread _ _ _ hfile hdocument).2 _ rfl
    refine hrange "max_quorum_votes_bps" (by decide) (.integer 10001) rfl ?_
    rintro n hn ⟨⟩
    exact absurd hn (by decide)
  · obtain ⟨hfile, hdocument⟩ := hforeign (quorumPage 1000 4000) (by decide)
    obtain ⟨-, -, hread⟩ := file_round_trip ⟨"", .plain⟩ (foreignFile (quorumPage 1000 4000))
    obtain ⟨-, -, hmissing⟩ := (hread _ _ _ hfile hdocument).2 _ rfl
    exact hmissing "quorum_coefficient" (by decide) rfl

end Settings

end DynamicQuorum
