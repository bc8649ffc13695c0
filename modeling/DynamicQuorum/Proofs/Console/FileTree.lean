/-
  DynamicQuorum/Proofs/Console/FileTree.lean
  ==========================================
  **A file that could be written can be read, and written again.**

  A path is followed through folders, and a file is only put where no folder is.  So the way to a
  file stays open when the file is written, and the folders on it are all there: making them once
  more changes nothing.
-/
import DynamicQuorum.Console.FileTree
import DynamicQuorum.Proofs.Except
import Mathlib.Data.List.Basic

namespace DynamicQuorum.FileTree

variable {t : FileTree} {place start found : Location} {names : List String} {p : Path}
  {content : String}

/-! ### Putting a file -/

theorem content?_put_self (t : FileTree) (place : Location) (content : String) :
    (t.put place content).content? place = some content := by
  have hold : (t.files.filter (·.1 ≠ place)).find? (·.1 = place) = none := by
    rw [List.find?_eq_none]
    intro file hfile
    simpa using (List.mem_filter.mp hfile).2
  rw [content?, put, List.find?_append, hold]
  simp

theorem content?_put_of_ne {other : Location} (h : other ≠ place) (t : FileTree)
    (content : String) : (t.put place content).content? other = t.content? other := by
  have hnew : List.find? (·.1 = other) [(place, content)] = none := by simp [h.symm]
  have hold : (t.files.filter (·.1 ≠ place)).find? (·.1 = other) =
      t.files.find? (·.1 = other) := by
    rw [List.find?_filter]
    congr 1
    funext file
    by_cases hfile : file.1 = other <;> simp [hfile, h]
  rw [content?, content?, put, List.find?_append, hold, hnew, Option.or_none]

/-! ### Following a path -/

theorem checkFolder_eq_ok :
    t.checkFolder place = .ok () ↔ t.isFile place = false ∧ t.isFolder place = true := by
  rw [checkFolder]
  split_ifs <;> simp_all

/-- One name further, either up or down. -/
theorem follow_cons {name : String} :
    t.follow start (name :: names) = .ok found ↔ t.checkFolder start = .ok () ∧
      ((name = ".." ∧ t.follow (Location.up start) names = .ok found) ∨
        (name ≠ ".." ∧ name.utf8ByteSize ≤ longestName ∧
          t.follow (start ++ [name]) names = .ok found)) := by
  rw [follow, Except.bind_eq_ok]
  constructor
  · rintro ⟨⟨⟩, hcheck, h⟩
    refine ⟨hcheck, ?_⟩
    split_ifs at h with hup hlong
    · exact .inl ⟨hup, h⟩
    · exact .inr ⟨hup, Nat.le_of_not_lt hlong, h⟩
  · rintro ⟨hcheck, ⟨hup, h⟩ | ⟨hup, hshort, h⟩⟩
    · exact ⟨(), hcheck, by rw [if_pos hup]; exact h⟩
    · exact ⟨(), hcheck, by rw [if_neg hup, if_neg (Nat.not_lt.mpr hshort)]; exact h⟩

/-- The way stays open when a file is put where no folder is. -/
theorem follow_put (hplace : t.isFolder place = false) (h : t.follow start names = .ok found) :
    (t.put place content).follow start names = .ok found := by
  induction names generalizing start with
  | nil => exact h
  | cons name names ih =>
    obtain ⟨hcheck, hnext⟩ := follow_cons.mp h
    have hstart : (t.put place content).checkFolder start = .ok () := by
      obtain ⟨hfile, hfolder⟩ := checkFolder_eq_ok.mp hcheck
      have hne : start ≠ place := by
        rintro rfl
        rw [hfolder] at hplace
        cases hplace
      refine checkFolder_eq_ok.mpr ⟨?_, hfolder⟩
      rw [isFile, content?_put_of_ne hne]
      exact hfile
    refine follow_cons.mpr ⟨hstart, ?_⟩
    rcases hnext with ⟨hup, h⟩ | ⟨hup, hshort, h⟩
    · exact .inl ⟨hup, ih h⟩
    · exact .inr ⟨hup, hshort, ih h⟩

/-- All folders on a way that is open are there. -/
theorem makeFolders_of_follow {last : String} (h : t.follow start (names ++ [last]) = .ok found) :
    t.makeFolders start names = (t, .ok ()) := by
  induction names generalizing start with
  | nil => rfl
  | cons name names ih =>
    obtain ⟨-, ⟨hup, hnext⟩ | ⟨hup, hshort, hnext⟩⟩ := follow_cons.mp h
    · rw [makeFolders, if_pos hup]
      exact ih hnext
    · have hfolder : t.checkFolder (start ++ [name]) = .ok () := by
        cases names with
        | nil => exact (follow_cons.mp hnext).1
        | cons next names => exact (follow_cons.mp hnext).1
      obtain ⟨hfile, hthere⟩ := checkFolder_eq_ok.mp hfolder
      rw [makeFolders, if_neg hup, if_neg (Nat.not_lt.mpr hshort), if_neg (by simp [hfile]),
        addFolder, if_pos hthere]
      exact ih hnext

/-! ### Names -/

theorem size_dropLast_le (names : List String) :
    Location.size names.dropLast ≤ Location.size names := by
  have hmono : ∀ (front : List String) {a b : Nat}, a ≤ b →
      front.foldr (fun name bytes => name.utf8ByteSize + bytes) a ≤
        front.foldr (fun name bytes => name.utf8ByteSize + bytes) b := by
    intro front a b hab
    induction front with
    | nil => exact hab
    | cons name front ih => exact Nat.add_le_add_left ih _
  rcases List.eq_nil_or_concat' names with rfl | ⟨front, last, rfl⟩
  · exact Nat.le_refl _
  · rw [List.dropLast_concat, Location.size, Location.size, List.filter_append,
      List.foldr_append]
    refine hmono _ ?_
    -- a slash that stands for the top has no bytes of its own
    by_cases hlast : last = "/"
    · simp [hlast]
    · simp [hlast]
      omega

theorem checkNames_dropLast (h : checkNames names = .ok ()) :
    checkNames names.dropLast = .ok () := by
  have hsize := size_dropLast_le names
  unfold checkNames at h ⊢
  split_ifs at h with hnull hlong
  rw [if_neg, if_neg (by omega)]
  intro hany
  obtain ⟨name, hname, hnul⟩ := List.any_eq_true.mp hany
  exact hnull (List.any_eq_true.mpr ⟨name, List.dropLast_subset names hname, hnul⟩)

/-! ### Writing -/

structure Admits (t : FileTree) (p : Path) (place : Location) : Prop where
  ending : p.ending = .nothing
  locate : t.locate p = .ok place
  free : t.isFolder place = false

/-- Writing a file is putting its content where the path leads, if a file may be put there. -/
theorem write_eq_ok {after : FileTree} :
    t.write p content = .ok after ↔ ∃ place, t.Admits p place ∧ after = t.put place content := by
  unfold write
  constructor
  · intro h
    split at h
    · obtain ⟨-, -, h⟩ := Except.bind_eq_ok.mp h
      obtain ⟨folder, -, h⟩ := Except.bind_eq_ok.mp h
      obtain ⟨-, -, ⟨⟩⟩ := Except.bind_eq_ok.mp h
    · obtain ⟨folder, -, h⟩ := Except.bind_eq_ok.mp h
      obtain ⟨-, -, ⟨⟩⟩ := Except.bind_eq_ok.mp h
    next hending =>
      obtain ⟨place, hlocate, h⟩ := Except.bind_eq_ok.mp h
      split_ifs at h with hfolder
      · cases h
        exact ⟨place, ⟨hending, hlocate, by simpa using hfolder⟩, rfl⟩
  · rintro ⟨place, ⟨hending, hlocate, hfree⟩, rfl⟩
    rw [hending]
    refine Except.bind_eq_ok.mpr ⟨place, hlocate, ?_⟩
    rw [if_neg (by simp [hfree])]
    rfl

namespace Admits

theorem put (h : t.Admits p place) (content : String) : (t.put place content).Admits p place where
  ending := h.ending
  locate := by
    obtain ⟨⟨⟩, hnames, hfollow⟩ := Except.bind_eq_ok.mp h.locate
    exact Except.bind_eq_ok.mpr ⟨(), hnames, follow_put h.free hfollow⟩
  free := h.free

theorem read_put (h : t.Admits p place) (content : String) :
    (t.put place content).read p = .ok content := by
  refine Except.bind_eq_ok.mpr ⟨place, (h.put content).locate, ?_⟩
  rw [content?_put_self]
  exact if_pos h.ending

theorem contains_put (h : t.Admits p place) (content : String) :
    (t.put place content).contains p = true := by
  rw [contains, (h.put content).locate]
  simp [isFile, content?_put_self, h.ending]

/-- The folders are there already. -/
theorem createFolders_parent (h : t.Admits p place) :
    t.createFolders p.parent = (t, .ok ()) := by
  obtain ⟨⟨⟩, hnames, hfollow⟩ := Except.bind_eq_ok.mp h.locate
  rw [createFolders, Path.parent, checkNames_dropLast hnames]
  rcases List.eq_nil_or_concat' p.names with hnil | ⟨front, last, hnames⟩
  · rw [hnil]
    rfl
  · rw [hnames] at hfollow ⊢
    rw [List.dropLast_concat]
    exact makeFolders_of_follow hfollow

end Admits

end DynamicQuorum.FileTree
