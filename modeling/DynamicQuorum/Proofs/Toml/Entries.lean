/-
  DynamicQuorum/Proofs/Toml/Entries.lean
  ======================================
  **Entries as a map from keys to values.**
-/
import DynamicQuorum.Toml.Value
import Mathlib.Data.List.Nodup

namespace DynamicQuorum.Toml.Entries

variable {entries : Entries} {key : String} {v : Value}

def keys (entries : Entries) : List String := entries.map (·.1)

theorem find?_cons (entry : String × Value) (entries : Entries) (key : String) :
    find? (entry :: entries) key = if entry.1 = key then some entry.2 else entries.find? key := by
  rw [find?, List.find?_cons]
  split_ifs with h <;> simp [h, find?]

theorem find?_eq_none : entries.find? key = none ↔ key ∉ entries.keys := by
  simp only [find?, keys, Option.map_eq_none_iff, List.find?_eq_none, List.mem_map, not_exists,
    not_and, decide_eq_true_eq]

theorem find?_eq_none_of_nodup {names : List String}
    (h : (entries.keys ++ key :: names).Nodup) : entries.find? key = none := by
  rw [find?_eq_none]
  intro hmem
  exact (List.nodup_append.mp h).2.2 key hmem key List.mem_cons_self rfl

theorem mem_of_find?_eq_some (h : entries.find? key = some v) : (key, v) ∈ entries := by
  obtain ⟨entry, hfind, rfl⟩ := Option.map_eq_some_iff.mp h
  have hkey : entry.1 = key := by simpa using List.find?_some hfind
  rw [← hkey]
  exact List.mem_of_find?_eq_some hfind

theorem keys_append (entries entries' : Entries) :
    keys (entries ++ entries') = entries.keys ++ keys entries' := List.map_append

theorem keys_replace (entries : Entries) (key : String) (v : Value) :
    (entries.replace key v).keys = entries.keys := by
  rw [keys, replace, List.map_map]
  refine List.map_congr_left fun entry _ => ?_
  by_cases h : entry.1 = key <;> simp [h]

theorem find?_snoc (h : entries.find? key = none) :
    find? (entries ++ [(key, v)]) key = some v := by
  rw [find?, Option.map_eq_none_iff] at h
  rw [find?, List.find?_append, h]
  simp

theorem replace_snoc (h : entries.find? key = none) (v w : Value) :
    replace (entries ++ [(key, v)]) key w = entries ++ [(key, w)] := by
  have hkeep : entries.replace key w = entries := by
    refine (List.map_congr_left fun entry hentry => ?_).trans (List.map_id entries)
    refine if_neg ?_
    rintro rfl
    exact find?_eq_none.mp h (List.mem_map_of_mem hentry)
  rw [replace, List.map_append]
  refine congrArg₂ _ hkeep ?_
  simp

end DynamicQuorum.Toml.Entries
