import Mathlib.Data.List.AList
import Mathlib.Data.List.Dedup
import Mathlib.Data.List.Perm.Basic

/-!
# Replaying writes into a keyed store

A store keyed by a value computed from its entries, as an association list with distinct keys.
`AList.lookup` after a history of insertions is the last insertion under that key
(`lookup_foldl_insert`, and `lookup_replay` for values stored whole), so a history of replacements
is described by its last write.

The values of a store that was built so are told by their keys: a value is held exactly when looking
its own key up finds it (`mem_values_replay_iff`), and the keys held are those of the history, each
once (`values_replay_perm`).

Nothing here names a particular program.
-/

set_option autoImplicit false
set_option relaxedAutoImplicit false

namespace Hire.Library

variable {α κ ν : Type*} [DecidableEq κ]

/-- Looking a key up after a history of insertions finds the last one under it, or what the store
held before when there is none. -/
theorem lookup_foldl_insert (key : α → κ) (value : α → ν) (store : AList fun _ : κ ↦ ν)
    (history : List α) (k : κ) :
    (history.foldl (fun current a ↦ current.insert (key a) (value a)) store).lookup k =
      ((history.reverse.find? fun a ↦ key a = k).map value).or (store.lookup k) := by
  induction history generalizing store with
  | nil => rfl
  | cons a rest ih =>
    rw [List.foldl_cons, ih, List.reverse_cons, List.find?_append]
    by_cases hkey : key a = k
    · subst hkey
      rw [AList.lookup_insert]
      cases rest.reverse.find? fun b ↦ key b = key a <;> simp
    · rw [AList.lookup_insert_ne (Ne.symm hkey)]
      simp [hkey]

/-- The keys after a history of insertions are those of the history and those held before. -/
theorem mem_foldl_insert_iff (key : α → κ) (value : α → ν) (store : AList fun _ : κ ↦ ν)
    (history : List α) (k : κ) :
    k ∈ history.foldl (fun current a ↦ current.insert (key a) (value a)) store ↔
      k ∈ history.map key ∨ k ∈ store := by
  induction history generalizing store with
  | nil => simp
  | cons a rest ih =>
    rw [List.foldl_cons, ih, AList.mem_insert, List.map_cons, List.mem_cons]
    tauto

/-- The store after inserting a history of values, each under its own key, oldest first. -/
def replay (key : ν → κ) (store : AList fun _ : κ ↦ ν) (history : List ν) : AList fun _ : κ ↦ ν :=
  history.foldl (fun current value ↦ current.insert (key value) value) store

/-- Looking a key up after a history finds the last value written under it, or what the store held
before when there is none. -/
theorem lookup_replay (key : ν → κ) (store : AList fun _ : κ ↦ ν) (history : List ν) (k : κ) :
    (replay key store history).lookup k =
      (history.reverse.find? fun value ↦ key value = k).or (store.lookup k) := by
  have hlookup := lookup_foldl_insert key id store history k
  rwa [Option.map_id] at hlookup

/-- The keys of a store that was built by insertions are those of the history, each once. -/
theorem keys_foldl_insert_perm (key : α → κ) (value : α → ν) (history : List α) :
    (history.foldl (fun current a ↦ current.insert (key a) (value a))
      (∅ : AList fun _ : κ ↦ ν)).keys.Perm (history.map key).dedup := by
  refine (List.perm_ext_iff_of_nodup (AList.keys_nodup _) (List.nodup_dedup _)).mpr fun k ↦ ?_
  rw [← AList.mem_keys, mem_foldl_insert_iff, List.mem_dedup, or_iff_left (AList.notMem_empty k)]

/-- An entry of a store that was built by replaying stands under its own key. -/
theorem key_of_mem_replay {key : ν → κ} {history : List ν} {entry : Sigma fun _ : κ ↦ ν}
    (h : entry ∈ (replay key ∅ history).entries) : key entry.2 = entry.1 := by
  have hlookup : (replay key ∅ history).lookup entry.1 = some entry.2 := AList.mem_lookup_iff.mpr h
  rw [lookup_replay, AList.lookup_empty, Option.or_none] at hlookup
  simpa using List.find?_some hlookup

/-- A value is held exactly when looking its own key up finds it. -/
theorem mem_values_replay_iff {key : ν → κ} {history : List ν} {value : ν} :
    value ∈ (replay key ∅ history).entries.map Sigma.snd ↔
      (replay key ∅ history).lookup (key value) = some value := by
  constructor
  · intro h
    obtain ⟨entry, hentry, rfl⟩ := List.mem_map.mp h
    rw [key_of_mem_replay hentry]
    exact AList.mem_lookup_iff.mpr hentry
  · intro h
    exact List.mem_map.mpr ⟨⟨key value, value⟩, AList.mem_lookup_iff.mp h, rfl⟩

/-- The keys of the values held are those of the history, each once. -/
theorem values_replay_perm (key : ν → κ) (history : List ν) :
    (((replay key ∅ history).entries.map Sigma.snd).map key).Perm (history.map key).dedup := by
  have hkeys : ((replay key ∅ history).entries.map Sigma.snd).map key =
      (replay key ∅ history).keys := by
    rw [List.map_map]
    exact List.map_congr_left fun entry hentry ↦ key_of_mem_replay hentry
  rw [hkeys]
  exact keys_foldl_insert_perm key id history

end Hire.Library
