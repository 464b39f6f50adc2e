import Mathlib.Data.List.AList

/-!
# Lookups in association lists

What is found in an `AList` after an update, and how many keys it has then.
-/

namespace Aether.AssocList

variable {κ ν : Type*} {m : AList fun _ : κ => ν} {k a : κ} {v w : ν}

lemma length_keys : m.keys.length = m.entries.length := List.length_map _

variable [DecidableEq κ]

lemma lookup_insert : (m.insert k v).lookup a = if a = k then some v else m.lookup a := by
  split_ifs with h
  · rw [h, AList.lookup_insert]
  · exact AList.lookup_insert_ne h

lemma lookup_erase : (m.erase k).lookup a = if a = k then none else m.lookup a := by
  split_ifs with h
  · rw [h, AList.lookup_erase]
  · exact AList.lookup_erase_ne h

lemma lookup_erase_of_eq_none (h : m.lookup k = none) (a : κ) :
    (m.erase k).lookup a = m.lookup a := by
  rw [lookup_erase]
  split_ifs with hk
  · rw [hk, h]
  · rfl

lemma length_keys_insert_le : (m.insert k v).keys.length ≤ m.keys.length + 1 := by
  rw [AList.keys_insert, List.length_cons]
  exact Nat.succ_le_succ (List.length_erase_le ..)

lemma length_keys_insert_of_lookup (h : m.lookup k = some v) :
    (m.insert k w).keys.length = m.keys.length := by
  have hmem : k ∈ m.keys := AList.mem_keys.mp (AList.lookup_isSome.mp (by rw [h]; rfl))
  rw [AList.keys_insert, List.length_cons, List.length_erase_of_mem hmem]
  have hpos := List.length_pos_of_mem hmem
  omega

end Aether.AssocList
