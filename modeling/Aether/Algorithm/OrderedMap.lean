import Mathlib.Data.List.Basic

/-!
# Lookups in ordered maps

What is found in a `Std.TreeMap` after an update, with keys compared by equality.
-/

namespace Aether.OrderedMap

variable {κ ν : Type*} [Ord κ] [Std.TransOrd κ] [Std.LawfulEqOrd κ] [DecidableEq κ]
variable {m : Std.TreeMap κ ν} {k a : κ}

lemma getElem?_insert {v : ν} : (m.insert k v)[a]? = if k = a then some v else m[a]? := by
  rw [Std.TreeMap.getElem?_insert]
  simp only [Std.compare_eq_iff_eq]

lemma getElem?_erase : (m.erase k)[a]? = if k = a then none else m[a]? := by
  rw [Std.TreeMap.getElem?_erase]
  simp only [Std.compare_eq_iff_eq]

lemma getElem?_modify {f : ν → ν} :
    (m.modify k f)[a]? = if k = a then m[a]?.map f else m[a]? := by
  rw [Std.TreeMap.getElem?_modify]
  simp only [Std.compare_eq_iff_eq]
  split
  · rename_i h
    rw [h]
  · rfl

lemma map_getElem?_modify {α : Type*} {φ : ν → α} {f : ν → ν} {g : α → α}
    (hf : ∀ v, φ (f v) = g (φ v)) :
    (m.modify k f)[a]?.map φ = if k = a then (m[a]?.map φ).map g else m[a]?.map φ := by
  rw [getElem?_modify]
  split
  · rw [Option.map_map, Option.map_map, show φ ∘ f = g ∘ φ from funext hf]
  · rfl

end Aether.OrderedMap
