import Mathlib.Logic.Function.Basic

/-!
# An index over a table

A table holds values by id, an index holds at most one id per key.  Values have a key or none.  A
value that comes in takes the place of its key, and a value that goes clears it, whoever holds it.
-/

namespace Aether.Index

variable {ι κ ν : Type*} [DecidableEq ι] [DecidableEq κ] (keyOf : ν → Option κ)

def Right (table : ι → Option ν) (index : κ → Option ι) : Prop :=
  ∀ k, (∀ i, index k = some i → ∃ v, table i = some v ∧ keyOf v = some k) ∧
    (index k = none → ∀ i v, table i = some v → keyOf v ≠ some k)

def enter (index : κ → Option ι) (v : ν) (entry : Option ι) : κ → Option ι :=
  fun k => if keyOf v = some k then entry else index k

variable {keyOf} {table : ι → Option ν} {index : κ → Option ι} {i : ι} {v : ν}

lemma right_insert_iff (h : Right keyOf table index) :
    Right keyOf (Function.update table i (some v)) (enter keyOf index v (some i)) ↔
      ∀ u k, table i = some u → keyOf u = some k → keyOf v ≠ some k → index k ≠ some i := by
  constructor
  · intro hnew u k hu hk hne hi
    have hent : enter keyOf index v (some i) k = some i := by rw [enter, if_neg hne, hi]
    obtain ⟨v', hv', hkey⟩ := (hnew k).1 i hent
    rw [Function.update_self, Option.some.injEq] at hv'
    exact hne (hv' ▸ hkey)
  · intro hold k
    by_cases hv : keyOf v = some k
    · refine ⟨fun j hj => ?_, fun hnone => ?_⟩
      · rw [enter, if_pos hv, Option.some.injEq] at hj
        exact ⟨v, by rw [← hj, Function.update_self], hv⟩
      · rw [enter, if_pos hv] at hnone
        cases hnone
    · rw [enter, if_neg hv]
      refine ⟨fun j hj => ?_, fun hnone j u hu => ?_⟩
      · obtain ⟨u, hu, hkey⟩ := (h k).1 j hj
        have hji : j ≠ i := by
          rintro rfl
          exact hold u k hu hkey hv hj
        exact ⟨u, by rw [Function.update_of_ne hji, hu], hkey⟩
      · rw [Function.update_apply] at hu
        split at hu
        · cases hu
          exact hv
        · exact (h k).2 hnone j u hu

lemma right_erase_iff (h : Right keyOf table index) (hv : table i = some v) :
    Right keyOf (Function.update table i none) (enter keyOf index v none) ↔
      ∀ k, keyOf v = some k → ∀ j u, j ≠ i → table j = some u → keyOf u ≠ some k := by
  constructor
  · intro hnew k hk j u hji hu
    refine (hnew k).2 (by rw [enter, if_pos hk]) j u ?_
    rw [Function.update_of_ne hji, hu]
  · intro hoth k
    by_cases hk : keyOf v = some k
    · rw [enter, if_pos hk]
      refine ⟨nofun, fun _ j u hu => ?_⟩
      rw [Function.update_apply] at hu
      split at hu
      · cases hu
      · rename_i hji
        exact hoth k hk j u hji hu
    · rw [enter, if_neg hk]
      refine ⟨fun j hj => ?_, fun hnone j u hu => ?_⟩
      · obtain ⟨u, hu, hkey⟩ := (h k).1 j hj
        have hji : j ≠ i := by
          rintro rfl
          cases hv.symm.trans hu
          exact hk hkey
        exact ⟨u, by rw [Function.update_of_ne hji, hu], hkey⟩
      · rw [Function.update_apply] at hu
        split at hu
        · cases hu
        · exact (h k).2 hnone j u hu

end Aether.Index
