import Mathlib.Data.List.Basic

/-!
# Stages

A question is put to one stage after the other until one of them answers.  A stage may also fail,
and then the whole fails: `none` is a failure, `some none` no answer.
-/

namespace Aether.Stages

universe u

variable {α : Type u}

def firstAnswer : List (Option (Option α)) → Option (Option α)
  | [] => some none
  | none :: _ => none
  | some (some a) :: _ => some (some a)
  | some none :: stages => firstAnswer stages

variable {stage : Option (Option α)} {stages later : List (Option (Option α))} {a : α}

@[simp] lemma firstAnswer_nil : firstAnswer ([] : List (Option (Option α))) = some none := rfl

@[simp] lemma firstAnswer_none : firstAnswer (none :: stages) = none := rfl

@[simp] lemma firstAnswer_some : firstAnswer (some (some a) :: stages) = some (some a) := rfl

@[simp] lemma firstAnswer_pass : firstAnswer (some none :: stages) = firstAnswer stages := rfl

lemma firstAnswer_cons_eq_none_iff :
    firstAnswer (stage :: stages) = none ↔
      stage = none ∨ stage = some none ∧ firstAnswer stages = none := by
  rcases stage with _ | _ | a <;> simp

lemma firstAnswer_cons_eq_some_none_iff :
    firstAnswer (stage :: stages) = some none ↔
      stage = some none ∧ firstAnswer stages = some none := by
  rcases stage with _ | _ | a <;> simp

lemma firstAnswer_singleton_eq_none_iff : firstAnswer [stage] = none ↔ stage = none := by
  simp [firstAnswer_cons_eq_none_iff]

lemma firstAnswer_append_eq_none_iff :
    firstAnswer (stages ++ later) = none ↔
      firstAnswer stages = none ∨ firstAnswer stages = some none ∧ firstAnswer later = none := by
  induction stages with
  | nil => simp
  | cons stage stages ih =>
    rw [List.cons_append, firstAnswer_cons_eq_none_iff, firstAnswer_cons_eq_none_iff,
      firstAnswer_cons_eq_some_none_iff, ih]
    tauto

lemma firstAnswer_ne_none (h : stages.Forall (· ≠ none)) : firstAnswer stages ≠ none := by
  induction stages with
  | nil => simp
  | cons stage stages ih =>
    obtain ⟨hsta, hrest⟩ := (List.forall_cons _ _ _).mp h
    rw [Ne, firstAnswer_cons_eq_none_iff]
    simp [hsta, ih hrest]

lemma mem_of_firstAnswer (h : firstAnswer stages = some (some a)) :
    some (some a) ∈ stages := by
  induction stages with
  | nil => cases h
  | cons stage stages ih =>
    rcases stage with _ | _ | b
    · cases h
    · exact List.mem_cons_of_mem _ (ih h)
    · rw [firstAnswer_some] at h
      rw [h]
      exact List.mem_cons_self

lemma mapM_eq_none_iff {β : Type u} {f : α → Option β} {l : List α} :
    l.mapM f = none ↔ ∃ a ∈ l, f a = none := by
  induction l with
  | nil => simp
  | cons a l ih =>
    rw [List.mapM_cons, List.exists_mem_cons_iff, ← ih]
    cases hfa : f a with
    | none => simp
    | some b => cases hrest : l.mapM f <;> simp

end Aether.Stages
