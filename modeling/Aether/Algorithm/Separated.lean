import Mathlib.Data.List.Basic

/-!
# Parts between separators
-/

namespace Aether.Separated

open List

variable {α : Type*} {x : α}

variable {ls ms : List (List α)}

lemma intercalate_append (hls : ls ≠ []) (hms : ms ≠ []) :
    [x].intercalate (ls ++ ms) = [x].intercalate ls ++ x :: [x].intercalate ms := by
  induction ls with
  | nil => exact absurd rfl hls
  | cons l ls ih =>
    cases ls with
    | nil =>
      obtain ⟨m, ms, rfl⟩ := exists_cons_of_ne_nil hms
      rw [singleton_append, intercalate_cons_cons, intercalate_singleton]
      simp
    | cons l' ls =>
      rw [cons_append, cons_append, intercalate_cons_cons,
        intercalate_cons_cons, ← cons_append, ih (cons_ne_nil _ _)]
      simp

lemma intercalate_append_cons (l m : List α) (ms : List (List α)) :
    [x].intercalate ((l ++ m) :: ms) = l ++ [x].intercalate (m :: ms) := by
  cases ms with
  | nil => simp
  | cons n ms => simp [intercalate_cons_cons]

lemma intercalate_merge (ls ms : List (List α)) (l m : List α) :
    [x].intercalate (ls ++ (l ++ x :: m) :: ms) = [x].intercalate (ls ++ l :: m :: ms) := by
  have hpair : [x].intercalate ((l ++ x :: m) :: ms) = [x].intercalate (l :: m :: ms) := by
    rw [intercalate_append_cons, intercalate_cons_cons, append_assoc,
      singleton_append, ← singleton_append (l := m), intercalate_append_cons]
    rfl
  cases ls with
  | nil => exact hpair
  | cons k ls =>
    rw [intercalate_append (cons_ne_nil _ _) (cons_ne_nil _ _), hpair,
      ← intercalate_append (cons_ne_nil _ _) (cons_ne_nil _ _)]

lemma exists_intercalate_eq (ls ms : List (List α)) :
    ∃ before after, ∀ l, [x].intercalate (ls ++ l :: ms) = before ++ l ++ after := by
  obtain ⟨after, haft⟩ : ∃ after, ∀ l, [x].intercalate (l :: ms) = l ++ after := by
    refine ⟨[x].intercalate ([] :: ms), ?_⟩
    intro l
    rw [← intercalate_append_cons, append_nil]
  cases ls with
  | nil => exact ⟨[], after, by simpa using haft⟩
  | cons k ls =>
    refine ⟨[x].intercalate (k :: ls) ++ [x], after, ?_⟩
    intro l
    rw [intercalate_append (cons_ne_nil _ _) (cons_ne_nil _ _), haft]
    simp

lemma intercalate_glue (ls ms : List (List α)) (l m : List α) :
    [x].intercalate (ls ++ [l]) ++ [x].intercalate (m :: ms) =
      [x].intercalate (ls ++ (l ++ m) :: ms) := by
  cases ls with
  | nil => rw [nil_append, nil_append, intercalate_singleton,
      intercalate_append_cons]
  | cons k ls =>
    rw [intercalate_append (cons_ne_nil _ _) (cons_ne_nil _ _),
      intercalate_append (cons_ne_nil _ _) (cons_ne_nil _ _),
      intercalate_singleton, intercalate_append_cons]
    simp

lemma eq_or_mem_of_mem_intercalate {a : α} (h : a ∈ [x].intercalate ls) :
    a = x ∨ ∃ l ∈ ls, a ∈ l := by
  induction ls with
  | nil => simp at h
  | cons l ls ih =>
    cases ls with
    | nil =>
      rw [intercalate_singleton] at h
      exact Or.inr ⟨l, mem_cons_self .., h⟩
    | cons m ls =>
      rw [intercalate_cons_cons, mem_append, mem_append, mem_singleton] at h
      rcases h with (hl | hx) | hrest
      · exact Or.inr ⟨l, mem_cons_self .., hl⟩
      · exact Or.inl hx
      · rcases ih hrest with hx | ⟨l', hl', ha⟩
        · exact Or.inl hx
        · exact Or.inr ⟨l', mem_cons_of_mem _ hl', ha⟩

variable [BEq α] [LawfulBEq α]

lemma not_mem_of_mem_splitOn {xs l : List α} (h : l ∈ xs.splitOn x) : x ∉ l := by
  induction xs generalizing l with
  | nil =>
    rw [splitOn_nil, mem_singleton] at h
    rw [h]
    exact not_mem_nil
  | cons y ys ih =>
    rw [splitOn, splitOnP_cons_eq_if_modifyHead] at h
    split at h
    · rcases mem_cons.mp h with rfl | h
      · exact not_mem_nil
      · exact ih h
    · rename_i hne
      -- the head of the parts of `ys` gets `y` in front
      obtain ⟨k, ks, hks⟩ := exists_cons_of_ne_nil (splitOn_ne_nil x ys)
      rw [splitOn] at hks
      rw [hks, modifyHead_cons] at h
      have hks' : ys.splitOn x = k :: ks := hks
      rcases mem_cons.mp h with rfl | h
      · rw [mem_cons, not_or]
        refine ⟨?_, ih (hks' ▸ mem_cons_self ..)⟩
        rintro rfl
        exact hne (beq_self_eq_true _)
      · exact ih (hks' ▸ mem_cons_of_mem _ h)

lemma splitOn_append_cons (xs ys : List α) :
    (xs ++ x :: ys).splitOn x = xs.splitOn x ++ ys.splitOn x :=
  splitOnP_append_cons xs ys (beq_self_eq_true x)

lemma splitOn_intercalate_flatMap (hls : ls ≠ []) :
    ([x].intercalate ls).splitOn x = ls.flatMap fun l => l.splitOn x := by
  induction ls with
  | nil => exact absurd rfl hls
  | cons l ls ih =>
    cases ls with
    | nil => simp
    | cons m ls =>
      rw [intercalate_cons_cons, append_assoc, singleton_append,
        splitOn_append_cons, ih (cons_ne_nil _ _), ← flatMap_cons]

lemma splitOn_append_cons_of_ne {xs ys l m : List α} {y : α} (hy : y ≠ x)
    (hxs : xs.splitOn x = ls ++ [l]) (hys : ys.splitOn x = m :: ms) :
    (xs ++ y :: ys).splitOn x = ls ++ (l ++ y :: m) :: ms := by
  have hjoin : xs ++ y :: ys = [x].intercalate (ls ++ (l ++ y :: m) :: ms) := by
    rw [← intercalate_glue, ← singleton_append (l := m), intercalate_append_cons, ← hxs, ← hys,
      intercalate_splitOn, intercalate_splitOn, singleton_append]
  have hpar : ∀ k ∈ ls ++ (l ++ y :: m) :: ms, x ∉ k := by
    have hl : ∀ k ∈ ls ++ [l], x ∉ k := by
      rw [← hxs]
      exact fun k hk => not_mem_of_mem_splitOn hk
    have hm : ∀ k ∈ m :: ms, x ∉ k := by
      rw [← hys]
      exact fun k hk => not_mem_of_mem_splitOn hk
    intro k hk
    rw [mem_append, mem_cons] at hk
    rcases hk with hk | rfl | hk
    · exact hl k (mem_append_left _ hk)
    · rw [mem_append, mem_cons, not_or, not_or]
      exact ⟨hl l (by simp), hy.symm, hm m (mem_cons_self ..)⟩
    · exact hm k (mem_cons_of_mem _ hk)
  rw [hjoin]
  exact splitOn_intercalate x hpar (by simp)

end Aether.Separated
