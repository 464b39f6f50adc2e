import Mathlib.Data.List.Sublists
import Mathlib.Data.Set.Insert

/-!
# One sweep through a list

A set grows along a list: each element is added if it is ready for the set so far, and is not looked
at again if it is not.  `ready` may depend on the set, and a larger set makes no less ready.
-/

namespace Aether.Greedy

open scoped Classical

variable {α : Type*} (ready : Set α → α → Prop)

noncomputable def sweep (R : Set α) : List α → Set α
  | [] => R
  | a :: l => sweep (if ready R a then insert a R else R) l

def InOrder (R : Set α) (l : List α) : Prop :=
  ∀ pre a post, l = pre ++ a :: post → ready (R ∪ {x | x ∈ pre}) a

variable {ready} {R R' : Set α} {l : List α}

lemma inOrder_nil : InOrder ready R [] := by
  intro pre a post heq
  simp at heq

lemma inOrder_cons_iff {a : α} :
    InOrder ready R (a :: l) ↔ ready R a ∧ InOrder ready (insert a R) l := by
  have hset : ∀ pre : List α, R ∪ {x | x ∈ a :: pre} = insert a R ∪ {x | x ∈ pre} := by
    intro pre
    ext x
    simp only [Set.mem_union, Set.mem_insert_iff, List.mem_cons, Set.mem_ofPred_eq]
    tauto
  constructor
  · intro h
    refine ⟨?_, fun pre b post heq => ?_⟩
    · have hfst := h [] a l rfl
      simpa using hfst
    · rw [← hset]
      exact h (a :: pre) b post (by rw [heq, List.cons_append])
  · rintro ⟨ha, hl⟩ pre b post heq
    cases pre with
    | nil =>
      cases heq
      simpa using ha
    | cons c pre =>
      rw [List.cons_append] at heq
      obtain ⟨rfl, hrest⟩ := List.cons.inj heq
      rw [hset]
      exact hl pre b post hrest

lemma subset_sweep (R : Set α) (l : List α) : R ⊆ sweep ready R l := by
  induction l generalizing R with
  | nil => exact subset_rfl
  | cons a l ih =>
    rw [sweep]
    refine subset_trans ?_ (ih _)
    split
    · exact Set.subset_insert a R
    · exact subset_rfl

lemma exists_inOrder (ready : Set α → α → Prop) (R : Set α) (l : List α) :
    ∃ l', l'.Sublist l ∧ InOrder ready R l' ∧ sweep ready R l = R ∪ {x | x ∈ l'} := by
  induction l generalizing R with
  | nil => exact ⟨[], List.Sublist.refl _, inOrder_nil, by simp [sweep]⟩
  | cons a l ih =>
    rw [sweep]
    split
    · rename_i ha
      obtain ⟨l', hsub, hord, hswe⟩ := ih (insert a R)
      refine ⟨a :: l', hsub.cons_cons a, inOrder_cons_iff.mpr ⟨ha, hord⟩, ?_⟩
      rw [hswe]
      ext x
      simp only [Set.mem_union, Set.mem_insert_iff, List.mem_cons, Set.mem_ofPred_eq]
      tauto
    · obtain ⟨l', hsub, hord, hswe⟩ := ih R
      exact ⟨l', hsub.cons a, hord, hswe⟩

section Mono

variable (hready : ∀ (R R' : Set α) (a : α), R ⊆ R' → ready R a → ready R' a)

include hready

lemma InOrder.mono (h : InOrder ready R l) (hR : R ⊆ R') : InOrder ready R' l :=
  fun pre a post heq => hready _ _ a (Set.union_subset_union_left _ hR) (h pre a post heq)

lemma mem_sweep_of_inOrder {l' : List α} (hsub : l'.Sublist l) (hord : InOrder ready R l') :
    ∀ a ∈ l', a ∈ sweep ready R l := by
  induction hsub generalizing R with
  | slnil => simp
  | cons b hsub ih =>
    rw [sweep]
    refine ih (hord.mono hready ?_)
    split
    · exact Set.subset_insert b R
    · exact subset_rfl
  | cons_cons b hsub ih =>
    obtain ⟨hb, hord⟩ := inOrder_cons_iff.mp hord
    rw [sweep, if_pos hb]
    intro a ha
    rcases List.mem_cons.mp ha with rfl | ha
    · exact subset_sweep _ _ (Set.mem_insert a R)
    · exact ih hord a ha

/-- **One sweep**: the whole list is in the set afterwards iff some sublist is in order and has all
elements of the list that were not in the set before. -/
theorem forall_mem_sweep_iff :
    (∀ a ∈ l, a ∈ sweep ready R l) ↔
      ∃ l', l'.Sublist l ∧ (∀ a ∈ l, a ∈ R ∨ a ∈ l') ∧ InOrder ready R l' := by
  constructor
  · intro h
    obtain ⟨l', hsub, hord, hswe⟩ := exists_inOrder ready R l
    refine ⟨l', hsub, fun a ha => ?_, hord⟩
    have hmem := h a ha
    rw [hswe] at hmem
    exact hmem
  · rintro ⟨l', hsub, hcov, hord⟩ a ha
    rcases hcov a ha with hR | hl'
    · exact subset_sweep R l hR
    · exact mem_sweep_of_inOrder hready hsub hord a hl'

end Mono

end Aether.Greedy
