import Mathlib.Data.List.Basic

/-!
# Consecutive ranges

Items that each occupy the numbers from `first` to `last`, placed one after the other without a
gap.  Such items are in increasing order, do not overlap, and lie between the two ends.
-/

namespace Aether

variable {α : Type*}

inductive Consecutive (first last : α → ℕ) : ℕ → List α → ℕ → Prop
  | nil (lo : ℕ) : Consecutive first last lo [] lo
  | cons {lo hi : ℕ} {a : α} {l : List α} (hfirst : first a = lo) (hne : first a ≤ last a)
      (hl : Consecutive first last (last a + 1) l hi) : Consecutive first last lo (a :: l) hi

namespace Consecutive

variable {first last : α → ℕ} {lo hi : ℕ} {l : List α}

lemma le (h : Consecutive first last lo l hi) : lo ≤ hi := by
  induction h with
  | nil lo => exact Nat.le_refl lo
  | cons hfst hne _ ih => omega

lemma bounds (h : Consecutive first last lo l hi) :
    ∀ a ∈ l, lo ≤ first a ∧ first a ≤ last a ∧ last a < hi := by
  induction h with
  | nil lo => simp
  | cons hfst hne hl ih =>
    intro b hb
    rcases List.mem_cons.mp hb with rfl | hb
    · have hle := hl.le
      omega
    · have hin := ih b hb
      omega

lemma pairwise (h : Consecutive first last lo l hi) :
    l.Pairwise fun a b => last a < first b := by
  induction h with
  | nil lo => exact List.Pairwise.nil
  | cons hfst hne hl ih =>
    refine List.Pairwise.cons ?_ ih
    intro b hb
    have hin := hl.bounds b hb
    omega

end Consecutive

end Aether
