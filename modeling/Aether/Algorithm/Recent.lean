import Mathlib.Data.List.DropRight

/-!
# The last elements of a list

A buffer with `n` places that drops its oldest elements holds `l.rtake n`, where `l` is everything
that was put into it.  A counter that is set to zero from time to time holds `countSince`.
-/

namespace Aether.Recent

open List

variable {α : Type*} {n : ℕ} {l : List α}

lemma rtake_suffix (l : List α) (n : ℕ) : l.rtake n <:+ l := drop_suffix _ _

lemma rtake_of_length_le (h : l.length ≤ n) : l.rtake n = l := by
  rw [rtake, Nat.sub_eq_zero_of_le h, drop_zero]

lemma length_rtake (l : List α) (n : ℕ) : (l.rtake n).length = min n l.length := by
  rw [rtake, length_drop]
  omega

lemma rtake_rtake_of_le {m : ℕ} (h : n ≤ m) : (l.rtake m).rtake n = l.rtake n := by
  rw [rtake, length_rtake, rtake, drop_drop, rtake]
  congr 1
  omega

lemma rtake_concat (l : List α) (n : ℕ) (a : α) :
    (l.rtake n ++ [a]).rtake n = (l ++ [a]).rtake n := by
  cases n with
  | zero => rw [rtake_zero, rtake_zero]
  | succ n =>
    rw [rtake_concat_succ, rtake_concat_succ, rtake_rtake_of_le (Nat.le_succ n)]

lemma tail_rtake_concat (hn : n ≠ 0) (h : n ≤ l.length) (a : α) :
    (l.rtake n).tail ++ [a] = (l ++ [a]).rtake n := by
  obtain ⟨m, rfl⟩ := Nat.exists_eq_succ_of_ne_zero hn
  have hdrop : l.length - (m + 1) + 1 = l.length - m := by omega
  rw [rtake_concat_succ, rtake, tail_drop, hdrop, rtake]

def countSince (resets counts : α → Bool) (l : List α) : ℕ :=
  (l.rtakeWhile fun a => !resets a).countP counts

variable {resets counts : α → Bool}

lemma countSince_concat (a : α) : countSince resets counts (l ++ [a]) =
    if resets a then 0 else countSince resets counts l + if counts a then 1 else 0 := by
  unfold countSince
  by_cases h : resets a = true
  · rw [rtakeWhile_concat_neg _ _ _ (by simp [h]), if_pos h, countP_nil]
  · rw [rtakeWhile_concat_pos _ _ _ (by simp [h]), if_neg h, countP_append,
      countP_singleton]

lemma countSince_replicate {a : α} (hres : resets a = false) (hcts : counts a = true)
    (n : ℕ) : countSince resets counts (List.replicate n a) = n := by
  induction n with
  | zero => rfl
  | succ n ih =>
    rw [replicate_succ', countSince_concat, ih]
    simp [hres, hcts]

end Aether.Recent

/-!
## Throttling

A key may pass at a time that is `late` enough after its last passage; `Throttled` lists the
passages of a run.
-/

namespace Aether.Throttle

variable {κ τ : Type*} [DecidableEq κ] (late : τ → τ → Prop)

inductive Throttled : (κ → Option τ) → List (κ × τ) → (κ → Option τ) → Prop
  | nil (m) : Throttled m [] m
  | cons {m m' passed k now} : (∀ prev ∈ m k, late prev now) →
      Throttled (Function.update m k (some now)) passed m' → Throttled m ((k, now) :: passed) m'

variable {late} {m m₁ m₂ : κ → Option τ} {passed passed' : List (κ × τ)}

lemma Throttled.single {k : κ} {now : τ} (h : ∀ prev ∈ m k, late prev now) :
    Throttled late m [(k, now)] (Function.update m k (some now)) :=
  .cons h (.nil _)

lemma Throttled.append (h : Throttled late m passed m₁) (h' : Throttled late m₁ passed' m₂) :
    Throttled late m (passed ++ passed') m₂ := by
  induction h with
  | nil => exact h'
  | cons hlate _ ih => exact .cons hlate (ih h')

lemma Throttled.late_of_mem [IsTrans τ late] (h : Throttled late m passed m₁) :
    ∀ x ∈ passed, ∀ prev ∈ m x.1, late prev x.2 := by
  induction h with
  | nil => simp
  | @cons m _ _ k now hlate _ ih =>
    intro x hx prev hprev
    rcases List.mem_cons.mp hx with rfl | hx
    · exact hlate prev hprev
    · by_cases hk : x.1 = k
      · -- the key passes now, and again later
        have hnow := ih x hx now (by rw [hk, Function.update_self]; rfl)
        exact IsTrans.trans prev now x.2 (hlate prev (hk ▸ hprev)) hnow
      · exact ih x hx prev (by rwa [Function.update_of_ne hk])

lemma Throttled.pairwise [IsTrans τ late] (h : Throttled late m passed m₁) :
    passed.Pairwise fun x y => x.1 = y.1 → late x.2 y.2 := by
  induction h with
  | nil => exact .nil
  | @cons m _ _ k now _ hrest ih =>
    refine List.pairwise_cons.mpr ⟨fun y hy hk => ?_, ih⟩
    exact hrest.late_of_mem y hy now (by rw [← hk, Function.update_self]; rfl)

end Aether.Throttle
