import Mathlib.Algebra.Order.Ring.Nat

/-!
# Capped doubling

The schedule `base, 2 * base, 4 * base, …` that stays at `top` once it has reached it, and the same
schedule with a bound on the exponent, as it is computed in a machine word.  Entries are counted
from 1.
-/

namespace Aether.Doubling

def exact (base top n : ℕ) : ℕ := min (base * 2 ^ (n - 1)) top

def limited (limit base top n : ℕ) : ℕ := min (base * 2 ^ min (n - 1) limit) top

variable {base top limit n : ℕ}

lemma min_mul_two_pow_eq_iff {m : ℕ} (hmn : m ≤ n) :
    min (base * 2 ^ m) top = min (base * 2 ^ n) top ↔
      m = n ∨ base = 0 ∨ top ≤ base * 2 ^ m := by
  rcases Nat.eq_or_lt_of_le hmn with rfl | hlt
  · simp
  rcases Nat.eq_zero_or_pos base with rfl | hpos
  · simp
  have hpow : base * 2 ^ m < base * 2 ^ n :=
    Nat.mul_lt_mul_of_pos_left (Nat.pow_lt_pow_right Nat.one_lt_two hlt) hpos
  omega

lemma limited_eq_exact_iff (hbase : base ≠ 0) :
    limited limit base top n = exact base top n ↔ n ≤ limit + 1 ∨ top ≤ base * 2 ^ limit := by
  unfold limited exact
  rw [min_mul_two_pow_eq_iff (Nat.min_le_left ..)]
  by_cases hsh : n - 1 ≤ limit
  · have hle : n ≤ limit + 1 := by omega
    simp [hsh, hle]
  · have hlong : ¬ n ≤ limit + 1 := by omega
    have hmin : min (n - 1) limit = limit := by omega
    have hne : limit ≠ n - 1 := by omega
    simp [hmin, hne, hlong, hbase]

lemma exact_of_lower_limit {limit' : ℕ} (hle : limit ≤ limit')
    (h : n ≤ limit + 1 ∨ top ≤ base * 2 ^ limit) : n ≤ limit' + 1 ∨ top ≤ base * 2 ^ limit' := by
  rcases h with h | h
  · left
    omega
  · right
    exact h.trans (Nat.mul_le_mul_left _ (Nat.pow_le_pow_right Nat.two_pos hle))

lemma limited_succ_eq_iff :
    limited limit base top (n + 1) = limited limit base top n ↔
      base = 0 ∨ n = 0 ∨ limit < n ∨ top ≤ base * 2 ^ (n - 1) := by
  unfold limited
  rw [Nat.add_sub_cancel, eq_comm, min_mul_two_pow_eq_iff (by omega)]
  by_cases hn : n = 0
  · simp [hn]
  by_cases hlim : limit < n
  · have heq : min (n - 1) limit = min n limit := by omega
    simp [heq, hlim]
  · have hpred : min (n - 1) limit = n - 1 := by omega
    have hmin : min n limit = n := by omega
    have hne : n - 1 ≠ n := by omega
    simp [hn, hlim, hpred, hmin, hne]

end Aether.Doubling
