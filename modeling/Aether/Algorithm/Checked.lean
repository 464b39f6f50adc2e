import Mathlib.Tactic.Ring

/-!
# Checked machine arithmetic

Sums and differences of 64-bit words where an overflow is a failure (`none`), each with the one
fact about the numbers the words stand for.
-/

namespace Aether.Checked

def addU64 (a b : UInt64) : Option UInt64 :=
  if a.toNat + b.toNat < UInt64.size then some (a + b) else none

def subU64 (a b : UInt64) : Option UInt64 :=
  if b.toNat ≤ a.toNat then some (a - b) else none

def addU32 (a b : UInt32) : Option UInt32 :=
  if a.toNat + b.toNat < UInt32.size then some (a + b) else none

def addI32 (a b : Int32) : Option Int32 :=
  if Int32.minValue.toInt ≤ a.toInt + b.toInt ∧ a.toInt + b.toInt ≤ Int32.maxValue.toInt then
    some (a + b)
  else none

lemma addU64_eq_some_iff (a b c : UInt64) :
    addU64 a b = some c ↔ c.toNat = a.toNat + b.toNat := by
  unfold addU64
  have hc := c.toNat_lt_size
  split
  · rename_i h
    have hsum : (a + b).toNat = a.toNat + b.toNat := by
      rw [UInt64.toNat_add]
      exact Nat.mod_eq_of_lt h
    rw [Option.some.injEq, ← UInt64.toNat_inj, hsum]
    exact eq_comm
  · rename_i h
    refine iff_of_false (by simp) ?_
    intro hsum
    omega

lemma addU32_eq_some_iff (a b c : UInt32) :
    addU32 a b = some c ↔ c.toNat = a.toNat + b.toNat := by
  unfold addU32
  have hc := c.toNat_lt_size
  split
  · rename_i h
    have hsum : (a + b).toNat = a.toNat + b.toNat := by
      rw [UInt32.toNat_add]
      exact Nat.mod_eq_of_lt h
    rw [Option.some.injEq, ← UInt32.toNat_inj, hsum]
    exact eq_comm
  · rename_i h
    refine iff_of_false (by simp) ?_
    intro hsum
    omega

lemma subU64_eq_some_iff (a b c : UInt64) :
    subU64 a b = some c ↔ a.toNat = c.toNat + b.toNat := by
  unfold subU64
  split
  · rename_i h
    have hdiff : (a - b).toNat = a.toNat - b.toNat := UInt64.toNat_sub_of_le a b h
    rw [Option.some.injEq, ← UInt64.toNat_inj, hdiff]
    omega
  · rename_i h
    refine iff_of_false (by simp) ?_
    intro hdiff
    omega

lemma exists_addU64 {a b : UInt64} (h : a.toNat + b.toNat < UInt64.size) :
    ∃ c, addU64 a b = some c ∧ c.toNat = a.toNat + b.toNat := by
  have hadd : addU64 a b = some (a + b) := by rw [addU64, if_pos h]
  exact ⟨a + b, hadd, (addU64_eq_some_iff a b _).mp hadd⟩

lemma exists_subU64 {a b : UInt64} (h : b.toNat ≤ a.toNat) :
    ∃ c, subU64 a b = some c ∧ a.toNat = c.toNat + b.toNat := by
  have hsub : subU64 a b = some (a - b) := by rw [subU64, if_pos h]
  exact ⟨a - b, hsub, (subU64_eq_some_iff a b _).mp hsub⟩

end Aether.Checked

/-!
## Bits of numbers

Shifting and joining the bits of a word, as arithmetic on its value.
-/

namespace Aether.Bits

lemma shiftLeft_mod_or {a b k w : ℕ} (hk : k ≤ w) (hb : b < 2 ^ k) :
    (a <<< k % 2 ^ w) ||| b = a * 2 ^ k % 2 ^ w + b := by
  obtain ⟨d, rfl⟩ := Nat.exists_eq_add_of_le hk
  have hmod : a <<< k % 2 ^ (k + d) = 2 ^ k * (a % 2 ^ d) := by
    rw [Nat.shiftLeft_eq, Nat.mul_comm a, Nat.pow_add, Nat.mul_mod_mul_left]
  rw [hmod, ← Nat.two_pow_add_eq_or_of_lt hb, ← hmod, Nat.shiftLeft_eq]

end Aether.Bits

/-!
## Saturating counters
-/

namespace Aether.Core

def saturatingSucc (n : UInt32) : UInt32 := if n.toNat + 1 < 2 ^ 32 then n + 1 else n

lemma toNat_saturatingSucc (n : UInt32) :
    (saturatingSucc n).toNat = min (n.toNat + 1) (2 ^ 32 - 1) := by
  have hlt := n.toNat_lt
  unfold saturatingSucc
  split_ifs with h
  · rw [UInt32.toNat_add, UInt32.toNat_one, Nat.mod_eq_of_lt h]
    omega
  · omega

end Aether.Core
