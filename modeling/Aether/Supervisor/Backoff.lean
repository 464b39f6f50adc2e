import Aether.Algorithm.Checked
import Aether.Runtime.Action

/-!
# The backoff of the supervisor

`Backoff` of `aether-supervisor`: the delays between the launches of a child that keeps failing.
The time of the last failure is left out; only the reset after a stable run reads it.
-/

namespace Aether.Supervisor

open Agent (saturatingMul)
open Aether.Core (saturatingSucc)

structure Backoff where
  baseMs : UInt64
  maxMs : UInt64
  attempt : UInt32
  deriving DecidableEq

namespace Backoff

def new (baseMs maxMs : UInt64) : Backoff :=
  { baseMs := max baseMs 1, maxMs := max maxMs (max baseMs 1), attempt := 0 }

def recordFailure (b : Backoff) : UInt64 × Backoff :=
  let attempt := saturatingSucc b.attempt
  let shift := min (attempt.toNat - 1) 16
  (min (saturatingMul b.baseMs.toNat (2 ^ shift)) b.maxMs, { b with attempt })

def afterFailures (b : Backoff) : ℕ → Backoff
  | 0 => b
  | n + 1 => (afterFailures b n).recordFailure.2

def delayMs (b : Backoff) (n : ℕ) : UInt64 := (b.afterFailures (n - 1)).recordFailure.1

end Backoff

/-!
## Three exponential backoffs

The delays of the retry policy, of the recovery policy and of the supervisor as schedules that
double up to a bound on the exponent (`Doubling.limited`): 20, 20 and 16.  Each is the exact
doubling schedule only up to there, unless the delays have reached their maximum before.
-/

open Agent Aether.Core Doubling Aether.Runtime

namespace Backoff

variable (b : Backoff)

lemma afterFailures_eq (n : ℕ) :
    (b.afterFailures n).baseMs = b.baseMs ∧ (b.afterFailures n).maxMs = b.maxMs := by
  induction n with
  | zero => exact ⟨rfl, rfl⟩
  | succ n ih => exact ih

lemma toNat_attempt_afterFailures (n : ℕ) :
    (b.afterFailures n).attempt.toNat = min (b.attempt.toNat + n) (2 ^ 32 - 1) := by
  have hlt := b.attempt.toNat_lt
  induction n with
  | zero =>
    rw [afterFailures, Nat.add_zero]
    omega
  | succ n ih =>
    show (saturatingSucc (b.afterFailures n).attempt).toNat = _
    rw [toNat_saturatingSucc, ih]
    omega

lemma toNat_recordFailure : b.recordFailure.1.toNat =
    min (b.baseMs.toNat * 2 ^ min ((saturatingSucc b.attempt).toNat - 1) 16) b.maxMs.toNat :=
  toNat_min_saturatingMul ..

lemma toNat_delayMs (hb : b.attempt = 0) (n : ℕ) :
    (b.delayMs n).toNat = limited 16 b.baseMs.toNat b.maxMs.toNat n := by
  obtain ⟨hbase, hmax⟩ := b.afterFailures_eq (n - 1)
  have hshi : min ((saturatingSucc (b.afterFailures (n - 1)).attempt).toNat - 1) 16 =
      min (n - 1) 16 := by
    rw [toNat_saturatingSucc, toNat_attempt_afterFailures, hb, UInt32.toNat_zero]
    omega
  rw [delayMs, toNat_recordFailure, hbase, hmax, hshi, limited]

lemma new_eq {baseMs maxMs : UInt64} (hbase : 1 ≤ baseMs) (hmax : baseMs ≤ maxMs) :
    new baseMs maxMs = ⟨baseMs, maxMs, 0⟩ := by
  have hone : max baseMs 1 = baseMs := by
    show (if baseMs ≤ 1 then 1 else baseMs) = baseMs
    split_ifs with h
    · exact UInt64.le_antisymm hbase h
    · rfl
  have htop : max maxMs baseMs = maxMs := by
    show (if maxMs ≤ baseMs then baseMs else maxMs) = maxMs
    split_ifs with h
    · exact UInt64.le_antisymm hmax h
    · rfl
  rw [new, hone, htop]

end Backoff

lemma toNat_backoffDelay (policy : RecoveryPolicy) {n : ℕ} (hn : n ≠ 0) :
    (backoffDelay policy n).toNat =
      limited 20 policy.backoffBaseMs.toNat policy.backoffMaxMs.toNat n := by
  rw [backoffDelay, if_neg hn]
  exact toNat_min_saturatingMul ..

/-- The delay is that of the exact schedule. -/
def ExactDelay (baseMs maxMs : UInt64) (n : ℕ) (delayMs : UInt64) : Prop :=
  delayMs.toNat = exact baseMs.toNat maxMs.toNat n

/-- Where each of the three implementations follows the exact schedule, and where all do. -/
theorem exponential_backoffs_exact_iff {baseMs maxMs : UInt64} {n : ℕ} (hbase : 1 ≤ baseMs)
    (hmax : baseMs ≤ maxMs) (hn : 1 ≤ n) (maxRetries : UInt32) (timeoutMs : Option UInt64) :
    (ExactDelay baseMs maxMs n ((BackoffStrategy.exponential baseMs maxMs).delayMs n) ↔
        n ≤ 21 ∨ maxMs.toNat ≤ baseMs.toNat * 2 ^ 20) ∧
      (ExactDelay baseMs maxMs n (backoffDelay ⟨maxRetries, baseMs, maxMs, timeoutMs⟩ n) ↔
        n ≤ 21 ∨ maxMs.toNat ≤ baseMs.toNat * 2 ^ 20) ∧
      (ExactDelay baseMs maxMs n ((Backoff.new baseMs maxMs).delayMs n) ↔
        n ≤ 17 ∨ maxMs.toNat ≤ baseMs.toNat * 2 ^ 16) ∧
      (ExactDelay baseMs maxMs n ((BackoffStrategy.exponential baseMs maxMs).delayMs n) ∧
          ExactDelay baseMs maxMs n (backoffDelay ⟨maxRetries, baseMs, maxMs, timeoutMs⟩ n) ∧
          ExactDelay baseMs maxMs n ((Backoff.new baseMs maxMs).delayMs n) ↔
        n ≤ 17 ∨ maxMs.toNat ≤ baseMs.toNat * 2 ^ 16) := by
  have hpos : baseMs.toNat ≠ 0 := by
    rw [UInt64.le_iff_toNat_le, UInt64.toNat_one] at hbase
    omega
  have hret : ExactDelay baseMs maxMs n ((BackoffStrategy.exponential baseMs maxMs).delayMs n) ↔
      n ≤ 21 ∨ maxMs.toNat ≤ baseMs.toNat * 2 ^ 20 := by
    rw [ExactDelay, BackoffStrategy.toNat_delayMs_exponential]
    exact limited_eq_exact_iff hpos
  have hrec : ExactDelay baseMs maxMs n
      (backoffDelay ⟨maxRetries, baseMs, maxMs, timeoutMs⟩ n) ↔
      n ≤ 21 ∨ maxMs.toNat ≤ baseMs.toNat * 2 ^ 20 := by
    rw [ExactDelay, toNat_backoffDelay _ (by omega)]
    exact limited_eq_exact_iff hpos
  have hsup : ExactDelay baseMs maxMs n ((Backoff.new baseMs maxMs).delayMs n) ↔
      n ≤ 17 ∨ maxMs.toNat ≤ baseMs.toNat * 2 ^ 16 := by
    rw [ExactDelay, Backoff.new_eq hbase hmax, Backoff.toNat_delayMs _ rfl]
    exact limited_eq_exact_iff hpos
  refine ⟨hret, hrec, hsup, ?_⟩
  rw [hret, hrec, hsup]
  constructor
  · exact fun h => h.2.2
  · -- the lowest bound on the exponent decides
    intro h
    have hlat := exact_of_lower_limit (by decide : 16 ≤ 20) h
    exact ⟨hlat, hlat, h⟩

theorem exponential_backoffs_exact_short :
    (ExactDelay 100 5000 3 ((BackoffStrategy.exponential 100 5000).delayMs 3) ↔
      3 ≤ 21 ∨ 5000 ≤ 100 * 2 ^ 20) ∧ exact 100 5000 3 = 400 :=
  ⟨(@exponential_backoffs_exact_iff 100 5000 3 (by decide) (by decide) (by decide) 0 none).1,
    by decide⟩

/-- With a base of one millisecond and a maximum of ten million, the 22nd delay should be more than
half an hour. -/
theorem exponential_backoffs_fall_short :
    exact 1 10000000 22 = 2097152 ∧
      ((BackoffStrategy.exponential 1 10000000).delayMs 22).toNat = 1048576 ∧
      (backoffDelay ⟨30, 1, 10000000, none⟩ 22).toNat = 1048576 ∧
      ((Backoff.new 1 10000000).delayMs 22).toNat = 65536 := by
  decide +kernel

end Aether.Supervisor
