import Aether.Algorithm.Doubling
import Mathlib.Data.List.Basic

/-!
# Retry policies (`aether-retry-policy`)

Attempt numbers are naturals (they never exceed a 32-bit `max_attempts`); the failure counters are
32 bits wide and their `+= 1` is checked, so that `decide` panics (`none`) at the maximum.
-/

namespace Aether.Agent

structure TaskId where
  value : String
  nonempty : value ≠ ""
  deriving DecidableEq

def TaskId.new (value : String) : Option TaskId :=
  if h : value = "" then none else some ⟨value, h⟩

def saturatingMul (a b : ℕ) : UInt64 := UInt64.ofNat (min (a * b) (2 ^ 64 - 1))

inductive BackoffStrategy where
  | none
  | constant (ms : UInt64)
  | linear (baseMs : UInt64)
  | exponential (baseMs maxMs : UInt64)
  deriving DecidableEq

def BackoffStrategy.delayMs (b : BackoffStrategy) (attempt : ℕ) : UInt64 :=
  match b with
  | .none => 0
  | .constant ms => ms
  | .linear baseMs => saturatingMul baseMs.toNat attempt
  | .exponential baseMs maxMs => min (saturatingMul baseMs.toNat (2 ^ min (attempt - 1) 20)) maxMs

inductive Decision where
  | retry (delayMs : UInt64)
  | fallback (fallbackId : TaskId)
  | circuitBreak
  | giveUp
  deriving DecidableEq

structure RetryPolicy where
  maxAttempts : UInt32
  backoff : BackoffStrategy
  fallbacks : List TaskId
  circuitBreakerThreshold : UInt32
  group : Option String
  deriving DecidableEq

structure PolicyEngine where
  policies : List (TaskId × RetryPolicy)
  groupFailures : List (String × UInt32)
  deriving DecidableEq

namespace PolicyEngine

def new : PolicyEngine := ⟨[], []⟩

def register (e : PolicyEngine) (taskId : TaskId) (policy : RetryPolicy) : PolicyEngine :=
  { e with policies := e.policies ++ [(taskId, policy)] }

def policyFor (e : PolicyEngine) (taskId : TaskId) : Option RetryPolicy :=
  (e.policies.find? fun entry => entry.1 = taskId).map Prod.snd

def failures (e : PolicyEngine) (group : String) : UInt32 :=
  ((e.groupFailures.find? fun entry => entry.1 = group).map Prod.snd).getD 0

def bumpList (group : String) : List (String × UInt32) → Option (List (String × UInt32))
  | [] => some [(group, 1)]
  | (g, c) :: rest =>
    if g = group then
      if c.toNat + 1 < 2 ^ 32 then some ((g, c + 1) :: rest) else none
    else (bumpList group rest).map ((g, c) :: ·)

def bump (e : PolicyEngine) (group : String) : Option PolicyEngine :=
  (bumpList group e.groupFailures).map fun l => { e with groupFailures := l }

def resetBreaker (e : PolicyEngine) (group : String) : PolicyEngine :=
  let i := e.groupFailures.findIdx fun entry => entry.1 = group
  { e with groupFailures := e.groupFailures.modify i fun entry => (entry.1, 0) }

def resetAllBreakers (e : PolicyEngine) : PolicyEngine :=
  { e with groupFailures := e.groupFailures.map fun entry => (entry.1, 0) }

def decideAttempt (policy : RetryPolicy) (attempt : ℕ) : Decision :=
  if policy.maxAttempts.toNat ≤ attempt then
    match policy.fallbacks.head? with
    | some fb => .fallback fb
    | none => .giveUp
  else .retry (policy.backoff.delayMs (attempt + 1))

def decide (e : PolicyEngine) (taskId : TaskId) (attempt : ℕ) : Option (Decision × PolicyEngine) :=
  match e.policyFor taskId with
  | none => some (.giveUp, e)
  | some policy =>
    match policy.group with
    | none => some (decideAttempt policy attempt, e)
    | some group =>
      if 0 < policy.circuitBreakerThreshold ∧ policy.circuitBreakerThreshold ≤ e.failures group then
        some (.circuitBreak, e)
      else (e.bump group).map fun e' => (decideAttempt policy attempt, e')

end PolicyEngine

inductive BreakerOp where
  | decide (taskId : TaskId) (attempt : ℕ)
  | resetBreaker (group : String)
  | resetAllBreakers
  deriving DecidableEq

def PolicyEngine.step (e : PolicyEngine) : BreakerOp → Option PolicyEngine
  | .decide taskId attempt => (e.decide taskId attempt).map Prod.snd
  | .resetBreaker group => some (e.resetBreaker group)
  | .resetAllBreakers => some e.resetAllBreakers

/-!
## What a retry decision does

`HasRoom` says how many more failures of a policy's tasks get past the breaker (and past an
overflow), `addFailures` what they do to the counters.
-/

namespace PolicyEngine

def lookup (group : String) (l : List (String × UInt32)) : UInt32 :=
  ((l.find? fun entry => entry.1 = group).map Prod.snd).getD 0

lemma lookup_cons (group g : String) (c : UInt32) (l : List (String × UInt32)) :
    lookup group ((g, c) :: l) = if g = group then c else lookup group l := by
  by_cases h : g = group <;> simp [lookup, h]

lemma bumpList_isSome_iff (group : String) (l : List (String × UInt32)) :
    (bumpList group l).isSome ↔ (lookup group l).toNat + 1 < 2 ^ 32 := by
  induction l with
  | nil => simp [bumpList, lookup]
  | cons entry l ih =>
    obtain ⟨g, c⟩ := entry
    rw [bumpList, lookup_cons]
    by_cases hg : g = group
    · simp [hg]
    · rw [if_neg hg, if_neg hg, Option.isSome_map, ih]

variable {group : String} {e e' : PolicyEngine}

lemma toNat_lookup_of_bumpList {l l' : List (String × UInt32)} (h : bumpList group l = some l')
    (g' : String) : (lookup g' l').toNat = (lookup g' l).toNat + if g' = group then 1 else 0 := by
  induction l generalizing l' with
  | nil =>
    rw [bumpList, Option.some.injEq] at h
    subst h
    rw [lookup_cons]
    by_cases hg : g' = group
    · simp [hg, lookup]
    · simp [hg, Ne.symm hg, lookup]
  | cons entry l ih =>
    obtain ⟨g, c⟩ := entry
    rw [bumpList] at h
    by_cases hg : g = group
    · rw [if_pos hg] at h
      split_ifs at h with hc
      rw [Option.some.injEq] at h
      subst h hg
      rw [lookup_cons, lookup_cons]
      by_cases hg' : g = g'
      · rw [if_pos hg', if_pos hg', if_pos hg'.symm, UInt32.toNat_add]
        exact Nat.mod_eq_of_lt hc
      · rw [if_neg hg', if_neg hg', if_neg (Ne.symm hg'), Nat.add_zero]
    · rw [if_neg hg, Option.map_eq_some_iff] at h
      obtain ⟨l₁, hl₁, rfl⟩ := h
      rw [lookup_cons, lookup_cons]
      by_cases hg' : g = g'
      · rw [if_pos hg', if_pos hg', if_neg (fun h => hg (hg'.trans h)), Nat.add_zero]
      · rw [if_neg hg', if_neg hg', ih hl₁]

def counts (e : PolicyEngine) (group : String) : ℕ := (e.failures group).toNat

lemma bump_eq_none (h : 2 ^ 32 ≤ e.counts group + 1) : e.bump group = none := by
  rw [bump, Option.map_eq_none_iff, ← Option.not_isSome_iff_eq_none, bumpList_isSome_iff]
  exact not_lt.mpr h

lemma exists_bump (h : e.counts group + 1 < 2 ^ 32) : ∃ e', e.bump group = some e' := by
  have hsome : (bumpList group e.groupFailures).isSome := (bumpList_isSome_iff _ _).mpr h
  obtain ⟨l, hl⟩ := Option.isSome_iff_exists.mp hsome
  exact ⟨_, by rw [bump, hl, Option.map_some]⟩

lemma policies_bump (h : e.bump group = some e') : e'.policies = e.policies := by
  obtain ⟨l, -, rfl⟩ := Option.map_eq_some_iff.mp h
  rfl

lemma counts_bump (h : e.bump group = some e') :
    e'.counts = Function.update e.counts group (e.counts group + 1) := by
  obtain ⟨l, hl, rfl⟩ := Option.map_eq_some_iff.mp h
  funext g
  have hcnt := toNat_lookup_of_bumpList hl g
  by_cases hg : g = group
  · subst hg
    rw [if_pos rfl] at hcnt
    rw [Function.update_self]
    exact hcnt
  · rw [if_neg hg, Nat.add_zero] at hcnt
    rw [Function.update_of_ne hg]
    exact hcnt

end PolicyEngine

def RetryPolicy.HasRoom (p : RetryPolicy) (counts : String → ℕ) (n : ℕ) : Prop :=
  ∀ g, p.group = some g → counts g + n < 2 ^ 32 ∧
    (0 < p.circuitBreakerThreshold → counts g + n ≤ p.circuitBreakerThreshold.toNat)

def RetryPolicy.addFailures (p : RetryPolicy) (counts : String → ℕ) (n : ℕ) : String → ℕ :=
  match p.group with
  | none => counts
  | some g => Function.update counts g (counts g + n)

namespace RetryPolicy

variable {p : RetryPolicy}

lemma HasRoom.mono {counts counts' : String → ℕ} {n m : ℕ} (h : p.HasRoom counts' m)
    (hc : ∀ g, counts g ≤ counts' g) (hnm : n ≤ m) : p.HasRoom counts n := by
  intro g hg
  obtain ⟨hlt, hthr⟩ := h g hg
  have hle := hc g
  exact ⟨by omega, fun h0 => by have := hthr h0; omega⟩

lemma addFailures_apply {g : String} (hg : p.group = some g) (counts : String → ℕ) (n : ℕ) :
    p.addFailures counts n g = counts g + n := by
  rw [addFailures, hg]
  exact Function.update_self ..

lemma addFailures_of_ne {g : String} (hg : p.group ≠ some g) (counts : String → ℕ) (n : ℕ) :
    p.addFailures counts n g = counts g := by
  unfold addFailures
  cases hgro : p.group with
  | none => rfl
  | some g' =>
    have hne : g ≠ g' := fun heq => hg (heq ▸ hgro)
    exact Function.update_of_ne hne ..

lemma le_addFailures (p : RetryPolicy) (counts : String → ℕ) (n : ℕ) (g : String) :
    counts g ≤ p.addFailures counts n g := by
  by_cases hg : p.group = some g
  · rw [addFailures_apply hg]
    exact Nat.le_add_right _ _
  · rw [addFailures_of_ne hg]

lemma addFailures_addFailures (p : RetryPolicy) (counts : String → ℕ) (m n : ℕ) :
    p.addFailures (p.addFailures counts m) n = p.addFailures counts (m + n) := by
  unfold addFailures
  cases p.group with
  | none => rfl
  | some g => simp [Nat.add_assoc]

lemma hasRoom_addFailures_iff (p : RetryPolicy) (counts : String → ℕ) (n : ℕ) :
    p.HasRoom (p.addFailures counts 1) n ↔ p.HasRoom counts (n + 1) := by
  unfold HasRoom
  refine forall₂_congr fun g hg => ?_
  rw [addFailures_apply hg, Nat.add_assoc, Nat.add_comm 1 n]

end RetryPolicy

namespace PolicyEngine

variable {e : PolicyEngine} {t : TaskId} {p : RetryPolicy}

lemma decide_of_hasRoom (hp : e.policyFor t = some p) (hroom : p.HasRoom e.counts 1)
    (attempt : ℕ) :
    ∃ e', e.decide t attempt = some (decideAttempt p attempt, e') ∧ e'.policies = e.policies ∧
      e'.counts = p.addFailures e.counts 1 := by
  cases hg : p.group with
  | none => exact ⟨e, by simp only [decide, hp, hg], rfl, by rw [RetryPolicy.addFailures, hg]⟩
  | some g =>
    obtain ⟨hlt, hthr⟩ := hroom g hg
    obtain ⟨e', he'⟩ := exists_bump hlt
    have hcl : ¬ (0 < p.circuitBreakerThreshold ∧
        p.circuitBreakerThreshold ≤ e.failures g) := by
      rintro ⟨h0, hle⟩
      have hroom := hthr h0
      have hle' : p.circuitBreakerThreshold.toNat ≤ e.counts g := UInt32.le_iff_toNat_le.mp hle
      omega
    refine ⟨e', ?_, policies_bump he', ?_⟩
    · simp only [decide, hp, hg]
      rw [if_neg hcl, he', Option.map_some]
    · rw [counts_bump he', RetryPolicy.addFailures, hg]

lemma decide_of_not_hasRoom (hp : e.policyFor t = some p) (hroom : ¬ p.HasRoom e.counts 1)
    (attempt : ℕ) : e.decide t attempt = none ∨ e.decide t attempt = some (.circuitBreak, e) := by
  obtain ⟨g, hg⟩ : ∃ g, p.group = some g := by
    by_contra hno
    exact hroom fun g hg => absurd ⟨g, hg⟩ hno
  by_cases hopen : 0 < p.circuitBreakerThreshold ∧ p.circuitBreakerThreshold ≤ e.failures g
  · right
    simp only [decide, hp, hg]
    rw [if_pos hopen]
  · left
    have hover : 2 ^ 32 ≤ e.counts g + 1 := by
      by_contra hlt
      refine hroom fun g' hg' => ?_
      obtain rfl : g' = g := Option.some.inj (hg'.symm.trans hg)
      refine ⟨not_le.mp hlt, fun h0 => ?_⟩
      have hlow : e.failures g' < p.circuitBreakerThreshold :=
        UInt32.not_le.mp fun hle => hopen ⟨h0, hle⟩
      exact UInt32.lt_iff_toNat_lt.mp hlow
    simp only [decide, hp, hg]
    rw [if_neg hopen, bump_eq_none hover, Option.map_none]

lemma decide_of_policyFor_eq_none (hp : e.policyFor t = none) (attempt : ℕ) :
    e.decide t attempt = some (.giveUp, e) := by
  simp only [decide, hp]

end PolicyEngine

/-!
## The delays of retries

`delay_ms` counts retries from 1, and `decide` calls it with the number of the next attempt, which
is one more than the number of the retry.
-/

open Doubling

lemma toNat_saturatingMul (a b : ℕ) : (saturatingMul a b).toNat = min (a * b) (2 ^ 64 - 1) := by
  have hlt : min (a * b) (2 ^ 64 - 1) < 2 ^ 64 := by omega
  rw [saturatingMul]
  exact UInt64.toNat_ofNat_of_lt hlt

lemma toNat_min (a b : UInt64) : (min a b).toNat = min a.toNat b.toNat := by
  show (if a ≤ b then a else b).toNat = min a.toNat b.toNat
  split_ifs with h
  · rw [UInt64.le_iff_toNat_le] at h
    rw [min_eq_left h]
  · rw [UInt64.le_iff_toNat_le, not_le] at h
    rw [min_eq_right h.le]

lemma toNat_min_saturatingMul (a b : ℕ) (cap : UInt64) :
    (min (saturatingMul a b) cap).toNat = min (a * b) cap.toNat := by
  have hcap : cap.toNat ≤ 2 ^ 64 - 1 := by
    have := cap.toNat_lt
    omega
  rw [toNat_min, toNat_saturatingMul, min_assoc, min_eq_right hcap]

namespace BackoffStrategy

lemma toNat_delayMs_exponential (baseMs maxMs : UInt64) (attempt : ℕ) :
    ((exponential baseMs maxMs).delayMs attempt).toNat =
      limited 20 baseMs.toNat maxMs.toNat attempt :=
  toNat_min_saturatingMul ..

/-- The delays of the retries `k` and `k + 1` are the same. -/
def Level : BackoffStrategy → ℕ → Prop
  | none, _ => True
  | constant _, _ => True
  | linear baseMs, k => baseMs = 0 ∨ 2 ^ 64 - 1 ≤ baseMs.toNat * k
  | exponential baseMs maxMs, k =>
    baseMs = 0 ∨ k = 0 ∨ 20 < k ∨ maxMs.toNat ≤ baseMs.toNat * 2 ^ (k - 1)

lemma delayMs_linear_succ_eq_iff (baseMs : UInt64) (k : ℕ) :
    (linear baseMs).delayMs (k + 1) = (linear baseMs).delayMs k ↔ (linear baseMs).Level k := by
  simp only [delayMs, Level]
  rw [← UInt64.toNat_inj, toNat_saturatingMul, toNat_saturatingMul, Nat.mul_succ,
    ← UInt64.toNat_inj, UInt64.toNat_zero]
  omega

lemma delayMs_exponential_succ_eq_iff (baseMs maxMs : UInt64) (k : ℕ) :
    (exponential baseMs maxMs).delayMs (k + 1) = (exponential baseMs maxMs).delayMs k ↔
      (exponential baseMs maxMs).Level k := by
  rw [← UInt64.toNat_inj, toNat_delayMs_exponential, toNat_delayMs_exponential,
    limited_succ_eq_iff, Level, ← UInt64.toNat_inj, UInt64.toNat_zero]

lemma delayMs_succ_eq_iff (b : BackoffStrategy) (k : ℕ) :
    b.delayMs (k + 1) = b.delayMs k ↔ b.Level k := by
  cases b with
  | none => exact iff_of_true rfl trivial
  | constant ms => exact iff_of_true rfl trivial
  | linear baseMs => exact delayMs_linear_succ_eq_iff baseMs k
  | exponential baseMs maxMs => exact delayMs_exponential_succ_eq_iff baseMs maxMs k

end BackoffStrategy

namespace PolicyEngine

lemma delay_of_decide {e e' : PolicyEngine} {t : TaskId} {k : ℕ} {delayMs : UInt64}
    (h : e.decide t k = some (.retry delayMs, e')) :
    ∃ p, e.policyFor t = some p ∧ k < p.maxAttempts.toNat ∧
      delayMs = p.backoff.delayMs (k + 1) := by
  cases hp : e.policyFor t with
  | none =>
    rw [decide_of_policyFor_eq_none hp] at h
    cases h
  | some p =>
    have hdec : decideAttempt p k = .retry delayMs := by
      by_cases hroom : p.HasRoom e.counts 1
      · obtain ⟨e₁, he₁, -, -⟩ := decide_of_hasRoom hp hroom k
        rw [he₁, Option.some.injEq, Prod.mk.injEq] at h
        exact h.1
      · rcases decide_of_not_hasRoom hp hroom k with hnone | hbre
        · rw [hnone] at h
          cases h
        · rw [hbre] at h
          cases h
    refine ⟨p, rfl, ?_⟩
    unfold decideAttempt at hdec
    split_ifs at hdec with hlast
    · split at hdec <;> cases hdec
    · exact ⟨Nat.lt_of_not_le hlast, (Decision.retry.inj hdec).symm⟩

/-- The retry that is decided after the failure of attempt `k` waits for the delay of the `k`-th
retry exactly if the strategy is level there. -/
theorem decide_delay_eq_iff {e e' : PolicyEngine} {t : TaskId} {p : RetryPolicy} {k : ℕ}
    {delayMs : UInt64} (hp : e.policyFor t = some p)
    (hdecide : e.decide t k = some (.retry delayMs, e')) :
    delayMs = p.backoff.delayMs k ↔ p.backoff.Level k := by
  obtain ⟨p', hp', -, rfl⟩ := delay_of_decide hdecide
  obtain rfl : p = p' := Option.some.inj (hp.symm.trans hp')
  exact p.backoff.delayMs_succ_eq_iff k

def single (t : TaskId) (backoff : BackoffStrategy) : PolicyEngine :=
  new.register t { maxAttempts := 3, backoff, fallbacks := [], circuitBreakerThreshold := 0,
                   group := none }

def syncTask : TaskId := ⟨"sync", by decide⟩

theorem decide_delay_eq_iff_capped :
    (5000 : UInt64) = (BackoffStrategy.exponential 5000 5000).delayMs 1 ↔
      (BackoffStrategy.exponential 5000 5000).Level 1 :=
  have hdec : (single syncTask (.exponential 5000 5000)).decide syncTask 1 =
      some (.retry 5000, single syncTask (.exponential 5000 5000)) := by
    decide +kernel
  decide_delay_eq_iff rfl hdec

/-- The first retry waits for the delay of the second one. -/
theorem decide_skips_first_delay :
    (single syncTask (.exponential 100 5000)).decide syncTask 1 =
        some (.retry 200, single syncTask (.exponential 100 5000)) ∧
      (BackoffStrategy.exponential 100 5000).delayMs 1 = 100 := by
  decide +kernel

end PolicyEngine

end Aether.Agent
