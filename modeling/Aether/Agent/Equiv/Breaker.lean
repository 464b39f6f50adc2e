import Aether.Agent.RetryPolicy
import Aether.Algorithm.Recent
import Aether.Algorithm.Run

/-!
# The law of the circuit breakers

`decide` has no counters for tasks without a group, and does not count the failures that it answers
with `CircuitBreak`.
-/

namespace Aether.Agent

open List Option

inductive Breaker where
  | group (name : String)
  | task (taskId : TaskId)
  deriving DecidableEq

def RetryPolicy.breaker (p : RetryPolicy) (t : TaskId) : Breaker :=
  match p.group with
  | some g => .group g
  | none => .task t

lemma RetryPolicy.breaker_of_group {p : RetryPolicy} {g : String} (hg : p.group = some g)
    (t : TaskId) : p.breaker t = .group g := by
  rw [breaker, hg]

namespace BreakerOp

def reports (engine : PolicyEngine) (b : Breaker) : BreakerOp → Bool
  | .decide t _ => (engine.policyFor t).any fun p => p.breaker t = b
  | .resetBreaker _ => false
  | .resetAllBreakers => false

def resets (b : Breaker) : BreakerOp → Bool
  | .decide _ _ => false
  | .resetBreaker g => b = .group g
  | .resetAllBreakers => true

end BreakerOp

def reported (engine : PolicyEngine) (b : Breaker) (ops : List BreakerOp) : ℕ :=
  Recent.countSince (BreakerOp.resets b) (BreakerOp.reports engine b) ops

/-- The failures reported since the last reset reach the positive threshold of the task. -/
def Tripped (engine : PolicyEngine) (ops : List BreakerOp) (t : TaskId) : Prop :=
  ∃ p, engine.policyFor t = some p ∧ 0 < p.circuitBreakerThreshold.toNat ∧
    p.circuitBreakerThreshold.toNat ≤ reported engine (p.breaker t) ops

/-- Only these tasks are decided about. -/
def CallsFor (tasks : Set TaskId) (ops : List BreakerOp) : Prop :=
  ∀ t attempt, .decide t attempt ∈ ops → t ∈ tasks

/-- No positive threshold is without a group, and those of a group are the same. -/
def Uniform (engine : PolicyEngine) (tasks : Set TaskId) : Prop :=
  ∀ t ∈ tasks, ∀ p, engine.policyFor t = some p → 0 < p.circuitBreakerThreshold.toNat →
    ∃ g, p.group = some g ∧ ∀ t' ∈ tasks, ∀ p', engine.policyFor t' = some p' →
      p'.group = some g → 0 < p'.circuitBreakerThreshold.toNat →
        p'.circuitBreakerThreshold = p.circuitBreakerThreshold

namespace PolicyEngine

variable {e e' : PolicyEngine} {t : TaskId} {p : RetryPolicy} {g : String} {attempt : ℕ}

lemma lookup_modify (g g' : String) (l : List (String × UInt32)) :
    lookup g' (l.modify (l.findIdx fun entry => entry.1 = g) fun entry => (entry.1, 0)) =
      if g' = g then 0 else lookup g' l := by
  induction l with
  | nil => simp [lookup]
  | cons entry l ih =>
    obtain ⟨name, c⟩ := entry
    rw [findIdx_cons]
    by_cases hname : name = g
    · subst hname
      simp only [decide_true, cond_true, modify_zero_cons, lookup_cons]
      by_cases hg' : name = g'
      · simp [hg']
      · simp [hg', Ne.symm hg']
    · simp only [hname, decide_false, cond_false, modify_succ_cons, lookup_cons, ih]
      by_cases hg' : name = g'
      · subst hg'
        simp [hname]
      · simp [hg']

lemma counts_resetBreaker (e : PolicyEngine) (g : String) :
    (e.resetBreaker g).counts = Function.update e.counts g 0 := by
  funext g'
  have hlook := congrArg UInt32.toNat (lookup_modify g g' e.groupFailures)
  by_cases hg : g' = g
  · subst hg
    rw [if_pos rfl] at hlook
    rw [Function.update_self]
    exact hlook
  · rw [if_neg hg] at hlook
    rw [Function.update_of_ne hg]
    exact hlook

lemma counts_resetAllBreakers (e : PolicyEngine) (g : String) :
    e.resetAllBreakers.counts g = 0 := by
  have hlook : ∀ l : List (String × UInt32),
      lookup g (l.map fun entry => (entry.1, 0)) = 0 := by
    intro l
    induction l with
    | nil => rfl
    | cons entry l ih =>
      rw [map_cons, lookup_cons, ih]
      exact ite_self 0
  exact congrArg UInt32.toNat (hlook e.groupFailures)

def IsOpen (p : RetryPolicy) (counts : String → ℕ) : Prop :=
  ∃ g, p.group = some g ∧ 0 < p.circuitBreakerThreshold.toNat ∧
    p.circuitBreakerThreshold.toNat ≤ counts g

lemma decideAttempt_ne_circuitBreak (p : RetryPolicy) (attempt : ℕ) :
    decideAttempt p attempt ≠ .circuitBreak := by
  unfold decideAttempt
  split_ifs
  · cases p.fallbacks.head? with
    | none => exact nofun
    | some fb => exact nofun
  · exact nofun

lemma decide_of_isOpen (hp : e.policyFor t = some p) (hopen : IsOpen p e.counts) (attempt : ℕ) :
    e.decide t attempt = some (.circuitBreak, e) := by
  obtain ⟨g, hg, hpos, hle⟩ := hopen
  have htest : 0 < p.circuitBreakerThreshold ∧ p.circuitBreakerThreshold ≤ e.failures g :=
    ⟨UInt32.lt_iff_toNat_lt.mpr hpos, UInt32.le_iff_toNat_le.mpr hle⟩
  simp only [PolicyEngine.decide, hp, hg]
  exact if_pos htest

lemma decide_of_not_isOpen (hp : e.policyFor t = some p) (hopen : ¬ IsOpen p e.counts)
    {d : Decision} (h : e.decide t attempt = some (d, e')) :
    d ≠ .circuitBreak ∧ e'.policies = e.policies ∧ e'.counts = p.addFailures e.counts 1 := by
  cases hg : p.group with
  | none =>
    simp only [PolicyEngine.decide, hp, hg, some.injEq, Prod.mk.injEq] at h
    obtain ⟨rfl, rfl⟩ := h
    exact ⟨decideAttempt_ne_circuitBreak p attempt, rfl, by rw [RetryPolicy.addFailures, hg]⟩
  | some g =>
    have htest : ¬ (0 < p.circuitBreakerThreshold ∧ p.circuitBreakerThreshold ≤ e.failures g) :=
      fun h => hopen ⟨g, hg, UInt32.lt_iff_toNat_lt.mp h.1, UInt32.le_iff_toNat_le.mp h.2⟩
    simp only [PolicyEngine.decide, hp, hg] at h
    rw [if_neg htest, map_eq_some_iff] at h
    obtain ⟨e₁, hbump, heq⟩ := h
    cases heq
    refine ⟨decideAttempt_ne_circuitBreak p attempt, policies_bump hbump, ?_⟩
    rw [counts_bump hbump, RetryPolicy.addFailures, hg]

lemma decide_eq_circuitBreak_iff :
    (∃ e', e.decide t attempt = some (.circuitBreak, e')) ↔
      ∃ p, e.policyFor t = some p ∧ IsOpen p e.counts := by
  cases hp : e.policyFor t with
  | none =>
    rw [decide_of_policyFor_eq_none hp]
    refine iff_of_false ?_ ?_
    · rintro ⟨e', h⟩
      cases h
    · rintro ⟨p, h, -⟩
      cases h
  | some p =>
    by_cases hopen : IsOpen p e.counts
    · exact iff_of_true ⟨e, decide_of_isOpen hp hopen attempt⟩ ⟨p, rfl, hopen⟩
    · refine iff_of_false ?_ ?_
      · rintro ⟨e', h⟩
        exact (decide_of_not_isOpen hp hopen h).1 rfl
      · rintro ⟨p', hp', hopen'⟩
        cases hp'
        exact hopen hopen'

variable {op : BreakerOp} {ops : List BreakerOp}

lemma policies_step (h : e.step op = some e') : e'.policies = e.policies := by
  cases op with
  | decide t attempt =>
    obtain ⟨⟨d, e₁⟩, hdec, rfl⟩ := map_eq_some_iff.mp h
    cases hp : e.policyFor t with
    | none =>
      rw [decide_of_policyFor_eq_none hp] at hdec
      cases hdec
      rfl
    | some p =>
      by_cases hopen : IsOpen p e.counts
      · rw [decide_of_isOpen hp hopen] at hdec
        cases hdec
        rfl
      · exact (decide_of_not_isOpen hp hopen hdec).2.1
  | resetBreaker g =>
    cases h
    rfl
  | resetAllBreakers =>
    cases h
    rfl

lemma policyFor_congr (h : e'.policies = e.policies) : e'.policyFor = e.policyFor := by
  funext t
  rw [policyFor, h, policyFor]

lemma policies_exec {e₀ : PolicyEngine} (h : Run.exec step e₀ ops = some e) :
    e.policies = e₀.policies := by
  induction ops using reverseRecOn generalizing e with
  | nil =>
    cases h
    rfl
  | append_singleton ops op ih =>
    rw [Run.exec_concat] at h
    obtain ⟨e₁, h₁, hstep⟩ := bind_eq_some_iff.mp h
    rw [policies_step hstep, ih h₁]

lemma reported_concat (engine : PolicyEngine) (b : Breaker) (ops : List BreakerOp)
    (op : BreakerOp) : reported engine b (ops ++ [op]) =
      if op.resets b then 0
      else reported engine b ops + if op.reports engine b then 1 else 0 :=
  Recent.countSince_concat op

structure Follows (engine : PolicyEngine) (tasks : Set TaskId) (n : ℕ) (count : ℕ) (g : String) :
    Prop where
  le : count ≤ n
  reached : count < n → ∀ t ∈ tasks, ∀ p, engine.policyFor t = some p → p.group = some g →
    0 < p.circuitBreakerThreshold.toNat → p.circuitBreakerThreshold.toNat ≤ count

variable {engine : PolicyEngine} {tasks : Set TaskId}

lemma Follows.succ {n count : ℕ} (h : Follows engine tasks n count g) :
    Follows engine tasks (n + 1) (count + 1) g := by
  refine ⟨Nat.succ_le_succ h.le, fun hlt t ht p hp hg hpos => ?_⟩
  have hle := h.reached (Nat.lt_of_succ_lt_succ hlt) t ht p hp hg hpos
  omega

lemma Follows.succ_of_isOpen (huni : Uniform engine tasks) (ht : t ∈ tasks)
    (hp : engine.policyFor t = some p) (hg : p.group = some g) {counts : String → ℕ}
    (hopen : IsOpen p counts) {n : ℕ} (h : Follows engine tasks n (counts g) g) :
    Follows engine tasks (n + 1) (counts g) g := by
  obtain ⟨g', hg', hpos, hle⟩ := hopen
  obtain rfl : g' = g := some.inj (hg'.symm.trans hg)
  refine ⟨h.le.trans (Nat.le_succ n), fun _ t' ht' p' hp' hg'' hpos' => ?_⟩
  obtain ⟨g'', hg₁, hsame⟩ := huni t ht p hp hpos
  obtain rfl : g'' = g' := some.inj (hg₁.symm.trans hg')
  rw [hsame t' ht' p' hp' hg'' hpos']
  exact hle

/-- **Step lemma**: with uniform thresholds every call keeps the counters in step. -/
theorem follows_step (huni : Uniform engine tasks)
    (hpols : e.policyFor = engine.policyFor)
    (hop : ∀ t attempt, op = .decide t attempt → t ∈ tasks) (hstep : e.step op = some e')
    (h : ∀ g, Follows engine tasks (reported engine (.group g) ops) (e.counts g) g) (g : String) :
    Follows engine tasks (reported engine (.group g) (ops ++ [op])) (e'.counts g) g := by
  have hg := h g
  rw [reported_concat]
  cases op with
  | decide t attempt =>
    obtain ⟨⟨d, e₁⟩, hdec, rfl⟩ := map_eq_some_iff.mp hstep
    show Follows engine tasks (reported engine (.group g) ops +
      if (engine.policyFor t).any fun p => p.breaker t = .group g then 1 else 0) (e₁.counts g) g
    cases hp : e.policyFor t with
    | none =>
      rw [decide_of_policyFor_eq_none hp] at hdec
      cases hdec
      rw [← hpols, hp]
      exact hg
    | some p =>
      have hp' : engine.policyFor t = some p := by rw [← hpols, hp]
      have hrep : (engine.policyFor t).any (fun p => p.breaker t = .group g) = true ↔
          p.group = some g := by
        rw [hp', any_some, decide_eq_true_eq, RetryPolicy.breaker]
        cases p.group with
        | none => simp
        | some g₀ => simp
      by_cases hgro : p.group = some g
      · rw [if_pos (hrep.mpr hgro)]
        by_cases hopen : IsOpen p e.counts
        · rw [decide_of_isOpen hp hopen] at hdec
          cases hdec
          exact hg.succ_of_isOpen huni (hop t attempt rfl) hp' hgro hopen
        · rw [(decide_of_not_isOpen hp hopen hdec).2.2, RetryPolicy.addFailures_apply hgro]
          exact hg.succ
      · -- another group, or none
        rw [if_neg (mt hrep.mp hgro), Nat.add_zero]
        by_cases hopen : IsOpen p e.counts
        · rw [decide_of_isOpen hp hopen] at hdec
          cases hdec
          exact hg
        · rw [(decide_of_not_isOpen hp hopen hdec).2.2, RetryPolicy.addFailures_of_ne hgro]
          exact hg
  | resetBreaker g₀ =>
    cases hstep
    rw [counts_resetBreaker]
    by_cases heq : g = g₀
    · subst heq
      rw [Function.update_self, if_pos (by simp [BreakerOp.resets])]
      exact ⟨le_rfl, fun hlt => absurd hlt (lt_irrefl 0)⟩
    · rw [Function.update_of_ne heq, if_neg (by simp [BreakerOp.resets, heq])]
      exact hg
  | resetAllBreakers =>
    cases hstep
    rw [counts_resetAllBreakers]
    exact ⟨le_rfl, fun hlt => absurd hlt (lt_irrefl 0)⟩

/-- **Run lemma**. -/
theorem run_counts (hemp : engine.groupFailures = []) (huni : Uniform engine tasks)
    (hcal : CallsFor tasks ops) (hrun : Run.exec step engine ops = some e) (g : String) :
    Follows engine tasks (reported engine (.group g) ops) (e.counts g) g := by
  induction ops using reverseRecOn generalizing e g with
  | nil =>
    cases hrun
    have hzero : engine.counts g = 0 := by
      rw [counts, failures, hemp]
      rfl
    rw [hzero]
    exact ⟨le_rfl, fun hlt => absurd hlt (lt_irrefl 0)⟩
  | append_singleton ops op ih =>
    rw [Run.exec_concat] at hrun
    obtain ⟨e₁, hrun₁, hstep⟩ := bind_eq_some_iff.mp hrun
    have hpre : CallsFor tasks ops := fun t attempt ht =>
      hcal t attempt (mem_append_left _ ht)
    refine follows_step huni (policyFor_congr (policies_exec hrun₁)) ?_ hstep
      (fun g' => ih hpre hrun₁ g') g
    rintro t attempt rfl
    exact hcal t attempt (mem_append_right _ (mem_singleton.mpr rfl))

lemma exec_replicate_of_group_eq_none (hp : e.policyFor t = some p) (hg : p.group = none)
    (n : ℕ) : Run.exec step e (List.replicate n (.decide t 1)) = some e := by
  have hstep : e.step (.decide t 1) = some e := by
    simp only [step, PolicyEngine.decide, hp, hg, map_some]
  induction n with
  | zero => rfl
  | succ n ih =>
    rw [replicate_succ, Run.exec, hstep]
    exact ih

lemma exec_replicate (hemp : engine.groupFailures = []) (hp : engine.policyFor t = some p)
    (hg : p.group = some g) (hpos : 0 < p.circuitBreakerThreshold.toNat) (n : ℕ) :
    ∃ e, Run.exec step engine (List.replicate n (.decide t 1)) = some e ∧
      e.counts g = min n p.circuitBreakerThreshold.toNat := by
  induction n with
  | zero =>
    refine ⟨engine, rfl, ?_⟩
    rw [counts, failures, hemp, Nat.zero_min]
    rfl
  | succ n ih =>
    obtain ⟨e, hrun, hcnt⟩ := ih
    have hpe : e.policyFor t = some p := by rw [policyFor_congr (policies_exec hrun), hp]
    have hnext (e' : PolicyEngine) (hstep : e.step (.decide t 1) = some e') :
        Run.exec step engine (replicate (n + 1) (.decide t 1)) = some e' := by
      rw [replicate_succ', Run.exec_concat, hrun]
      exact hstep
    by_cases hfull : p.circuitBreakerThreshold.toNat ≤ n
    · have hopen : IsOpen p e.counts := ⟨g, hg, hpos, by omega⟩
      refine ⟨e, hnext e ?_, by omega⟩
      rw [step, decide_of_isOpen hpe hopen]
      rfl
    · have hroom : p.HasRoom e.counts 1 := by
        intro g' hg'
        obtain rfl : g' = g := some.inj (hg'.symm.trans hg)
        have hlt := p.circuitBreakerThreshold.toNat_lt
        exact ⟨by omega, fun _ => by omega⟩
      obtain ⟨e', hdec, -, hcts⟩ := decide_of_hasRoom hpe hroom 1
      refine ⟨e', hnext e' ?_, ?_⟩
      · rw [step, hdec]
        rfl
      · rw [hcts, RetryPolicy.addFailures_apply hg]
        omega

lemma reported_replicate (hp : engine.policyFor t = some p) (n : ℕ) :
    reported engine (p.breaker t) (List.replicate n (.decide t 1)) = n := by
  refine Recent.countSince_replicate rfl ?_ n
  simp [BreakerOp.reports, hp]

lemma callsFor_replicate (ht : t ∈ tasks) (n : ℕ) :
    CallsFor tasks (List.replicate n (.decide t 1)) := by
  intro t' attempt hmem
  cases eq_of_mem_replicate hmem
  exact ht

lemma exists_run_of_threshold_lt (hemp : engine.groupFailures = []) {t' : TaskId}
    {p' : RetryPolicy} (hp : engine.policyFor t = some p) (hp' : engine.policyFor t' = some p')
    (hg : p.group = some g) (hg' : p'.group = some g) (hpos : 0 < p.circuitBreakerThreshold.toNat)
    (hlt : p.circuitBreakerThreshold.toNat < p'.circuitBreakerThreshold.toNat) :
    ∃ e, Run.exec step engine
        (List.replicate p'.circuitBreakerThreshold.toNat (.decide t 1)) = some e ∧
      ¬ (∃ e', e.decide t' 1 = some (.circuitBreak, e')) ∧
      Tripped engine (List.replicate p'.circuitBreakerThreshold.toNat (.decide t 1)) t' := by
  obtain ⟨e, hrun, hcnt⟩ := exec_replicate hemp hp hg hpos p'.circuitBreakerThreshold.toNat
  refine ⟨e, hrun, ?_, p', hp', by omega, ?_⟩
  · rw [decide_eq_circuitBreak_iff, policyFor_congr (policies_exec hrun)]
    rintro ⟨p₁, hp₁, g₁, hg₁, -, hle⟩
    obtain rfl : p' = p₁ := some.inj (hp'.symm.trans hp₁)
    obtain rfl : g = g₁ := some.inj (hg'.symm.trans hg₁)
    omega
  · have hbre : p'.breaker t' = p.breaker t := by
      rw [RetryPolicy.breaker_of_group hg, RetryPolicy.breaker_of_group hg']
    rw [hbre, reported_replicate hp]

/-- **When the breakers keep their law**: over all runs of calls for some tasks, `decide` answers
`CircuitBreak` exactly for those that are tripped, iff the thresholds of these tasks are uniform. -/
theorem breaker_law_iff (policies : List (TaskId × RetryPolicy)) (tasks : Set TaskId) :
    (∀ ops, CallsFor tasks ops → ∀ e, Run.exec step ⟨policies, []⟩ ops = some e →
        ∀ t ∈ tasks, ∀ attempt, (∃ e', e.decide t attempt = some (.circuitBreak, e')) ↔
          Tripped ⟨policies, []⟩ ops t) ↔
      Uniform ⟨policies, []⟩ tasks := by
  constructor
  · intro hlaw t ht p hp hpos
    cases hg : p.group with
    | none =>
      -- as many failures as the threshold, of which none is counted
      have hrun := exec_replicate_of_group_eq_none hp hg p.circuitBreakerThreshold.toNat
      have htri : Tripped ⟨policies, []⟩
          (replicate p.circuitBreakerThreshold.toNat (.decide t 1)) t :=
        ⟨p, hp, hpos, (reported_replicate hp _).ge⟩
      have hbre := (hlaw _ (callsFor_replicate ht _) _ hrun t ht 1).mpr htri
      obtain ⟨p', hp', g, hg', -⟩ := decide_eq_circuitBreak_iff.mp hbre
      cases hp.symm.trans hp'
      rw [hg] at hg'
      cases hg'
    | some g =>
      refine ⟨g, rfl, fun t' ht' p' hp' hg' hpos' => ?_⟩
      rcases lt_trichotomy p'.circuitBreakerThreshold.toNat p.circuitBreakerThreshold.toNat with
        hlt | heq | hlt
      · obtain ⟨e, hrun, hno, htri⟩ :=
          exists_run_of_threshold_lt rfl hp' hp hg' hg hpos' hlt
        exact absurd ((hlaw _ (callsFor_replicate ht' _) e hrun t ht 1).mpr htri) hno
      · exact UInt32.toNat_inj.mp heq
      · obtain ⟨e, hrun, hno, htri⟩ :=
          exists_run_of_threshold_lt rfl hp hp' hg hg' hpos hlt
        exact absurd ((hlaw _ (callsFor_replicate ht _) e hrun t' ht' 1).mpr htri) hno
  · intro huni ops hcal e hrun t ht attempt
    have hpols := policyFor_congr (policies_exec hrun)
    rw [decide_eq_circuitBreak_iff, hpols]
    constructor
    · rintro ⟨p, hp, g, hg, hpos, hle⟩
      have hfol := run_counts rfl huni hcal hrun g
      refine ⟨p, hp, hpos, ?_⟩
      rw [RetryPolicy.breaker_of_group hg]
      exact hle.trans hfol.le
    · rintro ⟨p, hp, hpos, hle⟩
      obtain ⟨g, hg, -⟩ := huni t ht p hp hpos
      have hfol := run_counts rfl huni hcal hrun g
      refine ⟨p, hp, g, hg, hpos, ?_⟩
      rw [RetryPolicy.breaker_of_group hg] at hle
      by_cases hlt : e.counts g < reported ⟨policies, []⟩ (.group g) ops
      · exact hfol.reached hlt t ht p hp hg hpos
      · omega

def fetchTask : TaskId := ⟨"fetch", by decide⟩

def fetchEngine : PolicyEngine := ⟨[(fetchTask, ⟨3, .none, [], 1, none⟩)], []⟩

/-- One failure was reported for the task and its threshold is one, but its second failure is
retried. -/
theorem ungrouped_breaker_never_trips :
    Tripped fetchEngine [.decide fetchTask 1] fetchTask ∧
      Run.exec step fetchEngine [.decide fetchTask 1] = some fetchEngine ∧
      fetchEngine.decide fetchTask 2 = some (.retry 0, fetchEngine) := by
  refine ⟨⟨⟨3, .none, [], 1, none⟩, ?_, ?_, ?_⟩, ?_, ?_⟩ <;> decide

end PolicyEngine

end Aether.Agent
