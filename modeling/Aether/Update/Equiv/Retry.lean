import Aether.Agent.Equiv.Breaker
import Aether.Update.Equiv.Agent

/-!
# The attempts of a step

The failure counter of a group is a `u32` that is incremented without a check.
-/

namespace Aether.Update

open Agent PolicyEngine

inductive Attempts (step : ApplyStep) : List EngineCall → List AgentAuditEvent → Prop
  | succeeded (n : UInt32) :
      Attempts step [⟨step, .ok ()⟩] [.stepAttempted step n, .stepSucceeded step]
  | gaveUp (n : UInt32) (err : ApplyError) :
      Attempts step [⟨step, .error err⟩]
        [.stepAttempted step n, .stepFailed step err.display, .stepGaveUp step]
  | retried (n : UInt32) (err : ApplyError) (delayMs : UInt64) {calls : List EngineCall}
      {events : List AgentAuditEvent} (rest : Attempts step calls events) :
      Attempts step (⟨step, .error err⟩ :: calls)
        (.stepAttempted step n :: .stepFailed step err.display :: .retryScheduled step delayMs ::
          events)

namespace UpdateAgent

variable {Plan : Type} (engine : ApplyEngine Plan) (nowMs : UInt64)

/-- With every engine the attempts are made and recorded one by one, up to `maxAttempts`. -/
def Retried (a : UpdateAgent Plan) (step : ApplyStep) : Prop :=
  ∀ (engine : ApplyEngine Plan) (nowMs : UInt64), ∃ d a' calls events,
    a.applyWithRetry engine step nowMs = (some d, a') ∧ a'.calls = a.calls ++ calls ∧
      a'.audit = a.audit ++ events ∧ Attempts step calls events ∧
      calls.length ≤ a.maxAttempts step

variable {a a' : UpdateAgent Plan} {step : ApplyStep} {plan : Plan}

/-- A counter without a breaker has room for `n` failures. -/
def CountsFit (e : PolicyEngine) (step : ApplyStep) (n : ℕ) : Prop :=
  ∀ p g, e.policyFor (stepTaskId step) = some p → p.group = some g →
    p.circuitBreakerThreshold = 0 → e.counts g + n < 2 ^ 32

variable {e : PolicyEngine} {p : RetryPolicy} {n attempt remaining : ℕ}

lemma hasRoom_of_countsFit (hp : e.policyFor (stepTaskId step) = some p)
    (hfit : CountsFit e step (n + 1)) (hopen : ¬ PolicyEngine.IsOpen p e.counts) :
    p.HasRoom e.counts 1 := by
  intro g hg
  have hlt := p.circuitBreakerThreshold.toNat_lt
  by_cases hzero : p.circuitBreakerThreshold = 0
  · have hroom := hfit p g hp hg hzero
    refine ⟨by omega, fun hpos => ?_⟩
    rw [hzero] at hpos
    exact absurd hpos (by decide)
  · have hpos : 0 < p.circuitBreakerThreshold.toNat :=
      Nat.pos_of_ne_zero fun h => hzero (UInt32.toNat_inj.mp h)
    have hbel : e.counts g < p.circuitBreakerThreshold.toNat :=
      not_le.mp fun hle => hopen ⟨g, hg, hpos, hle⟩
    exact ⟨by omega, fun _ => by omega⟩

lemma decideAttempt_eq_retry {delayMs : UInt64}
    (h : PolicyEngine.decideAttempt p attempt = .retry delayMs) :
    attempt < p.maxAttempts.toNat := by
  unfold decideAttempt at h
  split_ifs at h with hmax
  · cases hfb : p.fallbacks.head? with
    | none =>
      rw [hfb] at h
      cases h
    | some fb =>
      rw [hfb] at h
      cases h
  · exact not_le.mp hmax

lemma decide_of_countsFit (hfit : CountsFit e step (n + 1)) (attempt : ℕ) :
    ∃ d e', e.decide (stepTaskId step) attempt = some (d, e') ∧
      e'.policies = e.policies ∧ ∀ delayMs, d = .retry delayMs →
        (∃ p, e.policyFor (stepTaskId step) = some p ∧ attempt < p.maxAttempts.toNat) ∧
          CountsFit e' step n := by
  cases hp : e.policyFor (stepTaskId step) with
  | none => exact ⟨_, e, decide_of_policyFor_eq_none hp attempt, rfl, nofun⟩
  | some p =>
    by_cases hopen : PolicyEngine.IsOpen p e.counts
    · exact ⟨_, e, decide_of_isOpen hp hopen attempt, rfl, nofun⟩
    · obtain ⟨e', hdec, hpols, hcts⟩ :=
        decide_of_hasRoom hp (hasRoom_of_countsFit hp hfit hopen) attempt
      refine ⟨_, e', hdec, hpols, fun delayMs hret => ?_⟩
      refine ⟨⟨p, rfl, decideAttempt_eq_retry hret⟩, fun p' g hp' hg hzero => ?_⟩
      rw [policyFor_congr hpols] at hp'
      cases hp.symm.trans hp'
      have hroom := hfit p g hp hg hzero
      rw [hcts, RetryPolicy.addFailures_apply hg]
      omega

structure Tried (a a' : UpdateAgent Plan) (calls : List EngineCall)
    (events : List AgentAuditEvent) : Prop where
  calls : a'.calls = a.calls ++ calls
  audit : a'.audit = a.audit ++ events

lemma Tried.trans {a₁ a₂ : UpdateAgent Plan} {calls calls' : List EngineCall}
    {events events' : List AgentAuditEvent} (h : Tried a a₁ calls events)
    (h' : Tried a₁ a₂ calls' events') :
    Tried a a₂ (calls ++ calls') (events ++ events') := by
  constructor
  · rw [h'.calls, h.calls, List.append_assoc]
  · rw [h'.audit, h.audit, List.append_assoc]

lemma retryLoop_attempt (hplan : a.status.currentPlan = some plan)
    (hfit : CountsFit a.retries step (n + 1)) :
    (∃ d a' call events, retryLoop engine step nowMs (remaining + 1) attempt a = (some d, a') ∧
        Tried a a' [call] events ∧ Attempts step [call] events) ∨
      ∃ err k delayMs a', retryLoop engine step nowMs (remaining + 1) attempt a =
          retryLoop engine step nowMs remaining (attempt + 1) a' ∧
        Tried a a' [⟨step, .error err⟩] [.stepAttempted step k,
          .stepFailed step err.display, .retryScheduled step delayMs] ∧
        a'.status.currentPlan = some plan ∧ a'.maxAttempts step = a.maxAttempts step ∧
        attempt < a.maxAttempts step ∧ CountsFit a'.retries step n := by
  have htri {a₁ : UpdateAgent Plan} {e : PolicyEngine} {err : ApplyError} {k : UInt32}
      {event : AgentAuditEvent} (hcal : a₁.calls = a.calls ++ [⟨step, .error err⟩])
      (haud : a₁.audit = a.audit ++ [.stepAttempted step k, .stepFailed step err.display]) :
      Tried a ({ a₁ with retries := e }.record event) [⟨step, .error err⟩]
        [.stepAttempted step k, .stepFailed step err.display, event] := by
    refine ⟨hcal, ?_⟩
    show a₁.audit ++ [event] = _
    rw [haud, List.append_assoc]
    rfl
  have hturn := turn engine nowMs step remaining attempt a
  generalize retryLoop engine step nowMs (remaining + 1) attempt a = result at hturn ⊢
  cases hturn with
  | ok hrun =>
    obtain ⟨-, hgr, -, k, haud⟩ := runStep_of_plan engine nowMs hplan hrun
    exact .inl ⟨_, _, _, _, rfl, ⟨hgr.calls, haud⟩, .succeeded k⟩
  | panicked hrun hnone =>
    rw [(runStep_spec engine nowMs hrun).1] at hnone
    obtain ⟨d, e, hdec, -⟩ := decide_of_countsFit hfit attempt
    rw [hnone] at hdec
    cases hdec
  | @again err a₁ delayMs e hrun hdec =>
    obtain ⟨-, hgr, hret, k, haud⟩ := runStep_of_plan engine nowMs hplan hrun
    have hgr' := hgr.trans ((grows_decide hdec).record (.retryScheduled step delayMs))
    rw [hret] at hdec
    obtain ⟨d, e', hdec', hpols, hretry⟩ := decide_of_countsFit hfit attempt
    cases hdec'.symm.trans hdec
    obtain ⟨⟨p, hp, hlt⟩, hfit'⟩ := hretry delayMs rfl
    rw [← maxAttempts_of_policyFor hp] at hlt
    exact .inr ⟨err, k, delayMs, _, rfl, htri hgr.calls haud, hgr'.plan.trans hplan,
      hgr'.maxAttempts step, hlt, hfit'⟩
  | @ended err a₁ d e hrun hdec hend =>
    obtain ⟨-, hgr, -, k, haud⟩ := runStep_of_plan engine nowMs hplan hrun
    exact .inl ⟨d, _, _, _, rfl, htri hgr.calls haud, .gaveUp k err⟩

/-- **The loop with room in the counter**, for every engine. -/
theorem retryLoop_attempts (hplan : a.status.currentPlan = some plan)
    (hmax : remaining + attempt = a.maxAttempts step)
    (hfit : CountsFit a.retries step (remaining + 1)) :
    ∃ d a' calls events, retryLoop engine step nowMs (remaining + 1) attempt a = (some d, a') ∧
      Tried a a' calls events ∧ Attempts step calls events ∧
      calls.length ≤ remaining + 1 := by
  induction remaining generalizing attempt a with
  | zero =>
    rcases retryLoop_attempt engine nowMs hplan hfit with
      ⟨d, a', call, events, hloop, htri, hatt⟩ | ⟨_, _, _, _, _, _, _, _, hlt, _⟩
    · exact ⟨d, a', [call], events, hloop, htri, hatt, le_rfl⟩
    · -- the last attempt is not retried
      omega
  | succ remaining ih =>
    rcases retryLoop_attempt engine nowMs hplan hfit with
      ⟨d, a', call, events, hloop, htri, hatt⟩ |
        ⟨err, k, delayMs, a₁, hloop, htri, hplan₁, hmax₁, -, hfit₁⟩
    · refine ⟨d, a', [call], events, hloop, htri, hatt, ?_⟩
      rw [List.length_singleton]
      omega
    · obtain ⟨d, a', calls, events, hrest, htri', hatt, hlen⟩ :=
        ih hplan₁ (show remaining + (attempt + 1) = a₁.maxAttempts step by omega) hfit₁
      refine ⟨d, a', _, _, hloop.trans hrest, htri.trans htri', hatt.retried k err delayMs,
        ?_⟩
      rw [List.length_append, List.length_singleton]
      omega

def refuse : ApplyEngine Plan := fun _ step _ => .error (.refused step "refused")

lemma failing_refuse (a : UpdateAgent Plan) (step : ApplyStep) : Failing refuse a step :=
  fun _ _ _ => ⟨_, rfl⟩

lemma retryLoop_of_overflow {g : String} (remaining attempt : ℕ)
    (hplan : a.status.currentPlan = some plan)
    (hp : a.retries.policyFor (stepTaskId step) = some p) (hg : p.group = some g)
    (hzero : p.circuitBreakerThreshold = 0) (hover : 2 ^ 32 ≤ a.retries.counts g + 1) :
    (retryLoop refuse step nowMs (remaining + 1) attempt a).1 = none := by
  rcases hrun : a.runStep refuse step nowMs with ⟨r, a₁⟩
  obtain ⟨rfl, -, hret, -⟩ := runStep_of_plan refuse nowMs hplan hrun
  have hdec : a.retries.decide (stepTaskId step) attempt = none := by
    have hcl : ¬ 0 < p.circuitBreakerThreshold := by
      rw [hzero]
      decide
    simp only [PolicyEngine.decide, hp, hg]
    rw [if_neg fun htest => hcl htest.1, PolicyEngine.bump_eq_none hover]
    rfl
  simp only [retryLoop, hrun, hret, refuse, hdec]

lemma counts_lt_of_retryLoop {g : String} {d : Decision}
    (hplan : a.status.currentPlan = some plan)
    (hp : a.retries.policyFor (stepTaskId step) = some p) (hg : p.group = some g)
    (hzero : p.circuitBreakerThreshold = 0) (hmax : remaining + attempt = p.maxAttempts.toNat)
    (h : (retryLoop refuse step nowMs (remaining + 1) attempt a).1 = some d) :
    a.retries.counts g + (remaining + 1) < 2 ^ 32 := by
  induction remaining generalizing attempt a with
  | zero =>
    by_contra hover
    rw [retryLoop_of_overflow nowMs 0 attempt hplan hp hg hzero (by omega)] at h
    cases h
  | succ remaining ih =>
    have hroom : p.HasRoom a.retries.counts 1 := by
      intro g' hg'
      cases hg.symm.trans hg'
      refine ⟨?_, fun hpos => absurd (hzero ▸ hpos) (by decide)⟩
      by_contra hover
      rw [retryLoop_of_overflow nowMs _ attempt hplan hp hg hzero (by omega)] at h
      cases h
    obtain ⟨err, a₁, e, new, hrun, hdec, htr, -, hcts⟩ :=
      attempt_of_failing refuse nowMs (failing_refuse a step) hp hroom attempt
    have hret : decideAttempt p attempt =
        .retry (p.backoff.delayMs (attempt + 1)) := by
      rw [decideAttempt, if_neg (by omega)]
    rw [hret] at hdec
    rw [retryLoop] at h
    simp only [hrun, hdec] at h
    have hrest := ih (a := { a₁ with retries := e }.record _) (htr.plan.trans hplan)
      ((htr.policyFor _).trans hp) (by omega) h
    have hcnt : e.counts g + (remaining + 1) < 2 ^ 32 := hrest
    rw [hcts, RetryPolicy.addFailures_apply hg] at hcnt
    omega

/-- **When a step is retried as it should be**: for an agent with a plan and a step with at least
one attempt, iff the counter of the step's group fits all attempts. -/
theorem applyWithRetry_retried_iff (hplan : a.status.currentPlan = some plan)
    (hmax : 1 ≤ a.maxAttempts step) :
    a.Retried step ↔ CountsFit a.retries step (a.maxAttempts step) := by
  obtain ⟨remaining, hrem⟩ := Nat.exists_eq_add_of_le' hmax
  constructor
  · intro hret p g hp hg hzero
    obtain ⟨d, a', calls, events, hloop, -⟩ := hret refuse 0
    rw [applyWithRetry, hrem] at hloop
    rw [hrem]
    rw [maxAttempts_of_policyFor hp] at hrem
    exact counts_lt_of_retryLoop 0 hplan hp hg hzero hrem.symm (congrArg Prod.fst hloop)
  · intro hfit engine nowMs
    rw [hrem] at hfit
    obtain ⟨d, a', calls, events, hloop, htri, hatt, hlen⟩ :=
      retryLoop_attempts engine nowMs hplan hrem.symm hfit
    refine ⟨d, a', calls, events, ?_, htri.calls, htri.audit, hatt, ?_⟩
    · rw [applyWithRetry, hrem, hloop]
    · rw [hrem]
      exact hlen

/-- With the default policies every step is retried as it should be. -/
theorem applyWithRetry_retried_default :
    Retried (installDefaultPolicies ⟨UpdateStatus.new.setPlan (), .new, [], []⟩) .download :=
  (applyWithRetry_retried_iff rfl (by decide)).mpr fun p g hp hg _ => by
    obtain rfl : defaultPolicy = p := Option.some.inj (Eq.trans (by decide) hp)
    cases hg

def crowdedAgent : UpdateAgent Unit :=
  ⟨UpdateStatus.new.setPlan (),
    ⟨[(stepTaskId .download, ⟨3, .none, [], 0, some "net"⟩)], [("net", 4294967295)]⟩, [], []⟩

/-- The first failure overflows the counter: the call does not return, and nothing tells that the
step was given up. -/
theorem full_counter_panics :
    crowdedAgent.status.currentPlan = some () ∧ crowdedAgent.maxAttempts .download = 3 ∧
      (crowdedAgent.applyWithRetry refuse .download 0).1 = none ∧
      (crowdedAgent.applyWithRetry refuse .download 0).2.audit =
        [.stepAttempted .download 1, .stepFailed .download "step 'download' refused: refused"] := by
  refine ⟨?_, ?_, ?_, ?_⟩ <;> decide +kernel

end UpdateAgent

end Aether.Update
