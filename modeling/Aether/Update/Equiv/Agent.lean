import Aether.Update.Agent

/-!
# When an applied update went through its steps

`apply` takes a `Fallback` for a success.
-/

namespace Aether.Update

open Agent List PolicyEngine

def succeeded (calls : List EngineCall) : List ApplyStep :=
  calls.filterMap fun c =>
    match c.result with
    | .ok () => some c.step
    | .error _ => none

@[simp] lemma succeeded_append (l₁ l₂ : List EngineCall) :
    succeeded (l₁ ++ l₂) = succeeded l₁ ++ succeeded l₂ :=
  filterMap_append

@[simp] lemma succeeded_nil : succeeded [] = [] := rfl

@[simp] lemma succeeded_ok (step : ApplyStep) : succeeded [⟨step, .ok ()⟩] = [step] := rfl

@[simp] lemma succeeded_error (step : ApplyStep) (err : ApplyError) :
    succeeded [⟨step, .error err⟩] = [] := rfl

def completedBy (step : ApplyStep) : Option Decision → List ApplyStep
  | some (.retry _) => [step]
  | _ => []

namespace UpdateAgent

variable {Plan : Type} (engine : ApplyEngine Plan) (nowMs : UInt64)

structure Grows (a a' : UpdateAgent Plan) (new : List EngineCall) : Prop where
  calls : a'.calls = a.calls ++ new
  plan : a'.status.currentPlan = a.status.currentPlan
  policies : a'.retries.policies = a.retries.policies
  counts : ∀ g, a.retries.counts g ≤ a'.retries.counts g

namespace Grows

variable {a b c : UpdateAgent Plan} {new new' : List EngineCall}

lemma refl (a : UpdateAgent Plan) : Grows a a [] :=
  ⟨(append_nil _).symm, rfl, rfl, fun _ => le_rfl⟩

lemma trans (h : Grows a b new) (h' : Grows b c new') : Grows a c (new ++ new') := by
  refine ⟨?_, h'.plan.trans h.plan, h'.policies.trans h.policies, fun g => ?_⟩
  · rw [h'.calls, h.calls, append_assoc]
  · exact (h.counts g).trans (h'.counts g)

lemma record (h : Grows a b new) (event : AgentAuditEvent) : Grows a (b.record event) new :=
  ⟨h.calls, h.plan, h.policies, h.counts⟩

lemma transition (h : Grows a b new) (stage : UpdateStage) (note : Option String) :
    Grows a (b.transition stage nowMs note) new :=
  ⟨h.calls, h.plan, h.policies, h.counts⟩

lemma failAndRollback (h : Grows a b new) (step : ApplyStep) :
    Grows a (b.failAndRollback step nowMs) new :=
  ⟨h.calls, h.plan, h.policies, h.counts⟩

lemma policyFor (h : Grows a b new) (t : TaskId) :
    b.retries.policyFor t = a.retries.policyFor t := by
  rw [PolicyEngine.policyFor, PolicyEngine.policyFor, h.policies]

lemma maxAttempts (h : Grows a b new) (step : ApplyStep) :
    b.maxAttempts step = a.maxAttempts step := by
  rw [UpdateAgent.maxAttempts, UpdateAgent.maxAttempts, h.policyFor]

end Grows

lemma grows_decide {a : UpdateAgent Plan} {step : ApplyStep} {attempt : ℕ} {d : Decision}
    {e : PolicyEngine} (h : a.retries.decide (stepTaskId step) attempt = some (d, e)) :
    Grows a { a with retries := e } [] := by
  have hsame : e.policies = a.retries.policies ∧ ∀ g, a.retries.counts g ≤ e.counts g := by
    cases hp : a.retries.policyFor (stepTaskId step) with
    | none =>
      rw [decide_of_policyFor_eq_none hp, Option.some.injEq, Prod.mk.injEq] at h
      rw [← h.2]
      exact ⟨rfl, fun _ => le_rfl⟩
    | some p =>
      by_cases hroom : p.HasRoom a.retries.counts 1
      · obtain ⟨e', hdec, hpol, hcts⟩ := decide_of_hasRoom hp hroom attempt
        rw [hdec, Option.some.injEq, Prod.mk.injEq] at h
        rw [← h.2]
        refine ⟨hpol, fun g => ?_⟩
        rw [hcts]
        exact RetryPolicy.le_addFailures p _ 1 g
      · rcases decide_of_not_hasRoom hp hroom attempt with hnone | hbre
        · rw [hnone] at h
          cases h
        · rw [hbre, Option.some.injEq, Prod.mk.injEq] at h
          rw [← h.2]
          exact ⟨rfl, fun _ => le_rfl⟩
  exact ⟨(append_nil _).symm, rfl, hsame.1, hsame.2⟩

variable {a a' b : UpdateAgent Plan} {step : ApplyStep} {steps : List ApplyStep} {plan : Plan}
  {p : RetryPolicy} {r : Except ApplyError Unit} {new new' : List EngineCall}

lemma runStep_of_no_plan (hplan : a.status.currentPlan = none)
    (h : a.runStep engine step nowMs = (r, a')) :
    r = .error (.refused step "no current plan") ∧ Grows a a' [] ∧ a'.retries = a.retries := by
  have hplan' : (a.status.transition step.updateStage nowMs none).currentPlan = none := hplan
  simp only [runStep, UpdateAgent.record, UpdateAgent.transition, hplan', Prod.mk.injEq] at h
  obtain ⟨rfl, rfl⟩ := h
  exact ⟨rfl, ((Grows.refl a).record _).transition nowMs _ _, rfl⟩

def outcomeEvent (step : ApplyStep) : Except ApplyError Unit → AgentAuditEvent
  | .ok () => .stepSucceeded step
  | .error err => .stepFailed step err.display

lemma runStep_of_plan (hplan : a.status.currentPlan = some plan)
    (h : a.runStep engine step nowMs = (r, a')) :
    r = engine a.calls step plan ∧ Grows a a' [⟨step, r⟩] ∧ a'.retries = a.retries ∧
      ∃ n, a'.audit = a.audit ++ [.stepAttempted step n, outcomeEvent step r] := by
  have hplan' : (a.status.transition step.updateStage nowMs none).currentPlan = some plan := hplan
  simp only [runStep, UpdateAgent.record, UpdateAgent.transition, hplan'] at h
  cases hres : engine a.calls step plan with
  | ok u =>
    simp only [hres, Prod.mk.injEq] at h
    obtain ⟨rfl, rfl⟩ := h
    exact ⟨rfl, ⟨rfl, rfl, rfl, fun _ => le_rfl⟩, rfl, _, append_assoc ..⟩
  | error err =>
    simp only [hres, Prod.mk.injEq] at h
    obtain ⟨rfl, rfl⟩ := h
    exact ⟨rfl, ⟨rfl, rfl, rfl, fun _ => le_rfl⟩, rfl, _, append_assoc ..⟩

def Answered (plan : Plan) (made : ℕ) (calls : List EngineCall) : Prop :=
  ∀ before c after, calls = before ++ c :: after → made ≤ before.length →
    c.result = engine before c.step plan

lemma Answered.concat {made : ℕ} {calls : List EngineCall} (h : Answered engine plan made calls)
    (step : ApplyStep) : Answered engine plan made (calls ++ [⟨step, engine calls step plan⟩]) := by
  intro before c after heq hmade
  rcases eq_nil_or_concat' after with rfl | ⟨after, last, rfl⟩
  · obtain ⟨rfl, hlast⟩ := append_inj' heq rfl
    cases hlast
    rfl
  · rw [← cons_append, ← append_assoc] at heq
    obtain ⟨hcal, -⟩ := append_inj' heq rfl
    exact h before c after hcal hmade

structure Tries (step : ApplyStep) (a a' : UpdateAgent Plan) (new : List EngineCall) : Prop
    extends Grows a a' new where
  steps : ∀ c ∈ new, c.step = step
  noPlan : a.status.currentPlan = none → new = []
  answered : ∀ plan made, a.status.currentPlan = some plan → Answered engine plan made a.calls →
    Answered engine plan made a'.calls

variable {engine} in
lemma Tries.trans (h : Tries engine step a b new)
    (h' : Tries engine step b a' new') : Tries engine step a a' (new ++ new') where
  toGrows := h.toGrows.trans h'.toGrows
  steps c hc := (mem_append.mp hc).elim (h.steps c) (h'.steps c)
  noPlan hplan := by rw [h.noPlan hplan, h'.noPlan (h.plan.trans hplan), append_nil]
  answered plan made hplan hcal :=
    h'.answered plan made (h.plan.trans hplan) (h.answered plan made hplan hcal)

variable {engine} in
lemma Tries.of_calls_eq (h : Tries engine step a b new)
    (hgr : Grows b a' []) : Tries engine step a a' new where
  toGrows := append_nil new ▸ h.toGrows.trans hgr
  steps := h.steps
  noPlan := h.noPlan
  answered plan made hplan hcal := by
    rw [hgr.calls, append_nil]
    exact h.answered plan made hplan hcal

lemma runStep_spec (h : a.runStep engine step nowMs = (r, a')) :
    a'.retries = a.retries ∧
      ∃ new, Tries engine step a a' new ∧ succeeded new = succeeded [⟨step, r⟩] := by
  cases hplan : a.status.currentPlan with
  | none =>
    obtain ⟨rfl, hgr, hret⟩ := runStep_of_no_plan engine nowMs hplan h
    refine ⟨hret, [], ⟨hgr, by simp, fun _ => rfl, fun plan made hsome => ?_⟩, rfl⟩
    rw [hplan] at hsome
    cases hsome
  | some plan =>
    obtain ⟨rfl, hgr, hret, -⟩ := runStep_of_plan engine nowMs hplan h
    refine ⟨hret, _, ⟨hgr, ?_, fun hnone => ?_, fun plan' made hsome hcal => ?_⟩, rfl⟩
    · intro c hc
      rw [mem_singleton.mp hc]
    · rw [hplan] at hnone
      cases hnone
    · obtain rfl : plan = plan' := Option.some.inj (hplan.symm.trans hsome)
      rw [hgr.calls]
      exact hcal.concat engine step

inductive Turn (step : ApplyStep) (remaining attempt : ℕ) (a : UpdateAgent Plan) :
    Option Decision × UpdateAgent Plan → Prop
  | ok {a₁} (hrun : a.runStep engine step nowMs = (.ok (), a₁)) :
      Turn step remaining attempt a (some (.retry 0), a₁)
  | panicked {err a₁} (hrun : a.runStep engine step nowMs = (.error err, a₁))
      (hdecide : a₁.retries.decide (stepTaskId step) attempt = none) :
      Turn step remaining attempt a (none, a₁)
  | again {err a₁ delay e} (hrun : a.runStep engine step nowMs = (.error err, a₁))
      (hdecide : a₁.retries.decide (stepTaskId step) attempt = some (.retry delay, e)) :
      Turn step remaining attempt a (retryLoop engine step nowMs remaining (attempt + 1)
        ({ a₁ with retries := e }.record (.retryScheduled step delay)))
  | ended {err a₁ d e} (hrun : a.runStep engine step nowMs = (.error err, a₁))
      (hdecide : a₁.retries.decide (stepTaskId step) attempt = some (d, e))
      (hend : ∀ delay, d ≠ .retry delay) :
      Turn step remaining attempt a
        (some d, { a₁ with retries := e }.record (.stepGaveUp step))

lemma turn (step : ApplyStep) (remaining attempt : ℕ) (a : UpdateAgent Plan) :
    Turn engine nowMs step remaining attempt a
      (retryLoop engine step nowMs (remaining + 1) attempt a) := by
  rcases hrun : a.runStep engine step nowMs with ⟨err | u, a₁⟩
  · rcases hdec : a₁.retries.decide (stepTaskId step) attempt with - | ⟨d, e⟩
    · simp only [retryLoop, hrun, hdec]
      exact .panicked hrun hdec
    · cases d with
      | retry delay =>
        rw [retryLoop]
        simp only [hrun, hdec]
        exact .again hrun hdec
      | fallback fb => simpa only [retryLoop, hrun, hdec] using .ended hrun hdec nofun
      | circuitBreak => simpa only [retryLoop, hrun, hdec] using .ended hrun hdec nofun
      | giveUp => simpa only [retryLoop, hrun, hdec] using .ended hrun hdec nofun
  · simp only [retryLoop, hrun]
    exact .ok hrun

/-- **The retry loop, for every engine**: its calls are on its step, none without a plan, and it
ends in `Retry` exactly after a success, which is its last call. -/
theorem retryLoop_spec (step : ApplyStep) (remaining attempt : ℕ) (a : UpdateAgent Plan) :
    ∃ new, Tries engine step a (retryLoop engine step nowMs remaining attempt a).2 new ∧
      succeeded new = completedBy step (retryLoop engine step nowMs remaining attempt a).1 := by
  induction remaining generalizing attempt a with
  | zero =>
    exact ⟨[], ⟨(Grows.refl a).record _, by simp, fun _ => rfl, fun _ _ _ h => h⟩, rfl⟩
  | succ remaining ih =>
    have hturn := turn engine nowMs step remaining attempt a
    generalize retryLoop engine step nowMs (remaining + 1) attempt a = result at hturn ⊢
    cases hturn with
    | ok hrun => exact (runStep_spec engine nowMs hrun).2
    | panicked hrun hdec => exact (runStep_spec engine nowMs hrun).2
    | again hrun hdec =>
      -- the rest of the loop adds its calls
      obtain ⟨-, new, htr, hdone⟩ := runStep_spec engine nowMs hrun
      obtain ⟨new', htr', hdone'⟩ := ih (attempt + 1) _
      refine ⟨_, (htr.of_calls_eq ((grows_decide hdec).record _)).trans htr', ?_⟩
      rw [succeeded_append, hdone, succeeded_error, nil_append, hdone']
    | @ended err a₁ d e hrun hdec hend =>
      obtain ⟨-, new, htr, hdone⟩ := runStep_spec engine nowMs hrun
      refine ⟨new, htr.of_calls_eq ((grows_decide hdec).record _), hdone.trans ?_⟩
      cases d with
      | retry delay => exact absurd rfl (hend delay)
      | _ => rfl

def FallsBack (e : PolicyEngine) (counts : String → ℕ) (step : ApplyStep) : Prop :=
  ∃ p, e.policyFor (stepTaskId step) = some p ∧ 0 < p.maxAttempts.toNat ∧ p.fallbacks ≠ [] ∧
    p.HasRoom counts p.maxAttempts.toNat

lemma FallsBack.of_grows (h : FallsBack a'.retries a'.retries.counts step)
    (hgr : Grows a a' new) : FallsBack a.retries a.retries.counts step := by
  obtain ⟨p, hp, hpos, hfb, hroom⟩ := h
  exact ⟨p, (hgr.policyFor _).symm.trans hp, hpos, hfb, hroom.mono hgr.counts le_rfl⟩

lemma maxAttempts_of_policyFor (hp : a.retries.policyFor (stepTaskId step) = some p) :
    a.maxAttempts step = p.maxAttempts.toNat := by
  rw [maxAttempts, hp]
  rfl

variable {a₁ : UpdateAgent Plan} {d : Option Decision} {fb : TaskId} {remaining attempt : ℕ}

lemma decideAttempt_eq_fallback (h : PolicyEngine.decideAttempt p attempt = .fallback fb) :
    p.maxAttempts.toNat ≤ attempt ∧ p.fallbacks ≠ [] := by
  unfold decideAttempt at h
  split_ifs at h with hmax
  refine ⟨hmax, ?_⟩
  rintro hnil
  rw [hnil] at h
  cases h

lemma decide_eq_some {e e' : PolicyEngine} {t : TaskId} {d : Decision}
    (hp : e.policyFor t = some p) (h : e.decide t attempt = some (d, e'))
    (hd : d ≠ .circuitBreak) :
    p.HasRoom e.counts 1 ∧ d = PolicyEngine.decideAttempt p attempt ∧
      e'.policyFor t = some p ∧ e'.counts = p.addFailures e.counts 1 := by
  by_cases hroom : p.HasRoom e.counts 1
  · obtain ⟨e₁, hdec, hpols, hcts⟩ := decide_of_hasRoom hp hroom attempt
    rw [hdec, Option.some.injEq, Prod.mk.injEq] at h
    obtain ⟨rfl, rfl⟩ := h
    refine ⟨hroom, rfl, ?_, hcts⟩
    rw [policyFor, hpols, ← policyFor, hp]
  · rcases decide_of_not_hasRoom hp hroom attempt with hnone | hbre
    · rw [hnone] at h
      cases h
    · rw [hbre, Option.some.injEq, Prod.mk.injEq] at h
      exact absurd h.1.symm hd

lemma hasRoom_of_retryLoop (hp : a.retries.policyFor (stepTaskId step) = some p)
    (hrem : remaining + attempt = p.maxAttempts.toNat + 1)
    (h : (retryLoop engine step nowMs remaining attempt a).1 = some (.fallback fb)) :
    0 < remaining ∧ p.fallbacks ≠ [] ∧ p.HasRoom a.retries.counts remaining := by
  induction remaining generalizing attempt a with
  | zero => cases h
  | succ remaining ih =>
    have hturn := turn engine nowMs step remaining attempt a
    generalize retryLoop engine step nowMs (remaining + 1) attempt a = result at hturn h
    cases hturn with
    | ok hrun => cases h
    | panicked hrun hdec => cases h
    | again hrun hdec =>
      rw [(runStep_spec engine nowMs hrun).1] at hdec
      obtain ⟨-, -, hp', hcts⟩ := decide_eq_some hp hdec nofun
      obtain ⟨-, hfb, hrest⟩ := ih hp' (by omega) h
      refine ⟨Nat.succ_pos _, hfb, (RetryPolicy.hasRoom_addFailures_iff p _ _).mp ?_⟩
      rw [← hcts]
      exact hrest
    | ended hrun hdec hend =>
      rw [(runStep_spec engine nowMs hrun).1] at hdec
      cases h
      obtain ⟨hroom, hd, -, -⟩ := decide_eq_some hp hdec nofun
      obtain ⟨hmax, hfb⟩ := decideAttempt_eq_fallback hd.symm
      -- the last attempt
      obtain rfl : remaining = 0 := by omega
      exact ⟨Nat.succ_pos _, hfb, hroom⟩

lemma fallsBack_of_applyWithRetry
    (h : (a.applyWithRetry engine step nowMs).1 = some (.fallback fb)) :
    FallsBack a.retries a.retries.counts step := by
  unfold applyWithRetry at h
  cases hp : a.retries.policyFor (stepTaskId step) with
  | none =>
    -- one attempt, then `GiveUp`
    have hmax : a.maxAttempts step = 1 := by rw [maxAttempts, hp]; rfl
    rw [hmax] at h
    have hturn := turn engine nowMs step 0 1 a
    generalize retryLoop engine step nowMs 1 1 a = result at hturn h
    cases hturn with
    | ok hrun => cases h
    | panicked hrun hdec => cases h
    | again hrun hdec => cases h
    | ended hrun hdec hend =>
      rw [(runStep_spec engine nowMs hrun).1, decide_of_policyFor_eq_none hp] at hdec
      cases hdec
      cases h
  | some p =>
    rw [maxAttempts_of_policyFor hp] at h
    obtain ⟨hpos, hfb, hroom⟩ := hasRoom_of_retryLoop engine nowMs hp rfl h
    exact ⟨p, hp, hpos, hfb, hroom⟩

def Failing (a : UpdateAgent Plan) (step : ApplyStep) : Prop :=
  ∀ plan, a.status.currentPlan = some plan → ∀ calls, ∃ err, engine calls step plan = .error err

lemma Failing.of_grows (h : Failing engine a step) (hgr : Grows a a' new) :
    Failing engine a' step := by
  intro plan hplan
  exact h plan (hgr.plan ▸ hplan)

lemma Failing.runStep (hfail : Failing engine a step) :
    ∃ err a₁, a.runStep engine step nowMs = (.error err, a₁) := by
  rcases hrun : a.runStep engine step nowMs with ⟨r, a₁⟩
  cases hplan : a.status.currentPlan with
  | none =>
    obtain ⟨rfl, -, -⟩ := runStep_of_no_plan engine nowMs hplan hrun
    exact ⟨_, a₁, rfl⟩
  | some plan =>
    obtain ⟨rfl, -, -⟩ := runStep_of_plan engine nowMs hplan hrun
    obtain ⟨err, herr⟩ := hfail plan hplan a.calls
    exact ⟨err, a₁, by rw [herr]⟩

lemma attempt_of_failing (hfail : Failing engine a step)
    (hp : a.retries.policyFor (stepTaskId step) = some p)
    (hroom : p.HasRoom a.retries.counts 1) (attempt : ℕ) :
    ∃ err a₁ e new, a.runStep engine step nowMs = (.error err, a₁) ∧
      a₁.retries.decide (stepTaskId step) attempt =
        some (PolicyEngine.decideAttempt p attempt, e) ∧
      Tries engine step a { a₁ with retries := e } new ∧ succeeded new = [] ∧
      e.counts = p.addFailures a.retries.counts 1 := by
  obtain ⟨err, a₁, hrun⟩ := hfail.runStep engine nowMs
  obtain ⟨hret, new, htr, hdone⟩ := runStep_spec engine nowMs hrun
  obtain ⟨e, hdec, -, hcts⟩ := decide_of_hasRoom hp hroom attempt
  rw [← hret] at hdec
  exact ⟨err, a₁, e, new, hrun, hdec, htr.of_calls_eq (grows_decide hdec), hdone, hcts⟩

/-- **The retry loop when every attempt fails**: with room for them it ends in the fallback and
counts them all. -/
theorem retryLoop_of_failing (hfail : Failing engine a step)
    (hp : a.retries.policyFor (stepTaskId step) = some p) (hfb : p.fallbacks.head? = some fb)
    (hrem : remaining + 1 + attempt = p.maxAttempts.toNat + 1)
    (hroom : p.HasRoom a.retries.counts (remaining + 1)) :
    ∃ a' new, retryLoop engine step nowMs (remaining + 1) attempt a = (some (.fallback fb), a') ∧
      Tries engine step a a' new ∧ succeeded new = [] ∧
      a'.retries.counts = p.addFailures a.retries.counts (remaining + 1) := by
  induction remaining generalizing attempt a with
  | zero =>
    obtain ⟨err, a₁, e, new, hrun, hd, htr, hnone, hcts⟩ :=
      attempt_of_failing engine nowMs hfail hp hroom attempt
    have hdec : decideAttempt p attempt = .fallback fb := by
      rw [decideAttempt, if_pos (by omega), hfb]
    rw [hdec] at hd
    refine ⟨{ a₁ with retries := e }.record (.stepGaveUp step), new, ?_,
      htr.of_calls_eq ((Grows.refl _).record _), hnone, hcts⟩
    simp only [retryLoop, hrun, hd]
  | succ remaining ih =>
    obtain ⟨err, a₁, e, new, hrun, hd, htr, hnone, hcts⟩ :=
      attempt_of_failing engine nowMs hfail hp (hroom.mono (fun _ => le_rfl) (by omega)) attempt
    have hdec : decideAttempt p attempt =
        .retry (p.backoff.delayMs (attempt + 1)) := by
      rw [decideAttempt, if_neg (by omega)]
    rw [hdec] at hd
    set a₂ := { a₁ with retries := e }.record
      (.retryScheduled step (p.backoff.delayMs (attempt + 1))) with ha₂
    have htr₂ : Tries engine step a a₂ new := htr.of_calls_eq ((Grows.refl _).record _)
    have hcts₂ : a₂.retries.counts = p.addFailures a.retries.counts 1 := hcts
    have hroom₂ : p.HasRoom a₂.retries.counts (remaining + 1) := by
      rw [hcts₂]
      exact (RetryPolicy.hasRoom_addFailures_iff p _ _).mpr hroom
    obtain ⟨a', new', hloop, htr', hnone', hcts'⟩ :=
      ih (hfail.of_grows engine htr₂.toGrows) ((htr₂.policyFor _).trans hp)
        (show remaining + 1 + (attempt + 1) = p.maxAttempts.toNat + 1 by omega) hroom₂
    refine ⟨a', new ++ new', ?_, htr₂.trans htr', ?_, ?_⟩
    · rw [retryLoop]
      simp only [hrun, hd]
      exact hloop
    · rw [succeeded_append, hnone, hnone', append_nil]
    · rw [hcts', hcts₂, RetryPolicy.addFailures_addFailures, Nat.add_comm 1]

def Sequenced (steps : List ApplyStep) (calls : List EngineCall) : Prop :=
  ∀ before c after, calls = before ++ c :: after →
    ∃ earlier later, steps = earlier ++ c.step :: later ∧ List.Sublist earlier (succeeded before)

lemma Sequenced.cons (hstep : ∀ c ∈ new, c.step = step) (hok : new' ≠ [] → step ∈ succeeded new)
    (h : Sequenced steps new') : Sequenced (step :: steps) (new ++ new') := by
  intro before c after hspl
  rcases append_eq_append_iff.mp hspl with ⟨mid, hbef, hnew'⟩ | ⟨mid, hnew, hrest⟩
  · -- the call is in the second part
    obtain ⟨earlier, later, hsts, hsub⟩ := h mid c after hnew'
    refine ⟨step :: earlier, later, by rw [hsts, cons_append], ?_⟩
    rw [hbef, succeeded_append]
    refine List.Sublist.append (singleton_sublist.mpr (hok ?_)) hsub
    rw [hnew']
    exact append_ne_nil_of_right_ne_nil _ (cons_ne_nil _ _)
  · cases mid with
    | nil =>
      -- the call is the first of the second part
      rw [nil_append] at hrest
      obtain ⟨earlier, later, hsts, hsub⟩ := h [] c after hrest.symm
      rw [eq_nil_of_sublist_nil hsub, nil_append] at hsts
      refine ⟨[step], later, by rw [hsts]; rfl, ?_⟩
      rw [append_nil] at hnew
      rw [← hnew]
      refine singleton_sublist.mpr (hok ?_)
      rw [← hrest]
      exact cons_ne_nil _ _
    | cons c' mid =>
      cases hrest
      refine ⟨[], steps, ?_, nil_sublist _⟩
      rw [hstep c (hnew ▸ mem_append_right _ (mem_cons_self ..)), nil_append]

lemma Sequenced.nil (steps : List ApplyStep) : Sequenced steps [] :=
  fun _ _ _ h => absurd h (by simp)

def GoesOn : Option Decision → Prop
  | some (.retry _) | some (.fallback _) => True
  | _ => False

lemma applySteps_cons (step : ApplyStep) (steps : List ApplyStep) (a : UpdateAgent Plan) :
    ∃ d a₁ new, a.applyWithRetry engine step nowMs = (d, a₁) ∧ Tries engine step a a₁ new ∧
      succeeded new = completedBy step d ∧
      (GoesOn d ∧ applySteps engine nowMs (step :: steps) a = applySteps engine nowMs steps a₁ ∨
        ¬ GoesOn d ∧ (applySteps engine nowMs (step :: steps) a).1 ≠ some (.ok ()) ∧
          Tries engine step a (applySteps engine nowMs (step :: steps) a).2 new) := by
  obtain ⟨new, htr, hdone⟩ := retryLoop_spec engine nowMs step (a.maxAttempts step) 1 a
  rcases hret : a.applyWithRetry engine step nowMs with ⟨d, a₁⟩
  rw [← applyWithRetry, hret] at htr hdone
  refine ⟨d, a₁, new, rfl, htr, hdone, ?_⟩
  have hback := htr.of_calls_eq ((Grows.refl a₁).failAndRollback nowMs step)
  simp only [applySteps, hret]
  rcases d with - | d
  · exact .inr ⟨id, nofun, htr⟩
  cases d with
  | giveUp => exact .inr ⟨id, nofun, hback⟩
  | circuitBreak => exact .inr ⟨id, nofun, hback⟩
  | fallback fb => exact .inl ⟨trivial, rfl⟩
  | retry delay => exact .inl ⟨trivial, rfl⟩

lemma completedBy_of_not_goesOn (h : ¬ GoesOn d) : completedBy step d = [] := by
  rcases d with - | d
  · rfl
  · cases d with
    | retry delay => exact absurd trivial h
    | _ => rfl

lemma completedBy_of_goesOn (hno : ¬ FallsBack a.retries a.retries.counts step)
    (hret : a.applyWithRetry engine step nowMs = (d, a₁)) (h : GoesOn d) :
    completedBy step d = [step] := by
  rcases d with - | d
  · cases h
  · cases d with
    | retry delay => rfl
    | fallback fb =>
      exact absurd (fallsBack_of_applyWithRetry engine nowMs (congrArg Prod.fst hret)) hno
    | circuitBreak => cases h
    | giveUp => cases h

/-- **A run without fallbacks**, for every engine: its calls are sequenced, and it has completed all
steps if it returns `Ok`, and a proper part from the start of the list otherwise. -/
theorem applySteps_sequenced (hno : ∀ step ∈ steps, ¬ FallsBack a.retries a.retries.counts step) :
    ∃ new, Grows a (applySteps engine nowMs steps a).2 new ∧ Sequenced steps new ∧
      ((applySteps engine nowMs steps a).1 = some (.ok ()) → succeeded new = steps) ∧
      ((applySteps engine nowMs steps a).1 ≠ some (.ok ()) →
        ∃ rest, rest ≠ [] ∧ steps = succeeded new ++ rest) := by
  induction steps generalizing a with
  | nil =>
    exact ⟨[], (Grows.refl a).transition nowMs _ _, .nil [], fun _ => rfl, fun h => absurd rfl h⟩
  | cons step steps ih =>
    obtain ⟨d, a₁, new, hret, htr, hdone, ⟨hgo, hrest⟩ | ⟨hstop, hne, hend⟩⟩ :=
      applySteps_cons engine nowMs step steps a
    · rw [completedBy_of_goesOn engine nowMs (hno step mem_cons_self) hret hgo] at hdone
      have hno' : ∀ s ∈ steps, ¬ FallsBack a₁.retries a₁.retries.counts s := fun s hs hfb =>
        hno s (mem_cons_of_mem _ hs) (hfb.of_grows htr.toGrows)
      obtain ⟨new', hgr', hseq', hall, hpart⟩ := ih hno'
      have hfst : succeeded (new ++ new') = step :: succeeded new' := by
        rw [succeeded_append, hdone]
        rfl
      have hmem : step ∈ succeeded new := hdone ▸ mem_singleton_self step
      rw [hrest]
      refine ⟨new ++ new', htr.toGrows.trans hgr', .cons htr.steps (fun _ => hmem) hseq',
        fun h => ?_, fun h => ?_⟩
      · rw [hfst, hall h]
      · obtain ⟨rest, hne, hsts⟩ := hpart h
        exact ⟨rest, hne, by rw [hfst, cons_append, ← hsts]⟩
    · -- the run ends with this step, which was not completed
      rw [completedBy_of_not_goesOn hstop] at hdone
      have hseq := Sequenced.cons hend.steps (fun h => absurd rfl h) (.nil steps)
      rw [append_nil] at hseq
      refine ⟨new, hend.toGrows, hseq, fun h => absurd h hne, fun _ => ?_⟩
      exact ⟨step :: steps, cons_ne_nil _ _, by rw [hdone, nil_append]⟩

lemma applySteps_answered {made : ℕ} (steps : List ApplyStep)
    (hplan : a.status.currentPlan = some plan) (h : Answered engine plan made a.calls) :
    Answered engine plan made (applySteps engine nowMs steps a).2.calls := by
  induction steps generalizing a with
  | nil => exact h
  | cons step steps ih =>
    obtain ⟨d, a₁, new, -, htr, -, ⟨-, hrest⟩ | ⟨-, -, hend⟩⟩ :=
      applySteps_cons engine nowMs step steps a
    · rw [hrest]
      exact ih (htr.plan.trans hplan) (htr.answered plan made hplan h)
    · exact hend.answered plan made hplan h

lemma applySteps_of_no_attempts (pre post : List ApplyStep) {z : ApplyStep}
    (hz : a.maxAttempts z = 0) :
    (applySteps engine nowMs (pre ++ z :: post) a).1 ≠ some (.ok ()) ∧
      ∃ new, Grows a (applySteps engine nowMs (pre ++ z :: post) a).2 new ∧
        ∀ c ∈ new, c.step ∈ pre := by
  induction pre generalizing a with
  | nil =>
    have hret : a.applyWithRetry engine z nowMs = (some .giveUp, a.record (.stepGaveUp z)) := by
      rw [applyWithRetry, hz, retryLoop]
    simp only [nil_append, applySteps, hret]
    refine ⟨nofun, [], ?_, by simp⟩
    exact ((Grows.refl a).record _).failAndRollback nowMs z
  | cons step pre ih =>
    obtain ⟨d, a₁, new, -, htr, -, ⟨-, hrest⟩ | ⟨-, hne, hend⟩⟩ :=
      applySteps_cons engine nowMs step (pre ++ z :: post) a
    · obtain ⟨hne, new', hgr', hmem'⟩ := ih ((htr.maxAttempts z).trans hz)
      rw [cons_append, hrest]
      refine ⟨hne, new ++ new', htr.toGrows.trans hgr', fun c hc => ?_⟩
      rcases mem_append.mp hc with hc | hc
      · rw [htr.steps c hc]
        exact mem_cons_self
      · exact mem_cons_of_mem _ (hmem' c hc)
    · refine ⟨hne, new, hend.toGrows, fun c hc => ?_⟩
      rw [hend.steps c hc]
      exact mem_cons_self

lemma applyWithRetry_of_failing (hfail : Failing engine a step)
    (hp : a.retries.policyFor (stepTaskId step) = some p) (hpos : 0 < p.maxAttempts.toNat)
    (hfb : p.fallbacks ≠ []) (hroom : p.HasRoom a.retries.counts p.maxAttempts.toNat) :
    ∃ fb a' new, a.applyWithRetry engine step nowMs = (some (.fallback fb), a') ∧
      Tries engine step a a' new ∧ succeeded new = [] ∧
      a'.retries.counts = p.addFailures a.retries.counts p.maxAttempts.toNat := by
  obtain ⟨fb, fbs, hcons⟩ := exists_cons_of_ne_nil hfb
  obtain ⟨n, hn⟩ : ∃ n, p.maxAttempts.toNat = n + 1 := Nat.exists_eq_succ_of_ne_zero hpos.ne'
  rw [applyWithRetry, maxAttempts_of_policyFor hp, hn]
  rw [hn] at hroom
  obtain ⟨a', new, hloop, hrest⟩ := retryLoop_of_failing engine nowMs hfail hp
    (by rw [hcons]; rfl) (by rw [hn]) hroom
  exact ⟨fb, a', new, hloop, hrest⟩

lemma applyWithRetry_of_no_plan (hplan : a.status.currentPlan = none)
    (hret : a.applyWithRetry engine step nowMs = (d, a₁))
    (hp : a.retries.policyFor (stepTaskId step) = some p) (hpos : 0 < p.maxAttempts.toNat)
    (hfb : p.fallbacks ≠ []) (hroom : p.HasRoom a.retries.counts p.maxAttempts.toNat) :
    (∃ fb, d = some (.fallback fb)) ∧
      a₁.retries.counts = p.addFailures a.retries.counts p.maxAttempts.toNat := by
  have hfail : Failing engine a step := by
    intro plan h
    rw [hplan] at h
    cases h
  obtain ⟨fb, a', -, hret', -, -, hcts⟩ :=
    applyWithRetry_of_failing engine nowMs hfail hp hpos hfb hroom
  rw [hret, Prod.mk.injEq] at hret'
  exact ⟨⟨fb, hret'.1⟩, by rw [hret'.2, hcts]⟩

lemma applyWithRetry_of_ok (hplan : a.status.currentPlan = some plan)
    (hmax : 0 < a.maxAttempts step) (hok : engine a.calls step plan = .ok ()) :
    ∃ a', a.applyWithRetry engine step nowMs = (some (.retry 0), a') ∧
      Grows a a' [⟨step, .ok ()⟩] ∧ a'.retries = a.retries := by
  obtain ⟨n, hn⟩ : ∃ n, a.maxAttempts step = n + 1 := Nat.exists_eq_succ_of_ne_zero hmax.ne'
  rcases hrun : a.runStep engine step nowMs with ⟨r, a'⟩
  obtain ⟨rfl, hgr, hret, -⟩ := runStep_of_plan engine nowMs hplan hrun
  rw [hok] at hrun hgr
  refine ⟨a', ?_, hgr, hret⟩
  rw [applyWithRetry, hn]
  simp only [retryLoop, hrun]

def failsOn (s : ApplyStep) : ApplyEngine Plan := fun _ step _ =>
  if step = s then .error (.refused s "refused") else .ok ()

/-- **A run with a fallback**: if the step falls back, the engine that fails on it is driven to
`Ok` and `Done` without a success of the step. -/
theorem applySteps_of_failing {s : ApplyStep} (hplan : a.status.currentPlan = some plan)
    (hnd : steps.Nodup) (hmax : ∀ step ∈ steps, 0 < a.maxAttempts step)
    (hfb : s ∈ steps → FallsBack a.retries a.retries.counts s) :
    ∃ a' new, applySteps (failsOn s) nowMs steps a = (some (.ok ()), a') ∧
      a'.status.stage = .done ∧ a'.calls = a.calls ++ new ∧ s ∉ succeeded new := by
  induction steps generalizing a with
  | nil => exact ⟨_, [], rfl, rfl, (append_nil _).symm, not_mem_nil⟩
  | cons step steps ih =>
    obtain ⟨hnotin, hnd'⟩ := nodup_cons.mp hnd
    -- the rest of the run, after a first step that goes on
    have hrest {d : Decision} {a₁ : UpdateAgent Plan} {new : List EngineCall}
        (hret : a.applyWithRetry (failsOn s) step nowMs = (some d, a₁)) (hgo : GoesOn (some d))
        (hgr : Grows a a₁ new) (hnew : s ∉ succeeded new)
        (hfb : s ∈ steps → FallsBack a₁.retries a₁.retries.counts s) :
        ∃ a' new', applySteps (failsOn s) nowMs (step :: steps) a = (some (.ok ()), a') ∧
          a'.status.stage = .done ∧ a'.calls = a.calls ++ new' ∧ s ∉ succeeded new' := by
      obtain ⟨a', new', hrun, hdone, hcal, hnot⟩ := ih (hgr.plan.trans hplan) hnd'
        (fun t ht => (hgr.maxAttempts t).symm ▸ hmax t (mem_cons_of_mem _ ht)) hfb
      refine ⟨a', new ++ new', ?_, hdone, ?_, ?_⟩
      · cases d with
        | retry delay => simp only [applySteps, hret, hrun]
        | fallback fb => simp only [applySteps, hret, hrun]
        | circuitBreak => cases hgo
        | giveUp => cases hgo
      · rw [hcal, hgr.calls, append_assoc]
      · rw [succeeded_append]
        exact fun h => (mem_append.mp h).elim hnew hnot
    by_cases hs : step = s
    · subst hs
      obtain ⟨p, hp, hpos, hfbs, hroom⟩ := hfb mem_cons_self
      have hfail : Failing (failsOn step) a step := fun _ _ _ => ⟨_, if_pos rfl⟩
      obtain ⟨fb, a₁, new, hret, htr, hnone, -⟩ :=
        applyWithRetry_of_failing (failsOn step) nowMs hfail hp hpos hfbs hroom
      exact hrest hret trivial htr.toGrows (by simp [hnone]) fun h => absurd h hnotin
    · obtain ⟨a₁, hret, hgr, hretr⟩ := applyWithRetry_of_ok (failsOn s) nowMs hplan
        (hmax step mem_cons_self) (if_neg hs)
      refine hrest hret trivial hgr (by simpa using Ne.symm hs) fun h => ?_
      rw [hretr]
      exact hfb (mem_cons_of_mem _ h)

def AllFallBack (e : PolicyEngine) (counts : String → ℕ) : List ApplyStep → Prop
  | [] => True
  | step :: steps =>
    ∃ p, e.policyFor (stepTaskId step) = some p ∧ 0 < p.maxAttempts.toNat ∧ p.fallbacks ≠ [] ∧
      p.HasRoom counts p.maxAttempts.toNat ∧
      AllFallBack e (p.addFailures counts p.maxAttempts.toNat) steps

lemma allFallBack_congr {e e' : PolicyEngine} (h : e'.policies = e.policies)
    (counts : String → ℕ) (steps : List ApplyStep) :
    AllFallBack e' counts steps ↔ AllFallBack e counts steps := by
  induction steps generalizing counts with
  | nil => exact Iff.rfl
  | cons step steps ih => simp only [AllFallBack, policyFor, h, ih]

lemma applySteps_of_no_plan (steps : List ApplyStep) (hplan : a.status.currentPlan = none) :
    ((applySteps engine nowMs steps a).1 = some (.ok ()) ↔
        AllFallBack a.retries a.retries.counts steps) ∧
      ((applySteps engine nowMs steps a).1 = some (.ok ()) →
        (applySteps engine nowMs steps a).2.status.stage = .done) ∧
      (applySteps engine nowMs steps a).2.calls = a.calls := by
  induction steps generalizing a with
  | nil => exact ⟨iff_of_true rfl trivial, fun _ => rfl, rfl⟩
  | cons step steps ih =>
    obtain ⟨d, a₁, new, hret, htr, hdone, hcas⟩ := applySteps_cons engine nowMs step steps a
    obtain rfl := htr.noPlan hplan
    rcases hcas with ⟨hgo, hrest⟩ | ⟨hstop, hne, hend⟩
    · obtain ⟨fb, rfl⟩ : ∃ fb, d = some (.fallback fb) := by
        rcases d with - | d
        · cases hgo
        · cases d with
          | retry delay => cases hdone
          | fallback fb => exact ⟨fb, rfl⟩
          | circuitBreak => cases hgo
          | giveUp => cases hgo
      obtain ⟨hiff, hsta, hcal⟩ := ih (htr.plan.trans hplan)
      rw [hrest]
      refine ⟨hiff.trans ?_, hsta, hcal.trans (htr.calls.trans (append_nil _))⟩
      rw [allFallBack_congr htr.policies]
      obtain ⟨p, hp, hpos, hfbs, hroom⟩ : FallsBack a.retries a.retries.counts step :=
        fallsBack_of_applyWithRetry engine nowMs (congrArg Prod.fst hret)
      rw [(applyWithRetry_of_no_plan engine nowMs hplan hret hp hpos hfbs hroom).2]
      constructor
      · intro h
        exact ⟨p, hp, hpos, hfbs, hroom, h⟩
      · rintro ⟨p', hp', -, -, -, h⟩
        obtain rfl : p' = p := Option.some.inj (hp'.symm.trans hp)
        exact h
    · refine ⟨iff_of_false hne ?_, fun h => absurd h hne,
        hend.calls.trans (append_nil _)⟩
      rintro ⟨p, hp, hpos, hfbs, hroom, -⟩
      obtain ⟨⟨fb, rfl⟩, -⟩ :=
        applyWithRetry_of_no_plan engine nowMs hplan hret hp hpos hfbs hroom
      exact hstop trivial

def callsDuring (a : UpdateAgent Plan) : List EngineCall :=
  (a.apply engine nowMs).2.calls.drop a.calls.length

/-- A success has completed all steps in order, and `Apply` comes after a completed `Verify`. -/
def AppliesInOrder (a : UpdateAgent Plan) : Prop :=
  ((a.apply engine nowMs).1 = some (.ok ()) → (a.apply engine nowMs).2.status.stage = .done →
      List.Sublist applySequence (succeeded (callsDuring engine nowMs a))) ∧
    ∀ before c after, callsDuring engine nowMs a = before ++ c :: after → c.step = .apply →
      ApplyStep.verify ∈ succeeded before

/-- No step of a plan falls back, or one has no attempts; without a plan, some step does not. -/
def NoFallbackPasses (a : UpdateAgent Plan) : Prop :=
  match a.status.currentPlan with
  | some _ => (∃ step ∈ applySequence, a.maxAttempts step = 0) ∨
      ∀ step ∈ applySequence, ¬ FallsBack a.retries a.retries.counts step
  | none => ¬ AllFallBack a.retries a.retries.counts applySequence

lemma eq_nil_of_applySequence_eq {pre post : List ApplyStep}
    (h : applySequence = pre ++ .apply :: post) : post = [] := by
  by_contra hpost
  have hmem : ApplyStep.apply ∈ applySequence.dropLast := by
    rw [h, dropLast_append_of_ne_nil (cons_ne_nil _ _), dropLast_cons_of_ne_nil hpost]
    exact mem_append_right _ (mem_cons_self ..)
  exact absurd hmem (by decide)

lemma callsDuring_eq
    (h : (a.apply engine nowMs).2.calls = a.calls ++ new) : callsDuring engine nowMs a = new := by
  rw [callsDuring, h, drop_left]

/-- **When updates are applied in order**: for every engine, iff no fallback can pass for a
success. -/
theorem apply_in_order_iff (a : UpdateAgent Plan) :
    (∀ (engine : ApplyEngine Plan) (nowMs : UInt64), AppliesInOrder engine nowMs a) ↔
      a.NoFallbackPasses := by
  unfold NoFallbackPasses
  cases hplan : a.status.currentPlan with
  | none =>
    constructor
    · intro h hall
      obtain ⟨hiff, hdone, hcal⟩ :=
        applySteps_of_no_plan (fun _ _ _ => .ok ()) 0 applySequence hplan
      have hsub := (h (fun _ _ _ => .ok ()) 0).1 (hiff.mpr hall) (hdone (hiff.mpr hall))
      rw [callsDuring_eq _ _ (hcal.trans (append_nil _).symm)] at hsub
      exact absurd (eq_nil_of_sublist_nil hsub) (by decide)
    · intro hno engine nowMs
      obtain ⟨hiff, -, hcal⟩ := applySteps_of_no_plan engine nowMs applySequence hplan
      refine ⟨fun h => absurd (hiff.mp h) hno, fun before c after hspl => ?_⟩
      rw [callsDuring_eq _ _ (hcal.trans (append_nil _).symm)] at hspl
      exact absurd hspl (by simp)
  | some plan =>
    constructor
    · intro h
      by_contra hno
      push Not at hno
      obtain ⟨hmax, s, hs, hfb⟩ := hno
      obtain ⟨a', new, hrun, hdone, hcal, hnot⟩ := applySteps_of_failing 0 hplan (by decide)
        (fun step hstep => Nat.pos_of_ne_zero (hmax step hstep)) (fun _ => hfb)
      have hsub := (h (failsOn s) 0).1 (congrArg Prod.fst hrun) (by rw [apply, hrun]; exact hdone)
      rw [callsDuring_eq _ _ (by rw [apply, hrun]; exact hcal)] at hsub
      exact hnot (hsub.subset hs)
    · rintro (⟨z, hz, hmax⟩ | hno) engine nowMs
      · obtain ⟨pre, post, hspl⟩ := append_of_mem hz
        obtain ⟨hne, new, hgr, hmem⟩ :=
          applySteps_of_no_attempts engine nowMs pre post hmax
        rw [← hspl] at hne hgr
        refine ⟨fun h => absurd h hne, fun before c after hcal hc => ?_⟩
        rw [callsDuring_eq _ _ hgr.calls] at hcal
        -- `Apply` is the last step, so it is not before `z`
        have hpre := hmem c (hcal ▸ mem_append_right _ (mem_cons_self ..))
        rw [hc] at hpre
        obtain ⟨pre₁, pre₂, rfl⟩ := append_of_mem hpre
        rw [append_assoc, cons_append] at hspl
        exact absurd (eq_nil_of_applySequence_eq hspl) (by simp)
      · obtain ⟨new, hgr, hseq, hok, -⟩ := applySteps_sequenced engine nowMs hno
        refine ⟨fun h _ => ?_, fun before c after hcal hc => ?_⟩
        · rw [callsDuring_eq _ _ hgr.calls, hok h]
        · rw [callsDuring_eq _ _ hgr.calls] at hcal
          obtain ⟨earlier, later, hsts, hsub⟩ := hseq before c after hcal
          rw [hc] at hsts
          rw [eq_nil_of_applySequence_eq hsts] at hsts
          have hver : ApplyStep.verify ∈ earlier ++ [ApplyStep.apply] := by
            rw [← hsts]
            decide
          rcases mem_append.mp hver with hmem | hmem
          · exact hsub.subset hmem
          · exact absurd hmem (by decide)

/-- An update whose `Verify` has a fallback is applied although the engine never verified it. -/
theorem apply_without_verify :
    ¬ ∀ (engine : ApplyEngine String) (a : UpdateAgent String) (nowMs : UInt64),
      AppliesInOrder engine nowMs a := by
  intro h
  set policy : RetryPolicy :=
    { maxAttempts := 1, backoff := .none, fallbacks := [stepTaskId .download],
      circuitBreakerThreshold := 0, group := none } with hpol
  set a : UpdateAgent String :=
    { UpdateAgent.new.accept id "0.2.0" with
      retries := PolicyEngine.new.register (stepTaskId .verify) policy } with ha
  have hsub := (h (failsOn .verify) a 0).1 (by decide) (by decide)
  have hnot : ApplyStep.verify ∉ succeeded (callsDuring (failsOn .verify) 0 a) := by decide
  exact hnot (hsub.subset (by decide))

end UpdateAgent

end Aether.Update
