import Aether.Algorithm.Recent
import Aether.Background.Agent

/-!
# What the background agent does not repeat

Workflows that fire by the time of day pass `lastFired` 60 seconds after each other, a symptom
passes `plannedSymptoms` once, over every run of ticks from any state.
-/

namespace Aether.Background

open Aether.Core Diagnostics Recovery Automation Throttle
open Security (saturatingSub)

variable {V : Type*} {render : Json → String} {nowMs : UInt64}

def MinuteLater (prev now : UInt64) : Prop := prev.toNat + 60000 ≤ now.toNat

instance : IsTrans UInt64 MinuteLater := ⟨fun a b c hab hbc => by unfold MinuteLater at *; omega⟩

def NeverLater (_ _ : UInt64) : Prop := False

instance : IsTrans UInt64 NeverLater := ⟨fun _ _ _ h => h.elim⟩

lemma minuteLater_of_saturatingSub {prev now : UInt64} (h : ¬ saturatingSub now prev < 60000) :
    MinuteLater prev now := by
  unfold saturatingSub at h
  split_ifs at h with hle
  · have hsub := UInt64.toNat_sub_of_le _ _ hle
    rw [UInt64.lt_iff_toNat_lt, hsub, show (60000 : UInt64).toNat = 60000 from rfl] at h
    rw [UInt64.le_iff_toNat_le] at hle
    unfold MinuteLater
    omega
  · exact absurd (by decide) h

structure Fires (p p' : Progress V) : Prop where
  throttled : ∃ fired, p'.timeFired = p.timeFired ++ fired ∧
    Throttled MinuteLater p.state.lastFired fired p'.state.lastFired
  planned : p'.state.plannedSymptoms = p.state.plannedSymptoms
  queued : ∀ item ∈ p'.queue, item ∈ p.queue ∨ item.kind = .workflow

lemma Fires.refl (p : Progress V) : Fires p p :=
  ⟨⟨[], by simp, .nil _⟩, rfl, fun _ h => Or.inl h⟩

lemma Fires.trans {p p' p'' : Progress V} (h : Fires p p') (h' : Fires p' p'') :
    Fires p p'' := by
  obtain ⟨fired, heq, hfir⟩ := h.throttled
  obtain ⟨fired', heq', hfir'⟩ := h'.throttled
  refine ⟨⟨fired ++ fired', by rw [heq', heq, List.append_assoc], hfir.append hfir'⟩,
    h'.planned.trans h.planned, fun item hitem => ?_⟩
  rcases h'.queued item hitem with hitem | hkind
  · exact h.queued item hitem
  · exact Or.inr hkind

lemma Fires.foldl {ι : Type*} {f : Progress V → ι → Progress V} (hf : ∀ p i, Fires p (f p i))
    (is : List ι) (p : Progress V) : Fires p (is.foldl f p) := by
  induction is generalizing p with
  | nil => exact .refl p
  | cons i is ih => exact (hf p i).trans (ih (f p i))

lemma mem_append_planWorkflow {items : List ActionItem} {w : Workflow} {id : String} :
    ∀ item ∈ items ++ planWorkflow render w id nowMs, item ∈ items ∨ item.kind = .workflow := by
  intro item hitem
  rcases List.mem_append.mp hitem with hitem | hitem
  · exact Or.inl hitem
  · obtain ⟨task, -, rfl⟩ := List.mem_map.mp hitem
    exact Or.inr rfl

lemma fires_fireOnTime (p : Progress V) (w : Workflow) :
    Fires p (fireOnTime render nowMs p w) := by
  unfold fireOnTime
  split_ifs with h
  · exact .refl p
  · refine ⟨⟨[(w.id, nowMs)], rfl, .single fun prev hprev => ?_⟩, rfl, mem_append_planWorkflow⟩
    apply minuteLater_of_saturatingSub
    rw [Option.mem_def.mp hprev] at h
    simpa using h

lemma fires_handleEvent (p : Progress V) (event : AgentEvent V) :
    Fires p (handleEvent render nowMs p event) := by
  cases event with
  | signalUpdate signal =>
    rw [handleEvent]
    exact ⟨⟨[], (List.append_nil _).symm, .nil _⟩, rfl, fun _ h => Or.inl h⟩
  | timeTick hour minute => exact Fires.foldl fires_fireOnTime _ p
  | workflowTrigger id =>
    rw [handleEvent]
    cases p.state.workflows.get id.value with
    | none => exact .refl p
    | some w => exact ⟨⟨[], (List.append_nil _).symm, .nil _⟩, rfl, mem_append_planWorkflow⟩

lemma foldl_planSymptom (recovery : RecoveryPolicy) (nowMs : UInt64) (symptoms : List Symptom)
    (x : (String → Option UInt64) × List RecoveryPlan) :
    ∃ plans, (symptoms.foldl (planSymptom recovery nowMs) x).2 = x.2 ++ plans ∧
      Throttled NeverLater x.1 (plans.map fun plan => (plan.symptomId, nowMs))
        (symptoms.foldl (planSymptom recovery nowMs) x).1 := by
  induction symptoms generalizing x with
  | nil => exact ⟨[], by simp, .nil _⟩
  | cons s rest ih =>
    obtain ⟨plans, heq, hpla⟩ := ih (planSymptom recovery nowMs x s)
    rw [List.foldl_cons]
    unfold planSymptom at heq hpla ⊢
    split_ifs at heq hpla ⊢ with hplanned
    · exact ⟨plans, heq, hpla⟩
    · cases hplan : recovery.planFor s.id with
      | none =>
        rw [hplan] at heq hpla
        exact ⟨plans, heq, hpla⟩
      | some plan =>
        rw [hplan] at heq hpla
        refine ⟨plan :: plans, by simpa using heq, ?_⟩
        rw [List.map_cons, RecoveryPolicy.symptomId_of_planFor hplan]
        refine .cons (fun prev hprev => ?_) hpla
        rw [Option.mem_def.mp hprev] at hplanned
        exact absurd rfl hplanned

structure Tick (V : Type*) where
  events : List (AgentEvent V)
  nowMs : UInt64

/-- The tick queues a recovery action for the symptom. -/
def TickOutcome.Plans (o : TickOutcome V) (id : String) : Prop :=
  ∃ item ∈ o.queue, item.kind = .recovery ∧ item.reason = .symptom id

variable [LinearOrder V] [OfScientific V]

lemma throttled_tick (render : Json → String) (s : BackgroundState V) (t : Tick V) :
    Throttled MinuteLater s.lastFired (tick render s t.events t.nowMs).timeFired
        (tick render s t.events t.nowMs).state.lastFired ∧
      Throttled NeverLater s.plannedSymptoms
        ((tick render s t.events t.nowMs).newPlans.map fun plan => (plan.symptomId, t.nowMs))
        (tick render s t.events t.nowMs).state.plannedSymptoms ∧
      ∀ id, (tick render s t.events t.nowMs).Plans id →
        ∃ plan ∈ (tick render s t.events t.nowMs).newPlans, plan.symptomId = id := by
  rw [tick]
  have hfir : Fires ⟨s, [], []⟩ (t.events.foldl (handleEvent render t.nowMs) ⟨s, [], []⟩) :=
    Fires.foldl fires_handleEvent _ _
  generalize t.events.foldl (handleEvent render t.nowMs) ⟨s, [], []⟩ = p at hfir
  obtain ⟨⟨fired, heq, hfired⟩, hsame, hque⟩ := hfir
  obtain ⟨plans, hpla, hplanned⟩ := foldl_planSymptom p.state.recovery t.nowMs
    p.state.report.evaluate.symptoms (p.state.plannedSymptoms, [])
  rw [List.nil_append] at heq hpla
  rw [heq, hpla]
  refine ⟨hfired, hsame ▸ hplanned, ?_⟩
  rintro id ⟨item, hitem, hkind, hrea⟩
  rcases List.mem_append.mp hitem with hitem | hitem
  · -- what the events have queued is for workflows
    rcases hque item hitem with hnil | hwor
    · cases hnil
    · rw [hwor] at hkind
      cases hkind
  · obtain ⟨plan, hplan, hitem⟩ := List.mem_flatMap.mp hitem
    obtain ⟨action, -, rfl⟩ := List.mem_map.mp hitem
    exact ⟨plan, hplan, ActionReason.symptom.inj hrea⟩

def history (render : Json → String) :
    BackgroundState V → List (Tick V) → List (Tick V × TickOutcome V)
  | _, [] => []
  | s, t :: ts =>
    let o := tick render s t.events t.nowMs
    (t, o) :: history render o.state ts

lemma throttled_history (render : Json → String) (s : BackgroundState V)
    (ticks : List (Tick V)) :
    (∃ m, Throttled MinuteLater s.lastFired
      ((history render s ticks).flatMap fun x => x.2.timeFired) m) ∧
    ∃ m, Throttled NeverLater s.plannedSymptoms ((history render s ticks).flatMap fun x =>
      x.2.newPlans.map fun plan => (plan.symptomId, x.1.nowMs)) m := by
  induction ticks generalizing s with
  | nil => exact ⟨⟨_, .nil _⟩, _, .nil _⟩
  | cons t ts ih =>
    obtain ⟨hfir, hpla, -⟩ := throttled_tick render s t
    obtain ⟨⟨m, hm⟩, m', hm'⟩ := ih (tick render s t.events t.nowMs).state
    rw [history, List.flatMap_cons, List.flatMap_cons]
    exact ⟨⟨m, hfir.append hm⟩, m', hpla.append hm'⟩

lemma plans_of_mem_history {s : BackgroundState V} {ticks : List (Tick V)} {id : String} :
    ∀ x ∈ history render s ticks, x.2.Plans id →
      (id, x.1.nowMs) ∈ x.2.newPlans.map fun plan => (plan.symptomId, x.1.nowMs) := by
  induction ticks generalizing s with
  | nil =>
    intro x hx
    cases hx
  | cons t ts ih =>
    intro x hx hpla
    rcases List.mem_cons.mp hx with rfl | hx
    · obtain ⟨plan, hplan, rfl⟩ := (throttled_tick render s t).2.2 id hpla
      exact List.mem_map_of_mem hplan
    · exact ih x hx hpla

/-- In every run, the firings of a workflow by the time of day are at least 60 seconds apart, and no
two ticks queue recovery actions for the same symptom. -/
theorem history_throttled (render : Json → String) (s : BackgroundState V)
    (ticks : List (Tick V)) :
    ((history render s ticks).flatMap fun x => x.2.timeFired).Pairwise
        (fun a b => a.1 = b.1 → a.2.toNat + 60000 ≤ b.2.toNat) ∧
      ∀ id, (history render s ticks).Pairwise fun x y => ¬ (x.2.Plans id ∧ y.2.Plans id) := by
  obtain ⟨⟨m, hfir⟩, m', hpla⟩ := throttled_history render s ticks
  refine ⟨hfir.pairwise, fun id => ?_⟩
  refine (List.pairwise_flatMap.mp hpla.pairwise).2.imp_of_mem ?_
  rintro x y hx hy hapa ⟨hxpl, hypl⟩
  exact hapa _ (plans_of_mem_history x hx hxpl) _ (plans_of_mem_history y hy hypl) rfl

end Aether.Background
