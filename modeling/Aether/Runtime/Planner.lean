import Aether.Runtime.Action
import Mathlib.Data.List.Induction
import Mathlib.Data.String.Basic

/-!
# Plans

A plan is a list of steps with a risk level for the whole, which is computed again whenever a step
is added.  Risk levels are texts here, and `recalculateRisk` takes the greatest text.
-/

namespace Aether.Runtime

open Aether.Core

structure PlanStep where
  stepIndex : UInt32
  actionName : String
  parameters : Json
  dependsOn : List UInt32
  requiredCapabilities : List String
  riskLevel : String
  optional : Bool
  recovery : RecoveryPolicy

structure Plan where
  id : Uuid
  sessionId : String
  intentSummary : String
  steps : List PlanStep
  estimatedRisk : String
  requiresApproval : Bool
  createdAt : UInt64
  maxPlanRetries : UInt32

namespace Plan

def new (id : Uuid) (now : UInt64) (sessionId intentSummary : String) : Plan :=
  { id, sessionId, intentSummary, steps := [], estimatedRisk := "low", requiresApproval := false,
    createdAt := now, maxPlanRetries := 0 }

def recalculateRisk (plan : Plan) : Plan :=
  match (plan.steps.map fun s => s.riskLevel).max? with
  | some risk =>
    { plan with estimatedRisk := risk, requiresApproval := risk == "high" || risk == "critical" }
  | none => plan

def addStep (plan : Plan) (step : PlanStep) : Plan :=
  recalculateRisk { plan with steps := plan.steps ++ [step] }

end Plan

namespace Planner

def riskText : ActionRisk → String
  | .low => "low"
  | .medium => "medium"
  | .high => "high"
  | .critical => "critical"

def planMulti (id : Uuid) (now : UInt64) (sessionId intentSummary : String)
    (steps : List PlanStep) : Plan :=
  steps.foldl Plan.addStep (Plan.new id now sessionId intentSummary)

end Planner

/-!
## The risk of a plan

The levels are compared as texts, `"critical" < "high" < "low" < "medium"`.
-/

def ActionRisk.severity : ActionRisk → ℕ
  | .low => 0
  | .medium => 1
  | .high => 2
  | .critical => 3

namespace Planner

lemma riskText_injective : Function.Injective riskText := by
  intro r r' h
  cases r <;> cases r' <;> first | rfl | exact absurd h (by decide)

def textRank : ActionRisk → ℕ
  | .critical => 0
  | .high => 1
  | .low => 2
  | .medium => 3

lemma riskText_le_iff (r r' : ActionRisk) :
    riskText r ≤ riskText r' ↔ textRank r ≤ textRank r' := by
  cases r <;> cases r' <;> decide

lemma eq_of_textRank_le {r r' : ActionRisk} (hr : r = .high ∨ r = .critical)
    (htext : textRank r' ≤ textRank r) (hsev : r'.severity ≤ r.severity) : r' = r := by
  rcases hr with rfl | rfl <;> cases r' <;> simp_all [textRank, ActionRisk.severity]

lemma severity_le_of_textRank_le {r r' : ActionRisk} (hr : ¬ (r = .high ∨ r = .critical))
    (hr' : ¬ (r' = .high ∨ r' = .critical)) (htext : textRank r' ≤ textRank r) :
    r'.severity ≤ r.severity := by
  cases r <;> cases r' <;> simp_all [textRank, ActionRisk.severity]

lemma high_or_critical_iff {text : String} {r : ActionRisk} (h : text = riskText r) :
    text = "high" ∨ text = "critical" ↔ r = .high ∨ r = .critical := by
  subst h
  cases r <;> decide

lemma approval_riskText_iff (r : ActionRisk) :
    (riskText r == "high" || riskText r == "critical") = true ↔ r = .high ∨ r = .critical := by
  cases r <;> decide

section Plans

variable (id : Uuid) (now : UInt64) (sessionId intentSummary : String)

lemma recalculateRisk_steps (plan : Plan) : plan.recalculateRisk.steps = plan.steps := by
  unfold Plan.recalculateRisk
  split <;> rfl

lemma planMulti_append_singleton (steps : List PlanStep) (step : PlanStep) :
    planMulti id now sessionId intentSummary (steps ++ [step]) =
      (planMulti id now sessionId intentSummary steps).addStep step := by
  rw [planMulti, List.foldl_append]
  rfl

lemma planMulti_steps (steps : List PlanStep) :
    (planMulti id now sessionId intentSummary steps).steps = steps := by
  induction steps using List.reverseRecOn with
  | nil => rfl
  | append_singleton steps step ih =>
    rw [planMulti_append_singleton, Plan.addStep, recalculateRisk_steps, ih]

lemma planMulti_risk {steps : List PlanStep} (hne : steps ≠ []) :
    ∃ s ∈ steps, (∀ t ∈ steps, t.riskLevel ≤ s.riskLevel) ∧
      (planMulti id now sessionId intentSummary steps).estimatedRisk = s.riskLevel ∧
      (planMulti id now sessionId intentSummary steps).requiresApproval =
        (s.riskLevel == "high" || s.riskLevel == "critical") := by
  rcases List.eq_nil_or_concat steps with rfl | ⟨init, last, rfl⟩
  · exact absurd rfl hne
  · rw [List.concat_eq_append, planMulti_append_singleton, Plan.addStep, Plan.recalculateRisk,
      planMulti_steps]
    cases hmax : ((init ++ [last]).map fun s => s.riskLevel).max? with
    | none => simp at hmax
    | some risk =>
      obtain ⟨hmem, hle⟩ := List.max?_eq_some_iff.mp hmax
      obtain ⟨s, hs, rfl⟩ := List.mem_map.mp hmem
      exact ⟨s, hs, fun t ht => hle _ (List.mem_map_of_mem ht), rfl, rfl⟩

end Plans

/-- The plan asks for approval iff some step needs it, and has the risk of its most severe step. -/
structure Rated (plan : Plan) (steps : List PlanStep) : Prop where
  approval : plan.requiresApproval ↔ ∃ s ∈ steps, s.riskLevel = "high" ∨ s.riskLevel = "critical"
  severe : steps ≠ [] → ∃ r, plan.estimatedRisk = riskText r ∧
    (∃ s ∈ steps, s.riskLevel = riskText r) ∧
    ∀ s ∈ steps, ∀ r', s.riskLevel = riskText r' → r'.severity ≤ r.severity

/-- **The risk of a plan** is right iff no step is high or critical, or all steps have the same
level. -/
theorem planMulti_rated_iff (id : Uuid) (now : UInt64) (sessionId intentSummary : String)
    (steps : List PlanStep) (hlevels : ∀ s ∈ steps, ∃ r, s.riskLevel = riskText r) :
    Rated (planMulti id now sessionId intentSummary steps) steps ↔
      (∀ s ∈ steps, ¬ (s.riskLevel = "high" ∨ s.riskLevel = "critical")) ∨
        ∀ s ∈ steps, ∀ t ∈ steps, s.riskLevel = t.riskLevel := by
  by_cases hne : steps = []
  · subst hne
    refine ⟨fun _ => .inl fun s hs => (nomatch hs), fun _ => ⟨?_, fun h => absurd rfl h⟩⟩
    exact ⟨fun h => (nomatch h), fun ⟨s, hs, _⟩ => (nomatch hs)⟩
  obtain ⟨top, htop, hle, hrisk, happ⟩ := planMulti_risk id now sessionId intentSummary hne
  obtain ⟨r, hr⟩ := hlevels top htop
  -- the levels of the steps, in the order of their texts
  have htext : ∀ s ∈ steps, ∀ r', s.riskLevel = riskText r' → textRank r' ≤ textRank r := by
    intro s hs r' hr'
    rw [← riskText_le_iff, ← hr, ← hr']
    exact hle s hs
  have happ : (planMulti id now sessionId intentSummary steps).requiresApproval ↔
      r = .high ∨ r = .critical := by
    rw [happ, hr, approval_riskText_iff]
  constructor
  · intro hrat
    by_cases hnone : ∀ s ∈ steps, ¬ (s.riskLevel = "high" ∨ s.riskLevel = "critical")
    · exact .inl hnone
    · right
      push Not at hnone
      have hhigh := happ.mp (hrat.approval.mpr hnone)
      obtain ⟨r₁, hr₁, -, hsev⟩ := hrat.severe hne
      obtain rfl : r = r₁ := riskText_injective (by rw [← hr, ← hr₁, hrisk])
      -- every level is both below in the texts and less severe
      have hsame : ∀ s ∈ steps, s.riskLevel = riskText r := by
        intro s hs
        obtain ⟨r', hr'⟩ := hlevels s hs
        rw [hr', eq_of_textRank_le hhigh (htext s hs r' hr') (hsev s hs r' hr')]
      exact fun s hs t ht => (hsame s hs).trans (hsame t ht).symm
  · rintro (hnone | hsame)
    · have hr' : ¬ (r = .high ∨ r = .critical) := by
        rw [← high_or_critical_iff hr]
        exact hnone top htop
      refine ⟨⟨fun h => absurd (happ.mp h) hr', fun ⟨s, hs, h⟩ => absurd h (hnone s hs)⟩,
        fun _ => ⟨r, hrisk.trans hr, ⟨top, htop, hr⟩, fun s hs r' hs' => ?_⟩⟩
      refine severity_le_of_textRank_le hr' ?_ (htext s hs r' hs')
      rw [← high_or_critical_iff hs']
      exact hnone s hs
    · refine ⟨?_, fun _ => ⟨r, hrisk.trans hr, ⟨top, htop, hr⟩, fun s hs r' hs' => ?_⟩⟩
      · rw [happ, ← high_or_critical_iff hr]
        exact ⟨fun h => ⟨top, htop, h⟩, fun ⟨s, hs, h⟩ => hsame top htop s hs ▸ h⟩
      · have hrr : riskText r' = riskText r := by rw [← hs', ← hr, hsame s hs top htop]
        rw [riskText_injective hrr]

def fileStep (stepIndex : UInt32) (actionName riskLevel : String) : PlanStep :=
  { stepIndex, actionName, parameters := .obj [], dependsOn := [],
    requiredCapabilities := [actionName], riskLevel, optional := false, recovery := {} }

theorem planMulti_rated_medium :
    Rated (planMulti ⟨Vector.replicate 16 0⟩ 0 "session" "copy a file"
      [fileStep 0 "file.read" "low", fileStep 1 "file.write" "medium"])
      [fileStep 0 "file.read" "low", fileStep 1 "file.write" "medium"] := by
  refine (planMulti_rated_iff _ _ _ _ _ ?_).mpr (.inl ?_)
  · simp only [List.forall_mem_cons, List.not_mem_nil, IsEmpty.forall_iff, implies_true, and_true]
    exact ⟨⟨.low, rfl⟩, ⟨.medium, rfl⟩⟩
  · simp [fileStep]

/-- A deletion after a search asks for no approval. -/
theorem planMulti_low_high_not_rated :
    ¬ Rated (planMulti ⟨Vector.replicate 16 0⟩ 0 "session" "clean up"
      [fileStep 0 "file.search" "low", fileStep 1 "file.delete" "high"])
      [fileStep 0 "file.search" "low", fileStep 1 "file.delete" "high"] := by
  intro h
  have happ := h.approval.mpr ⟨fileStep 1 "file.delete" "high", by simp, .inl rfl⟩
  exact absurd happ (by decide +kernel)

end Planner

end Aether.Runtime
