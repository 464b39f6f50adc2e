import Aether.AgentCore.Proposal
import Aether.Algorithm.Command

/-!
## Validated proposals and their tasks
-/

namespace Aether.AgentCore

lemma ProposalRisk.not_lt {a b : ProposalRisk} : ¬ a < b ↔ b.rank ≤ a.rank := Nat.not_lt

structure Valid (p : Proposal) (observations : List Observation) : Prop where
  id : p.id.value ≠ ""
  title : p.title ≠ ""
  description : p.description ≠ ""
  reasoning : p.reasoning ≠ ""
  evidence : ∀ ev ∈ p.evidence, ∃ o ∈ observations, o.id = ev
  risk : (minRisk p.kind).rank ≤ p.risk.rank

variable {p : Proposal} {observations : List Observation}

lemma validateProposal_eq_ok_iff :
    validateProposal p observations = .ok () ↔ Valid p observations := by
  unfold validateProposal
  constructor
  · intro h
    split_ifs at h with hid htex hrisk
    · split at h <;> cases h
    split at h
    · cases h
    · next hev =>
      simp only [Bool.or_eq_true, String.isEmpty_iff, not_or] at htex
      obtain ⟨⟨htit, hdesc⟩, hrea⟩ := htex
      refine ⟨by simpa using hid, htit, hdesc, hrea, ?_,
        ProposalRisk.not_lt.mp hrisk⟩
      simpa using hev
  · intro h
    have hev : (p.evidence.find? fun ev => !observations.any fun o => o.id = ev) = none := by
      simpa using h.evidence
    simp [h.id, h.title, h.description, h.reasoning, hev, ProposalRisk.not_lt.mpr h.risk]

lemma mem_foldl_proposeDraft :
    ∀ (drafts : List Proposal) (accepted : List Proposal) (rejected : List ProposalError),
      p ∈ (drafts.foldl (proposeDraft observations) (accepted, rejected)).1 ↔
        p ∈ accepted ∨ p ∈ drafts ∧ validateProposal p observations = .ok () := by
  intro drafts
  induction drafts with
  | nil => simp
  | cons draft drafts ih =>
    intro accepted rejected
    rw [List.foldl_cons, proposeDraft]
    cases hdra : validateProposal draft observations with
    | ok u =>
      rw [ih, List.mem_append, List.mem_singleton, List.mem_cons]
      constructor
      · rintro ((h | rfl) | h)
        · exact .inl h
        · exact .inr ⟨.inl rfl, hdra⟩
        · exact .inr ⟨.inr h.1, h.2⟩
      · rintro (h | ⟨rfl | h, hok⟩)
        · exact .inl (.inl h)
        · exact .inl (.inr rfl)
        · exact .inr ⟨h, hok⟩
    | error e =>
      rw [ih, List.mem_cons]
      constructor
      · rintro (h | h)
        · exact .inl h
        · exact .inr ⟨.inr h.1, h.2⟩
      · rintro (h | ⟨rfl | h, hok⟩)
        · exact .inl h
        · rw [hdra] at hok
          cases hok
        · exact .inr ⟨h, hok⟩

lemma mem_proposeFromObservations {drafts : List Proposal} :
    p ∈ (proposeFromObservations drafts observations).1 ↔
      p ∈ drafts ∧ validateProposal p observations = .ok () := by
  simp [proposeFromObservations, mem_foldl_proposeDraft]

/-- The risk is at least the default of the kind. -/
def MeetsDefaultRisk (p : Proposal) : Prop :=
  p.kind.defaultRisk.toRiskLevel ≤ p.risk.toRiskLevel

instance (p : Proposal) : Decidable (MeetsDefaultRisk p) :=
  inferInstanceAs (Decidable (p.kind.defaultRisk.toRiskLevel ≤ p.risk.toRiskLevel))

lemma Valid.meetsDefaultRisk_iff (h : Valid p observations) :
    MeetsDefaultRisk p ↔ ¬ (p.kind = .powerControl ∧ p.risk = .high) := by
  have hrisk := h.risk
  have htab : ∀ (kind : TaskKind) (risk : ProposalRisk), (minRisk kind).rank ≤ risk.rank →
      (kind.defaultRisk.toRiskLevel ≤ risk.toRiskLevel ↔
        ¬ (kind = .powerControl ∧ risk = .high)) := by
    intro kind risk
    cases kind <;> cases risk <;> decide
  exact htab p.kind p.risk hrisk

/-- **The risk floor**: a single accepted proposal, and every proposal that a batch accepts, has at
least the default risk of its kind, unless it is a `powerControl` proposal that declares `high`.
Its default is `critical`, but `high` is enough for the validator. -/
theorem accepted_risk_floor (drafts : List Proposal) (observations : List Observation)
    (p : Proposal) :
    (validateProposal p observations = .ok () →
      (MeetsDefaultRisk p ↔ ¬ (p.kind = .powerControl ∧ p.risk = .high))) ∧
    (p ∈ (proposeFromObservations drafts observations).1 →
      (MeetsDefaultRisk p ↔ ¬ (p.kind = .powerControl ∧ p.risk = .high))) := by
  have hsin : validateProposal p observations = .ok () →
      (MeetsDefaultRisk p ↔ ¬ (p.kind = .powerControl ∧ p.risk = .high)) := by
    intro hok
    exact (validateProposal_eq_ok_iff.mp hok).meetsDefaultRisk_iff
  refine ⟨hsin, ?_⟩
  intro hp
  obtain ⟨-, hok⟩ := mem_proposeFromObservations.mp hp
  exact hsin hok

def shutdownProposal : Proposal :=
  { id := ⟨"p1"⟩, kind := .powerControl, title := "shut down",
    description := "shut down the device", risk := .high, reasoning := "the battery is low",
    evidence := [], timestampMs := 1, target := none, arguments := none }

theorem power_control_below_floor :
    validateProposal shutdownProposal [] = .ok () ∧
      shutdownProposal ∈ (proposeFromObservations [shutdownProposal] []).1 ∧
      ¬ MeetsDefaultRisk shutdownProposal := by
  have hok : validateProposal shutdownProposal [] = .ok () := by rfl
  refine ⟨hok, mem_proposeFromObservations.mpr ⟨List.mem_singleton.mpr rfl, hok⟩, ?_⟩
  decide

lemma proposalToTask_eq_some_iff {taskId : TaskId} {t : AgentTask} :
    proposalToTask p taskId = some t ↔
      (taskId.value ≠ "" ∧ p.title ≠ "" ∧ p.description ≠ "") ∧
        t = { id := taskId, kind := p.kind, title := p.title, description := p.description,
              dependsOn := [], risk := .ofRiskLevel p.risk.toRiskLevel, target := p.target,
              arguments := p.arguments } := by
  unfold proposalToTask AgentTask.new TaskId.new
  by_cases hid : taskId.value = ""
  · simp [hid]
  by_cases htex : p.title = "" ∨ p.description = ""
  · rcases htex with htit | hdesc
    · simp [hid, htit]
    · simp [hid, hdesc]
  · obtain ⟨htit, hdesc⟩ := not_or.mp htex
    simpa [hid, htit, hdesc] using eq_comm

end Aether.AgentCore
