import Aether.AgentCore.Task

/-!
# Observations and proposals (`aether-agent-core/src/observation.rs`, `proposal.rs`)

A proposal is what the agent wants to do, with the risk it declares.  `validateProposal` checks the
declared risk against the kind of the task; `proposalToTask` carries it over to the task.
-/

namespace Aether.AgentCore

open Aether.Core

inductive ObservationSeverity where
  | info
  | notice
  | warning
  | critical
  deriving DecidableEq

structure Observation where
  id : String
  component : String
  summary : String
  detail : Option String
  severity : ObservationSeverity
  timestampMs : UInt64
  data : Option Json

def Observation.new (id component summary : String) (severity : ObservationSeverity)
    (timestampMs : UInt64) : Option Observation :=
  if id.isEmpty || component.isEmpty || summary.isEmpty then none
  else some ⟨id, component, summary, none, severity, timestampMs, none⟩

inductive ProposalRisk where
  | low
  | medium
  | high
  | critical
  deriving DecidableEq

namespace ProposalRisk

def asStr : ProposalRisk → String
  | .low => "low"
  | .medium => "medium"
  | .high => "high"
  | .critical => "critical"

def toRiskLevel : ProposalRisk → RiskLevel
  | .low => .low
  | .medium => .medium
  | .high => .high
  | .critical => .critical

def requiresConsent (r : ProposalRisk) : Bool := r ≠ .low

def rank : ProposalRisk → ℕ
  | .low => 0
  | .medium => 1
  | .high => 2
  | .critical => 3

instance : LT ProposalRisk := ⟨fun a b => a.rank < b.rank⟩

instance (a b : ProposalRisk) : Decidable (a < b) := inferInstanceAs (Decidable (a.rank < b.rank))

end ProposalRisk

structure ProposalId where
  value : String
  deriving DecidableEq

def ProposalId.new (value : String) : Option ProposalId :=
  if value.isEmpty then none else some ⟨value⟩

structure Proposal where
  id : ProposalId
  kind : TaskKind
  title : String
  description : String
  risk : ProposalRisk
  reasoning : String
  evidence : List String
  timestampMs : UInt64
  target : Option String
  arguments : Option Json

inductive ProposalError where
  | emptyId
  | incompleteDescription
  | unknownEvidence (proposal missing : String)
  | riskTooLowForKind (kind : TaskKind) (risk : ProposalRisk)
  deriving DecidableEq

def ProposalError.display : ProposalError → String
  | .emptyId => "proposal id is empty"
  | .incompleteDescription => "proposal is missing title, description, or reasoning"
  | .unknownEvidence proposal missing =>
    s!"proposal '{proposal}' references unknown observation '{missing}'"
  | .riskTooLowForKind kind risk =>
    s!"proposal kind '{kind.asStr}' requires consent, but risk is '{risk.asStr}'"

def minRisk : TaskKind → ProposalRisk
  | .notify | .displayControl => .low
  | .proposeUpdate | .proposeInstall | .securityControl | .powerControl | .custom => .high
  | _ => .medium

def validateProposal (proposal : Proposal) (observations : List Observation) :
    Except ProposalError Unit :=
  if proposal.id.value.isEmpty then .error .emptyId
  else if proposal.title.isEmpty || proposal.description.isEmpty || proposal.reasoning.isEmpty then
    .error .incompleteDescription
  else
    match proposal.evidence.find? fun ev => !observations.any fun o => o.id = ev with
    | some ev => .error (.unknownEvidence proposal.id.value ev)
    | none =>
      if proposal.risk < minRisk proposal.kind then
        .error (.riskTooLowForKind proposal.kind proposal.risk)
      else .ok ()

def proposeDraft (observations : List Observation) :
    List Proposal × List ProposalError → Proposal → List Proposal × List ProposalError
  | (accepted, rejected), draft =>
    match validateProposal draft observations with
    | .ok () => (accepted ++ [draft], rejected)
    | .error e => (accepted, rejected ++ [e])

def proposeFromObservations (drafts : List Proposal) (observations : List Observation) :
    List Proposal × List ProposalError :=
  drafts.foldl (proposeDraft observations) ([], [])

def proposalToTask (proposal : Proposal) (taskId : TaskId) : Option AgentTask := do
  let t ← AgentTask.new taskId.value proposal.kind proposal.title proposal.description
  return { t with risk := .ofRiskLevel proposal.risk.toRiskLevel
                  target := proposal.target.orElse fun _ => t.target
                  arguments := proposal.arguments.orElse fun _ => t.arguments }

/-!
## The agent's state (`aether-agent-core/src/state.rs`)

The pending proposals are a map from the text of their ids; two maps with the same entries are
equal, as two `BTreeMap`s are.
-/

def observationLogLimit : ℕ := 256

def maxTaskHistory : ℕ := 64

inductive TaskStage where
  | proposed
  | approved
  | executing
  | done
  | failed
  | cancelled
  deriving DecidableEq

def TaskStage.isTerminal : TaskStage → Bool
  | .done | .failed | .cancelled => true
  | .proposed | .approved | .executing => false

structure HistoryEntry where
  task : AgentTask
  stage : TaskStage
  timestampMs : UInt64
  note : Option String

structure AgentStatus where
  tasks : TaskGraph
  proposals : Std.ExtTreeMap String Proposal
  history : List HistoryEntry
  observations : List Observation
  /-- A proposal is stored under its own id. -/
  keyed : ∀ (id : String) (p : Proposal), proposals[id]? = some p → p.id.value = id

namespace AgentStatus

def new : AgentStatus := ⟨.new, ∅, [], [], by simp⟩

def proposal (s : AgentStatus) (id : ProposalId) : Option Proposal := s.proposals[id.value]?

def addProposal (s : AgentStatus) (proposal : Proposal) : Bool × AgentStatus :=
  ((s.proposal proposal.id).isNone,
    { s with
      proposals := s.proposals.insert proposal.id.value proposal
      keyed := fun id p h => by
        rw [Std.ExtTreeMap.getElem?_insert] at h
        split_ifs at h with heq
        · rw [Std.LawfulEqCmp.compare_eq_iff_eq] at heq
          rw [← Option.some.inj h, heq]
        · exact s.keyed id p h })

def removeProposal (s : AgentStatus) (id : ProposalId) : Option Proposal × AgentStatus :=
  (s.proposal id,
    { s with
      proposals := s.proposals.erase id.value
      keyed := fun id' p h => by
        rw [Std.ExtTreeMap.getElem?_erase] at h
        split_ifs at h
        exact s.keyed id' p h })

def addObservation (s : AgentStatus) (observation : Observation) : AgentStatus :=
  let observations := s.observations ++ [observation]
  { s with observations := observations.drop (observations.length - observationLogLimit) }

@[simp] lemma addObservation_tasks (s : AgentStatus) (observation : Observation) :
    (s.addObservation observation).tasks = s.tasks := by
  simp only [addObservation]

def removeTask (s : AgentStatus) (id : TaskId) : Option (AgentTask × AgentStatus) :=
  (s.tasks.remove id).map fun (t, tasks) => (t, { s with tasks })

def insertTask (s : AgentStatus) (task : AgentTask) :
    Option (Except TaskDependencyError AgentStatus) :=
  (s.tasks.insert task).map fun inserted => inserted.map fun tasks => { s with tasks }

def task (s : AgentStatus) (id : TaskId) : Option AgentTask := Tasks.get s.tasks.tasks id

def recordHistory (s : AgentStatus) (entry : HistoryEntry) : Option AgentStatus :=
  if entry.stage.isTerminal then
    let history := s.history ++ [entry]
    some { s with history := history.drop (history.length - maxTaskHistory) }
  else none

def completeTask (s : AgentStatus) (id : TaskId) (stage : TaskStage) (timestampMs : UInt64)
    (note : Option String) : Option (Option AgentTask × AgentStatus) :=
  if stage.isTerminal then
    match s.removeTask id with
    | none => some (none, s)
    | some (task, s) =>
      (s.recordHistory { task, stage, timestampMs, note }).map fun s => (some task, s)
  else none

end AgentStatus

end Aether.AgentCore
