import Aether.AgentCore.Equiv.Proposal
import Aether.AgentCore.Equiv.Task
import Aether.SystemCore.DeviceCommands

/-!
# Agent commands (`aether-system-core/src/main.rs`, `dispatch_inner`)

A handler may have changed the status before it answers with an error.  A parameter that is
deserialized is `none` if it is missing, and otherwise the value or the text of the error.
-/

namespace Aether.SystemCore

open AgentCore Aether.Core
open Command (require)

abbrev AgentM := Command AgentStatus IpcError

inductive AgentCommand where
  | propose (proposal : Option (Except String Proposal))
  | observe (observation : Option (Except String Observation))
  | cancel (parameters : Json)
  | approve (parameters : Json)

def idParameter (parameters : Json) : Except IpcError String :=
  required "id" (parameters.field "id").asStr

def proposalErrorCode : ProposalError → String
  | .emptyId => "EMPTY_ID"
  | .incompleteDescription => "INCOMPLETE_DESCRIPTION"
  | .unknownEvidence _ _ => "UNKNOWN_EVIDENCE"
  | .riskTooLowForKind _ _ => "RISK_TOO_LOW"

def addValidated (proposal : Proposal) : AgentM Json := fun s =>
  match validateProposal proposal s.observations with
  | .ok () =>
    let (wasNew, s) := s.addProposal proposal
    (.ok (.obj [("id", .str proposal.id.value), ("new", .bool wasNew)]), s)
  | .error e => (.error ⟨proposalErrorCode e, e.display⟩, s)

def agentPropose (proposal : Option (Except String Proposal)) : AgentM Json := do
  let proposal ← require (required "proposal" proposal)
  let proposal ← require (decoded "proposal" proposal)
  addValidated proposal

def agentObserve (observation : Option (Except String Observation)) : AgentM Json := do
  let observation ← require (required "observation" observation)
  let observation ← require (decoded "observation" observation)
  Command.update fun s => s.addObservation observation
  return .obj [("id", .str observation.id)]

def parseTaskId (id : String) : Except IpcError TaskId :=
  match TaskId.new id with
  | some taskId => .ok taskId
  | none => .error (invalidInput "task id is empty")

def cancelTask (id : TaskId) : AgentM Json := fun s =>
  match s.removeTask id with
  | some (task, s) => (.ok (.obj [("removed", task.toJson)]), s)
  | none => (.error ⟨"NOT_FOUND", s!"task '{id.value}' not found"⟩, s)

def agentCancel (parameters : Json) : AgentM Json := do
  let id ← require (idParameter parameters)
  let id ← require (parseTaskId id)
  cancelTask id

def parseProposalId (id : String) : Except IpcError ProposalId :=
  match ProposalId.new id with
  | some pid => .ok pid
  | none => .error (invalidInput "proposal id is empty")

def takeProposal (id : ProposalId) : AgentM (Option Proposal) := fun s =>
  let (proposal, s) := s.removeProposal id
  (.ok proposal, s)

def foundProposal (id : String) (proposal : Option Proposal) : Except IpcError Proposal :=
  match proposal with
  | some p => .ok p
  | none => .error ⟨"NOT_FOUND", s!"proposal '{id}' not found"⟩

def derivedTaskId (proposal : Proposal) : Except IpcError TaskId :=
  match TaskId.new s!"task-{proposal.id.value}" with
  | some taskId => .ok taskId
  | none => .error ⟨"INTERNAL", "could not derive task id"⟩

def convertedTask (proposal : Proposal) (taskId : TaskId) : Except IpcError AgentTask :=
  match proposalToTask proposal taskId with
  | some task => .ok task
  | none => .error ⟨"INTERNAL", "could not convert proposal to task"⟩

def insertLive (task : AgentTask) : AgentM Unit := fun s =>
  match s.insertTask task with
  | some (.ok s) => (.ok (), s)
  | some (.error e) => (.error (invalidInput s!"insert task: {e.display}"), s)
  | none => (.panic, s)

def approveTaken (idStr : String) (removed : Option Proposal) : AgentM Json := do
  let proposal ← require (foundProposal idStr removed)
  let taskId ← require (derivedTaskId proposal)
  let task ← require (convertedTask proposal taskId)
  insertLive task
  return .obj [("task", task.toJson)]

def agentApprove (parameters : Json) : AgentM Json := do
  let idStr ← require (idParameter parameters)
  let pid ← require (parseProposalId idStr)
  let removed ← takeProposal pid
  approveTaken idStr removed

def AgentCommand.run : AgentCommand → AgentM Json
  | .propose proposal => agentPropose proposal
  | .observe observation => agentObserve observation
  | .cancel parameters => agentCancel parameters
  | .approve parameters => agentApprove parameters

/-!
## Correctness of the agent commands
-/

open Relation

variable {s : AgentStatus} {parameters : Json} {id : ProposalId} {p : Proposal}

lemma removeProposal_eq_self (h : s.proposal id = none) :
    (s.removeProposal id).2 = s := by
  have hera : s.proposals.erase id.value = s.proposals := by
    apply Std.ExtTreeMap.ext_getElem?
    intro k
    rw [Std.ExtTreeMap.getElem?_erase]
    split_ifs with heq
    · obtain rfl := Std.LawfulEqCmp.eq_of_compare heq
      exact h.symm
    · rfl
  simp only [AgentStatus.removeProposal, hera]

lemma removeProposal_ne_self (h : s.proposal id = some p) : (s.removeProposal id).2 ≠ s := by
  intro heq
  have hgone : (s.removeProposal id).2.proposal id = none := by
    simp [AgentStatus.proposal, AgentStatus.removeProposal]
  rw [heq, h] at hgone
  cases hgone

/-- The request names a pending proposal. -/
def Pending (s : AgentStatus) (parameters : Json) (p : Proposal) : Prop :=
  ∃ id, (parameters.field "id").asStr = some id ∧ id ≠ "" ∧ s.proposals[id]? = some p

def taskIdOf (p : Proposal) : TaskId := ⟨"task-" ++ p.id.value⟩

/-- The task of the proposal can be made and inserted. -/
structure Approvable (g : TaskGraph) (p : Proposal) : Prop where
  title : p.title ≠ ""
  description : p.description ≠ ""
  fresh : ∀ t ∈ g.tasks, t.id ≠ taskIdOf p
  independent : ∀ t ∈ g.tasks, ¬ TransGen (Depends g.tasks) t.id (taskIdOf p)

lemma agentApprove_eq {id : String}
    (hid : (parameters.field "id").asStr = some id) (hne : id ≠ "") (s : AgentStatus) :
    agentApprove parameters s =
      approveTaken id (s.proposal ⟨id⟩) (s.removeProposal ⟨id⟩).2 := by
  have hpid : parseProposalId id = .ok ⟨id⟩ := by simp [parseProposalId, ProposalId.new, hne]
  simp only [agentApprove, idParameter, hid, required, Command.require_ok_bind, hpid]
  rfl

lemma agentApprove_of_not_pending (h : ∀ p, ¬ Pending s parameters p) :
    ∃ e, agentApprove parameters s = (.error e, s) := by
  rcases hid : (parameters.field "id").asStr with - | id
  · simp [agentApprove, idParameter, hid, required]
  by_cases hne : id = ""
  · simp [agentApprove, idParameter, hid, required, hne, parseProposalId, ProposalId.new]
  have hnone : s.proposal ⟨id⟩ = none := by
    rw [Option.eq_none_iff_forall_not_mem]
    exact fun p hp => h p ⟨id, hid, hne, hp⟩
  rw [agentApprove_eq hid hne, hnone, removeProposal_eq_self hnone]
  exact ⟨_, rfl⟩

lemma taskIdOf_ne (p : Proposal) : (taskIdOf p).value ≠ "" := by simp [taskIdOf]

lemma derivedTaskId_eq (p : Proposal) : derivedTaskId p = .ok (taskIdOf p) := by
  have hne : ¬ (taskIdOf p).value.isEmpty := by simpa using taskIdOf_ne p
  have hnew : TaskId.new s!"task-{p.id.value}" = some (taskIdOf p) := if_neg hne
  rw [derivedTaskId, hnew]

lemma accepts_iff {g : TaskGraph} {t : AgentTask} (hid : t.id = taskIdOf p)
    (hdeps : t.dependsOn = []) (htit : p.title ≠ "") (hdesc : p.description ≠ "") :
    Accepts g.tasks t ↔ Approvable g p := by
  constructor
  · rintro ⟨⟨-, hfr, -⟩, hacy⟩
    rw [hid] at hfr hacy
    exact ⟨htit, hdesc, hfr, hacy⟩
  · rintro ⟨-, -, hfr, hind⟩
    rw [← hid] at hfr hind
    refine ⟨⟨?_, hfr, by simp [hdeps]⟩, hind⟩
    rw [hid]
    exact taskIdOf_ne p

lemma approveTaken_some (idStr : String) (p : Proposal) (s : AgentStatus) :
    (Approvable s.tasks p ∧ ∃ r s', approveTaken idStr (some p) s = (.ok r, s')) ∨
      (¬ Approvable s.tasks p ∧ ∃ e, approveTaken idStr (some p) s = (.error e, s)) := by
  simp only [approveTaken, foundProposal, derivedTaskId_eq, Command.require_ok_bind, convertedTask]
  rcases htask : proposalToTask p (taskIdOf p) with - | t
  · -- a text is missing
    refine .inr ⟨fun h => ?_, _, rfl⟩
    rw [proposalToTask_eq_some_iff.mpr ⟨⟨taskIdOf_ne p, h.title, h.description⟩, rfl⟩] at htask
    cases htask
  · obtain ⟨⟨-, htit, hdesc⟩, ht⟩ := proposalToTask_eq_some_iff.mp htask
    have hacc : Accepts s.tasks.tasks t ↔ Approvable s.tasks p :=
      accepts_iff (by rw [ht]) (by rw [ht]) htit hdesc
    rw [← hacc, Command.require_ok_bind, Command.bind_apply, insertLive, AgentStatus.insertTask]
    rcases s.tasks.insert_cases t with ⟨ha, g, hins, -⟩ | ⟨hna, e, hins⟩
    · rw [hins]
      exact .inl ⟨ha, _, _, rfl⟩
    · rw [hins]
      exact .inr ⟨hna, _, rfl⟩

lemma agentApprove_of_pending (h : Pending s parameters p) :
    (Approvable s.tasks p ∧ ∃ r s', agentApprove parameters s = (.ok r, s')) ∨
      (¬ Approvable s.tasks p ∧ ∃ e s', s' ≠ s ∧ agentApprove parameters s = (.error e, s')) := by
  obtain ⟨id, hid, hne, hp⟩ := h
  have htak : s.proposal ⟨id⟩ = some p := hp
  rw [agentApprove_eq hid hne, htak]
  rcases approveTaken_some id p (s.removeProposal ⟨id⟩).2 with ⟨ha, hok⟩ | ⟨hna, e, herr⟩
  · exact .inl ⟨ha, hok⟩
  · exact .inr ⟨hna, e, _, removeProposal_ne_self htak, herr⟩

/-- A failed approval leaves the status as it was, exactly if the request names no pending proposal
or one that can be approved: the proposal is taken out before its task is made. -/
theorem agentApprove_atomic_iff (s : AgentStatus) (parameters : Json) :
    (∀ e s', agentApprove parameters s = (.error e, s') → s' = s) ↔
      ∀ p, Pending s parameters p → Approvable s.tasks p := by
  constructor
  · intro hato p hp
    rcases agentApprove_of_pending hp with ⟨ha, -⟩ | ⟨-, e, s', hne, heq⟩
    · exact ha
    · exact absurd (hato e s' heq) hne
  · intro happ e s' heq
    by_cases hp : ∃ p, Pending s parameters p
    · obtain ⟨p, hp⟩ := hp
      rcases agentApprove_of_pending hp with ⟨-, r, s₁, hok⟩ | ⟨hnot, -⟩
      · rw [hok] at heq
        cases heq
      · exact absurd (happ p hp) hnot
    · obtain ⟨e', herr⟩ := agentApprove_of_not_pending (not_exists.mp hp)
      rw [herr] at heq
      exact (Prod.mk.inj heq).2.symm

def notice : Proposal where
  id := ⟨"p1"⟩
  kind := .notify
  title := "Backup"
  description := "The backup is done"
  risk := .low
  reasoning := "The user asked for it"
  evidence := []
  timestampMs := 0
  target := none
  arguments := none

def approveNotice : Json := .obj [("id", .str "p1")]

def proposedAgain : AgentStatus :=
  [.propose (some (.ok notice)), .approve approveNotice, .propose (some (.ok notice))].foldl
    (fun s (c : AgentCommand) => (c.run s).2) .new

/-- The second approval of a proposal fails because the first task is still there, and the proposal
is gone. -/
theorem agentApprove_drops_proposal :
    ∃ e s', agentApprove approveNotice proposedAgain = (.error e, s') ∧
      e = ⟨"INVALID_INPUT", "insert task: task 'task-p1' already exists"⟩ ∧
      (proposedAgain.proposal ⟨"p1"⟩).isSome ∧ (s'.proposal ⟨"p1"⟩).isNone := by
  refine ⟨_, _, rfl, ?_, ?_, ?_⟩
  · decide +kernel
  · decide +kernel
  · decide +kernel

end Aether.SystemCore
