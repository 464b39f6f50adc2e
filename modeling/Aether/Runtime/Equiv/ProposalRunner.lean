import Aether.AgentCore.Equiv.Proposal
import Aether.AgentCore.Equiv.Task
import Aether.Runtime.Equiv.Executor
import Aether.Runtime.ProposalRunner

/-!
## Automatic approval

A proposal is approved without asking the user because of the risk it declares; its action gets its
risk from the table of the variants.  The two meet in the kind of the task.
-/

namespace Aether.Runtime

open AgentCore Aether.Core

lemma foldl_triageStep_fst (stamp : ℕ → Uuid × UInt64) (sessionId : String)
    (proposals : List Proposal) (groups : List Proposal × List ApprovalRequest) :
    (proposals.foldl (triageStep stamp sessionId) groups).1 =
      groups.1 ++ proposals.filter fun p => !p.risk.requiresConsent := by
  induction proposals generalizing groups with
  | nil => simp
  | cons p proposals ih =>
    rw [List.foldl_cons, ih, List.filter_cons, triageStep]
    cases p.risk.requiresConsent with
    | true => simp
    | false => simp

lemma triageProposals_fst (stamp : ℕ → Uuid × UInt64) (sessionId : String)
    (proposals : List Proposal) :
    (triageProposals stamp sessionId proposals).1 =
      proposals.filter fun p => !p.risk.requiresConsent := by
  rw [triageProposals, foldl_triageStep_fst, List.nil_append]

variable {sessionId : String} {v : ActionVariant} {task : AgentTask}

lemma risk_eq_low_of_mem_triage {stamp : ℕ → Uuid × UInt64} {proposals : List Proposal}
    {p : Proposal} (h : p ∈ (triageProposals stamp sessionId proposals).1) : p.risk = .low := by
  rw [triageProposals_fst, List.mem_filter] at h
  simpa [ProposalRisk.requiresConsent] using h.2

lemma kind_of_minRisk_eq_low {kind : TaskKind} (h : minRisk kind = .low) :
    kind = .notify ∨ kind = .displayControl := by
  cases kind with
  | notify => exact .inl rfl
  | displayControl => exact .inr rfl
  | _ => cases h

lemma kind_of_valid {p : Proposal} {observations : List AgentCore.Observation}
    (hval : Valid p observations) (hlow : p.risk = .low) :
    p.kind = .notify ∨ p.kind = .displayControl := by
  apply kind_of_minRisk_eq_low
  have hrank := hval.risk
  rw [hlow] at hrank
  cases hmin : minRisk p.kind with
  | low => rfl
  | _ =>
    rw [hmin] at hrank
    cases hrank

lemma displayVariant_eq_ok {target : Option String} {args : Option Json}
    (h : displayVariant target args = .ok v) :
    ∃ displayId level, v = .displaySetBrightness displayId level := by
  obtain ⟨displayId, -, hlev⟩ := Except.bind_eq_ok_iff.mp h
  split at hlev
  · next level _ => exact ⟨displayId, _, (Except.ok.inj hlev).symm⟩
  · cases hlev

lemma classifyRisk_variantOf (hkind : task.kind = .notify ∨ task.kind = .displayControl)
    (h : variantOf task = .ok v) : v.classifyRisk = .low := by
  unfold variantOf at h
  rcases hkind with hkind | hkind
  · rw [hkind] at h
    rw [← Except.ok.inj h]
    rfl
  · rw [hkind] at h
    obtain ⟨displayId, level, rfl⟩ := displayVariant_eq_ok h
    rfl

lemma taskToAction_eq_ok {id : Uuid} {action : Action}
    (h : taskToAction id sessionId task = .ok action) :
    ∃ v, variantOf task = .ok v ∧ action = Action.new id sessionId v task.description := by
  unfold taskToAction at h
  split_ifs at h
  · cases h
  · obtain ⟨v, hv, hact⟩ := Except.bind_eq_ok_iff.mp h
    exact ⟨v, hv, (Except.ok.inj hact).symm⟩

/-- **Automatic approval is harmless**: an action that a valid, automatically approved proposal
leads to is of low risk and needs no confirmation. -/
theorem autoApproved_action_low (p : Proposal) (observations : List AgentCore.Observation)
    (stamp : ℕ → Uuid × UInt64) (session : String) (proposals : List Proposal) (taskId : TaskId)
    (task : AgentTask) (id : Uuid) (sessionId : String) (action : Action)
    (hvalid : validateProposal p observations = .ok ())
    (happroved : p ∈ (triageProposals stamp session proposals).1)
    (htask : proposalToTask p taskId = some task)
    (haction : taskToAction id sessionId task = .ok action) :
    (classifyAction action.variant).2 = .low ∧ action.riskLevel = .low ∧
      ∀ v : Validator, (v.validate action).requiresConfirmation = false := by
  have hkind : p.kind = .notify ∨ p.kind = .displayControl :=
    kind_of_valid (validateProposal_eq_ok_iff.mp hvalid) (risk_eq_low_of_mem_triage happroved)
  obtain ⟨-, htask⟩ := proposalToTask_eq_some_iff.mp htask
  obtain ⟨variant, hvar, rfl⟩ := taskToAction_eq_ok haction
  have hlow : variant.classifyRisk = .low := by
    refine classifyRisk_variantOf ?_ hvar
    rw [htask]
    exact hkind
  refine ⟨hlow, hlow, fun v => ?_⟩
  show Validator.needsConfirmation variant.classifyRisk = false
  rw [hlow]
  rfl

def dimDisplay : Proposal where
  id := ⟨"p1"⟩
  kind := .displayControl
  title := "Dim"
  description := "Dim the display"
  risk := .low
  reasoning := "It is late"
  evidence := []
  timestampMs := 0
  target := some "edp-1"
  arguments := some (.obj [("level", .num "250")])

def dimTask : AgentTask where
  id := ⟨"t1"⟩
  kind := .displayControl
  title := "Dim"
  description := "Dim the display"
  dependsOn := []
  risk := .low
  target := some "edp-1"
  arguments := some (.obj [("level", .num "250")])

def nilUuid : Uuid := ⟨Vector.replicate 16 0⟩

def dimAction : Action :=
  Action.new nilUuid "s1" (.displaySetBrightness "edp-1" 100) "Dim the display"

theorem autoApproved_action_low_dimDisplay :
    taskToAction nilUuid "s1" dimTask = .ok dimAction ∧
      (classifyAction dimAction.variant).2 = .low ∧ dimAction.riskLevel = .low ∧
      ∀ v : Validator, (v.validate dimAction).requiresConfirmation = false := by
  have hval : validateProposal dimDisplay [] = .ok () := by decide +kernel
  have happ : dimDisplay ∈ (triageProposals (fun _ => (nilUuid, 0)) "s1" [dimDisplay]).1 := by
    simp [triageProposals_fst, dimDisplay, ProposalRisk.requiresConsent]
  have htask : proposalToTask dimDisplay ⟨"t1"⟩ = some dimTask :=
    proposalToTask_eq_some_iff.mpr ⟨by decide, rfl⟩
  have hact : taskToAction nilUuid "s1" dimTask = .ok dimAction := by decide +kernel
  exact ⟨hact, autoApproved_action_low dimDisplay [] (fun _ => (nilUuid, 0)) "s1" [dimDisplay]
    ⟨"t1"⟩ dimTask nilUuid "s1" dimAction hval happ htask hact⟩

/-!
## The temporary task of a proposal

`execute_proposal` inserts a task and completes it again on every path that follows, so the live
graph is the same afterwards (`runTask_restores`).  It panics only where it cuts the id of the
proposal.
-/

variable {g : TaskGraph} {task : AgentTask} {status : AgentStatus}

structure Inserted (g : TaskGraph) (task : AgentTask) (status : AgentStatus) : Prop where
  fresh : ∀ t ∈ g.tasks, t.id ≠ task.id
  tasks_eq : status.tasks.tasks = g.tasks ++ [task]

def Restores (g : TaskGraph) (call : Option (RunResult × AgentStatus)) : Prop :=
  ∃ result status', call = some (result, status') ∧ status'.tasks = g

variable {stage : TaskStage}

lemma Inserted.completeTask (h : Inserted g task status) (hsta : stage.isTerminal = true)
    (nowMs : UInt64) (note : Option String) :
    ∃ status', status.completeTask task.id stage nowMs note = some (some task, status') ∧
      status'.tasks = g := by
  have hrem : status.removeTask task.id = some (task, { status with tasks := g }) := by
    rw [AgentStatus.removeTask, TaskGraph.remove_of_concat h.fresh h.tasks_eq, Option.map_some]
  unfold AgentStatus.completeTask
  rw [if_pos hsta, hrem]
  simp only [AgentStatus.recordHistory, hsta, if_true, Option.map_some]
  exact ⟨_, rfl, rfl⟩

lemma Inserted.finishTask (h : Inserted g task status) (hsta : stage.isTerminal = true)
    (nowMs : UInt64) (note : String) (result : RunResult) :
    Restores g (finishTask status task.id stage nowMs note result) := by
  obtain ⟨status', hcom, htas⟩ := h.completeTask hsta nowMs (some note)
  refine ⟨result, status', ?_, htas⟩
  rw [Runtime.finishTask, hcom, Option.map_some]

/-- The first eight bytes of the id can be cut off. -/
def CutsId (id : Str) : Prop := id.len ≤ 8 ∨ id.IsBoundary 8

lemma shortId_isSome_iff (id : Str) : (shortId id).isSome ↔ CutsId id := by
  have hend : id.IsBoundary id.len := ⟨id, List.prefix_rfl, rfl⟩
  have hsta : id.IsBoundary 0 := ByteText.isBoundary_zero id
  rw [shortId, ← not_iff_not, Option.not_isSome_iff_eq_none, Str.slice_eq_none_iff, not_iff_not]
  unfold CutsId
  by_cases hsh : id.len ≤ 8
  · simp [hsh, hsta, hend]
  · have hmin : min 8 id.len = 8 := by omega
    simp [hsh, hsta, hmin]

lemma temporaryTaskId_isSome_iff (nowMs : UInt64) (id : String) :
    (temporaryTaskId nowMs id).isSome ↔ CutsId id.toList := by
  rw [← shortId_isSome_iff, temporaryTaskId]
  cases shortId id.toList with
  | none => simp
  | some short => simp [TaskId.new]

namespace ProposalRunner

variable (runner : ProposalRunner)

lemma runAction_restores (h : Inserted g task status) (proposalId : String) (nowMs : UInt64)
    (action : Action) :
    Restores g (runner.runAction status proposalId task.id nowMs action) := by
  obtain ⟨n, -, -, hret⟩ :=
    executeWithRecovery_eq action.variant (runner.execute action) runner.elapsedMs
  unfold runAction
  rw [hret 4 le_rfl]
  cases runner.execute action n with
  | ok result =>
    refine h.finishTask ?_ _ _ _
    split_ifs <;> rfl
  | error e => exact h.finishTask rfl _ _ _

lemma runTask_restores (h : Inserted g task status) (proposalId : String) (nowMs : UInt64) :
    Restores g (runner.runTask status proposalId task.id nowMs) := by
  have hget : status.task task.id = some task := by
    have hrem := TaskGraph.remove_of_concat h.fresh h.tasks_eq
    obtain ⟨t, ht, heq⟩ := Option.map_eq_some_iff.mp hrem
    rw [AgentStatus.task, ht, (Prod.mk.inj heq).1]
  unfold runTask
  rw [hget]
  cases hact : taskToAction runner.actionId runner.sessionId task with
  | ok action =>
    simp only [hact]
    exact runner.runAction_restores h proposalId nowMs action
  | error e =>
    simp only [hact]
    exact h.finishTask rfl _ _ _

lemma executeProposal_restores {proposal : Proposal} {nowMs : UInt64} {taskId : TaskId}
    (hid : temporaryTaskId nowMs proposal.id.value = some taskId) (status : AgentStatus) :
    Restores status.tasks (runner.executeProposal status proposal nowMs) := by
  unfold executeProposal
  simp only [hid, Option.bind_eq_bind, Option.bind_some]
  cases htask : proposalToTask proposal taskId with
  | none => exact ⟨_, status, rfl, rfl⟩
  | some task =>
    obtain ⟨-, htask⟩ := proposalToTask_eq_some_iff.mp htask
    have hsame : taskId = task.id := by rw [htask]
    rw [hsame]
    rcases status.tasks.insert_cases task with ⟨hacc, g', hins, htas⟩ | ⟨-, e, hins⟩
    · have hstat : status.insertTask task = some (.ok { status with tasks := g' }) := by
        rw [AgentStatus.insertTask, hins]
        rfl
      simp only [hstat, Option.bind_some]
      exact runner.runTask_restores ⟨hacc.fresh, htas⟩ proposal.id.value nowMs
    · have hstat : status.insertTask task = some (.error e) := by
        rw [AgentStatus.insertTask, hins]
        rfl
      simp only [hstat, Option.bind_some]
      exact ⟨_, status, rfl, rfl⟩

/-- The call returns with the live graph as it was exactly if the id can be cut. -/
theorem executeProposal_frame_iff (status : AgentStatus) (proposal : Proposal) (nowMs : UInt64) :
    (∃ result status', runner.executeProposal status proposal nowMs = some (result, status') ∧
        status'.tasks = status.tasks) ↔ CutsId proposal.id.value.toList := by
  rw [← temporaryTaskId_isSome_iff nowMs, Option.isSome_iff_exists]
  constructor
  · rintro ⟨result, status', hcall, -⟩
    unfold executeProposal at hcall
    obtain ⟨taskId, hid, -⟩ := Option.bind_eq_some_iff.mp hcall
    exact ⟨taskId, hid⟩
  · rintro ⟨taskId, hid⟩
    exact runner.executeProposal_restores hid status

def offline : ProposalRunner where
  sessionId := "s1"
  actionId := ⟨Vector.replicate 16 0⟩
  execute _ _ := .error (.ipc "connect 4747: refused")
  elapsedMs _ := 0

def accented : Proposal where
  id := ⟨"notice-é"⟩
  kind := .notify
  title := "Notify"
  description := "Tell the user"
  risk := .low
  reasoning := "The disk is full"
  evidence := []
  timestampMs := 0
  target := none
  arguments := none

theorem executeProposal_panics : offline.executeProposal .new accented 0 = none := by
  decide +kernel

end ProposalRunner

end Aether.Runtime
