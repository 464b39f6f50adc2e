import Aether.AgentCore.Proposal
import Aether.Runtime.Executor
import Aether.Runtime.HostState

/-!
# From tasks to actions (`aether-agent-runtime/src/task_to_action.rs`)

An approved task becomes a typed action.  The risk of the action comes from the table of the
variants, not from the task.
-/

namespace Aether.Runtime

open AgentCore Aether.Core

inductive TaskToActionError where
  | emptySessionId
  | unsupportedKind (kind : TaskKind) (reason : String)
  | missingField (field : String)
  | invalidArguments (message : String)
  deriving DecidableEq

def TaskToActionError.display : TaskToActionError → String
  | .emptySessionId => "session_id is required"
  | .unsupportedKind kind reason => s!"task kind '{kind.asStr}' is not executable: {reason}"
  | .missingField field => s!"missing required field '{field}'"
  | .invalidArguments message => s!"invalid arguments: {message}"

def argument (args : Option Json) (key : String) : Option Json := args.bind fun a => a.get key

def textArgument (args : Option Json) (key : String) : Option String :=
  ((argument args key).bind Json.asStr).filter fun s => !s.isEmpty

def stringField (target : Option String) (args : Option Json) (keys : List String) :
    Except TaskToActionError String :=
  match target.filter fun t => !t.isEmpty with
  | some t => .ok t
  | none =>
    match keys.findSome? (textArgument args) with
    | some s => .ok s
    | none => .error (.missingField (keys.head?.getD "value"))

def operation (args : Option Json) (default : String) : String :=
  (((argument args "operation").orElse fun _ => argument args "kind").bind Json.asStr).getD default

def delayMs (args : Option Json) : UInt64 :=
  ((argument args "delay_ms").bind Json.asU64).getD 0

def powerVariant (args : Option Json) : Except TaskToActionError ActionVariant :=
  match operation args "reboot" with
  | "reboot" | "restart" => .ok (.systemReboot (delayMs args))
  | "shutdown" => .ok (.systemShutdown (delayMs args))
  | "suspend" | "hibernate" => .ok .systemSuspend
  | other => .error (.invalidArguments s!"unknown power operation '{other}'")

def securityVariant (args : Option Json) : Except TaskToActionError ActionVariant :=
  match operation args "policy.reload" with
  | "policy.reload" | "policy_reload" => .ok .policyReload
  | other =>
    .error (.unsupportedKind .securityControl s!"security operation '{other}' is not wired yet")

def cleanupVariant (args : Option Json) : Except TaskToActionError ActionVariant :=
  match ((argument args "kind").bind Json.asStr).getD "" with
  | "drop_page_cache" | "free_disk_cache" => .ok .storageStatus
  | "" => .ok .storageStatus
  | other => .error (.unsupportedKind .proposeCleanup s!"cleanup kind '{other}' is not wired yet")

def customVariant (args : Option Json) : Except TaskToActionError ActionVariant :=
  match (argument args "kind").bind Json.asStr with
  | none => .error (.missingField "kind")
  | some "restart_service" => (stringField none args ["service"]).map .serviceRestart
  | some "restart_app" => (stringField none args ["app_id"]).map .applicationLaunch
  | some "inform_user" => .ok .contextGet
  | some "kill_process" =>
    .error (.unsupportedKind .custom "kill_process requires a future process.kill action")
  | some other => .error (.unsupportedKind .custom s!"custom kind '{other}' is not wired yet")

def deviceVariant (target : Option String) (args : Option Json) :
    Except TaskToActionError ActionVariant := do
  let deviceId ← stringField target args ["device_id"]
  let enable := ((argument args "enable").bind Json.asBool).getD true
  return if enable then .deviceEnable deviceId else .deviceDisable deviceId

def displayVariant (target : Option String) (args : Option Json) :
    Except TaskToActionError ActionVariant := do
  let displayId ← stringField target args ["display_id"]
  match (argument args "level").bind Json.asU64 with
  | some level => return .displaySetBrightness displayId (min level 100).toUInt8
  | none => throw (.missingField "level")

def variantOf (task : AgentTask) : Except TaskToActionError ActionVariant :=
  match task.kind with
  | .restartService => (stringField task.target task.arguments ["service"]).map .serviceRestart
  | .notify => .ok .contextGet
  | .deviceControl => deviceVariant task.target task.arguments
  | .displayControl => displayVariant task.target task.arguments
  | .powerControl => powerVariant task.arguments
  | .securityControl => securityVariant task.arguments
  | .proposeCleanup => cleanupVariant task.arguments
  | .custom => customVariant task.arguments
  | .proposeUpdate | .proposeInstall | .proposeSecurityScan =>
    .error (.unsupportedKind task.kind
      "meta-proposals require a human operator or a future update pipeline")

def taskToAction (id : Uuid) (sessionId : String) (task : AgentTask) :
    Except TaskToActionError Action := do
  if (trim sessionId).isEmpty then throw .emptySessionId
  let variant ← variantOf task
  return Action.new id sessionId variant task.description

/-!
## The proposal runner (`aether-agent-runtime/src/proposal_runner.rs`)

`triage_proposals`, which approves the proposals of low risk without asking the user, and
`execute_proposal`, which turns a proposal into a task and the task into an action.  The task is in
the live graph while the action is executed.
-/

def ApprovalRequest.new (id : Uuid) (now : UInt64)
    (sessionId actionId actionName riskLevel reason : String) : ApprovalRequest :=
  { id, sessionId, actionId, actionName, riskLevel, reason, status := .pending, createdAt := now,
    resolvedAt := none }

def triageStep (stamp : ℕ → Uuid × UInt64) (sessionId : String)
    (groups : List Proposal × List ApprovalRequest) (proposal : Proposal) :
    List Proposal × List ApprovalRequest :=
  let (autoApproved, needsConsent) := groups
  if proposal.risk.requiresConsent then
    let (id, now) := stamp needsConsent.length
    (autoApproved, needsConsent ++ [ApprovalRequest.new id now sessionId proposal.id.value
      proposal.title proposal.risk.asStr proposal.reasoning])
  else (autoApproved ++ [proposal], needsConsent)

def triageProposals (stamp : ℕ → Uuid × UInt64) (sessionId : String) (proposals : List Proposal) :
    List Proposal × List ApprovalRequest :=
  proposals.foldl (triageStep stamp sessionId) ([], [])

inductive RunnerError where
  | proposalToTaskFailed
  | taskToAction (e : TaskToActionError)
  | executionFailed (message : String)
  deriving DecidableEq

structure RunResult where
  proposalId : String
  taskId : Option String
  execution : Option ExecutionResult
  error : Option RunnerError

structure ProposalRunner where
  sessionId : String
  actionId : Uuid
  execute : Action → ℕ → Except AgentError ExecutionResult
  elapsedMs : ℕ → UInt64

def shortId (id : Str) : Option Str := id.slice 0 (min 8 id.len)

def temporaryTaskId (nowMs : UInt64) (proposalId : String) : Option TaskId := do
  let short ← shortId proposalId.toList
  TaskId.new s!"task-{nowMs.toNat}-{String.ofList short}"

def finishTask (status : AgentStatus) (taskId : TaskId) (stage : TaskStage) (nowMs : UInt64)
    (note : String) (result : RunResult) : Option (RunResult × AgentStatus) :=
  (status.completeTask taskId stage nowMs (some note)).map fun completed => (result, completed.2)

namespace ProposalRunner

variable (runner : ProposalRunner)

def runAction (status : AgentStatus) (proposalId : String) (taskId : TaskId) (nowMs : UInt64)
    (action : Action) : Option (RunResult × AgentStatus) :=
  match executeWithRecovery (runner.execute action) runner.elapsedMs action.variant 4 with
  | some (_, .ok result) =>
    finishTask status taskId (if result.success then .done else .failed) nowMs
      s!"action completed in {result.durationMs.toNat}ms"
      ⟨proposalId, some taskId.value, some result, none⟩
  | some (_, .error e) =>
    finishTask status taskId .failed nowMs s!"execution failed: {e.display}"
      ⟨proposalId, some taskId.value, none, some (.executionFailed e.display)⟩
  | none => none

def runTask (status : AgentStatus) (proposalId : String) (taskId : TaskId) (nowMs : UInt64) :
    Option (RunResult × AgentStatus) :=
  match status.task taskId with
  | none => some (⟨proposalId, some taskId.value, none, some .proposalToTaskFailed⟩, status)
  | some task =>
    match taskToAction runner.actionId runner.sessionId task with
    | .ok action => runner.runAction status proposalId taskId nowMs action
    | .error e =>
      finishTask status taskId .failed nowMs s!"task_to_action failed: {e.display}"
        ⟨proposalId, some taskId.value, none, some (.taskToAction e)⟩

def executeProposal (status : AgentStatus) (proposal : Proposal) (nowMs : UInt64) :
    Option (RunResult × AgentStatus) := do
  let proposalId := proposal.id.value
  let taskId ← temporaryTaskId nowMs proposalId
  let failed : RunResult := ⟨proposalId, some taskId.value, none, some .proposalToTaskFailed⟩
  match proposalToTask proposal taskId with
  | none => some (failed, status)
  | some task =>
    match ← status.insertTask task with
    | .error _ => some (failed, status)
    | .ok status => runner.runTask status proposalId taskId nowMs

end ProposalRunner

end Aether.Runtime
