import Aether.Agent.RetryPolicy
import Aether.Core.Json

/-!
# Actions of the agent runtime

The typed action variants with their names, and `classify_action`, the trusted table of required
capabilities and risk levels.  The fields `requestedCapabilities` and `riskLevel` of an action are
set from the table by `Action.new`, but an action can also be deserialized with any values there.
-/

namespace Aether.Runtime

open Aether.Core

inductive ActionRisk where
  | low
  | medium
  | high
  | critical
  deriving DecidableEq

def ActionRisk.debug : ActionRisk → String
  | .low => "Low"
  | .medium => "Medium"
  | .high => "High"
  | .critical => "Critical"

inductive ActionVariant where
  | applicationLaunch (applicationId : String)
  | applicationClose (applicationId : String)
  | windowList
  | windowFocus (windowId : Option UInt64) (applicationId : Option String)
  | windowMinimize (windowId : UInt64)
  | windowMaximize (windowId : UInt64)
  | windowClose (windowId : Option UInt64) (applicationId : Option String)
  | fileList (path : String)
  | fileRead (path : String)
  | fileCreate (path : String) (content : Option String)
  | fileWrite (path content : String)
  | fileSearch (query : String) (path : Option String)
  | fileRename (fromPath toPath : String)
  | fileMove (fromPath toPath : String)
  | fileDelete (path : String)
  | processList
  | processInspect (pid : Option UInt32) (name : Option String)
  | networkStatus
  | networkInterfaces
  | systemStatus
  | systemInfo
  | systemResources
  | systemUptime
  | serviceRestart (serviceId : String)
  | storageStatus
  | contextGet
  | displayList
  | displaySetBrightness (displayId : String) (level : UInt8)
  | displaySetResolution (displayId : String) (width height : UInt32)
  | deviceList
  | deviceInspect (deviceId : String)
  | deviceEnable (deviceId : String)
  | deviceDisable (deviceId : String)
  | systemReboot (delayMs : UInt64)
  | systemShutdown (delayMs : UInt64)
  | systemSuspend
  | credentialSeal (name plaintext : String)
  | credentialUnseal (name : String)
  | policyReload
  deriving DecidableEq

structure Action where
  id : Uuid
  sessionId : String
  variant : ActionVariant
  requestedCapabilities : List String
  riskLevel : ActionRisk
  reason : String
  timeoutMs : UInt64
  deriving DecidableEq

def ActionVariant.actionName : ActionVariant → String
  | .applicationLaunch _ => "application.launch"
  | .applicationClose _ => "application.close"
  | .windowList => "window.list"
  | .windowFocus _ _ => "window.focus"
  | .windowMinimize _ => "window.minimize"
  | .windowMaximize _ => "window.maximize"
  | .windowClose _ _ => "window.close"
  | .fileList _ => "file.list"
  | .fileRead _ => "file.read"
  | .fileCreate _ _ => "file.create"
  | .fileWrite _ _ => "file.write"
  | .fileSearch _ _ => "file.search"
  | .fileRename _ _ => "file.rename"
  | .fileMove _ _ => "file.move"
  | .fileDelete _ => "file.delete"
  | .processList => "process.list"
  | .processInspect _ _ => "process.inspect"
  | .networkStatus => "network.status"
  | .networkInterfaces => "network.interfaces"
  | .systemStatus => "system.status"
  | .systemInfo => "system.info"
  | .systemResources => "system.resources"
  | .systemUptime => "system.uptime"
  | .serviceRestart _ => "service.restart"
  | .storageStatus => "storage.status"
  | .contextGet => "context.get"
  | .displayList => "display.list"
  | .displaySetBrightness _ _ => "display.set_brightness"
  | .displaySetResolution _ _ _ => "display.set_resolution"
  | .deviceList => "device.list"
  | .deviceInspect _ => "device.inspect"
  | .deviceEnable _ => "device.enable"
  | .deviceDisable _ => "device.disable"
  | .systemReboot _ => "system.reboot"
  | .systemShutdown _ => "system.shutdown"
  | .systemSuspend => "system.suspend"
  | .credentialSeal _ _ => "credential.seal"
  | .credentialUnseal _ => "credential.unseal"
  | .policyReload => "policy.reload"

def Action.actionName (a : Action) : String := a.variant.actionName

def ActionVariant.classifyRisk : ActionVariant → ActionRisk
  | .applicationLaunch _ => .medium
  | .applicationClose _ => .medium
  | .windowList => .low
  | .windowFocus _ _ => .low
  | .windowMinimize _ => .low
  | .windowMaximize _ => .low
  | .windowClose _ _ => .medium
  | .fileList _ => .low
  | .fileRead _ => .low
  | .fileCreate _ _ => .medium
  | .fileWrite _ _ => .medium
  | .fileSearch _ _ => .low
  | .fileRename _ _ => .medium
  | .fileMove _ _ => .medium
  | .fileDelete _ => .high
  | .processList => .low
  | .processInspect _ _ => .low
  | .networkStatus => .low
  | .networkInterfaces => .low
  | .systemStatus => .low
  | .systemInfo => .low
  | .systemResources => .low
  | .systemUptime => .low
  | .serviceRestart _ => .medium
  | .storageStatus => .low
  | .contextGet => .low
  | .displayList => .low
  | .displaySetBrightness _ _ => .low
  | .displaySetResolution _ _ _ => .medium
  | .deviceList => .low
  | .deviceInspect _ => .low
  | .deviceEnable _ => .medium
  | .deviceDisable _ => .medium
  | .systemReboot _ => .critical
  | .systemShutdown _ => .critical
  | .systemSuspend => .high
  | .credentialSeal _ _ => .high
  | .credentialUnseal _ => .high
  | .policyReload => .high

def classifyAction (v : ActionVariant) : List String × ActionRisk :=
  ([v.actionName], v.classifyRisk)

def Action.new (id : Uuid) (sessionId : String) (variant : ActionVariant) (reason : String) :
    Action :=
  let (caps, risk) := classifyAction variant
  { id, sessionId, variant, requestedCapabilities := caps, riskLevel := risk, reason,
    timeoutMs := 30000 }

/-!
## Errors of the agent runtime
-/

inductive AgentError where
  | session (message : String)
  | request (message : String)
  | intent (message : String)
  | action (message : String)
  | validation (message : String)
  | capabilityDenied (message : String)
  | policyDenied (message : String)
  | approvalRequired (message : String)
  | execution (message : String)
  | ipc (message : String)
  | tool (message : String)
  | planner (message : String)
  | llm (message : String)
  | observation (message : String)
  | cancellation (message : String)
  | timeout (message : String)
  | notFound (message : String)
  | internal (message : String)
  deriving DecidableEq

def AgentError.display : AgentError → String
  | .session m => s!"Session error: {m}"
  | .request m => s!"Request error: {m}"
  | .intent m => s!"Intent error: {m}"
  | .action m => s!"Action error: {m}"
  | .validation m => s!"Validation error: {m}"
  | .capabilityDenied m => s!"Capability denied: {m}"
  | .policyDenied m => s!"Policy denied: {m}"
  | .approvalRequired m => s!"Approval required: {m}"
  | .execution m => s!"Execution error: {m}"
  | .ipc m => s!"IPC error: {m}"
  | .tool m => s!"Tool error: {m}"
  | .planner m => s!"Planner error: {m}"
  | .llm m => s!"LLM error: {m}"
  | .observation m => s!"Observation error: {m}"
  | .cancellation m => s!"Cancellation: {m}"
  | .timeout m => s!"Timeout: {m}"
  | .notFound m => s!"Not found: {m}"
  | .internal m => s!"Internal error: {m}"

/-!
## Observations

What an executed action reports.  The `data` field of the source, the JSON form of the observation
type, is not kept.
-/

inductive ObservationType where
  | applicationStarted (applicationId : String)
  | applicationFailed (applicationId reason : String)
  | applicationClosed (applicationId : String)
  | processExited (pid : UInt32) (exitCode : Int32)
  | windowCreated (windowId : UInt64)
  | windowClosed (windowId : UInt64)
  | windowFocused (windowId : UInt64)
  | windowMinimized (windowId : UInt64)
  | windowMaximized (windowId : UInt64)
  | windowList (windows : Json)
  | filesystemResult (operation : String) (data : Json)
  | networkStatus (data : Json)
  | networkInterfaces (data : Json)
  | systemStatus (data : Json)
  | systemInfo (data : Json)
  | systemResources (data : Json)
  | systemUptime (data : Json)
  | serviceRestarted (serviceId : String)
  | storageStatus (data : Json)
  | processList (processes : Json)
  | processInspect (data : Json)
  | contextSnapshot (data : Json)
  | displayList (displays : Json)
  | displayBrightnessSet (displayId : String) (level : UInt8)
  | displayResolutionSet (displayId : String) (width height : UInt32)
  | deviceList (devices : Json)
  | deviceInspect (data : Json)
  | deviceEnabled (deviceId : String)
  | deviceDisabled (deviceId : String)
  | systemRebootRequested (delayMs : UInt64)
  | systemShutdownRequested (delayMs : UInt64)
  | systemSuspendRequested
  | credentialSealed (name : String)
  | credentialUnsealed (name value : String)
  | policyReloaded
  | error (message : String)

structure Observation where
  id : Uuid
  actionId : String
  sessionId : String
  timestamp : UInt64
  observationType : ObservationType
  success : Bool

def Observation.new (id : Uuid) (now : UInt64) (actionId sessionId : String)
    (observationType : ObservationType) : Observation :=
  let success :=
    match observationType with
    | .error _ => false
    | _ => true
  { id, actionId, sessionId, timestamp := now, observationType, success }

structure ExecutionResult where
  success : Bool
  observation : Observation
  durationMs : UInt64

/-!
## Recovery policies

The retry budget of a step, the trusted table of the budgets of the action variants, the delays
between attempts, and the decision what to do after a failed attempt.
-/

open Agent (saturatingMul)

structure RecoveryPolicy where
  maxRetries : UInt32 := 0
  backoffBaseMs : UInt64 := 100
  backoffMaxMs : UInt64 := 5000
  timeoutMs : Option UInt64 := none
  deriving DecidableEq

namespace RecoveryPolicy

def noRetry : RecoveryPolicy := {}

def transientDefault : RecoveryPolicy := { maxRetries := 3, timeoutMs := some 2000 }

end RecoveryPolicy

def recoveryPolicyFor : ActionVariant → RecoveryPolicy
  | .applicationLaunch _ | .applicationClose _ => .noRetry
  | .fileCreate _ _ | .fileWrite _ _ | .fileRename _ _ | .fileMove _ _ | .fileDelete _ => .noRetry
  | .deviceEnable _ | .deviceDisable _ => .noRetry
  | .displaySetResolution _ _ _ | .displaySetBrightness _ _ => .noRetry
  | .credentialSeal _ _ | .credentialUnseal _ | .policyReload => .noRetry
  | .systemReboot _ | .systemShutdown _ | .systemSuspend => .noRetry
  | .windowClose _ _ => .noRetry
  | .windowList | .windowFocus _ _ | .windowMinimize _ | .windowMaximize _ => .transientDefault
  | .fileList _ | .fileRead _ | .fileSearch _ _ => .transientDefault
  | .processList | .processInspect _ _ => .transientDefault
  | .networkStatus | .networkInterfaces => .transientDefault
  | .systemStatus | .systemInfo | .systemResources | .systemUptime => .transientDefault
  | .serviceRestart _ => .noRetry
  | .storageStatus | .contextGet => .transientDefault
  | .displayList => .transientDefault
  | .deviceList | .deviceInspect _ => .transientDefault

def backoffDelay (policy : RecoveryPolicy) (attempt : ℕ) : UInt64 :=
  if attempt = 0 then 0
  else
    let shift := min (attempt - 1) 20
    min (saturatingMul policy.backoffBaseMs.toNat (2 ^ shift)) policy.backoffMaxMs

inductive RecoveryAction where
  | retry
  | abort
  | skip
  deriving DecidableEq

inductive FailureKind where
  | transient
  | permanent
  | unknown
  deriving DecidableEq

def FailureKind.fromError : AgentError → FailureKind
  | .ipc _ | .timeout _ => .transient
  | .capabilityDenied _ | .policyDenied _ | .approvalRequired _ | .validation _ | .notFound _ =>
    .permanent
  | _ => .unknown

def decideRecovery (policy : RecoveryPolicy) (attempt : ℕ) (kind : FailureKind) (optional : Bool) :
    Option RecoveryAction :=
  let giveUp : RecoveryAction := if optional then .skip else .abort
  if attempt = 0 then none
  else if policy.maxRetries.toNat < attempt then some giveUp
  else
    match kind with
    | .permanent => some giveUp
    | .unknown => if 1 < attempt then some giveUp else some .retry
    | .transient => some .retry

lemma decideRecovery_eq_retry_iff {policy : RecoveryPolicy} {attempt : ℕ} {kind : FailureKind}
    {optional : Bool} :
    decideRecovery policy attempt kind optional = some .retry ↔
      attempt ≠ 0 ∧ attempt ≤ policy.maxRetries.toNat ∧
        (kind = .transient ∨ kind = .unknown ∧ attempt = 1) := by
  have hgiveUp : (if optional then RecoveryAction.skip else .abort) ≠ .retry := by
    cases optional <;> decide
  unfold decideRecovery
  dsimp only
  generalize (if optional then RecoveryAction.skip else .abort) = giveUp at hgiveUp ⊢
  by_cases hzero : attempt = 0
  · simp [hzero]
  rw [if_neg hzero]
  by_cases hmax : policy.maxRetries.toNat < attempt
  · rw [if_pos hmax]
    simp [hgiveUp, Nat.not_le.mpr hmax]
  rw [if_neg hmax]
  rw [Nat.not_lt] at hmax
  cases kind with
  | transient => simp [hzero, hmax]
  | permanent => simp [hgiveUp]
  | unknown =>
    -- the first attempt is the last one that an unknown failure leads to repeat
    by_cases hone : 1 < attempt
    · have hne : attempt ≠ 1 := by omega
      simp [hone, hgiveUp, hne]
    · obtain rfl : attempt = 1 := by omega
      simp [hmax]

end Aether.Runtime
