import Aether.Agentd.Executor
import Aether.Algorithm.Retry
import Aether.Runtime.Action

/-!
# The action planner (`aether-agentd/src/planner.rs`)

The waiting time between two attempts is left out; the text of a good result (`format_result`) is an
arbitrary function.
-/

namespace Aether.Agentd

open Aether.Core
open Aether.Runtime (RecoveryPolicy FailureKind decideRecovery)

structure PlannerContext where
  /-- The application and the title of every window. -/
  windows : List (String × String)
  runningApps : List String
  installedApps : List String

namespace PlannerContext

def isRunning (ctx : PlannerContext) (app : String) : Bool := ctx.runningApps.any fun a => a = app

def isInstalled (ctx : PlannerContext) (app : String) : Bool :=
  ctx.installedApps.any fun a => a = app

def hasWindowFor (ctx : PlannerContext) (app : String) : Bool :=
  ctx.windows.any fun window =>
    lowercase window.1 = lowercase app ∨ lowercase window.2 = lowercase app

end PlannerContext

inductive ActionStatus where
  | success
  | failed
  | rejected
  | requiresConsent
  deriving DecidableEq

structure ActionResult where
  capability : CapabilityId
  arguments : Json
  status : ActionStatus
  message : String
  rawResult : Option Json

structure PlanResult where
  actions : List ActionResult
  summary : String
  ok : Bool

def recoveryPolicyFor : CapabilityId → RecoveryPolicy
  | .windowList | .windowFocus | .windowMinimize | .windowMaximize | .windowClose | .windowRestore
  | .appList | .appStatus | .systemStatus | .systemInfo | .systemResources | .systemUptime
  | .contextGet | .fileList | .fileSearch | .fileRead => .transientDefault
  | _ => { maxRetries := 1, backoffBaseMs := 50, backoffMaxMs := 1000, timeoutMs := none }

def containsAny (s : Str) (texts : List String) : Bool := texts.any fun t => Str.contains s t

def classifyFailure (err : String) : FailureKind :=
  let lower := lowercase err
  if containsAny lower ["connect", "timeout", "timed out", "temporarily", "unavailable",
      "service unavailable"] then .transient
  else if containsAny lower ["not_found", "not found", "unknown", "denied", "rejected", "approval",
      "requires consent"] then .permanent
  else .unknown

def friendlyError (raw : String) : String :=
  let lower := lowercase raw
  if containsAny lower ["not_found", "unknown", "no such window", "not found"] then
    s!"NOT FOUND - {raw}"
  else if containsAny lower ["already running", "already open"] then s!"ALREADY RUNNING - {raw}"
  else if containsAny lower ["unknown_capability"] then s!"UNKNOWN CAPABILITY - {raw}"
  else if containsAny lower ["malformed"] then s!"INVALID REQUEST - {raw}"
  else if containsAny lower ["approval_required", "requires confirmation"] then
    s!"REQUIRES CONFIRMATION - {raw}"
  else if containsAny lower ["connect", "timeout", "service unavailable"] then
    s!"SERVICE UNAVAILABLE - {raw}"
  else s!"ACTION FAILED - {raw}"

def ActionStatus.mark : ActionStatus → String
  | .success => "✓"
  | .failed => "✗"
  | .rejected => "⛔"
  | .requiresConsent => "⏳"

def ActionResult.line (a : ActionResult) : String :=
  let name := String.ofList (a.capability.asStr.toList.map Char.toUpper)
  s!"{a.status.mark} {name}: {a.message}"

def buildSummary : List ActionResult → String
  | [] => "NO ACTIONS PERFORMED"
  | [a] => a.message
  | actions => "\n".intercalate (actions.map ActionResult.line)

def precheck (intent : Intent) (ctx : PlannerContext) : Option (Bool × String) :=
  let app := intent.text "app"
  match intent.capability with
  | .windowFocus | .windowMinimize | .windowMaximize | .windowClose | .windowRestore =>
    if !app.isEmpty && !ctx.hasWindowFor app && !ctx.isRunning app then
      some (false, s!"WINDOW NOT FOUND - no window for '{app}'")
    else none
  | .appLaunch =>
    if !app.isEmpty && !ctx.isInstalled app then
      some (false, s!"APPLICATION NOT FOUND - '{app}' is not installed")
    else if ctx.isRunning app then some (false, s!"ALREADY RUNNING - '{app}' is already open")
    else none
  | _ => none

section Execution

variable (w : Ipc) (formatResult : CapabilityId → Json → String) (ctx : PlannerContext)

def attemptOnce (index : ℕ) (intent : Intent) (attempt : ℕ) : AgentdM Json :=
  Command.attempt (executeExtended w ⟨index, attempt⟩ intent) >>= fun outcome =>
    match outcome with
    | .ok value => pure value
    | .error e => Command.emit (.failed index attempt e) >>= fun _ => Command.fail e

def retries (capability : CapabilityId) (attempt : ℕ) (e : String) : Bool :=
  decideRecovery (recoveryPolicyFor capability) attempt (classifyFailure e) false = some .retry

def executeWithRetries (index : ℕ) (intent : Intent) : AgentdM (Except String Json) :=
  Retry.retry (attemptOnce w index intent) (retries intent.capability)
    ((recoveryPolicyFor intent.capability).maxRetries.toNat + 1) 1

def result (intent : Intent) (status : ActionStatus) (message : String) (rawResult : Option Json) :
    ActionResult :=
  { capability := intent.capability, arguments := intent.arguments, status, message, rawResult }

def conclude (intent : Intent) : Except String Json → ActionResult
  | .ok value => result intent .success (formatResult intent.capability value) (some value)
  | .error e => result intent .failed (friendlyError e) none

def refusal (intent : Intent) : Option ActionResult :=
  match validate intent with
  | .error rejection =>
    some (result intent .rejected s!"REQUEST REJECTED - {rejection.text}" none)
  | .ok () =>
    match confirmation intent.capability.capability with
    | .denied reason => some (result intent .rejected s!"DENIED - {reason}" none)
    | .requiresConsent reason =>
      some (result intent .requiresConsent s!"REQUIRES CONFIRMATION - {reason}" none)
    | .autoExecute =>
      match precheck intent ctx with
      | some (false, message) => some (result intent .failed message none)
      | _ => none

def runIntent (index : ℕ) (intent : Intent) : AgentdM ActionResult :=
  match refusal ctx intent with
  | some refused => pure refused
  | none => executeWithRetries w index intent >>= fun outcome =>
    pure (conclude formatResult intent outcome)

def executeLoop (index : ℕ) (intents : List Intent) (actions : List ActionResult) :
    AgentdM (List ActionResult × Bool) :=
  match intents with
  | [] => pure (actions, true)
  | intent :: rest => runIntent w formatResult ctx index intent >>= fun result =>
    if result.status = .success then executeLoop (index + 1) rest (actions ++ [result])
    else pure (actions ++ [result], false)

def execute (intents : List Intent) : AgentdM PlanResult :=
  executeLoop w formatResult ctx 0 intents [] >>= fun (actions, overallOk) =>
    pure { actions, summary := buildSummary actions,
           ok := overallOk && !actions.isEmpty && actions.all fun a => a.status = .success }

end Execution

end Aether.Agentd
