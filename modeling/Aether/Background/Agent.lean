import Aether.Automation.Workflow
import Aether.Recovery.Policy
import Aether.Security.Audit

/-!
# The background agent (`aether-background-agent/src/lib.rs`)

The two ordered maps of the state are only looked up and inserted into, and are functions here.
`TickOutcome` also records which workflows have fired by the time of day.
-/

namespace Aether.Background

open Aether.Core AgentCore Diagnostics Recovery Automation
open Security (saturatingSub)

inductive AgentEvent (V : Type*) where
  | signalUpdate (signal : Signal V)
  | timeTick (hour minute : UInt8)
  | workflowTrigger (id : WorkflowId)

inductive ActionKind where
  | recovery
  | workflow
  deriving DecidableEq

inductive ActionReason where
  | symptom (id : String)
  | workflow (id : String)
  deriving DecidableEq

structure ActionItem where
  kind : ActionKind
  reason : ActionReason
  title : String
  description : String
  requiresConsent : Bool
  taskKind : TaskKind
  taskRisk : TaskRisk
  subsystem : Option Subsystem
  payload : Json

structure BackgroundState (V : Type*) where
  report : DiagnosticReport V
  recovery : RecoveryPolicy
  workflows : WorkflowRegistry
  lastFired : WorkflowId → Option UInt64
  plannedSymptoms : String → Option UInt64

def subsystemForPayload (payload : Json) : Option Subsystem := do
  match ← (← (← payload.get "action").get "kind").asStr with
  | "launch_app" => some .app
  | "open_file" => some .fileSystem
  | "agent_task" | "recovery" | "notify" => some .other
  | _ => none

def planWorkflow (render : Json → String) (workflow : Workflow) (id : String) (nowMs : UInt64) :
    List ActionItem :=
  (compileToTasks workflow s!"wf.{id}" nowMs).map fun task =>
    let payload := task.arguments.getD (.obj [])
    { kind := .workflow
      reason := .workflow id
      title := task.title
      description := render (payload.field "action")
      requiresConsent := task.risk = .high || task.risk = .critical
      taskKind := task.kind
      taskRisk := task.risk
      subsystem := subsystemForPayload payload
      payload }

def recoveryPayload : RecoveryAction → TaskKind × Json
  | .restartService service reason => (.restartService,
      .obj [("kind", .str "restart_service"), ("service", .str service), ("reason", .str reason)])
  | .restartApp appId reason => (.custom,
      .obj [("kind", .str "restart_app"), ("app_id", .str appId), ("reason", .str reason)])
  | .reconnectNetwork interface reason => (.custom, .obj [("kind", .str "reconnect_network"),
      ("interface", .str interface), ("reason", .str reason)])
  | .resolveDependency dependency reason => (.custom, .obj [("kind", .str "resolve_dependency"),
      ("dependency", .str dependency), ("reason", .str reason)])
  | .freeDiskCache cache reason => (.proposeCleanup,
      .obj [("kind", .str "free_disk_cache"), ("cache", .str cache), ("reason", .str reason)])
  | .dropPageCache reason => (.proposeCleanup,
      .obj [("kind", .str "drop_page_cache"), ("reason", .str reason)])
  | .killProcess pid reason => (.custom, .obj [("kind", .str "kill_process"),
      ("pid", .ofNat pid.toNat), ("reason", .str reason)])
  | .informUser explanation => (.notify, .obj [("kind", .str "inform_user"),
      ("cause", .str explanation.cause), ("fix", .str explanation.fix)])

def recoveryToItem (action : RecoveryAction) (symptomId : String) : ActionItem :=
  { kind := .recovery
    reason := .symptom symptomId
    title := action.summary
    description :=
      match action with
      | .restartService "<auto>" _ =>
        "The agent will look up the actual service name at execution time."
      | .restartApp "<auto>" _ => "The agent will look up the actual app id at execution time."
      | _ => action.summary
    requiresConsent := action.requiresConsent
    taskKind := (recoveryPayload action).1
    taskRisk := if action.requiresConsent then .high else .medium
    subsystem := some action.subsystem
    payload := (recoveryPayload action).2 }

def planRecoveryActions (plans : List RecoveryPlan) : List ActionItem :=
  plans.flatMap fun plan => plan.actions.map fun action => recoveryToItem action plan.symptomId

variable {V : Type*}

structure Progress (V : Type*) where
  state : BackgroundState V
  queue : List ActionItem
  timeFired : List (WorkflowId × UInt64)

def fireOnTime (render : Json → String) (nowMs : UInt64) (p : Progress V) (w : Workflow) :
    Progress V :=
  if (p.state.lastFired w.id).any fun prev => saturatingSub nowMs prev < 60000 then p
  else
    { state := { p.state with
        lastFired := Function.update p.state.lastFired w.id (some nowMs) }
      queue := p.queue ++ planWorkflow render w w.id.value nowMs
      timeFired := p.timeFired ++ [(w.id, nowMs)] }

def planTimeTriggers (render : Json → String) (nowMs : UInt64) (hour minute : UInt8)
    (p : Progress V) : Progress V :=
  (p.state.workflows.withTrigger (.timeOfDay hour minute)).foldl (fireOnTime render nowMs) p

def handleEvent (render : Json → String) (nowMs : UInt64) (p : Progress V) :
    AgentEvent V → Progress V
  | .signalUpdate signal =>
    { p with state := { p.state with report := p.state.report.ingest signal } }
  | .timeTick hour minute => planTimeTriggers render nowMs hour minute p
  | .workflowTrigger id =>
    (p.state.workflows.get id.value).elim p fun w =>
      { p with queue := p.queue ++ planWorkflow render w id.value nowMs }

def planSymptom (recovery : RecoveryPolicy) (nowMs : UInt64)
    (x : (String → Option UInt64) × List RecoveryPlan) (s : Symptom) :
    (String → Option UInt64) × List RecoveryPlan :=
  if (x.1 s.id).isSome then x
  else
    match recovery.planFor s.id with
    | some plan => (Function.update x.1 s.id (some nowMs), x.2 ++ [plan])
    | none => x

structure TickOutcome (V : Type*) extends Progress V where
  newPlans : List RecoveryPlan

def tick [LinearOrder V] [OfScientific V] (render : Json → String) (state : BackgroundState V)
    (events : List (AgentEvent V)) (nowMs : UInt64) : TickOutcome V :=
  let p := events.foldl (handleEvent render nowMs) ⟨state, [], []⟩
  let report := p.state.report.evaluate
  let planned := report.symptoms.foldl (planSymptom p.state.recovery nowMs)
    (p.state.plannedSymptoms, [])
  { state := { p.state with report, plannedSymptoms := planned.1 }
    queue := p.queue ++ planRecoveryActions planned.2
    timeFired := p.timeFired
    newPlans := planned.2 }

def defaultState [LinearOrder V] [OfScientific V] : BackgroundState V :=
  ⟨.new, defaultPolicy, defaultRegistry, fun _ => none, fun _ => none⟩

end Aether.Background
