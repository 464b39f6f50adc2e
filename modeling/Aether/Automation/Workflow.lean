import Aether.AgentCore.Task

/-!
# Workflows (`aether-automation/src/lib.rs`)

A workflow is a named list of steps, which `compileToTasks` turns into tasks for the agent.
-/

namespace Aether.Automation

open Aether.Core AgentCore

inductive StepAction where
  | launchApp (appId : String)
  | openFile (target : String)
  | agentTask (title description : String)
  | recoveryAction (actionSummary : String)
  | notify (body : String)
  | wait (seconds : UInt32)
  deriving DecidableEq

namespace StepAction

def taskKind : StepAction → TaskKind
  | launchApp _ | openFile _ | wait _ => .custom
  | agentTask _ _ | recoveryAction _ | notify _ => .notify

def summary : StepAction → String
  | launchApp appId => s!"Launch `{appId}`"
  | openFile target => s!"Open `{target}`"
  | agentTask title _ => title
  | recoveryAction actionSummary => actionSummary
  | notify body => s!"Notify: {body}"
  | wait seconds => s!"Wait {seconds.toNat}s"

def toJson : StepAction → Json
  | launchApp appId => .obj [("kind", .str "launch_app"), ("app_id", .str appId)]
  | openFile target => .obj [("kind", .str "open_file"), ("target", .str target)]
  | agentTask title description =>
    .obj [("kind", .str "agent_task"), ("title", .str title), ("description", .str description)]
  | recoveryAction actionSummary =>
    .obj [("kind", .str "recovery"), ("summary", .str actionSummary)]
  | notify body => .obj [("kind", .str "notify"), ("body", .str body)]
  | wait seconds => .obj [("kind", .str "wait"), ("seconds", .ofNat seconds.toNat)]

end StepAction

inductive FailurePolicy where
  | abort
  | skip
  | continue
  | retryThenAbort
  | retryThenSkip
  deriving DecidableEq

def FailurePolicy.maxRetries : FailurePolicy → ℕ
  | .retryThenAbort | .retryThenSkip => 3
  | .abort | .skip | .continue => 0

def FailurePolicy.text : FailurePolicy → String
  | .abort => "abort"
  | .skip => "skip"
  | .continue => "continue"
  | .retryThenAbort => "retry-then-abort"
  | .retryThenSkip => "retry-then-skip"

structure WorkflowStep where
  label : String
  action : StepAction
  onFailure : FailurePolicy := .abort

structure WorkflowId where
  value : String
  nonempty : value ≠ ""

instance : DecidableEq WorkflowId := fun a b =>
  decidable_of_iff (a.value = b.value) (by cases a; cases b; simp)

def WorkflowId.new (value : String) : Option WorkflowId :=
  if h : value = "" then none else some ⟨value, h⟩

inductive Trigger where
  | manual
  | timeOfDay (hour minute : UInt8)
  | onEvent (eventId : String)
  deriving DecidableEq

structure Workflow where
  id : WorkflowId
  name : String
  description : String
  trigger : Trigger
  steps : List WorkflowStep

def Workflow.new (id name description : String) (trigger : Trigger) : Option Workflow := do
  let id ← WorkflowId.new id
  if name.isEmpty then none else some ⟨id, name, description, trigger, []⟩

structure WorkflowRegistry where
  workflows : List Workflow := []

namespace WorkflowRegistry

def register (r : WorkflowRegistry) (workflow : Workflow) : Bool × WorkflowRegistry :=
  if r.workflows.any fun w => w.id = workflow.id then (false, r)
  else (true, ⟨r.workflows ++ [workflow]⟩)

def get (r : WorkflowRegistry) (id : String) : Option Workflow :=
  r.workflows.find? fun w => w.id.value = id

def withTrigger (r : WorkflowRegistry) (trigger : Trigger) : List Workflow :=
  r.workflows.filter fun w => w.trigger = trigger

end WorkflowRegistry

def compileStep (workflow : Workflow) (taskIdPrefix : String) (i : ℕ) (step : WorkflowStep) :
    Option AgentTask := do
  let taskId ← TaskId.new s!"{taskIdPrefix}.{i}"
  let t ← AgentTask.new taskId.value step.action.taskKind s!"{workflow.name} — {step.label}"
    step.action.summary
  return { t with
    risk := .low
    arguments := some (.obj [("policy", .str step.onFailure.text),
      ("max_retries", .ofNat step.onFailure.maxRetries), ("step_index", .ofNat i),
      ("action", step.action.toJson)]) }

def compileToTasks (workflow : Workflow) (taskIdPrefix : String) (_timestampMs : UInt64) :
    List AgentTask :=
  workflow.steps.zipIdx.filterMap fun x => compileStep workflow taskIdPrefix x.2 x.1

def WorkflowRegistry.withDefault (r : WorkflowRegistry) (id name description : String)
    (trigger : Trigger) (steps : List WorkflowStep) : WorkflowRegistry :=
  (Workflow.new id name description trigger).elim r fun w => (r.register { w with steps }).2

def defaultRegistry : WorkflowRegistry :=
  ({} : WorkflowRegistry)
    |>.withDefault "morning_setup" "Morning setup"
      "Open email, free memory, surface today's agenda." (.timeOfDay 9 0)
      [{ label := "Open the email app", action := .launchApp "aether.mail" },
        { label := "Drop the page cache to free memory"
          action := .recoveryAction "Drop page cache: free kernel page cache for a fresh day."
          onFailure := .skip },
        { label := "Surface the day's agenda"
          action := .notify "Good morning — your first meeting is at 10:00." }]
    |>.withDefault "end_of_day" "End of day" "Free memory, close the day." (.timeOfDay 18 0)
      [{ label := "Drop the page cache"
         action := .recoveryAction "Drop page cache: end of day cleanup." },
        { label := "Notify the user", action := .notify "Wrapping up — see you tomorrow." }]
    |>.withDefault "before_meeting" "Before a meeting" "Quiet the desktop, open the notes app."
      .manual
      [{ label := "Drop the page cache"
         action := .recoveryAction "Drop page cache: pre-meeting cleanup."
         onFailure := .skip },
        { label := "Open the notes app", action := .launchApp "aether.notes" }]

/-!
## Workflows are compiled step by step

A step is skipped iff the description of its task is empty, which is possible for the actions that
bring their own text.
-/

variable {workflow : Workflow} {taskIdPrefix : String} {timestampMs : UInt64} {i : ℕ}
  {step : WorkflowStep}

def Carries (task : AgentTask) (i : ℕ) (step : WorkflowStep) : Prop :=
  ∃ args, task.arguments = some args ∧ args.field "step_index" = .ofNat i ∧
    args.field "action" = step.action.toJson ∧ args.field "policy" = .str step.onFailure.text ∧
    args.field "max_retries" = .ofNat step.onFailure.maxRetries

/-- Each step is carried by one task, in order and with an id of its own. -/
structure Complete (steps : List WorkflowStep) (tasks : List AgentTask) : Prop where
  length_eq : tasks.length = steps.length
  carries : ∀ i step task, steps[i]? = some step → tasks[i]? = some task → Carries task i step
  nodup : (tasks.map AgentTask.id).Nodup

def stepTask (workflow : Workflow) (taskIdPrefix : String) (i : ℕ) (step : WorkflowStep) :
    AgentTask where
  id := ⟨s!"{taskIdPrefix}.{i}"⟩
  kind := step.action.taskKind
  title := s!"{workflow.name} — {step.label}"
  description := step.action.summary
  dependsOn := []
  risk := .low
  target := none
  arguments := some (.obj [("policy", .str step.onFailure.text),
    ("max_retries", .ofNat step.onFailure.maxRetries), ("step_index", .ofNat i),
    ("action", step.action.toJson)])

lemma compileStep_eq : compileStep workflow taskIdPrefix i step =
    if step.action.summary = "" then none else some (stepTask workflow taskIdPrefix i step) := by
  have htit : (s!"{workflow.name} — {step.label}") ≠ "" := by
    intro h
    have hlist := congrArg String.toList h
    simp at hlist
    exact absurd hlist.2.1 (by decide)
  by_cases hsum : step.action.summary = ""
  · simp [compileStep, TaskId.new, AgentTask.new, hsum]
  · simp [compileStep, TaskId.new, AgentTask.new, htit, hsum, stepTask]

lemma compileToTasks_eq : compileToTasks workflow taskIdPrefix timestampMs =
    (workflow.steps.zipIdx.filter fun x => x.1.action.summary ≠ "").map fun x =>
      stepTask workflow taskIdPrefix x.2 x.1 := by
  rw [compileToTasks]
  induction workflow.steps.zipIdx with
  | nil => rfl
  | cons x rest ih =>
    rw [List.filterMap_cons, List.filter_cons, compileStep_eq]
    by_cases h : x.1.action.summary = "" <;> simp [h, ih]

lemma taskId_injective (taskIdPrefix : String) :
    Function.Injective fun i : ℕ => (⟨s!"{taskIdPrefix}.{i}"⟩ : TaskId) := by
  intro i j h
  have hlist : (s!"{taskIdPrefix}.{i}").toList = (s!"{taskIdPrefix}.{j}").toList :=
    congrArg (fun id : TaskId => id.value.toList) h
  have hdig : Nat.toDigits 10 i = Nat.toDigits 10 j := by
    simpa using hlist
  have hpar := congrArg (fun digits => Nat.ofDigitChars 10 digits 0) hdig
  simpa using hpar

/-- The compilation is complete iff no step has an empty description. -/
theorem complete_compileToTasks_iff (workflow : Workflow) (taskIdPrefix : String)
    (timestampMs : UInt64) :
    Complete workflow.steps (compileToTasks workflow taskIdPrefix timestampMs) ↔
      ∀ step ∈ workflow.steps, step.action.summary ≠ "" := by
  rw [compileToTasks_eq]
  constructor
  · intro h step hstep
    have hlen := h.length_eq
    rw [List.length_map, ← List.length_zipIdx (l := workflow.steps) (i := 0),
      List.length_filter_eq_length_iff] at hlen
    obtain ⟨i, hi⟩ := List.mem_iff_getElem?.mp hstep
    have hmem : (step, i) ∈ workflow.steps.zipIdx := List.mem_zipIdx_iff_getElem?.mpr hi
    simpa using hlen _ hmem
  · intro h
    have hall : (workflow.steps.zipIdx.filter fun x => x.1.action.summary ≠ "") =
        workflow.steps.zipIdx := by
      rw [List.filter_eq_self]
      intro x hx
      simpa using h x.1 (List.fst_mem_of_mem_zipIdx hx)
    rw [hall]
    refine ⟨by simp, ?_, ?_⟩
    · intro i step task hstep htask
      rw [List.getElem?_map, List.getElem?_zipIdx, hstep] at htask
      cases htask
      exact ⟨_, rfl, by simp [Json.field], by simp [Json.field], by simp [Json.field],
        by simp [Json.field]⟩
    · have hids : (workflow.steps.zipIdx.map fun x => stepTask workflow taskIdPrefix x.2 x.1).map
          AgentTask.id = (workflow.steps.zipIdx.map Prod.snd).map fun i =>
            (⟨s!"{taskIdPrefix}.{i}"⟩ : TaskId) := by
        rw [List.map_map, List.map_map]
        rfl
      rw [hids, List.zipIdx_map_snd]
      exact List.Nodup.map (taskId_injective taskIdPrefix) List.nodup_range'

def untitled : Option Workflow :=
  (Workflow.new "nightly" "Nightly" "" .manual).map fun w =>
    { w with steps := [{ label := "Tidy up", action := .agentTask "" "Remove old downloads." }] }

/-- The step is dropped without a task. -/
theorem untitled_skipped : ∃ workflow, untitled = some workflow ∧
    workflow.steps.length = 1 ∧ compileToTasks workflow "wf.nightly" 0 = [] := by
  refine ⟨_, rfl, rfl, ?_⟩
  rw [compileToTasks_eq]
  rfl

end Aether.Automation
