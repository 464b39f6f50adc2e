import Aether.Algorithm.Dependency
import Aether.Core.Json
import Aether.Core.Manifest

/-!
# Agent tasks and the task graph (`aether-agent-core/src/task.rs`)

`transitively_depends_on` recurses without a bound; the model gives it one more level than there are
tasks and is `none` where this is not enough.  `TaskGraph` carries the invariant with which the
recursion always returns.
-/

namespace Aether.AgentCore

open Aether.Core

inductive TaskRisk where
  | low
  | medium
  | high
  | critical
  deriving DecidableEq

def TaskRisk.ofRiskLevel : RiskLevel → TaskRisk
  | .low => .low
  | .medium => .medium
  | .high => .high
  | .critical => .critical

def TaskRisk.toRiskLevel : TaskRisk → RiskLevel
  | .low => .low
  | .medium => .medium
  | .high => .high
  | .critical => .critical

def TaskRisk.asStr : TaskRisk → String
  | .low => "low"
  | .medium => "medium"
  | .high => "high"
  | .critical => "critical"

inductive TaskKind where
  | restartService
  | notify
  | proposeUpdate
  | proposeInstall
  | proposeCleanup
  | proposeSecurityScan
  | deviceControl
  | displayControl
  | powerControl
  | securityControl
  | custom
  deriving DecidableEq

def TaskKind.asStr : TaskKind → String
  | .restartService => "restart-service"
  | .notify => "notify"
  | .proposeUpdate => "propose-update"
  | .proposeInstall => "propose-install"
  | .proposeCleanup => "propose-cleanup"
  | .proposeSecurityScan => "propose-security-scan"
  | .deviceControl => "device-control"
  | .displayControl => "display-control"
  | .powerControl => "power-control"
  | .securityControl => "security-control"
  | .custom => "custom"

def TaskKind.defaultRisk : TaskKind → TaskRisk
  | .restartService => .medium
  | .notify => .low
  | .proposeUpdate => .high
  | .proposeInstall => .high
  | .proposeCleanup => .medium
  | .proposeSecurityScan => .medium
  | .deviceControl => .medium
  | .displayControl => .low
  | .powerControl => .critical
  | .securityControl => .high
  | .custom => .high

structure TaskId where
  value : String
  deriving DecidableEq

def TaskId.new (value : String) : Option TaskId :=
  if value.isEmpty then none else some ⟨value⟩

structure AgentTask where
  id : TaskId
  kind : TaskKind
  title : String
  description : String
  dependsOn : List TaskId
  risk : TaskRisk
  target : Option String
  arguments : Option Json

def AgentTask.new (id : String) (kind : TaskKind) (title description : String) :
    Option AgentTask := do
  let id ← TaskId.new id
  if title.isEmpty || description.isEmpty then none
  else
    return { id, kind, title, description, dependsOn := [], risk := kind.defaultRisk,
             target := none, arguments := none }

def AgentTask.toJson (t : AgentTask) : Json :=
  .obj [("id", .str t.id.value), ("kind", .str t.kind.asStr), ("title", .str t.title),
    ("description", .str t.description),
    ("depends_on", .arr (t.dependsOn.map fun d => .str d.value)), ("risk", .str t.risk.asStr),
    ("target", .ofOption .str t.target), ("arguments", t.arguments.getD .null)]

inductive TaskDependencyError where
  | emptyTaskId
  | unknownDependency (task missing : TaskId)
  | cycle (task : TaskId)
  | duplicate (id : TaskId)
  deriving DecidableEq

def TaskDependencyError.display : TaskDependencyError → String
  | .emptyTaskId => "task id is empty"
  | .unknownDependency task missing =>
    s!"task '{task.value}' depends on unknown task '{missing.value}'"
  | .cycle task => s!"inserting task '{task.value}' would create a cycle"
  | .duplicate id => s!"task '{id.value}' already exists"

namespace Tasks

def get (tasks : List AgentTask) (id : TaskId) : Option AgentTask :=
  tasks.find? fun t => t.id = id

def dependsWithin (tasks : List AgentTask) (target : TaskId) : ℕ → AgentTask → Option Bool
  | 0, _ => none
  | depth + 1, start =>
    start.dependsOn.anyM fun dep =>
      if dep = target then some true
      else
        match get tasks dep with
        | some t => dependsWithin tasks target depth t
        | none => some false

def transitivelyDependsOn (tasks : List AgentTask) (start : AgentTask) (target : TaskId) :
    Option Bool :=
  dependsWithin tasks target (tasks.length + 1) start

def missingDependency (tasks : List AgentTask) (task : AgentTask) : Option TaskId :=
  task.dependsOn.find? fun dep => !tasks.any fun t => t.id = dep

def checkInsert (tasks : List AgentTask) (task : AgentTask) :
    Option (Except TaskDependencyError Unit) :=
  if task.id.value.isEmpty then some (.error .emptyTaskId)
  else if tasks.any fun t => t.id = task.id then some (.error (.duplicate task.id))
  else
    match missingDependency tasks task with
    | some missing => some (.error (.unknownDependency task.id missing))
    | none =>
      (tasks.anyM fun existing => transitivelyDependsOn tasks existing task.id).map fun cyclic =>
        if cyclic then .error (.cycle task.id) else .ok ()

def insert (tasks : List AgentTask) (task : AgentTask) :
    Option (Except TaskDependencyError (List AgentTask)) :=
  (checkInsert tasks task).map fun checked => checked.map fun _ => tasks ++ [task]

def ready (tasks : List AgentTask) (doneIds : List TaskId) : List AgentTask :=
  tasks.filter fun t => t.dependsOn.all fun d => doneIds.contains d

def remove (tasks : List AgentTask) (id : TaskId) : Option (AgentTask × List AgentTask) :=
  (get tasks id).map fun t => (t, tasks.eraseP fun t => t.id = id)

end Tasks

inductive GraphOp where
  | insert (task : AgentTask)
  | remove (id : TaskId)

def GraphOp.step (tasks : List AgentTask) : GraphOp → Option (List AgentTask)
  | .insert task => (Tasks.insert tasks task).map fun result => result.toOption.getD tasks
  | .remove id => some ((Tasks.remove tasks id).elim tasks Prod.snd)

abbrev Ordered (tasks : List AgentTask) : Prop :=
  Dependency.Ordered AgentTask.id AgentTask.dependsOn tasks

/-- A task with the first id names the second as a dependency. -/
abbrev Depends (tasks : List AgentTask) : TaskId → TaskId → Prop :=
  Dependency.Depends AgentTask.id AgentTask.dependsOn tasks

variable {tasks tasks' : List AgentTask} {task : AgentTask}

lemma not_mem_of_dependsWithin {target : TaskId} {depth : ℕ} {start : AgentTask}
    (h : Tasks.dependsWithin tasks target depth start = some false) : target ∉ start.dependsOn := by
  cases depth with
  | zero => cases h
  | succ depth =>
    intro hmem
    have hdep := Dependency.anyM_eq_some_false.mp h target hmem
    simp at hdep

/-- The checks of `insert` before the search for a cycle. -/
structure Fits (tasks : List AgentTask) (task : AgentTask) : Prop where
  nonempty : task.id.value ≠ ""
  fresh : ∀ t ∈ tasks, t.id ≠ task.id
  present : ∀ dep ∈ task.dependsOn, ∃ t ∈ tasks, t.id = dep

structure Insertable (tasks : List AgentTask) (task : AgentTask) : Prop
    extends Fits tasks task where
  acyclic : ∀ t ∈ tasks, Tasks.transitivelyDependsOn tasks t task.id = some false

lemma missingDependency_eq_none_iff :
    Tasks.missingDependency tasks task = none ↔
      ∀ dep ∈ task.dependsOn, ∃ t ∈ tasks, t.id = dep := by
  simp [Tasks.missingDependency]

lemma checkInsert_eq_ok_iff :
    Tasks.checkInsert tasks task = some (.ok ()) ↔ Insertable tasks task := by
  unfold Tasks.checkInsert
  constructor
  · intro h
    split_ifs at h with hid hdup
    · simp at h
    · simp at h
    split at h
    · simp at h
    · next hm =>
      obtain ⟨cyclic, hany, hok⟩ := Option.map_eq_some_iff.mp h
      have hcyc : cyclic = false := by
        by_contra htrue
        simp [htrue] at hok
      rw [hcyc] at hany
      refine ⟨⟨?_, ?_, missingDependency_eq_none_iff.mp hm⟩, Dependency.anyM_eq_some_false.mp hany⟩
      · simpa using hid
      · simpa using hdup
  · intro h
    have hid : ¬ task.id.value.isEmpty := by simpa using h.nonempty
    have hdup : ¬ (tasks.any fun t => t.id = task.id) := by simpa using h.fresh
    rw [if_neg hid, if_neg hdup, missingDependency_eq_none_iff.mpr h.present]
    simp [Dependency.anyM_eq_some_false.mpr h.acyclic]

lemma insert_eq_ok_iff :
    Tasks.insert tasks task = some (.ok tasks') ↔
      Insertable tasks task ∧ tasks' = tasks ++ [task] := by
  rw [← checkInsert_eq_ok_iff, Tasks.insert]
  rcases Tasks.checkInsert tasks task with - | e | -
  · simp
  · simp [Except.map]
  · simp [Except.map, eq_comm]

lemma Ordered.insert (h : Ordered tasks) (hins : Tasks.insert tasks task = some (.ok tasks')) :
    Ordered tasks' := by
  obtain ⟨hok, rfl⟩ := insert_eq_ok_iff.mp hins
  have hnew : task.id ∉ tasks.map AgentTask.id := by
    rw [List.mem_map]
    rintro ⟨t, ht, heq⟩
    exact hok.fresh t ht heq
  apply Dependency.Ordered.concat h hnew
  · intro t ht
    exact not_mem_of_dependsWithin (hok.acyclic t ht)
  · -- all that the task depends on is present, and the task is not
    intro hself
    obtain ⟨t, ht, heq⟩ := hok.present task.id hself
    exact hok.fresh t ht heq

structure TaskGraph where
  tasks : List AgentTask
  ordered : Ordered tasks

namespace TaskGraph

def new : TaskGraph := ⟨[], Dependency.Ordered.nil⟩

def insert (g : TaskGraph) (task : AgentTask) : Option (Except TaskDependencyError TaskGraph) :=
  match h : Tasks.insert g.tasks task with
  | some (.ok tasks) => some (.ok ⟨tasks, g.ordered.insert h⟩)
  | some (.error e) => some (.error e)
  | none => none

def remove (g : TaskGraph) (id : TaskId) : Option (AgentTask × TaskGraph) :=
  (Tasks.get g.tasks id).map fun t =>
    (t, ⟨g.tasks.eraseP fun t => t.id = id, g.ordered.sublist List.eraseP_sublist⟩)

end TaskGraph

end Aether.AgentCore
