import Aether.Runtime.ProposalRunner
import Aether.SystemCore.AgentCommands

/-!
# Executing tasks (`aether-system-core/src/main.rs`, `agent.execute`)

A live task is taken out of the graph, made an action and handed to the executor.
-/

namespace Aether.SystemCore

open AgentCore Aether.Core Command Aether.Runtime

structure AgentSystem where
  status : AgentStatus
  /-- What was handed to the executor. -/
  executed : List (AgentTask × Action)

abbrev ExecuteM := Command AgentSystem IpcError

/-- What comes from outside; `execute` is the executor of a control port, attempt by attempt. -/
structure ExecuteAnswers where
  actionId : Uuid
  nowMs : UInt64
  elapsedMs : ℕ → UInt64
  execute : UInt16 → Action → ℕ → Except AgentError ExecutionResult
  actionJson : Action → Json

variable (x : ExecuteAnswers)

def foundTask (id : String) (task : Option AgentTask) : Except IpcError AgentTask :=
  match task with
  | some t => .ok t
  | none => .error ⟨"NOT_FOUND", s!"task '{id}' not found"⟩

def previewTask (sessionId : String) (task : AgentTask) : Except IpcError Json :=
  match taskToAction x.actionId sessionId task with
  | .ok action => .ok (.obj [("dry_run", .bool true), ("task", task.toJson),
      ("action", x.actionJson action)])
  | .error e => .error ⟨"UNSUPPORTED", e.display⟩

def takeTask (id : TaskId) : ExecuteM (Option AgentTask) := fun s =>
  match s.status.removeTask id with
  | some (task, status) => (.ok (some task), { s with status })
  | none => (.ok none, s)

def recordTask (task : AgentTask) (stage : TaskStage) (note : Option String) : ExecuteM Unit :=
  update fun s => { s with
    status := (s.status.recordHistory ⟨task, stage, x.nowMs, note⟩).getD s.status }

def executeTask (sessionId : String) (controlPort : UInt16) (task : AgentTask) : ExecuteM Json :=
  match taskToAction x.actionId sessionId task with
  | .error e => do
    -- the task has left the graph by now
    recordTask x task .failed (some e.display)
    fail ⟨"UNSUPPORTED", e.display⟩
  | .ok action => do
    update fun s => { s with executed := s.executed ++ [(task, action)] }
    match executeWithRecovery (x.execute controlPort action) x.elapsedMs action.variant 4 with
    | some (_, .ok result) =>
      -- also if the result is no success
      recordTask x task .done none
      return .obj [("dry_run", .bool false), ("task", task.toJson),
        ("action", x.actionJson action), ("success", .bool result.success),
        ("duration_ms", .ofNat result.durationMs.toNat)]
    | some (_, .error e) =>
      recordTask x task .failed (some e.display)
      fail ⟨"EXECUTION_FAILED", e.display⟩
    | none => panicked

def agentExecute (parameters : Json) : ExecuteM Json := do
  let idStr ← require (idParameter parameters)
  let sessionId := ((parameters.get "session_id").bind Json.asStr).getD "agent"
  let dryRun := ((parameters.get "dry_run").bind Json.asBool).getD false
  let controlPort := (((parameters.get "control_port").bind Json.asU64).getD 4747).toUInt16
  let taskId ← require (parseTaskId idStr)
  if dryRun then
    let task ← peek fun s : AgentSystem => s.status.task taskId
    let task ← require (foundTask idStr task)
    require (previewTask x sessionId task)
  else
    let task ← takeTask taskId
    let task ← require (foundTask idStr task)
    executeTask x sessionId controlPort task

inductive PipelineCommand where
  | agent (command : AgentCommand)
  | execute (parameters : Json) (answers : ExecuteAnswers)

namespace AgentSystem

def step (s : AgentSystem) : PipelineCommand → AgentSystem
  | .agent command => { s with status := (command.run s.status).2 }
  | .execute parameters answers => (agentExecute answers parameters s).2

def run (commands : List PipelineCommand) : AgentSystem := commands.foldl step ⟨.new, []⟩

end AgentSystem

/-!
## Nothing is executed without an approval
-/

open List

def PipelineCommand.approved : PipelineCommand → Option TaskId
  | .agent (.approve parameters) =>
    (parameters.field "id").asStr.map fun proposalId => ⟨"task-" ++ proposalId⟩
  | _ => none

def liveIds (s : AgentStatus) : List TaskId := s.tasks.tasks.map AgentTask.id

/-- The ids of the tasks that were executed or are still live. -/
def AgentSystem.ids (s : AgentSystem) : List TaskId :=
  s.executed.map (fun e => e.1.id) ++ liveIds s.status

def AgentSystem.Within (approved : List TaskId) (s : AgentSystem) : Prop := s.ids <+~ approved

variable {x} {ids : List TaskId}

lemma liveIds_approveTaken (idStr : String) (p : Proposal) (s : AgentStatus) :
    liveIds (approveTaken idStr (some p) s).2 <+~ liveIds s ++ [taskIdOf p] := by
  simp only [approveTaken, foundProposal, derivedTaskId_eq, require_ok_bind, convertedTask]
  rcases htask : proposalToTask p (taskIdOf p) with - | t
  · exact (sublist_append_left _ _).subperm
  · obtain ⟨-, ht⟩ := proposalToTask_eq_some_iff.mp htask
    rw [require_ok_bind, bind_apply, insertLive, AgentStatus.insertTask]
    rcases s.tasks.insert_cases t with ⟨-, g, hins, hg⟩ | ⟨-, e, hins⟩
    · rw [hins]
      show g.tasks.map AgentTask.id <+~ _
      rw [hg, map_append, ht]
      exact .refl _
    · rw [hins]
      exact (sublist_append_left _ _).subperm

lemma liveIds_agentApprove (parameters : Json) (s : AgentStatus) :
    liveIds (agentApprove parameters s).2 <+~
      liveIds s ++ (PipelineCommand.approved (.agent (.approve parameters))).toList := by
  by_cases hp : ∃ p, Pending s parameters p
  · obtain ⟨p, idStr, hid, hne, hget⟩ := hp
    rw [agentApprove_eq hid hne, show s.proposal ⟨idStr⟩ = some p from hget,
      PipelineCommand.approved, hid, ← s.keyed idStr p hget]
    exact liveIds_approveTaken _ p _
  · obtain ⟨e, herr⟩ := agentApprove_of_not_pending (not_exists.mp hp)
    rw [herr]
    exact (sublist_append_left _ _).subperm

lemma liveIds_removeTask {s s' : AgentStatus} {i : TaskId} {t : AgentTask}
    (h : s.removeTask i = some (t, s')) : t.id :: liveIds s' ~ liveIds s := by
  obtain ⟨⟨_, _⟩, hrem, heq⟩ := Option.map_eq_some_iff.mp h
  obtain ⟨_, hget, hpair⟩ := Option.map_eq_some_iff.mp hrem
  cases heq
  cases hpair
  obtain rfl : t.id = i := by simpa using find?_some hget
  have hmem : t.id ∈ liveIds s := mem_map_of_mem (mem_of_find?_eq_some hget)
  have hper := perm_cons_erase hmem
  rw [erase_eq_eraseP', liveIds, eraseP_map] at hper
  exact hper.symm

lemma liveIds_agent (command : AgentCommand) (s : AgentStatus) :
    liveIds (command.run s).2 <+~
      liveIds s ++ (PipelineCommand.approved (.agent command)).toList := by
  -- all but an approval keep the live ids or drop one
  let I (s' : AgentStatus) : Prop := liveIds s' <+~ liveIds s ++ []
  have hI : I s := (sublist_append_left _ _).subperm
  cases command with
  | propose proposal =>
    refine (preserves_require _).bind (fun p => (preserves_require _).bind fun p s' hs => ?_) s hI
    unfold addValidated
    split
    · exact hs
    · exact hs
  | observe observation =>
    refine (preserves_require _).bind (fun o => (preserves_require _).bind fun o => ?_) s hI
    refine (preserves_update fun s' hs => ?_).bind fun _ => preserves_pure _
    unfold I liveIds at hs ⊢
    rwa [AgentStatus.addObservation_tasks]
  | cancel parameters =>
    refine (preserves_require _).bind (fun p => (preserves_require _).bind fun i s' hs => ?_) s hI
    unfold cancelTask
    rcases hrem : s'.removeTask i with - | ⟨t, s''⟩
    · exact hs
    · exact (sublist_cons_self _ _).subperm.trans ((liveIds_removeTask hrem).subperm.trans hs)
  | approve parameters => exact liveIds_agentApprove parameters s

lemma preserves_recordTask (task : AgentTask) (stage : TaskStage) (note : Option String) :
    Preserves (AgentSystem.Within ids) (recordTask x task stage note) := by
  refine preserves_update fun s hs => ?_
  unfold AgentStatus.recordHistory
  split
  · exact hs
  · exact hs

lemma within_executeTask {sessionId : String} {port : UInt16} {t : AgentTask} {s : AgentSystem}
    (h : t.id :: s.ids <+~ ids) : (executeTask x sessionId port t s).2.Within ids := by
  unfold executeTask
  rcases taskToAction x.actionId sessionId t with e | action
  · refine (preserves_recordTask t _ _).bind (fun _ => preserves_fail _) s ?_
    exact (sublist_cons_self _ _).subperm.trans h
  · refine holds_update_bind (Preserves.holds (I := AgentSystem.Within ids) ?_ ?_)
    · split
      · exact (preserves_recordTask t _ _).bind fun _ => preserves_pure _
      · exact (preserves_recordTask t _ _).bind fun _ => preserves_fail _
      · exact fun _ hs => hs
    · unfold AgentSystem.Within AgentSystem.ids at *
      rw [map_append, append_assoc]
      exact perm_middle.subperm.trans h

lemma preserves_agentExecute (parameters : Json) :
    Preserves (AgentSystem.Within ids) (agentExecute x parameters) := by
  refine (preserves_require _).bind fun idStr => (preserves_require _).bind fun i => ?_
  split
  · exact (preserves_peek _).bind fun _ => (preserves_require _).bind fun _ => preserves_require _
  · intro s hs
    rw [bind_apply, takeTask]
    rcases hrem : s.status.removeTask i with - | ⟨t, status⟩
    · exact hs
    · -- the id moves from the live tasks to the executed ones
      have hper := (liveIds_removeTask hrem).append_left (s.executed.map fun e => e.1.id)
      exact within_executeTask ((perm_middle.symm.trans hper).subperm.trans hs)

namespace AgentSystem

lemma ids_step (s : AgentSystem) (c : PipelineCommand) :
    (s.step c).ids <+~ s.ids ++ c.approved.toList := by
  cases c with
  | agent command =>
    rw [ids, ids, append_assoc]
    exact (subperm_append_left _).mpr (liveIds_agent command s.status)
  | execute parameters answers =>
    exact preserves_agentExecute parameters s (sublist_append_left _ _).subperm

/-- **One execution for each approval**: over any run of commands, the executed and the live tasks
have each an `agent.approve` of their own, which named their proposal. -/
theorem ids_run (commands : List PipelineCommand) :
    (run commands).ids <+~ commands.filterMap PipelineCommand.approved := by
  induction commands using reverseRecOn with
  | nil => exact nil_subperm
  | append_singleton commands c ih =>
    rw [run, foldl_concat, filterMap_append, filterMap_cons, filterMap_nil]
    exact (ids_step _ c).trans ((subperm_append_right _).mpr ih)

end AgentSystem

end Aether.SystemCore
