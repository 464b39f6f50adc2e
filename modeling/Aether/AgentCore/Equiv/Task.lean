import Aether.AgentCore.Task
import Aether.Algorithm.Run

/-!
## Correctness of the task graph

Every insertion into an ordered task graph returns (`TaskGraph.insert_cases`), and so does every run
of insertions and removals (`graph_run_ordered`).
-/

namespace Aether.AgentCore

open Relation List Tasks
open scoped Classical

variable {tasks : List AgentTask} {task : AgentTask}

lemma get_eq_some {id : TaskId} {t : AgentTask} (h : Tasks.get tasks id = some t) :
    t ∈ tasks ∧ t.id = id := by
  have hid := find?_some h
  exact ⟨mem_of_find?_eq_some h, by simpa using hid⟩

lemma get_eq_none {id : TaskId} (h : Tasks.get tasks id = none) :
    id ∉ tasks.map AgentTask.id := by
  simpa [Tasks.get] using h

lemma dependsWithin_eq (h : Ordered tasks) (target : TaskId) :
    ∀ i (hi : i < tasks.length), ∀ depth, i < depth →
      Tasks.dependsWithin tasks target depth tasks[i] =
        some (decide (TransGen (Depends tasks) tasks[i].id target)) := by
  refine Dependency.Ordered.induction h (motive := fun i t => ∀ depth, i < depth →
    dependsWithin tasks target depth t =
      some (decide (TransGen (Depends tasks) t.id target))) ?_
  intro i hi ih depth hdepth
  obtain ⟨depth, rfl⟩ := Nat.exists_eq_add_one_of_ne_zero (Nat.ne_of_gt (Nat.zero_lt_of_lt hdepth))
  -- one dependency at a time: it is the target, or it is present and the induction applies, or it
  -- is absent and leads nowhere
  rw [dependsWithin, Dependency.anyM_eq_some_any
    (q := fun dep => decide (dep = target ∨ TransGen (Depends tasks) dep target))]
  · congr 1
    rw [Bool.eq_iff_iff, any_eq_true, decide_eq_true_iff,
      Dependency.transGen_iff h (getElem_mem hi)]
    simp
  · intro dep hdep
    by_cases htgt : dep = target
    · simp [htgt]
    rw [if_neg htgt]
    cases hget : get tasks dep with
    | none =>
      have hnot : ¬ TransGen (Depends tasks) dep target :=
        fun hpath => get_eq_none hget (Dependency.mem_of_transGen hpath)
      simp [htgt, hnot]
    | some t =>
      obtain ⟨ht, rfl⟩ := get_eq_some hget
      obtain ⟨j, hj, rfl⟩ := getElem_of_mem ht
      obtain ⟨hlt, hrec⟩ := ih j hj hdep
      simpa [htgt] using hrec depth (by omega)

lemma transitivelyDependsOn_eq (h : Ordered tasks) {t : AgentTask} (ht : t ∈ tasks)
    (target : TaskId) :
    Tasks.transitivelyDependsOn tasks t target =
      some (decide (TransGen (Depends tasks) t.id target)) := by
  obtain ⟨i, hi, rfl⟩ := getElem_of_mem ht
  exact dependsWithin_eq h target i hi _ (by omega)

lemma checkInsert_isSome (h : Ordered tasks) (task : AgentTask) :
    (Tasks.checkInsert tasks task).isSome := by
  unfold checkInsert
  split_ifs
  · rfl
  · rfl
  split
  · rfl
  · rw [Option.isSome_map, Dependency.anyM_eq_some_any fun t ht =>
      transitivelyDependsOn_eq h ht task.id]
    rfl

structure Accepts (tasks : List AgentTask) (task : AgentTask) : Prop extends Fits tasks task where
  acyclic : ∀ t ∈ tasks, ¬ TransGen (Depends tasks) t.id task.id

lemma insertable_iff_accepts (h : Ordered tasks) :
    Insertable tasks task ↔ Accepts tasks task := by
  have hcle : ∀ t ∈ tasks, transitivelyDependsOn tasks t task.id = some false ↔
      ¬ TransGen (Depends tasks) t.id task.id := by
    intro t ht
    rw [transitivelyDependsOn_eq h ht]
    simp
  constructor
  · rintro ⟨hfits, hacy⟩
    exact ⟨hfits, fun t ht => (hcle t ht).mp (hacy t ht)⟩
  · rintro ⟨hfits, hacy⟩
    exact ⟨hfits, fun t ht => (hcle t ht).mpr (hacy t ht)⟩

/-- **Insertion**: every call returns; it appends the task if the graph accepts it and fails
otherwise. -/
theorem TaskGraph.insert_cases (g : TaskGraph) (task : AgentTask) :
    (Accepts g.tasks task ∧ ∃ g', g.insert task = some (.ok g') ∧ g'.tasks = g.tasks ++ [task]) ∨
      (¬ Accepts g.tasks task ∧ ∃ e, g.insert task = some (.error e)) := by
  rw [← insertable_iff_accepts g.ordered]
  unfold insert
  split
  · next tasks h =>
    obtain ⟨hok, rfl⟩ := insert_eq_ok_iff.mp h
    exact .inl ⟨hok, _, rfl, rfl⟩
  · next e h =>
    refine .inr ⟨fun hok => ?_, e, rfl⟩
    rw [insert_eq_ok_iff.mpr ⟨hok, rfl⟩] at h
    cases h
  · next h =>
    obtain ⟨checked, hchk⟩ := Option.isSome_iff_exists.mp (checkInsert_isSome g.ordered task)
    simp [Tasks.insert, hchk] at h

lemma TaskGraph.remove_of_concat {g g' : TaskGraph} (hfr : ∀ t ∈ g.tasks, t.id ≠ task.id)
    (htas : g'.tasks = g.tasks ++ [task]) : g'.remove task.id = some (task, g) := by
  have hnone : g.tasks.find? (fun t => t.id = task.id) = none := by
    simpa [find?_eq_none] using hfr
  have hget : Tasks.get g'.tasks task.id = some task := by
    rw [htas, Tasks.get, find?_append, hnone]
    simp
  have hera : g'.tasks.eraseP (fun t => t.id = task.id) = g.tasks := by
    have hkeep : ∀ t ∈ g.tasks, ¬ decide (t.id = task.id) = true := by simpa using hfr
    rw [htas, eraseP_append_right _ hkeep]
    simp
  unfold remove
  rw [hget, Option.map_some]
  cases g
  simp only [hera]

lemma insert_isSome (h : Ordered tasks) (task : AgentTask) :
    (Tasks.insert tasks task).isSome := by
  rw [Tasks.insert, Option.isSome_map]
  exact checkInsert_isSome h task

/-- **One call** on an ordered list returns an ordered list. -/
theorem Ordered.step (h : Ordered tasks) (op : GraphOp) :
    ∃ tasks', op.step tasks = some tasks' ∧ Ordered tasks' := by
  cases op with
  | insert task =>
    obtain ⟨result, hres⟩ := Option.isSome_iff_exists.mp (insert_isSome h task)
    refine ⟨result.toOption.getD tasks, by rw [GraphOp.step, hres, Option.map_some], ?_⟩
    cases result with
    | ok tasks' => exact h.insert hres
    | error e => exact h
  | remove id =>
    refine ⟨_, rfl, ?_⟩
    unfold remove
    cases get tasks id with
    | none => exact h
    | some t => exact h.sublist eraseP_sublist

/-- **Runs**: after any calls with any tasks, all of which return, the ids are distinct, no task
depends on itself through others, the dependencies that are present stand earlier, and every further
insertion returns.  A removal may leave dependencies that are absent; no later insertion may bring
one back, since the search for a cycle finds it. -/
theorem graph_run_ordered (ops : List GraphOp) :
    ∃ tasks, Run.exec GraphOp.step [] ops = some tasks ∧
      (tasks.map AgentTask.id).Nodup ∧
      (∀ id, ¬ TransGen (Depends tasks) id id) ∧
      (∀ i j (hi : i < tasks.length) (hj : j < tasks.length),
        tasks[j].id ∈ tasks[i].dependsOn → j < i) ∧
      ∀ task, (Tasks.insert tasks task).isSome := by
  suffices hrun : ∃ tasks, Run.exec GraphOp.step [] ops = some tasks ∧ Ordered tasks by
    obtain ⟨tasks, hexec, h⟩ := hrun
    exact ⟨tasks, hexec, h.nodup, h.acyclic, fun i j hi hj => h.lt_of_mem_deps hi hj,
      insert_isSome h⟩
  have hall : Run.Always GraphOp.step Ordered [] ops :=
    Run.always_of_step (fun _ op h => Ordered.step h op) Dependency.Ordered.nil ops
  exact Run.always_iff_prefix.mp hall ops (prefix_refl ops)

/-!
## Cycles that an insertion reports

`insert` looks for a task that depends on the new id.  A removal may leave such a task behind, and
then a task that comes back under the id is refused although it closes no cycle.
-/

/-- Some task depends on itself, directly or through others. -/
def HasCycle (tasks : List AgentTask) : Prop := ∃ id, TransGen (Depends tasks) id id

lemma exists_transGen_iff {id : TaskId} :
    (∃ t ∈ tasks, TransGen (Depends tasks) t.id id) ↔ ∃ t ∈ tasks, id ∈ t.dependsOn := by
  constructor
  · rintro ⟨t, -, hpath⟩
    obtain ⟨-, -, u, hu, -, hdep⟩ := TransGen.tail'_iff.mp hpath
    exact ⟨u, hu, hdep⟩
  · rintro ⟨t, ht, hdep⟩
    exact ⟨t, ht, .single ⟨t, ht, rfl, hdep⟩⟩

lemma checkInsert_eq_cycle_iff (h : Ordered tasks) (hfits : Fits tasks task) :
    Tasks.checkInsert tasks task = some (.error (.cycle task.id)) ↔
      ∃ t ∈ tasks, task.id ∈ t.dependsOn := by
  classical
  have hid : ¬ task.id.value.isEmpty := by simpa using hfits.nonempty
  have hdup : ¬ (tasks.any fun t => t.id = task.id) := by simpa using hfits.fresh
  have hsea : (tasks.anyM fun t => Tasks.transitivelyDependsOn tasks t task.id) =
      some (tasks.any fun t => decide (TransGen (Depends tasks) t.id task.id)) :=
    Dependency.anyM_eq_some_any fun t ht => transitivelyDependsOn_eq h ht task.id
  rw [Tasks.checkInsert, if_neg hid, if_neg hdup, missingDependency_eq_none_iff.mpr hfits.present,
    ← exists_transGen_iff]
  simp only [hsea, Option.map_some, Option.some.injEq]
  split_ifs with hcyc
  · simpa using hcyc
  · simpa using hcyc

lemma insert_eq_error_iff {e : TaskDependencyError} :
    Tasks.insert tasks task = some (.error e) ↔ Tasks.checkInsert tasks task = some (.error e) := by
  rw [Tasks.insert]
  rcases Tasks.checkInsert tasks task with - | e' | -
  · simp
  · simp [Except.map]
  · simp [Except.map]

lemma hasCycle_concat_iff (h : Ordered tasks) :
    HasCycle (tasks ++ [task]) ↔ ∃ dep ∈ task.dependsOn, ReflTransGen (Depends tasks) dep task.id :=
  h.exists_cycle_concat_iff

lemma ordered_run {ops : List GraphOp} (hrun : Run.exec GraphOp.step [] ops = some tasks) :
    Ordered tasks := by
  have hall : Run.Always GraphOp.step Ordered [] ops :=
    Run.always_of_step (fun _ op h => Ordered.step h op) Dependency.Ordered.nil ops
  obtain ⟨tasks', hrun', h⟩ := Run.always_iff_prefix.mp hall ops (List.prefix_refl ops)
  cases hrun.symm.trans hrun'
  exact h

/-- **Reported cycles**: in every graph that insertions and removals lead to, a task that passes the
other checks is refused only for a cycle that there is exactly if no task names its id, or one of
its dependencies leads to a task that does. -/
theorem insert_cycle_sound_iff {ops : List GraphOp} {tasks : List AgentTask} {task : AgentTask}
    (hrun : Run.exec GraphOp.step [] ops = some tasks) (hfits : Fits tasks task) :
    (Tasks.insert tasks task = some (.error (.cycle task.id)) → HasCycle (tasks ++ [task])) ↔
      (∀ t ∈ tasks, task.id ∉ t.dependsOn) ∨
        ∃ dep ∈ task.dependsOn, ReflTransGen (Depends tasks) dep task.id := by
  have h := ordered_run hrun
  rw [insert_eq_error_iff, checkInsert_eq_cycle_iff h hfits, hasCycle_concat_iff h]
  constructor
  · intro hsou
    by_cases hnam : ∃ t ∈ tasks, task.id ∈ t.dependsOn
    · exact .inr (hsou hnam)
    · exact .inl fun t ht hdep => hnam ⟨t, ht, hdep⟩
  · rintro (hfree | hlea) ⟨t, ht, hdep⟩
    · exact absurd hdep (hfree t ht)
    · exact hlea

def notifyTask (id : String) (dependsOn : List TaskId) : AgentTask where
  id := ⟨id⟩
  kind := .notify
  title := "t"
  description := "d"
  dependsOn := dependsOn
  risk := .low
  target := none
  arguments := none

def fetchTask : AgentTask := notifyTask "fetch" []

def reportTask : AgentTask := notifyTask "report" [⟨"fetch"⟩]

theorem insert_cycle_sound_iff_report :
    Fits [fetchTask] reportTask ∧
      (Tasks.insert [fetchTask] reportTask = some (.error (.cycle ⟨"report"⟩)) →
        HasCycle [fetchTask, reportTask]) := by
  have hrun : Run.exec GraphOp.step [] [.insert fetchTask] = some [fetchTask] := rfl
  have hfits : Fits [fetchTask] reportTask := by
    refine ⟨by decide, ?_, ?_⟩
    · simp [fetchTask, reportTask, notifyTask]
    · simp [fetchTask, reportTask, notifyTask]
  refine ⟨hfits, (insert_cycle_sound_iff hrun hfits).mpr (.inl ?_)⟩
  simp [fetchTask, notifyTask]

/-- The task that was removed is not let in again, although no cycle would arise. -/
theorem removed_task_refused :
    Run.exec GraphOp.step [] [.insert fetchTask, .insert reportTask, .remove ⟨"fetch"⟩] =
        some [reportTask] ∧
      Fits [reportTask] fetchTask ∧
      Tasks.insert [reportTask] fetchTask = some (.error (.cycle ⟨"fetch"⟩)) ∧
      ¬ HasCycle [reportTask, fetchTask] := by
  have hrun : Run.exec GraphOp.step []
      [.insert fetchTask, .insert reportTask, .remove ⟨"fetch"⟩] = some [reportTask] := rfl
  refine ⟨hrun, ⟨by decide, ?_, ?_⟩, rfl, fun hcyc => ?_⟩
  · simp [fetchTask, reportTask, notifyTask]
  · simp [fetchTask, notifyTask]
  · obtain ⟨dep, hdep, -⟩ := (hasCycle_concat_iff (ordered_run hrun)).mp hcyc
    simp [fetchTask, notifyTask] at hdep

/-!
## Scheduling

What only insertions have built names no absent task, so that a task that waits always waits for one
that need not.
-/

def finish (done : List TaskId) (t : AgentTask) : List TaskId := done ++ [t.id]

/-- A task that is ready and not done. -/
def Finishable (tasks : List AgentTask) (done : List TaskId) (t : AgentTask) : Prop :=
  t ∈ Tasks.ready tasks done ∧ t.id ∉ done

variable {order : List AgentTask}

lemma mem_ready_iff {done : List TaskId} {t : AgentTask} :
    t ∈ Tasks.ready tasks done ↔ t ∈ tasks ∧ ∀ d ∈ t.dependsOn, d ∈ done := by
  simp [Tasks.ready]

structure Complete (tasks : List AgentTask) : Prop where
  ordered : Ordered tasks
  present : ∀ t ∈ tasks, ∀ d ∈ t.dependsOn, ∃ u ∈ tasks, u.id = d

lemma Complete.step (h : Complete tasks) (task : AgentTask) :
    ∃ tasks', GraphOp.step tasks (.insert task) = some tasks' ∧ Complete tasks' := by
  obtain ⟨result, hres⟩ := Option.isSome_iff_exists.mp (insert_isSome h.ordered task)
  refine ⟨result.toOption.getD tasks, by rw [GraphOp.step, hres, Option.map_some], ?_⟩
  cases result with
  | error e => exact h
  | ok tasks' =>
    refine ⟨h.ordered.insert hres, ?_⟩
    obtain ⟨hok, rfl⟩ := insert_eq_ok_iff.mp hres
    intro t ht d hd
    have hold : ∃ u ∈ tasks, u.id = d := by
      rcases mem_append.mp ht with ht | ht
      · exact h.present t ht d hd
      · obtain rfl := mem_singleton.mp ht
        exact hok.present d hd
    obtain ⟨u, hu, hid⟩ := hold
    exact ⟨u, mem_append_left _ hu, hid⟩

lemma Complete.exists_finishable (h : Complete tasks) {done : List TaskId} {t : AgentTask}
    (ht : t ∈ tasks) (hnot : t.id ∉ done) : ∃ u, Finishable tasks done u := by
  obtain ⟨u, hu, hleft, hdeps⟩ := h.ordered.exists_ready (· ∈ done) h.present ht hnot
  exact ⟨u, mem_ready_iff.mpr ⟨hu, hdeps⟩, hleft⟩

lemma foldl_finish (order : List AgentTask) (done : List TaskId) :
    order.foldl finish done = done ++ order.map AgentTask.id := by
  induction order generalizing done with
  | nil => simp
  | cons t order ih => rw [foldl_cons, ih, finish, append_assoc, map_cons, singleton_append]

section Steps

variable (hsteps : Run.Steps finish (Finishable tasks) [] order)

include hsteps

lemma nodup_of_steps : (order.map AgentTask.id).Nodup := by
  have hdone := hsteps.invariant (I := Nodup) (fun done t ht hdone => ?_) nodup_nil
  · rwa [foldl_finish, nil_append] at hdone
  · rw [finish, ← concat_eq_append]
    exact hdone.concat ht.2

lemma subset_of_steps : order ⊆ tasks := by
  intro t ht
  obtain ⟨pre, post, rfl⟩ := append_of_mem ht
  exact (mem_ready_iff.mp (hsteps pre t post rfl).1).1

lemma dependencies_of_steps {pre post : List AgentTask} {t : AgentTask}
    (hord : order = pre ++ t :: post) : ∀ d ∈ t.dependsOn, d ∈ pre.map AgentTask.id := by
  have ht := (mem_ready_iff.mp (hsteps pre t post hord).1).2
  rwa [foldl_finish, nil_append] at ht

lemma subperm_of_steps : order.Subperm tasks :=
  (Nodup.of_map _ (nodup_of_steps hsteps)).subperm (subset_of_steps hsteps)

lemma Complete.exists_steps (h : Complete tasks) (hlt : order.length < tasks.length) :
    ∃ t, Run.Steps finish (Finishable tasks) [] (order ++ [t]) := by
  -- more ids are there than are done
  have hleft : ∃ t ∈ tasks, t.id ∉ order.map AgentTask.id := by
    by_contra hall
    push Not at hall
    have hsub : tasks.map AgentTask.id ⊆ order.map AgentTask.id := by
      intro id hid
      obtain ⟨t, ht, rfl⟩ := mem_map.mp hid
      exact hall t ht
    have hle := (h.ordered.nodup.subperm hsub).length_le
    rw [length_map, length_map] at hle
    omega
  obtain ⟨t, ht, hnot⟩ := hleft
  obtain ⟨u, hu⟩ := h.exists_finishable ht hnot
  refine ⟨u, Run.steps_concat_iff.mpr ⟨hsteps, ?_⟩⟩
  rwa [foldl_finish, nil_append]

end Steps

/-- **No deadlock**: whatever tasks are inserted, all calls return a graph in which some task that
is not done is ready as long as there is one that is not done; from nothing done, finishing any such
task again and again comes to an end after as many steps as there are tasks, with all of them done,
each one after its dependencies. -/
theorem schedule_completes (inserted : List AgentTask) :
    ∃ tasks, Run.exec GraphOp.step [] (inserted.map .insert) = some tasks ∧
      (∀ done : List TaskId, (∃ t ∈ tasks, t.id ∉ done) →
        ∃ t ∈ Tasks.ready tasks done, t.id ∉ done) ∧
      ∀ order, Run.Steps finish (Finishable tasks) [] order →
        (∀ pre t post, order = pre ++ t :: post →
          ∀ d ∈ t.dependsOn, d ∈ pre.map AgentTask.id) ∧
        order.length ≤ tasks.length ∧
        (order.length < tasks.length →
          ∃ t, Run.Steps finish (Finishable tasks) [] (order ++ [t])) ∧
        (order.length = tasks.length → order.Perm tasks) := by
  have hall : Run.Always (fun tasks t => GraphOp.step tasks (.insert t)) Complete [] inserted :=
    Run.always_of_step (fun _ t h => h.step t) ⟨Dependency.Ordered.nil, by simp⟩ inserted
  obtain ⟨tasks, hrun, h⟩ := Run.always_iff_prefix.mp hall inserted (prefix_refl _)
  refine ⟨tasks, ?_, ?_, fun order hsteps => ?_⟩
  · rw [← hrun, Run.exec_map]
  · rintro done ⟨t, ht, hnot⟩
    exact h.exists_finishable ht hnot
  · have hsub := subperm_of_steps hsteps
    exact ⟨fun pre t post hord => dependencies_of_steps hsteps hord, hsub.length_le,
      h.exists_steps hsteps, fun hlen => hsub.perm_of_length_le (Nat.le_of_eq hlen.symm)⟩

end Aether.AgentCore
