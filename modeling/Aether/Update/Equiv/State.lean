import Aether.Algorithm.Recent
import Aether.Update.Agent
import Mathlib.Data.List.Chain

/-!
# The history of an update status

The status keeps the last 64 transitions and a counter of attempts.  `trace` are all transitions of
a run, `attempts` the number that the counter stands for.
-/

namespace Aether.Update

open Aether.Core (saturatingSucc toNat_saturatingSucc)

variable {Plan : Type}

def trace : UpdateStage → Option Plan → List (StatusOp Plan) → List (HistoryEntry Plan)
  | _, _, [] => []
  | stage, _, .setPlan plan :: ops => trace stage (some plan) ops
  | stage, plan, .transition toStage timestampMs note :: ops =>
    ⟨⟨stage, toStage, timestampMs, note⟩, plan⟩ :: trace toStage plan ops

/-- The second transition starts where the first one ended. -/
def Linked (e e' : HistoryEntry Plan) : Prop := e'.transition.fromStage = e.transition.toStage

lemma fromStage_of_head_trace {stage : UpdateStage} {plan : Option Plan}
    {ops : List (StatusOp Plan)} {e : HistoryEntry Plan} (h : e ∈ (trace stage plan ops).head?) :
    e.transition.fromStage = stage := by
  induction ops generalizing plan with
  | nil => cases h
  | cons op ops ih =>
    cases op with
    | setPlan plan' => exact ih h
    | transition toStage timestampMs note =>
      cases h
      rfl

lemma trace_linked (stage : UpdateStage) (plan : Option Plan) (ops : List (StatusOp Plan)) :
    (trace stage plan ops).IsChain Linked := by
  induction ops generalizing stage plan with
  | nil => exact .nil
  | cons op ops ih =>
    cases op with
    | setPlan plan' => exact ih stage (some plan')
    | transition toStage timestampMs note =>
      refine (ih toStage plan).cons fun e he => ?_
      exact fromStage_of_head_trace he

def targets (ops : List (StatusOp Plan)) : List UpdateStage :=
  ops.filterMap fun
    | .setPlan _ => none
    | .transition toStage _ _ => some toStage

def attempts (ops : List (StatusOp Plan)) : ℕ :=
  Recent.countSince (· = .done) (· = .downloading) (targets ops)

namespace UpdateStatus

variable (ops : List (StatusOp Plan)) (s : UpdateStatus Plan)

lemma run_concat (ops : List (StatusOp Plan)) (op : StatusOp Plan) :
    s.run (ops ++ [op]) = (s.run ops).step op := by
  rw [run, List.foldl_append]
  rfl

lemma trace_append (ops ops' : List (StatusOp Plan)) :
    trace s.stage s.currentPlan (ops ++ ops') =
      trace s.stage s.currentPlan ops ++ trace (s.run ops).stage (s.run ops).currentPlan ops' := by
  induction ops generalizing s with
  | nil => rfl
  | cons op ops ih =>
    cases op with
    | setPlan plan => exact ih (s.setPlan plan)
    | transition toStage timestampMs note =>
      have htail := ih (s.transition toStage timestampMs note)
      rw [stage_transition, currentPlan_transition] at htail
      rw [List.cons_append, trace, htail, trace, List.cons_append]
      rfl

lemma trace_new_concat (op : StatusOp Plan) :
    trace .idle none (ops ++ [op]) =
      trace .idle none ops ++ trace (new.run ops).stage (new.run ops).currentPlan [op] :=
  trace_append new ops [op]

lemma history_transition (toStage : UpdateStage) (timestampMs : UInt64) (note : Option String) :
    (s.transition toStage timestampMs note).history =
      (s.history ++ trace s.stage s.currentPlan [.transition toStage timestampMs note]).rtake
        maxHistoryEntries := by
  rw [trace, trace, List.rtake]
  rfl

lemma history_run : (new.run ops).history = (trace .idle none ops).rtake maxHistoryEntries := by
  induction ops using List.reverseRecOn with
  | nil => rfl
  | append_singleton ops op ih =>
    rw [run_concat, trace_new_concat]
    cases op with
    | setPlan plan =>
      rw [trace, trace, List.append_nil]
      exact ih
    | transition toStage timestampMs note =>
      rw [step, history_transition, ih]
      exact Recent.rtake_concat _ _ _

lemma stage_run {e : HistoryEntry Plan} (he : e ∈ (trace .idle none ops).getLast?) :
    e.transition.toStage = (new.run ops : UpdateStatus Plan).stage := by
  induction ops using List.reverseRecOn with
  | nil => cases he
  | append_singleton ops op ih =>
    rw [trace_new_concat] at he
    rw [run_concat]
    cases op with
    | setPlan plan =>
      rw [trace, trace, List.append_nil] at he
      exact ih he
    | transition toStage timestampMs note =>
      rw [trace, trace, List.getLast?_concat] at he
      cases he
      rfl

lemma attempt_transition (toStage : UpdateStage) (timestampMs : UInt64) (note : Option String) :
    (s.transition toStage timestampMs note).attempt =
      if toStage = .done then 0
      else if toStage = .downloading then saturatingSucc s.attempt else s.attempt := rfl

lemma toNat_attempt_run :
    (new.run ops : UpdateStatus Plan).attempt.toNat = min (attempts ops) (2 ^ 32 - 1) := by
  induction ops using List.reverseRecOn with
  | nil => rfl
  | append_singleton ops op ih =>
    rw [run_concat]
    cases op with
    | setPlan plan =>
      have htar : targets (ops ++ [.setPlan plan]) = targets ops := by simp [targets]
      rw [attempts, htar]
      exact ih
    | transition toStage timestampMs note =>
      have htar : targets (ops ++ [.transition toStage timestampMs note]) =
          targets ops ++ [toStage] := by simp [targets]
      rw [step, attempt_transition, attempts, htar, Recent.countSince_concat]
      simp only [decide_eq_true_eq]
      split_ifs with hdone hdow
      · rfl
      · rw [toNat_saturatingSucc, ih]
        show min (min (attempts ops) (2 ^ 32 - 1) + 1) (2 ^ 32 - 1) =
          min (attempts ops + 1) (2 ^ 32 - 1)
        omega
      · exact ih

/-- **The history of a run**, however long: the last 64 transitions, each starting where the one
before ended, the last one in the stage of the status; and the counter of attempts. -/
theorem run_history_spec (ops : List (StatusOp Plan)) :
    (new.run ops).history = (trace .idle none ops).rtake maxHistoryEntries ∧
      (new.run ops).history.IsChain Linked ∧
      (∀ e ∈ (new.run ops).history.getLast?,
        e.transition.toStage = (new.run ops : UpdateStatus Plan).stage) ∧
      (new.run ops : UpdateStatus Plan).attempt.toNat =
        min (attempts ops) (2 ^ 32 - 1) := by
  have hsuf := Recent.rtake_suffix (trace .idle none ops) maxHistoryEntries
  refine ⟨history_run ops, ?_, fun e he => ?_, toNat_attempt_run ops⟩
  · rw [history_run]
    exact (trace_linked .idle none ops).suffix hsuf
  · rw [history_run] at he
    refine stage_run ops ?_
    obtain ⟨pre, hpre⟩ := hsuf
    rw [← hpre, List.getLast?_append]
    simp [Option.mem_def.mp he]

end UpdateStatus

end Aether.Update
