import Aether.Agent.RetryPolicy
import Aether.Algorithm.Checked

/-!
# The update status

`UpdateStatus` of `aether-update-core`.  The plan in flight is only stored and handed on, so the
status is generic in its type.
-/

namespace Aether.Update

open Aether.Core (saturatingSucc)

def maxHistoryEntries : ℕ := 64

inductive UpdateStage where
  | idle
  | downloading
  | verifying
  | staging
  | applying
  | done
  | failed
  | rolledBack
  deriving DecidableEq

def UpdateStage.asStr : UpdateStage → String
  | .idle => "idle"
  | .downloading => "downloading"
  | .verifying => "verifying"
  | .staging => "staging"
  | .applying => "applying"
  | .done => "done"
  | .failed => "failed"
  | .rolledBack => "rolled-back"

structure StageTransition where
  fromStage : UpdateStage
  toStage : UpdateStage
  timestampMs : UInt64
  note : Option String
  deriving DecidableEq

structure HistoryEntry (Plan : Type) where
  transition : StageTransition
  plan : Option Plan

structure UpdateStatus (Plan : Type) where
  stage : UpdateStage
  currentPlan : Option Plan
  attempt : UInt32
  lastError : Option String
  history : List (HistoryEntry Plan)

namespace UpdateStatus

variable {Plan : Type}

def new : UpdateStatus Plan := ⟨.idle, none, 0, none, []⟩

def transition (s : UpdateStatus Plan) (toStage : UpdateStage) (timestampMs : UInt64)
    (note : Option String) : UpdateStatus Plan :=
  let lastError :=
    if toStage = .failed then
      match note with
      | some n => some n
      | none => s.lastError
    else if toStage = .idle ∨ toStage = .downloading then none
    else s.lastError
  let attempt := if toStage = .downloading then saturatingSucc s.attempt else s.attempt
  let attempt := if toStage = .done then 0 else attempt
  let history := s.history ++ [⟨⟨s.stage, toStage, timestampMs, note⟩, s.currentPlan⟩]
  -- older entries are dropped on the front
  { stage := toStage, currentPlan := s.currentPlan, attempt, lastError,
    history := history.drop (history.length - maxHistoryEntries) }

def setPlan (s : UpdateStatus Plan) (plan : Plan) : UpdateStatus Plan :=
  { s with currentPlan := some plan }

@[simp] lemma stage_transition (s : UpdateStatus Plan) (toStage : UpdateStage)
    (timestampMs : UInt64) (note : Option String) :
    (s.transition toStage timestampMs note).stage = toStage := rfl

@[simp] lemma currentPlan_transition (s : UpdateStatus Plan) (toStage : UpdateStage)
    (timestampMs : UInt64) (note : Option String) :
    (s.transition toStage timestampMs note).currentPlan = s.currentPlan := rfl

end UpdateStatus

inductive StatusOp (Plan : Type) where
  | setPlan (plan : Plan)
  | transition (toStage : UpdateStage) (timestampMs : UInt64) (note : Option String)

namespace UpdateStatus

variable {Plan : Type}

def step (s : UpdateStatus Plan) : StatusOp Plan → UpdateStatus Plan
  | .setPlan plan => s.setPlan plan
  | .transition toStage timestampMs note => s.transition toStage timestampMs note

def run (s : UpdateStatus Plan) (ops : List (StatusOp Plan)) : UpdateStatus Plan :=
  ops.foldl step s

end UpdateStatus

/-!
## The update agent (`aether-update-agent`)

An apply engine is a function of the calls made before, and the driver keeps their list.  The
agent's snapshot is never set and is left out.
-/

open Agent

inductive ApplyStep where
  | download
  | verify
  | stage
  | snapshot
  | apply
  | reboot
  deriving DecidableEq

namespace ApplyStep

def asStr : ApplyStep → String
  | .download => "download"
  | .verify => "verify"
  | .stage => "stage"
  | .snapshot => "snapshot"
  | .apply => "apply"
  | .reboot => "reboot"

def updateStage : ApplyStep → UpdateStage
  | .download => .downloading
  | .verify => .verifying
  | .stage => .staging
  | .snapshot | .apply | .reboot => .applying

end ApplyStep

inductive ApplyError where
  | nonZeroExit (step : ApplyStep) (code : Int32)
  | refused (step : ApplyStep) (reason : String)
  | wrongStage (step : ApplyStep) (actual : UpdateStage)
  deriving DecidableEq

def ApplyError.display : ApplyError → String
  | .nonZeroExit step code => s!"step '{step.asStr}' returned exit code {code}"
  | .refused step reason => s!"step '{step.asStr}' refused: {reason}"
  | .wrongStage step actual => s!"step '{step.asStr}' not allowed in stage '{actual.asStr}'"

structure EngineCall where
  step : ApplyStep
  result : Except ApplyError Unit

abbrev ApplyEngine (Plan : Type) :=
  List EngineCall → ApplyStep → Plan → Except ApplyError Unit

inductive AgentAuditEvent where
  | planAccepted (planId target : String)
  | stepAttempted (step : ApplyStep) (attempt : UInt32)
  | stepSucceeded (step : ApplyStep)
  | stepFailed (step : ApplyStep) (reason : String)
  | retryScheduled (step : ApplyStep) (delayMs : UInt64)
  | stepGaveUp (step : ApplyStep)
  | rollbackTriggered (reason : String)
  | rollbackCompleted
  deriving DecidableEq

structure UpdateAgent (Plan : Type) where
  status : UpdateStatus Plan
  retries : PolicyEngine
  audit : List AgentAuditEvent
  calls : List EngineCall

def stepTaskId (step : ApplyStep) : TaskId :=
  ((TaskId.new step.asStr).orElse fun _ => TaskId.new "update").getD ⟨"default", by decide⟩

namespace UpdateAgent

variable {Plan : Type}

def new : UpdateAgent Plan := ⟨.new, .new, [], []⟩

def record (a : UpdateAgent Plan) (event : AgentAuditEvent) : UpdateAgent Plan :=
  { a with audit := a.audit ++ [event] }

def transition (a : UpdateAgent Plan) (stage : UpdateStage) (nowMs : UInt64)
    (note : Option String) : UpdateAgent Plan :=
  { a with status := a.status.transition stage nowMs note }

def accept (debug : Plan → String) (a : UpdateAgent Plan) (plan : Plan) : UpdateAgent Plan :=
  { a with status := a.status.setPlan plan }.record (.planAccepted (debug plan) (debug plan))

def runStep (engine : ApplyEngine Plan) (a : UpdateAgent Plan) (step : ApplyStep) (nowMs : UInt64) :
    Except ApplyError Unit × UpdateAgent Plan :=
  let a := a.record (.stepAttempted step (saturatingSucc a.status.attempt))
  let a := a.transition step.updateStage nowMs none
  match a.status.currentPlan with
  | none => (.error (.refused step "no current plan"), a)
  | some plan =>
    let result := engine a.calls step plan
    let a : UpdateAgent Plan := { a with calls := a.calls ++ [⟨step, result⟩] }
    match result with
    | .ok () => (.ok (), a.record (.stepSucceeded step))
    | .error err =>
      let a := a.record (.stepFailed step err.display)
      (.error err, a.transition .failed nowMs (some err.display))

def retryLoop (engine : ApplyEngine Plan) (step : ApplyStep) (nowMs : UInt64) :
    ℕ → ℕ → UpdateAgent Plan → Option Decision × UpdateAgent Plan
  | 0, _, a => (some .giveUp, a.record (.stepGaveUp step))
  | remaining + 1, attempt, a =>
    match a.runStep engine step nowMs with
    | (.ok (), a) => (some (.retry 0), a)
    | (.error _, a) =>
      match a.retries.decide (stepTaskId step) attempt with
      | none => (none, a)
      | some (.retry delayMs, retries) =>
        let a := { a with retries := retries }.record (.retryScheduled step delayMs)
        retryLoop engine step nowMs remaining (attempt + 1) a
      | some (decision, retries) =>
        (some decision, { a with retries := retries }.record (.stepGaveUp step))

def maxAttempts (a : UpdateAgent Plan) (step : ApplyStep) : ℕ :=
  ((a.retries.policyFor (stepTaskId step)).map fun p => p.maxAttempts.toNat).getD 1

def applyWithRetry (engine : ApplyEngine Plan) (a : UpdateAgent Plan) (step : ApplyStep)
    (nowMs : UInt64) : Option Decision × UpdateAgent Plan :=
  retryLoop engine step nowMs (a.maxAttempts step) 1 a

def failAndRollback (a : UpdateAgent Plan) (failedStep : ApplyStep) (nowMs : UInt64) :
    UpdateAgent Plan :=
  let a := a.record (.rollbackTriggered s!"step '{failedStep.asStr}' failed")
  let a := a.transition .failed nowMs none
  (a.transition .rolledBack nowMs none).record .rollbackCompleted

def applySteps (engine : ApplyEngine Plan) (nowMs : UInt64) :
    List ApplyStep → UpdateAgent Plan → Option (Except ApplyError Unit) × UpdateAgent Plan
  | [], a => (some (.ok ()), a.transition .done nowMs none)
  | step :: rest, a =>
    match a.applyWithRetry engine step nowMs with
    | (none, a) => (none, a)
    | (some .giveUp, a) | (some .circuitBreak, a) =>
      (some (.error (.refused step "retries exhausted")), a.failAndRollback step nowMs)
    | (some (.retry _), a) | (some (.fallback _), a) => applySteps engine nowMs rest a

def applySequence : List ApplyStep := [.snapshot, .download, .verify, .stage, .apply]

def apply (engine : ApplyEngine Plan) (a : UpdateAgent Plan) (nowMs : UInt64) :
    Option (Except ApplyError Unit) × UpdateAgent Plan :=
  applySteps engine nowMs applySequence a

def defaultPolicy : RetryPolicy :=
  { maxAttempts := 3, backoff := .exponential 100 5000, fallbacks := [],
    circuitBreakerThreshold := 0, group := none }

def installDefaultPolicies (a : UpdateAgent Plan) : UpdateAgent Plan :=
  let steps : List ApplyStep := [.download, .verify, .stage, .snapshot, .apply]
  let retries := steps.foldl (fun e step => e.register (stepTaskId step) defaultPolicy) a.retries
  { a with retries }

end UpdateAgent

end Aether.Update
