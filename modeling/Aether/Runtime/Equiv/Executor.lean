import Aether.Algorithm.Command
import Aether.Runtime.Executor

/-!
# What a successful execution says about the reply

The executor does not read the field `ok` of the reply.
-/

namespace Aether.Runtime.ActionExecutor

open Aether.Core

variable {io : Io} {executor : ActionExecutor}

def Replies (io : Io) (port : UInt16) (timeoutSecs : ℕ) (payload j : Json) : Prop :=
  ∃ text, io.exchange port timeoutSecs payload = .line text ∧ text ≠ "" ∧
    io.decode (trim text) = .ok j

lemma exchangeLine_eq_ok_iff {port : UInt16} {timeoutSecs : ℕ} {payload j : Json}
    {peer reply : String} :
    exchangeLine io port timeoutSecs payload peer reply = .ok j ↔
      Replies io port timeoutSecs payload j := by
  unfold exchangeLine Replies
  cases hex : io.exchange port timeoutSecs payload with
  | line text =>
    by_cases hemp : text = ""
    · simp [hemp]
    · simp [hemp, Aether.Except.mapError_eq_ok_iff]
  | _ => simp

/-- The JSON value `j` comes back for the request. -/
def Answered (executor : ActionExecutor) (io : Io) : ExecutorRequest → Json → Prop
  | .ipc command parameters, j =>
    Replies io executor.controlPort 10 (ipcPayload "aether-system-core" command parameters) j
  | .surface payload, j => Replies io executor.surfacePort 5 payload j
  | .none, _ | .refused _, _ => False

lemma send_eq_ok_iff {request : ExecutorRequest} {j : Json} :
    executor.send io request = .ok j ↔
      request = .none ∧ j = .obj [] ∨ Answered executor io request j := by
  cases request with
  | none =>
    rw [send, Except.ok.injEq]
    simp [Answered, eq_comm]
  | ipc command parameters =>
    rw [send, ipcRequest, exchangeLine_eq_ok_iff]
    simp [Answered]
  | surface payload =>
    rw [send, surfaceRequest, exchangeLine_eq_ok_iff]
    simp [Answered]
  | refused e => simp [send, Answered]

lemma Answered.unique {request : ExecutorRequest} {j j' : Json}
    (h : Answered executor io request j) (h' : Answered executor io request j') : j = j' := by
  have hj := send_eq_ok_iff.mpr (.inr h)
  rw [send_eq_ok_iff.mpr (.inr h')] at hj
  exact (Except.ok.inj hj).symm

lemma execute_eq_ok_iff {action : Action} {r : ExecutionResult} :
    executor.execute io action = .ok r ↔ ∃ j, executor.send io action.variant.request = .ok j ∧
      ⟨true, Observation.new io.observationId io.now action.id.hyphenated action.sessionId
        (action.variant.observe j), io.elapsedMs⟩ = r := by
  rw [execute, Aether.Except.bind_eq_ok_iff]
  simp only [Aether.Except.pure_eq_ok_iff]

/-- A success has a reply with `ok = true`, and a reply with `ok = false` is an error. -/
def ReportsOk (executor : ActionExecutor) (io : Io) (action : Action) : Prop :=
  (∀ r, executor.execute io action = .ok r → r.success → action.variant.request ≠ .none →
    ∃ j, Answered executor io action.variant.request j ∧ j.field "ok" = .bool true) ∧
  ∀ j, Answered executor io action.variant.request j → j.field "ok" = .bool false →
    ∃ e, executor.execute io action = .error e

/-- **Success and `ok`**: they agree iff no JSON value comes back that does not report
`ok = true`. -/
theorem execute_reports_ok_iff (executor : ActionExecutor) (io : Io) (action : Action) :
    ReportsOk executor io action ↔
      ∀ j, Answered executor io action.variant.request j → j.field "ok" = .bool true := by
  constructor
  · rintro ⟨hok, -⟩ j hj
    have hsend := send_eq_ok_iff.mpr (.inr hj)
    have hne : action.variant.request ≠ .none := by
      intro hnone
      rw [hnone] at hj
      exact hj
    obtain ⟨j', hj', hfie⟩ := hok _ (execute_eq_ok_iff.mpr ⟨j, hsend, rfl⟩) rfl hne
    rwa [hj.unique hj']
  · intro h
    refine ⟨fun r hr _ hne => ?_, fun j hj hfal => ?_⟩
    · obtain ⟨j, hsend, -⟩ := execute_eq_ok_iff.mp hr
      rcases send_eq_ok_iff.mp hsend with ⟨hnone, -⟩ | hj
      · exact absurd hnone hne
      · exact ⟨j, hj, h j hj⟩
    · rw [h j hj] at hfal
      cases hfal

def denialText : String :=
  "\x7b\"ok\":false,\"command\":\"file.delete\",\"result\":null,\"error\":" ++
    "\x7b\"code\":\"POLICY_DENIED\",\"message\":\"denied by policy\"\x7d\x7d"

def denial : Json :=
  .obj [("command", .str "file.delete"),
    ("error", .obj [("code", .str "POLICY_DENIED"), ("message", .str "denied by policy")]),
    ("ok", .bool false), ("result", .null)]

def denyingIo : Io where
  exchange _ _ _ := .line (denialText ++ "\n")
  decode text := if text = denialText then .ok denial else .error "expected value"
  observationId := ⟨Vector.replicate 16 0⟩
  now := 0
  elapsedMs := 1

lemma decode_denialText : denyingIo.decode (trim (denialText ++ "\n")) = .ok denial := by
  have htrim : trim (denialText ++ "\n") = denialText := by decide +kernel
  rw [htrim]
  simp only [denyingIo, if_true]

def deniedRemoval : Action :=
  Action.new ⟨Vector.replicate 16 1⟩ "session" (.fileDelete "/tmp/scratch") "clean up"

/-- A denied deletion is reported as a success. -/
theorem denied_reported_ok : ¬ ReportsOk ⟨4747, 4750⟩ denyingIo deniedRemoval := by
  rintro ⟨-, hfal⟩
  have hden : Answered ⟨4747, 4750⟩ denyingIo deniedRemoval.variant.request denial :=
    ⟨denialText ++ "\n", rfl, by decide +kernel, decode_denialText⟩
  obtain ⟨e, he⟩ := hfal denial hden rfl
  have hok := execute_eq_ok_iff.mpr ⟨denial, send_eq_ok_iff.mpr (.inr hden), rfl⟩
  exact nomatch he.symm.trans hok

end Aether.Runtime.ActionExecutor

/-!
## Which attempt is the last one

`Ends` says of the outcome of an attempt that there is no further one, in the words of the recovery
rules.  The loop makes attempts up to the first one that ends it and returns its outcome
(`recoveryLoop_eq`), and the budget of the policy bounds their number.
-/

namespace Aether.Runtime

open Aether.Core

variable {policy : RecoveryPolicy} {execute : ℕ → Except AgentError ExecutionResult}
  {elapsedMs : ℕ → UInt64} {n : ℕ}

def Ends (policy : RecoveryPolicy) (n : ℕ) : Except AgentError ExecutionResult → Prop
  | .ok _ => True
  | .error e => FailureKind.fromError e = .permanent ∨
      (FailureKind.fromError e = .unknown ∧ 1 < n) ∨ n = policy.maxRetries.toNat + 1

/-- Attempt `n` is the first that ends the loop. -/
structure FirstEnd (policy : RecoveryPolicy) (execute : ℕ → Except AgentError ExecutionResult)
    (n : ℕ) : Prop where
  pos : 1 ≤ n
  ends : Ends policy n (execute n)
  first : ∀ m, 1 ≤ m → m < n → ¬ Ends policy m (execute m)

lemma exists_firstEnd (policy : RecoveryPolicy)
    (execute : ℕ → Except AgentError ExecutionResult) :
    ∃ n ≤ policy.maxRetries.toNat + 1, FirstEnd policy execute n := by
  classical
  have hlast : 1 ≤ policy.maxRetries.toNat + 1 ∧
      Ends policy (policy.maxRetries.toNat + 1) (execute (policy.maxRetries.toNat + 1)) := by
    refine ⟨by omega, ?_⟩
    cases execute (policy.maxRetries.toNat + 1) with
    | ok result => exact trivial
    | error e => exact Or.inr (Or.inr rfl)
  have hex : ∃ n, 1 ≤ n ∧ Ends policy n (execute n) := ⟨_, hlast⟩
  refine ⟨Nat.find hex, Nat.find_min' hex hlast, (Nat.find_spec hex).1, (Nat.find_spec hex).2, ?_⟩
  intro m hm hlt hends
  exact Nat.find_min hex hlt ⟨hm, hends⟩

lemma decideRecovery_of_not_ends {e : AgentError} (hpos : 1 ≤ n)
    (hbud : n ≤ policy.maxRetries.toNat + 1) (h : ¬ Ends policy n (.error e)) :
    decideRecovery policy n (.fromError e) false = some .retry := by
  simp only [Ends, not_or, not_and] at h
  obtain ⟨hper, hunk, hlast⟩ := h
  rw [decideRecovery_eq_retry_iff]
  refine ⟨by omega, by omega, ?_⟩
  cases hkind : FailureKind.fromError e with
  | transient => exact Or.inl rfl
  | permanent => exact absurd hkind hper
  | unknown =>
    have hfst := hunk hkind
    exact Or.inr ⟨rfl, by omega⟩

lemma decideRecovery_of_ends {e : AgentError} (hpos : 1 ≤ n) (h : Ends policy n (.error e)) :
    decideRecovery policy n (.fromError e) false = some .abort := by
  have hzero : n ≠ 0 := by omega
  unfold decideRecovery
  simp only [Bool.false_eq_true, if_false]
  rw [if_neg hzero]
  by_cases hbud : policy.maxRetries.toNat < n
  · rw [if_pos hbud]
  · rw [if_neg hbud]
    rcases h with hper | ⟨hunk, hlat⟩ | hlast
    · rw [hper]
    · rw [hunk]
      exact if_pos hlat
    · omega

lemma recoveryLoop_eq (hend : FirstEnd policy execute n)
    (hbud : n ≤ policy.maxRetries.toNat + 1) (hword : n < 2 ^ 32) :
    ∀ (fuel calls : ℕ) (attempt : UInt32), attempt.toNat = calls → calls < n → n ≤ calls + fuel →
      recoveryLoop execute elapsedMs policy fuel calls attempt =
        some (n, (execute n).map fun r => { r with durationMs := elapsedMs n }) := by
  intro fuel
  induction fuel with
  | zero => intro calls attempt hatt hcal hfuel; omega
  | succ fuel ih =>
    intro calls attempt hatt hcal hfuel
    have hnext : (saturatingSucc attempt).toNat = calls + 1 := by
      rw [toNat_saturatingSucc, hatt]
      omega
    unfold recoveryLoop
    dsimp only
    rw [hnext]
    by_cases hlast : calls + 1 = n
    · -- this attempt ends the loop
      rw [hlast]
      have hends := hend.ends
      cases hexe : execute n with
      | ok result => rfl
      | error e =>
        rw [hexe] at hends
        simp only [decideRecovery_of_ends hend.pos hends]
        rfl
    · have hnot := hend.first (calls + 1) (by omega) (by omega)
      cases hexe : execute (calls + 1) with
      | ok result =>
        rw [hexe] at hnot
        exact absurd trivial hnot
      | error e =>
        rw [hexe] at hnot
        have hret := decideRecovery_of_not_ends (by omega) (by omega) hnot
        simp only [hret]
        exact ih (calls + 1) (saturatingSucc attempt) hnext (by omega) (by omega)

def ActionVariant.mutates : ActionVariant → Bool
  | .applicationLaunch _ | .applicationClose _ | .windowClose _ _ => true
  | .fileCreate _ _ | .fileWrite _ _ | .fileRename _ _ | .fileMove _ _ | .fileDelete _ => true
  | .deviceEnable _ | .deviceDisable _ => true
  | .displaySetResolution _ _ _ | .displaySetBrightness _ _ => true
  | .credentialSeal _ _ | .credentialUnseal _ | .policyReload | .serviceRestart _ => true
  | .systemReboot _ | .systemShutdown _ | .systemSuspend => true
  | _ => false

variable (variant : ActionVariant)

lemma recoveryPolicyFor_eq :
    recoveryPolicyFor variant = if variant.mutates then .noRetry else .transientDefault := by
  cases variant <;> rfl

lemma toNat_maxRetries_le : (recoveryPolicyFor variant).maxRetries.toNat ≤ 3 := by
  rw [recoveryPolicyFor_eq]
  split_ifs <;> decide

lemma executeWithRecovery_eq (execute : ℕ → Except AgentError ExecutionResult)
    (elapsedMs : ℕ → UInt64) :
    ∃ n ≤ (recoveryPolicyFor variant).maxRetries.toNat + 1,
      FirstEnd (recoveryPolicyFor variant) execute n ∧
      ∀ fuel, 4 ≤ fuel → executeWithRecovery execute elapsedMs variant fuel =
        some (n, (execute n).map fun r => { r with durationMs := elapsedMs n }) := by
  obtain ⟨n, hbud, hend⟩ := exists_firstEnd (recoveryPolicyFor variant) execute
  have hthr := toNat_maxRetries_le variant
  refine ⟨n, hbud, hend, ?_⟩
  intro fuel hfuel
  exact recoveryLoop_eq hend hbud (by omega) fuel 0 0 rfl hend.pos (by omega)

/-- For every sequence of outcomes the attempts stop at the first one that ends the loop, its
outcome is the result, with the time of the whole loop, and there are at most four of them.  An
action that changes the system is attempted once. -/
theorem executeWithRecovery_stops (variant : ActionVariant)
    (execute : ℕ → Except AgentError ExecutionResult) (elapsedMs : ℕ → UInt64) :
    ∃ n, FirstEnd (recoveryPolicyFor variant) execute n ∧ n ≤ 4 ∧
      (variant.mutates → n = 1) ∧
      ∀ fuel, 4 ≤ fuel → executeWithRecovery execute elapsedMs variant fuel =
        some (n, (execute n).map fun r => { r with durationMs := elapsedMs n }) := by
  obtain ⟨n, hbud, hend, heq⟩ := executeWithRecovery_eq variant execute elapsedMs
  have hthr := toNat_maxRetries_le variant
  have hpos := hend.pos
  refine ⟨n, hend, by omega, ?_, heq⟩
  intro hmut
  rw [recoveryPolicyFor_eq, if_pos hmut] at hbud
  have hzero : RecoveryPolicy.noRetry.maxRetries.toNat = 0 := rfl
  omega

end Aether.Runtime
