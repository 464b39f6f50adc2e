import Aether.Agentd.Planner

/-!
## What is sent for an intent

`Exchange` is one attempt: the calls it makes, given those before it, and how it ends.  The retry
loop returns, and what it sends is made of attempts (`executeWithRetries_apply`).
-/

namespace Aether.Agentd

open Aether.Core Command

variable {w : Ipc}

/-- The calls among the events of a trace. -/
abbrev callsOf (trace : List PlanEvent) : List IpcCall := trace.filterMap PlanEvent.call?

/-- What the agent makes of a line of the surface server. -/
def surfaceResult (v : Json) : Except String Json :=
  if (v.field "ok").asBool.getD false then .ok v
  else .error ((v.field "error").asStr.getD "surface error")

/-- What the agent hears in answer to a call after the calls `h`: a value or a text of failure. -/
def heard (w : Ipc) (h : List IpcCall) : IpcCall → Except String Json
  | .control request =>
    let answer : Except String IpcResponse := w h (.control request)
    answer.bind responseResult
  | .surface request =>
    let answer : Except String Json := w h (.surface request)
    answer.bind surfaceResult

/-- The request of an intent to the control plane. -/
def Intent.call (intent : Intent) : IpcCall := .control (controlRequest intent)

/-- The intent changes a window; the surface server can do it too. -/
def CapabilityId.changesWindow : CapabilityId → Bool
  | .windowFocus | .windowMinimize | .windowMaximize | .windowClose | .windowRestore => true
  | _ => false

/-- The surface server is asked if the control plane fails. -/
def CapabilityId.fallsBack (capability : CapabilityId) : Bool :=
  capability = .windowList ∨ capability.changesWindow = true

/-- The operation of the surface server that changes a window with a known id. -/
def CapabilityId.surfaceOp : CapabilityId → String
  | .windowMinimize => "window.minimize"
  | .windowMaximize => "window.maximize"
  | _ => "window.focus"

/-- The question for the windows of the surface server. -/
def listCall : IpcCall := .surface (.obj [("op", .str "window.list")])

/-- What the surface server is asked first: the id of the window, if it is needed. -/
def Intent.lookup (intent : Intent) : List IpcCall :=
  match intent.capability with
  | .windowList | .windowClose => []
  | _ => [listCall]

/-- The change of a window of the list. -/
def changeCall (op app : String) (list : Json) : Except String IpcCall :=
  match findWindow list app with
  | some id => .ok (.surface (windowRequest op id))
  | none => .error s!"no such window for '{app}'"

/-- What the surface server is asked in place of the control plane, after the calls `h`. -/
def surfaceRequest (w : Ipc) (h : List IpcCall) (intent : Intent) : Except String IpcCall :=
  match intent.capability with
  | .windowList => .ok listCall
  | .windowClose =>
    .ok (.surface (.obj [("op", .str "window.close"), ("app_id", .str intent.app)]))
  | capability => heard w h listCall >>= changeCall capability.surfaceOp intent.app

/-- One attempt after the calls `h`: its calls and its result. -/
inductive Exchange (w : Ipc) (h : List IpcCall) (intent : Intent) :
    List IpcCall → Except String Json → Prop
  | done {v : Json} (hcall : heard w h intent.call = .ok v) :
      Exchange w h intent [intent.call] (.ok v)
  | failed {e : String} (hcall : heard w h intent.call = .error e)
      (hcap : intent.capability.fallsBack = false) :
      Exchange w h intent [intent.call] (.error e)
  | lost {e f : String} (hcall : heard w h intent.call = .error e)
      (hcap : intent.capability.fallsBack = true)
      (hreq : surfaceRequest w (h ++ [intent.call]) intent = .error f) :
      Exchange w h intent (intent.call :: intent.lookup) (.error f)
  | changed {e : String} {call : IpcCall} {r : Except String Json}
      (hcall : heard w h intent.call = .error e)
      (hcap : intent.capability.fallsBack = true)
      (hreq : surfaceRequest w (h ++ [intent.call]) intent = .ok call)
      (hres : heard w (h ++ intent.call :: intent.lookup) call = r) :
      Exchange w h intent (intent.call :: (intent.lookup ++ [call])) r

lemma Exchange.unique {h calls calls' : List IpcCall} {intent : Intent} {r r' : Except String Json}
    (hexc : Exchange w h intent calls r) (hexc' : Exchange w h intent calls' r') :
    r = r' ∧ calls = calls' := by
  cases hexc <;> cases hexc' <;> simp_all

/-- The intent that an event is about. -/
def PlanEvent.intent : PlanEvent → ℕ
  | .sent intent _ _ => intent
  | .failed intent _ _ => intent

variable (slot : Slot) {intent : Intent} {capability : CapabilityId} {e : String}
  {ctx : PlannerContext} {index : ℕ} {log new : List PlanEvent}

/-- The event of a call in this slot. -/
def Slot.sent (slot : Slot) (call : IpcCall) : PlanEvent := .sent slot.intent slot.attempt call

lemma callsOf_append (t t' : List PlanEvent) : callsOf (t ++ t') = callsOf t ++ callsOf t' :=
  List.filterMap_append

lemma callsOf_sent (t : List PlanEvent) (calls : List IpcCall) :
    callsOf (t ++ calls.map slot.sent) = callsOf t ++ calls := by
  have hcall : PlanEvent.call? ∘ slot.sent = some := rfl
  rw [callsOf_append, callsOf, callsOf, List.filterMap_map, hcall, List.filterMap_some]

lemma surfaceCall_apply (request : Json) (t : List PlanEvent) :
    surfaceCall w slot request t =
      require (heard w (callsOf t) (.surface request)) (t ++ [slot.sent (.surface request)]) := by
  have hsend : send w slot (.surface request) t =
    (.ok (w (callsOf t) (.surface request)), t ++ [slot.sent (.surface request)]) := rfl
  rw [surfaceCall, bind_apply_of_eq hsend, heard]
  rcases (w (callsOf t) (.surface request) : Except String Json) with e | v
  · rfl
  · rw [require_ok_bind]
    show _ = require (surfaceResult v) _
    unfold surfaceResult
    split_ifs <;> rfl

lemma surfaceWindowOp_apply (op app : String) (t : List PlanEvent) :
    surfaceWindowOp w slot op app none t =
      match heard w (callsOf t) listCall >>= changeCall op app with
      | .error f => (.error f, t ++ [slot.sent listCall])
      | .ok call => require (heard w (callsOf t ++ [listCall]) call)
          (t ++ [slot.sent listCall, slot.sent call]) := by
  have hlist : surfaceWindowList w slot t =
      require (heard w (callsOf t) listCall) (t ++ [slot.sent listCall]) :=
    surfaceCall_apply slot _ t
  rcases hheard : heard w (callsOf t) listCall with f | list
  · rw [surfaceWindowOp, bind_apply, hlist, hheard]
    rfl
  · rw [hheard] at hlist
    rw [surfaceWindowOp, bind_apply_of_eq hlist]
    show _ = match changeCall op app list with
      | .error f => _
      | .ok call => _
    unfold changeCall
    cases findWindow list app with
    | none => rfl
    | some id =>
      have hcalls : callsOf (t ++ [slot.sent listCall]) = callsOf t ++ [listCall] :=
        callsOf_sent slot t [listCall]
      show surfaceCall w slot _ _ = require _ _
      rw [surfaceCall_apply, hcalls, List.append_assoc]
      rfl

lemma exists_surfaceFallback (hcap : intent.capability.fallsBack = true) :
    ∃ fallback, surfaceFallback w slot intent = some fallback ∧ ∀ t, fallback t =
      match surfaceRequest w (callsOf t) intent with
      | .error f => (.error f, t ++ intent.lookup.map slot.sent)
      | .ok call => require (heard w (callsOf t ++ intent.lookup) call)
          (t ++ (intent.lookup ++ [call]).map slot.sent) := by
  unfold surfaceFallback surfaceRequest Intent.lookup
  have hsingle : ∀ request t, surfaceCall w slot request t =
      require (heard w (callsOf t ++ []) (.surface request))
        (t ++ [slot.sent (.surface request)]) := by
    intro request t
    rw [List.append_nil]
    exact surfaceCall_apply slot request t
  cases h : intent.capability <;> rw [h] at hcap <;>
    first
    | exact ⟨_, rfl, hsingle _⟩
    | exact ⟨_, rfl, surfaceWindowOp_apply slot _ _⟩
    | cases hcap

lemma surfaceFallback_eq_none (hcap : intent.capability.fallsBack = false) :
    surfaceFallback w slot intent = none := by
  unfold surfaceFallback
  cases h : intent.capability <;> rw [h] at hcap <;> first | rfl | cases hcap

lemma goodResult_eq_toOption (answer : Except String IpcResponse) :
    goodResult answer = (answer.bind responseResult).toOption := by
  cases answer with
  | error e => rfl
  | ok response =>
    show (if response.ok then some response.result else none) = (responseResult response).toOption
    unfold responseResult
    split_ifs <;> rfl

lemma executeExtended_apply (intent : Intent) (t : List PlanEvent) :
    ∃ calls r, Exchange w (callsOf t) intent calls r ∧
      executeExtended w slot intent t = require r (t ++ calls.map slot.sent) := by
  have hsend : send w slot (.control (controlRequest intent)) t =
    (.ok (w (callsOf t) intent.call), t ++ [slot.sent intent.call]) := rfl
  have hcalls : callsOf (t ++ [slot.sent intent.call]) = callsOf t ++ [intent.call] :=
    callsOf_sent slot t [intent.call]
  have hnone (hfal : surfaceFallback w slot intent = none) : executeExtended w slot intent t =
      require (heard w (callsOf t) intent.call) (t ++ [slot.sent intent.call]) := by
    rw [executeExtended, bind_apply_of_eq hsend, hfal]
    rfl
  have hsome {fallback} (hfal : surfaceFallback w slot intent = some fallback) :
      executeExtended w slot intent t = (heard w (callsOf t) intent.call).toOption.elim
        fallback pure (t ++ [slot.sent intent.call]) := by
    have hgood : goodResult (w (callsOf t) intent.call) =
      (heard w (callsOf t) intent.call).toOption := goodResult_eq_toOption _
    rw [executeExtended, bind_apply_of_eq hsend, hfal, ← hgood]
    cases goodResult (w (callsOf t) intent.call) with
    | none => rfl
    | some result => rfl
  rcases hheard : heard w (callsOf t) intent.call with e | v
  · by_cases hcap : intent.capability.fallsBack = true
    · obtain ⟨fallback, hfal, happ⟩ := exists_surfaceFallback (w := w) slot hcap
      simp only [hsome hfal, hheard, Except.toOption, Option.elim_none, happ, hcalls]
      rcases hreq : surfaceRequest w (callsOf t ++ [intent.call]) intent with f | call
      · refine ⟨_, _, .lost hheard hcap hreq, ?_⟩
        simp [require]
      · refine ⟨_, _, .changed hheard hcap hreq rfl, ?_⟩
        simp
    · rw [Bool.not_eq_true] at hcap
      refine ⟨_, _, .failed hheard hcap, ?_⟩
      rw [hnone (surfaceFallback_eq_none slot hcap), hheard]
      rfl
  · refine ⟨_, _, .done hheard, ?_⟩
    cases hfal : surfaceFallback w slot intent with
    | none => exact (hnone hfal).trans (by rw [hheard]; rfl)
    | some fallback => exact (hsome hfal).trans (by rw [hheard]; rfl)

/-- What the trace says at the end of an attempt. -/
def closing (index attempt : ℕ) : Except String Json → List PlanEvent
  | .ok _ => []
  | .error e => [.failed index attempt e]

lemma callsOf_segment (log : List PlanEvent) (calls : List IpcCall) (r : Except String Json) :
    callsOf (log ++ (calls.map slot.sent ++ closing slot.intent slot.attempt r)) =
      callsOf log ++ calls := by
  rw [← List.append_assoc, callsOf_append, callsOf_sent]
  cases r with
  | ok v => exact List.append_nil _
  | error e => exact List.append_nil _

/-- The events of one attempt after `log`. -/
def Segment (w : Ipc) (index : ℕ) (intent : Intent) (log : List PlanEvent) (attempt : ℕ)
    (r : Except String Json) (new : List PlanEvent) : Prop :=
  ∃ calls, Exchange w (callsOf log) intent calls r ∧
    new = calls.map (Slot.mk index attempt).sent ++ closing index attempt r

lemma attemptOnce_apply (index : ℕ) (intent : Intent) (log : List PlanEvent) (n : ℕ) :
    ∃ r new, attempt (attemptOnce w index intent n) log = (.ok r, log ++ new) ∧
      Segment w index intent log n r new := by
  obtain ⟨calls, r, hexc, heq⟩ := executeExtended_apply (w := w) ⟨index, n⟩ intent log
  refine ⟨r, _, ?_, calls, hexc, rfl⟩
  rw [attempt, attemptOnce, bind_apply_of_eq (attempt_apply_of_require heq), ← List.append_assoc]
  cases r with
  | error e => rfl
  | ok value =>
    rw [closing, List.append_nil]
    rfl

lemma Segment.intent_eq {attempt : ℕ}
    {r : Except String Json} (h : Segment w index intent log attempt r new) :
    ∀ event ∈ new, event.intent = index := by
  obtain ⟨calls, -, rfl⟩ := h
  rw [List.forall_mem_append, List.forall_mem_map]
  refine ⟨fun _ _ => rfl, ?_⟩
  cases r with
  | ok value => simp [closing]
  | error e => simp [closing, PlanEvent.intent]

lemma retries_iff {n : ℕ} : retries capability n e = true ↔
      n ≠ 0 ∧ n ≤ (recoveryPolicyFor capability).maxRetries.toNat ∧
        (classifyFailure e = .transient ∨ classifyFailure e = .unknown ∧ n = 1) := by
  rw [retries, decide_eq_true_iff, Runtime.decideRecovery_eq_retry_iff]

lemma retries_one_iff : retries capability 1 e = true ↔
      classifyFailure e = .transient ∨ classifyFailure e = .unknown := by
  have hmax : 1 ≤ (recoveryPolicyFor capability).maxRetries.toNat := by
    cases capability <;> decide
  rw [retries_iff]
  simp [hmax]

lemma retries_two_iff : retries capability 2 e = true ↔
      2 ≤ (recoveryPolicyFor capability).maxRetries.toNat ∧ classifyFailure e = .transient := by
  rw [retries_iff]
  simp

/-- The attempts for an intent after `log`, from number `n` on. -/
abbrev Attempts (w : Ipc) (index : ℕ) (intent : Intent) :
    List PlanEvent → ℕ → Except String Json → List PlanEvent → Prop :=
  Retry.Tries (Segment w index intent) (retries intent.capability)

/-- The attempts for an intent after the calls `h`, from number `n` on: their result and calls. -/
abbrev Exchanges (w : Ipc) (intent : Intent) :
    List IpcCall → ℕ → Except String Json → List IpcCall → Prop :=
  Retry.Tries (fun h _ r calls => Exchange w h intent calls r) (retries intent.capability)

lemma Attempts.exchanges {n : ℕ} {r : Except String Json}
    (h : Attempts w index intent log n r new) :
    Exchanges w intent (callsOf log) n r (callsOf new) := by
  refine Retry.Tries.map callsOf_append ?_ h
  rintro log n r _ ⟨calls, hexc, rfl⟩
  rwa [← List.nil_append (_ ++ _), callsOf_segment ⟨index, n⟩]

lemma executeWithRetries_apply (index : ℕ) (intent : Intent) (log : List PlanEvent) :
    ∃ r new, executeWithRetries w index intent log = (.ok r, log ++ new) ∧
      Attempts w index intent log 1 r new := by
  have hlast : ∀ n e, retries intent.capability n e = true →
      n < (recoveryPolicyFor intent.capability).maxRetries.toNat + 1 :=
    fun n e h => Nat.lt_succ_of_le (retries_iff.mp h).2.1
  apply Retry.exists_tries (attemptOnce_apply index intent) hlast
  · omega
  · omega

/-- An intent with this capability runs without a confirmation of the user. -/
def Unconfirmed (capability : Capability) : Prop :=
  capability.riskLevel = .low ∨ capability.riskLevel = .medium

lemma confirmation_eq_autoExecute_iff {capability : Capability} :
    confirmation capability = .autoExecute ↔ Unconfirmed capability := by
  unfold confirmation Unconfirmed
  cases capability.riskLevel with
  | low => simp
  | medium => simp
  | high => simp
  | critical => simp

lemma not_unconfirmed_iff {capability : Capability} :
    ¬ Unconfirmed capability ↔ capability.riskLevel = .high ∨ capability.riskLevel = .critical := by
  unfold Unconfirmed
  cases capability.riskLevel with
  | low => simp
  | medium => simp
  | high => simp
  | critical => simp

lemma unconfirmed_of_refusal
    (h : refusal ctx intent = none) : Unconfirmed intent.capability.capability := by
  rw [← confirmation_eq_autoExecute_iff]
  unfold refusal at h
  split at h
  · cases h
  · split at h
    · cases h
    · cases h
    · assumption

lemma refusal_eq_some {refused : ActionResult} (h : refusal ctx intent = some refused) :
    refused.capability = intent.capability ∧ refused.arguments = intent.arguments ∧
      refused.status ≠ .success := by
  unfold refusal at h
  split at h
  · cases h
    exact ⟨rfl, rfl, nofun⟩
  · split at h
    · cases h
      exact ⟨rfl, rfl, nofun⟩
    · cases h
      exact ⟨rfl, rfl, nofun⟩
    · split at h
      · cases h
        exact ⟨rfl, rfl, nofun⟩
      · cases h

/-- The run of an intent after `log`: nothing is sent if it is refused, otherwise its attempts. -/
structure Ran (w : Ipc) (ctx : PlannerContext) (log : List PlanEvent) (index : ℕ)
    (intent : Intent) (result : ActionResult) (new : List PlanEvent) : Prop where
  capability : result.capability = intent.capability
  arguments : result.arguments = intent.arguments
  refused : refusal ctx intent ≠ none → result.status ≠ .success ∧ new = []
  attempts : refusal ctx intent = none → ∃ r, Attempts w index intent log 1 r new ∧
    (result.status = .success ↔ ∃ v, r = .ok v)

lemma Ran.intent_eq {result : ActionResult} (h : Ran w ctx log index intent result new) :
    ∀ event ∈ new, event.intent = index := by
  by_cases href : refusal ctx intent = none
  · obtain ⟨r, hatt, -⟩ := h.attempts href
    exact hatt.forall_mem fun _ _ _ _ hseg => hseg.intent_eq
  · simp [(h.refused href).2]

lemma runIntent_apply (formatResult : CapabilityId → Json → String) (ctx : PlannerContext)
    (index : ℕ) (intent : Intent) (log : List PlanEvent) :
    ∃ result new, runIntent w formatResult ctx index intent log = (.ok result, log ++ new) ∧
      Ran w ctx log index intent result new := by
  unfold runIntent
  cases href : refusal ctx intent with
  | some refused =>
    obtain ⟨hcap, harg, hstat⟩ := refusal_eq_some href
    refine ⟨refused, [], by simp, hcap, harg, fun _ => ⟨hstat, rfl⟩, fun hnone => ?_⟩
    rw [href] at hnone
    cases hnone
  | none =>
    obtain ⟨r, new, hrun, hatt⟩ := executeWithRetries_apply (w := w) index intent log
    refine ⟨conclude formatResult intent r, new, bind_apply_of_eq hrun _, ?_⟩
    cases r with
    | ok value =>
      exact ⟨rfl, rfl, fun hsome => absurd href hsome, fun _ => ⟨_, hatt, fun _ => ⟨_, rfl⟩,
        fun _ => rfl⟩⟩
    | error e =>
      exact ⟨rfl, rfl, fun hsome => absurd href hsome, fun _ => ⟨_, hatt, nofun, nofun⟩⟩

end Aether.Agentd
