import Aether.Runtime.Equiv.HostAudit
import Mathlib.Data.Set.Card

/-!
# Actions that the validator rejects

`submitAction` asks for the transition of a rejected session to `Failed` and drops the error of that
request.  A session is in `Planning` when its action is validated, and `Planning` does not go to
`Failed`.
-/

namespace Aether.Runtime

open Aether.Core Command

namespace Host

def NotValidation (o : Option AgentError) : Prop := ∀ message, o ≠ some (.validation message)

lemma notValidation_some (e : AgentError) (he : ∀ message, e ≠ .validation message) :
    NotValidation (some e) :=
  fun message heq => he message (Option.some.inj heq)

variable (w : World)

lemma failsWith_newUuid : FailsWith NotValidation (newUuid w) := failsWith_take

lemma failsWith_clock : FailsWith NotValidation (clock w) := failsWith_take

lemma failsWith_recordAudit (sessionId : String) (eventType : AuditEventType) (detail : String)
    (success : Bool) :
    FailsWith NotValidation (recordAudit w sessionId eventType detail success) := by
  refine (failsWith_systemTime w).bind fun now => (failsWith_update _).bind fun _ => ?_
  cases sanitizeDetail detail with
  | none => exact failsWith_panicked nofun
  | some detail => exact failsWith_update _

variable (sessionId : Uuid)

lemma failsWith_modifySession (f : HostSessionRecord → HostSessionRecord) :
    FailsWith NotValidation (modifySession sessionId f) := by
  refine (failsWith_peek _).bind fun found => ?_
  cases found with
  | none => exact failsWith_pure _
  | some rec => exact failsWith_update _

lemma failsWith_beginAction : FailsWith NotValidation (beginAction w sessionId) := by
  have hifNot : FailsWith NotValidation (advanceSessionIfNot w sessionId .ready) :=
    (failsWith_getSession w sessionId notValidation_some).bind fun rec =>
      (failsWith_pure _).ite (failsWith_advanceSession w sessionId notValidation_some .ready)
  exact hifNot.bind fun _ =>
    (failsWith_advanceSession w sessionId notValidation_some .thinking).bind fun _ =>
    failsWith_advanceSession w sessionId notValidation_some .planning

lemma failsWith_newRequest (actor : RequestActor) (action : Action) :
    FailsWith NotValidation (newRequest w sessionId actor action) :=
  (failsWith_systemTime w).bind fun _ => (failsWith_newUuid w).bind fun _ => failsWith_pure _

lemma failsWith_makeRoom : FailsWith NotValidation (makeRoom w) := by
  refine (failsWith_peek _).bind fun count => (failsWith_peek _).bind fun maxPending => .ite ?_
    (failsWith_pure _)
  refine (failsWith_peek _).bind fun pending =>
    FailsWith.bind failsWith_take fun ids => ?_
  simp only
  split
  · exact failsWith_pure _
  · refine FailsWith.bind failsWith_take fun removed => ?_
    cases removed with
    | none => exact failsWith_pure _
    | some evicted => exact failsWith_recordAudit w _ _ _ _

lemma failsWith_parkAction (actor : RequestActor) (action : Action) :
    FailsWith NotValidation (parkAction w sessionId actor action) :=
  (failsWith_advanceSession w sessionId notValidation_some _).bind fun _ =>
    FailsWith.bind ((failsWith_systemTime w).bind fun _ => (failsWith_newUuid w).bind fun _ =>
      failsWith_pure _) fun _ =>
    (failsWith_recordAudit w _ _ _ _).bind fun _ =>
    (failsWith_update _).bind fun _ =>
    (failsWith_newRequest w sessionId actor action).bind fun _ =>
    (failsWith_makeRoom w).bind fun _ =>
    (failsWith_update _).bind fun _ => failsWith_pure _

lemma failsWith_settle (action : Action) (request : UserRequest) (durationMs : UInt64)
    (result : Except AgentError ExecutionResult) :
    FailsWith NotValidation (settle w sessionId action request durationMs result) := by
  cases result with
  | ok result =>
    have hcom : FailsWith NotValidation (completeSession w sessionId) :=
      (failsWith_getSession w sessionId notValidation_some).bind fun rec =>
        (failsWith_transitionSession w sessionId notValidation_some rec _).bind fun _ =>
        (failsWith_recordAudit w _ _ _ _).bind fun _ => failsWith_update _
    exact (failsWith_recordAudit w _ _ _ _).bind fun _ => (failsWith_update _).bind fun _ =>
      (failsWith_advanceSession w sessionId notValidation_some _).bind fun _ => hcom.bind fun _ =>
      (failsWith_peek _).bind fun _ => failsWith_pure _
  | error e =>
    -- the executor's error becomes a part of the outcome
    exact (failsWith_recordAudit w _ _ _ _).bind fun _ => (failsWith_update _).bind fun _ =>
      (failsWith_attempt nofun _).bind fun _ => (failsWith_modifySession sessionId _).bind fun _ =>
      (failsWith_peek _).bind fun _ => failsWith_pure _

lemma failsWith_executeValidatedAction (action : Action) (request : UserRequest) :
    FailsWith NotValidation (executeValidatedAction w sessionId action request) :=
  (failsWith_advanceSession w sessionId notValidation_some _).bind fun _ =>
    (failsWith_recordAudit w _ _ _ _).bind fun _ =>
    (failsWith_update _).bind fun _ =>
    (failsWith_modifySession sessionId _).bind fun _ =>
    (failsWith_clock w).bind fun _ =>
    FailsWith.bind failsWith_take fun _ =>
    (failsWith_clock w).bind fun _ =>
    (failsWith_settle w sessionId action request _ _).bind fun _ =>
    (failsWith_modifySession sessionId _).bind fun _ => failsWith_pure _

/-- **A validation error** of a submission comes from the validator, and the session has gone from a
fresh phase to `Planning`. -/
theorem submitAction_rejected (h : Host) (sessionId : Uuid) (actor : RequestActor)
    (action : Action) :
    Holds (submitAction w sessionId actor action) h fun o h' =>
      ∀ message, o = .error (.validation message) → Prepared sessionId .planning h h' := by
  have hacc : FailsWith NotValidation ensureAccepting :=
    (failsWith_peek _).bind fun _ => .ite (failsWith_fail nofun) (failsWith_pure _)
  have herr : ∀ e (h' : Host), NotValidation (some e) → ∀ message,
      (.error e : Outcome AgentError RequestOutcome) = .error (.validation message) →
        Prepared sessionId .planning h h' :=
    fun e _ he message heq => absurd (congrArg some (Outcome.error.inj heq)) (he message)
  refine hacc.holds_bind (ensureAccepting_spec h) ?_ herr fun _ => nofun
  rintro ⟨⟩ h' ⟨rfl, -⟩
  refine (failsWith_beginAction w sessionId).holds_bind (beginAction_spec w h' sessionId) ?_ herr
    fun _ => nofun
  intro _ h₁ hp
  refine holds_peek_bind ?_
  set result := h₁.validator.validate action
  refine (failsWith_recordAudit w _ _ _ _).holds_bind
    ((Prepared.quiet (quiet_recordAudit w _ _ _ _)).holds hp) (fun _ h₂ hp => ?_) herr
    fun _ => nofun
  refine (failsWith_recordAudit w _ _ _ _).holds_bind
    ((Prepared.quiet (quiet_recordAudit w _ _ _ _)).holds hp) (fun _ h₃ hp => ?_) herr
    fun _ => nofun
  split_ifs with hinv hcon
  · exact fun _ _ => prepared_rejectAction w result.errors h₃ hp
  · intro message heq
    exact absurd rfl ((failsWith_parkAction w sessionId actor action h₃).1 _ heq message)
  · refine (failsWith_newRequest w sessionId actor action).holds_bind
      ((Prepared.quiet (quiet_newRequest w _ _ _)).holds hp) (fun request h₄ _ => ?_) herr
      fun _ => nofun
    intro message heq
    exact absurd rfl
      ((failsWith_executeValidatedAction w sessionId action request h₄).1 _ heq message)

def activeIds (h : Host) : Set Uuid := {id | ∃ s, h.phase id = some s ∧ s.isTerminal = false}

lemma activeSessionCount_eq (h : Host) :
    h.activeSessionCount = UInt32.ofNat (h.activeIds.ncard) := by
  let ids := (h.sessions.entries.filter fun e => e.2.session.isActive).map Sigma.fst
  have hnd : ids.Nodup :=
    List.Nodup.sublist (List.filter_sublist.map _) h.sessions.nodupKeys
  have hact : h.activeIds = ids.toFinset := by
    ext id
    rw [List.coe_toFinset, Set.mem_ofPred_eq, List.mem_map]
    constructor
    · rintro ⟨s, hs, hterm⟩
      obtain ⟨rec, hrec, rfl⟩ := Option.map_eq_some_iff.mp hs
      refine ⟨⟨id, rec⟩, List.mem_filter.mpr ⟨AList.mem_lookup_iff.mp hrec, ?_⟩, rfl⟩
      rw [AgentSession.isActive, hterm]
      rfl
    · rintro ⟨⟨id', rec⟩, hmem, rfl⟩
      obtain ⟨hent, hrec⟩ := List.mem_filter.mp hmem
      refine ⟨rec.session.state, ?_, by simpa [AgentSession.isActive] using hrec⟩
      rw [phase, AList.mem_lookup_iff.mpr hent, Option.map_some]
  rw [activeSessionCount, hact, Set.ncard_coe_finset, List.toFinset_card_of_nodup hnd,
    List.length_map, List.countP_eq_length_filter]

lemma Prepared.activeIds_eq {sessionId : Uuid} {h h' : Host}
    (hp : Prepared sessionId .planning h h') : h'.activeIds = h.activeIds := by
  obtain ⟨⟨s₀, hs₀, hfr⟩, hmv⟩ := hp
  ext id
  rw [activeIds, activeIds, Set.mem_ofPred_eq, Set.mem_ofPred_eq, hmv.phase]
  by_cases hid : id = sessionId
  · subst hid
    rw [Function.update_self, hs₀]
    cases s₀ <;> simp_all [SessionState.isTerminal, SessionState.Fresh]
  · rw [Function.update_of_ne hid]

/-- **Rejected sessions stay active**: whenever a submission returns a validation error, its session
is in `Planning` afterwards, which is not terminal, and as many sessions are active as before. -/
theorem rejected_session_active (h : Host) (sessionId : Uuid) (actor : RequestActor)
    (action : Action) (message : String)
    (herror : (submitAction w sessionId actor action h).1 = .error (.validation message)) :
    let h' := (submitAction w sessionId actor action h).2
    (∃ rec, h'.sessions.lookup sessionId = some rec ∧ rec.session.state = .planning ∧
      rec.session.isActive) ∧ h'.activeSessionCount = h.activeSessionCount := by
  have hp := submitAction_rejected w h sessionId actor action message herror
  refine ⟨?_, ?_⟩
  · obtain ⟨rec, hrec, hst⟩ := Option.map_eq_some_iff.mp hp.2.phase_self
    refine ⟨rec, hrec, hst, ?_⟩
    rw [AgentSession.isActive, hst]
    rfl
  · rw [activeSessionCount_eq, activeSessionCount_eq, hp.activeIds_eq]

/-- A deletion that no capability was granted for. -/
theorem rejected_session_active_scratch :
    let h := bareHost.run .counting [.createSession ⟨.human, "user"⟩]
    let h' := (submitAction .counting (World.counting.uuid 1) ⟨.agent, "model"⟩ removeScratch h).2
    (∃ rec, h'.sessions.lookup (World.counting.uuid 1) = some rec ∧
      rec.session.state = .planning ∧ rec.session.isActive) ∧
      h'.activeSessionCount = h.activeSessionCount :=
  rejected_session_active _ _ _ _ _ _ rfl

/-- The session was ready, the submission returns a validation error, and the session has not ended:
it is the one active session of the host. -/
theorem rejected_session_not_ended :
    let h := bareHost.run .counting [.createSession ⟨.human, "user"⟩]
    let result := submitAction .counting (World.counting.uuid 1) ⟨.agent, "model"⟩ removeScratch h
    h.phase (World.counting.uuid 1) = some .ready ∧
      result.1 = .error (.validation "Missing capability: file.delete") ∧
      result.2.phase (World.counting.uuid 1) = some .planning ∧
      result.2.activeSessionCount = 1 :=
  ⟨by decide +kernel, rfl, by decide +kernel, by decide +kernel⟩

end Host

end Aether.Runtime
