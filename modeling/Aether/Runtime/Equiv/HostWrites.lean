import Aether.Runtime.Equiv.HostStep

/-!
# What the host writes

A property that each change of the sessions, the limits and the audit log keeps (`Stable`) is kept
by every command, however it ends.  Only `cancel_action` records a denial as a success.
-/

namespace Aether.Runtime

open Aether.Core Command

def AuditEntry.Ordinary (e : AuditEntry) : Prop := e.eventType = .actionDenied → e.success = false

inductive SessionStep (s s' : AgentSession) : Prop
  | same : s'.state = s.state → s'.cancelled = s.cancelled → SessionStep s s'
  | moved : s.state.canTransitionTo s'.state → s'.cancelled = s.cancelled → SessionStep s s'
  | cancelled : s'.state = .cancelled → SessionStep s s'

lemma sessionStep_of_transition {s : AgentSession} {next : SessionState}
    {f : UInt64 → AgentSession} (h : s.transition next = .ok f) (now : UInt64) :
    SessionStep s (f now) := by
  unfold AgentSession.transition at h
  split_ifs at h with hterm hcan
  rw [Except.ok.injEq] at h
  subst h
  exact .moved (by simpa using hcan) rfl

namespace Host

/-- What a stable property depends on. -/
def kept (h : Host) : UuidMap HostSessionRecord × ℕ × ℕ × AuditLog :=
  (h.sessions, h.maxSessions, h.maxPendingApprovals, h.audit)

structure Recording (I : Host → Prop) : Prop where
  congr : ∀ h h', h'.kept = h.kept → I h → I h'
  room : ∀ h, I h → I { h with audit := h.audit.makeRoom }
  entry : ∀ h e, e.Ordinary → I h → I { h with audit := h.audit.push e }

structure Stable (I : Host → Prop) : Prop extends Recording I where
  session : ∀ h id rec rec', h.sessions.lookup id = some rec →
    SessionStep rec.session rec'.session → I h →
    I { h with sessions := h.sessions.insert id rec' }
  added : ∀ h id rec, h.sessions.entries.length < h.maxSessions →
    rec.session.cancelled = false → I h → I { h with sessions := h.sessions.insert id rec }

variable (w : World) {I : Host → Prop} {α : Type}

lemma Recording.alike (hI : Recording I) {m : HostM α} (hm : ∀ h, (m h).2.kept = h.kept) :
    Preserves I m := fun h hh => hI.congr h _ (hm h) hh

lemma Recording.transitionState (hI : Recording I) (next : HostState) (reason : String) :
    Preserves I (transitionState next reason) :=
  (preserves_peek _).bind fun _ =>
    (preserves_fail _).ite (hI.alike fun _ => rfl)

lemma Recording.ensureAccepting : Preserves I ensureAccepting :=
  (preserves_peek _).bind fun _ => (preserves_fail _).ite (preserves_pure _)

lemma Recording.getSession (sessionId : Uuid) : Preserves I (getSession w sessionId) := by
  refine (preserves_peek _).bind fun found => ?_
  cases found with
  | none => exact preserves_fail _
  | some rec => exact preserves_pure _

lemma Recording.recordAudit_of_entry (hI : Recording I) (sessionId : String)
    (eventType : AuditEventType) (detail : String) (success : Bool)
    (hent : ∀ h now detail, I h →
      I { h with audit := h.audit.push ⟨now, sessionId, eventType, detail, success, "host"⟩ }) :
    Preserves I (recordAudit w sessionId eventType detail success) := by
  refine (hI.alike fun _ => rfl).bind fun now => Preserves.bind hI.room fun _ => ?_
  cases sanitizeDetail detail with
  | none => exact fun _ hh => hh
  | some detail => exact fun h hh => hent h now detail hh

lemma Recording.recordAudit (hI : Recording I) (sessionId : String) (eventType : AuditEventType)
    (detail : String) (success : Bool)
    (hord : eventType = .actionDenied → success = false) :
    Preserves I (recordAudit w sessionId eventType detail success) :=
  hI.recordAudit_of_entry w sessionId eventType detail success fun h now detail hh =>
    hI.entry h ⟨now, sessionId, eventType, detail, success, "host"⟩ hord hh

lemma Recording.evictOldestPendingApproval (hI : Recording I) :
    Preserves I (evictOldestPendingApproval w) := by
  refine (preserves_peek _).bind fun pending => (hI.alike fun _ => rfl).bind fun ids => ?_
  simp only
  split
  · exact preserves_pure _
  · refine (hI.alike fun _ => rfl).bind fun removed => ?_
    cases removed with
    | none => exact preserves_pure _
    | some evicted => exact hI.recordAudit w _ _ _ _ (by decide)

lemma Recording.makeRoom (hI : Recording I) : Preserves I (makeRoom w) :=
  (preserves_peek _).bind fun _ => (preserves_peek _).bind fun _ =>
    (hI.evictOldestPendingApproval w).ite (preserves_pure _)

lemma Recording.and_sessions (hI : Recording I) (P : UuidMap HostSessionRecord → ℕ → Prop) :
    Recording fun h => I h ∧ P h.sessions h.maxSessions where
  congr h h' hh hp := by
    have hses : h'.sessions = h.sessions := congrArg (fun k => k.1) hh
    have hmax : h'.maxSessions = h.maxSessions := congrArg (fun k => k.2.1) hh
    rw [hses, hmax]
    exact ⟨hI.congr h h' hh hp.1, hp.2⟩
  room h hp := ⟨hI.room h hp.1, hp.2⟩
  entry h e he hp := ⟨hI.entry h e he hp.1, hp.2⟩

lemma Stable.modifySession (hI : Stable I) (sessionId : Uuid)
    {f : HostSessionRecord → HostSessionRecord}
    (hf : ∀ rec, SessionStep rec.session (f rec).session) :
    Preserves I (modifySession sessionId f) := by
  intro h hh
  unfold Host.modifySession
  rw [peek_bind_apply]
  cases hrec : h.sessions.lookup sessionId with
  | none => exact hh
  | some rec => exact hI.session h sessionId rec (f rec) hrec (hf rec) hh

lemma Stable.recordAction (hI : Stable I) (sessionId actionId : Uuid) :
    Preserves I (recordAction sessionId actionId) :=
  hI.modifySession sessionId fun _ => .same rfl rfl

lemma Stable.recordRequest (hI : Stable I) (sessionId requestId : Uuid) :
    Preserves I (recordRequest sessionId requestId) :=
  hI.modifySession sessionId fun _ => .same rfl rfl

lemma Stable.recordSessionError (hI : Stable I) (sessionId : Uuid) :
    Preserves I (recordSessionError sessionId) :=
  hI.modifySession sessionId fun _ => .same rfl rfl

variable {h : Host} {sessionId : Uuid}

lemma Stable.transitionSession (hI : Stable I) {rec : HostSessionRecord}
    (hrec : h.sessions.lookup sessionId = some rec) (hh : I h) (next : SessionState) :
    I (transitionSession w sessionId rec next h).2 := by
  unfold Host.transitionSession
  cases htr : rec.session.transition next with
  | error e => exact hh
  | ok session =>
    set now := w.systemTime h.cursor.times
    have hstep : SessionStep rec.session (session now) := sessionStep_of_transition htr now
    refine hI.session _ sessionId rec { rec with session := session now } hrec hstep ?_
    exact hI.congr h _ rfl hh

lemma preserves_getSession_bind {k : HostSessionRecord → HostM α}
    (hk : ∀ h rec, h.sessions.lookup sessionId = some rec → I h →
      Holds (k rec) h fun _ h' => I h') : Preserves I (getSession w sessionId >>= k) :=
  fun h hh => holds_getSession_bind w (fun rec hrec => hk h rec hrec hh) fun _ _ => hh

lemma Stable.advanceSession (hI : Stable I) (sessionId : Uuid) (next : SessionState) :
    Preserves I (advanceSession w sessionId next) := by
  refine preserves_getSession_bind w fun h rec hrec hh => ?_
  simp only
  split_ifs
  · exact hh
  · exact hh
  · exact hh
  · exact hh
  · exact hI.transitionSession w hrec hh next

lemma Stable.advanceSessionIfNot (hI : Stable I) (sessionId : Uuid) (next : SessionState) :
    Preserves I (advanceSessionIfNot w sessionId next) :=
  (Recording.getSession w sessionId).bind fun _ =>
    (preserves_pure _).ite (hI.advanceSession w sessionId next)

lemma Stable.completeSession (hI : Stable I) (sessionId : Uuid) :
    Preserves I (completeSession w sessionId) := by
  refine preserves_getSession_bind w fun h rec hrec hh => ?_
  have hmove : Holds (Host.transitionSession w sessionId rec .completed) h fun _ h' => I h' :=
    hI.transitionSession w hrec hh .completed
  have hrest : Preserves I (Host.recordAudit w (w.showUuid sessionId) .sessionCompleted
      "session completed" true >>= fun _ => publish (.sessionCompleted (w.showUuid sessionId))) :=
    (hI.recordAudit w _ _ _ _ (by decide)).bind fun _ => (hI.alike fun _ => rfl)
  exact hmove.bind (fun _ h' hh' => hrest h' hh') (fun _ _ hh' => hh') fun _ hh' => hh'

lemma Stable.beginAction (hI : Stable I) (sessionId : Uuid) :
    Preserves I (beginAction w sessionId) :=
  (hI.advanceSessionIfNot w sessionId .ready).bind fun _ =>
    (hI.advanceSession w sessionId .thinking).bind fun _ =>
    hI.advanceSession w sessionId .planning

lemma Stable.settle (hI : Stable I) (sessionId : Uuid) (action : Action) (request : UserRequest)
    (durationMs : UInt64) (result : Except AgentError ExecutionResult) :
    Preserves I (settle w sessionId action request durationMs result) := by
  cases result with
  | ok result =>
    exact (hI.recordAudit w _ _ _ _ (by decide)).bind fun _ => (hI.alike fun _ => rfl).bind fun _ =>
      (hI.advanceSession w sessionId _).bind fun _ => (hI.completeSession w sessionId).bind fun _ =>
      (preserves_peek _).bind fun _ => preserves_pure _
  | error e =>
    exact (hI.recordAudit w _ _ _ _ (by decide)).bind fun _ => (hI.alike fun _ => rfl).bind fun _ =>
      (hI.advanceSession w sessionId _).attempt.bind fun _ =>
      (hI.recordSessionError sessionId).bind fun _ =>
      (preserves_peek _).bind fun _ => preserves_pure _

lemma Stable.executeValidatedAction (hI : Stable I) (sessionId : Uuid) (action : Action)
    (request : UserRequest) : Preserves I (executeValidatedAction w sessionId action request) :=
  (hI.advanceSession w sessionId .executing).bind fun _ =>
    (hI.recordAudit w _ _ _ _ (by decide)).bind fun _ => (hI.alike fun _ => rfl).bind fun _ =>
    (hI.recordAction sessionId _).bind fun _ => (hI.alike fun _ => rfl).bind fun _ =>
    (hI.alike fun _ => rfl).bind fun _ => (hI.alike fun _ => rfl).bind fun _ =>
    (hI.settle w sessionId action request _ _).bind fun _ =>
    (hI.recordRequest sessionId _).bind fun _ => preserves_pure _

lemma Stable.parkAction (hI : Stable I) (sessionId : Uuid) (actor : RequestActor)
    (action : Action) : Preserves I (parkAction w sessionId actor action) :=
  (hI.advanceSession w sessionId .waitingApproval).bind fun _ =>
    (hI.alike fun _ => rfl).bind fun _ => (hI.recordAudit w _ _ _ _ (by decide)).bind fun _ =>
    (hI.alike fun _ => rfl).bind fun _ => (hI.alike fun _ => rfl).bind fun _ =>
    (hI.makeRoom w).bind fun _ => (hI.alike fun _ => rfl).bind fun _ => preserves_pure _

lemma Stable.rejectAction (hI : Stable I) (sessionId : Uuid) (action : Action)
    (errors : List String) : Preserves I (rejectAction w sessionId action errors) :=
  (hI.advanceSession w sessionId .failed).attempt.bind fun _ =>
    (hI.recordAudit w _ _ _ _ fun _ => rfl).bind fun _ => (hI.alike fun _ => rfl).bind fun _ =>
    preserves_fail _

lemma Stable.submitAction (hI : Stable I) (sessionId : Uuid) (actor : RequestActor)
    (action : Action) : Preserves I (submitAction w sessionId actor action) :=
  Recording.ensureAccepting.bind fun _ => (hI.beginAction w sessionId).bind fun _ =>
    (preserves_peek _).bind fun result => (hI.recordAudit w _ _ _ _ (by nofun)).bind fun _ =>
    (hI.recordAudit w _ _ _ _ (by decide)).bind fun _ =>
    (hI.rejectAction w sessionId action result.errors).ite
      ((hI.parkAction w sessionId actor action).ite
        ((hI.alike fun _ => rfl).bind fun request =>
          hI.executeValidatedAction w sessionId action request))

lemma Stable.admitSession (hI : Stable I) (id : Uuid) (rec : HostSessionRecord)
    (hroom : h.sessions.entries.length < h.maxSessions) (hrec : rec.session.cancelled = false)
    (hh : I h) : Holds (admitSession id rec) h fun _ h' => I h' := by
  have hrest : Preserves I (peek (fun h : Host => h.state) >>= fun state =>
      if state = .ready then Host.transitionState .running "first session created" else pure ()) :=
    (preserves_peek _).bind fun _ => (hI.transitionState _ _).ite (preserves_pure _)
  exact hrest _ (hI.added h id rec hroom hrec hh)

lemma Stable.createSession (hI : Stable I) (actor : SessionActor) :
    Preserves I (createSession w actor) := by
  refine Recording.ensureAccepting.bind fun _ => ?_
  intro h hh
  refine holds_peek_bind (Q := fun _ h' => I h') (holds_peek_bind ?_)
  split_ifs with hfull
  · exact hh
  -- nothing until the session is admitted touches the table
  have hroom : Recording fun h => I h ∧ h.sessions.entries.length < h.maxSessions :=
    hI.and_sessions fun sessions maxSessions => sessions.entries.length < maxSessions
  have hh : I h ∧ h.sessions.entries.length < h.maxSessions := ⟨hh, Nat.not_le.mp hfull⟩
  have kept := fun (_ : Outcome AgentError Uuid) x
    (hx : I x ∧ x.sessions.entries.length < x.maxSessions) => hx.1
  refine (hroom.alike fun _ => rfl).holds_bind hh kept fun now h₁ hh => ?_
  refine (hroom.alike fun _ => rfl).holds_bind hh kept fun id h₂ hh => ?_
  refine (preserves_peek _).holds_bind hh kept fun ordinal h₃ hh => ?_
  refine (hroom.alike fun _ => rfl).holds_bind hh kept fun _ h₄ hh => ?_
  refine (hroom.alike fun _ => rfl).holds_bind hh kept fun readyAt h₅ hh => ?_
  refine (hroom.recordAudit w _ _ _ _ (by decide)).holds_bind hh kept fun _ h₆ hh => ?_
  refine (hroom.alike fun _ => rfl).holds_bind hh kept fun _ h₇ hh => ?_
  exact (hI.admitSession id _ hh.2 rfl hh.1).bind (fun _ _ hx => hx) (fun _ _ hx => hx)
    fun _ hx => hx

lemma Stable.approveRequest (hI : Stable I) (approvalId : Uuid) :
    Preserves I (approveRequest w approvalId) := by
  refine (hI.alike fun _ => rfl).bind fun removed => ?_
  cases removed with
  | none => exact preserves_pure _
  | some pending =>
    simp only
    cases w.parseUuid pending.approval.sessionId with
    | error e => exact preserves_fail _
    | ok sessionId =>
      exact (hI.recordAudit w _ _ _ _ (by decide)).bind fun _ =>
        (hI.alike fun _ => rfl).bind fun _ =>
        (hI.executeValidatedAction w sessionId pending.action pending.request).bind fun _ =>
        preserves_pure _

lemma Stable.denyRequest (hI : Stable I) (approvalId : Uuid) (reason : String) :
    Preserves I (denyRequest w approvalId reason) := by
  refine (hI.alike fun _ => rfl).bind fun removed => ?_
  cases removed with
  | none => exact preserves_pure _
  | some pending =>
    refine (hI.alike fun _ => rfl).bind fun _ => ?_
    cases w.parseUuid pending.approval.sessionId with
    | error e => exact preserves_fail _
    | ok sessionId =>
      exact (hI.recordAudit w _ _ _ _ (by decide)).bind fun _ =>
        (hI.alike fun _ => rfl).bind fun _ =>
        (hI.advanceSession w sessionId .cancelled).attempt.bind fun _ =>
        (hI.recordSessionError sessionId).bind fun _ => preserves_pure _

lemma Stable.cancelSession (hI : Stable I) (sessionId : Uuid) :
    Preserves I (cancelSession w sessionId) := by
  refine preserves_getSession_bind w fun h rec hrec hh => ?_
  set emptied : HostSessionRecord := { rec with actions := [] }
  have hemp : I { h with sessions := h.sessions.insert sessionId emptied } :=
    hI.session h sessionId rec emptied hrec (.same rfl rfl) hh
  refine holds_update_bind ?_
  split_ifs with hterm
  · exact hemp
  · refine holds_update_bind ?_
    refine ((hI.recordAudit w _ _ _ _ (by decide)).bind fun _ =>
      (hI.alike fun _ => rfl).bind fun _ => preserves_pure true) _ ?_
    exact hI.session _ sessionId emptied _ (AList.lookup_insert _) (.cancelled rfl) hemp

lemma Stable.stop (hI : Stable I) : Preserves I (stop w) := by
  have hcan : ∀ ids, Preserves I (cancelSessions w ids) := by
    intro ids
    induction ids with
    | nil => exact preserves_pure ()
    | cons id ids ih => exact (hI.cancelSession w id).attempt.bind fun _ => ih
  exact (preserves_peek _).bind fun _ => (preserves_pure _).ite
    ((hI.transitionState _ _).bind fun _ => (preserves_peek _).bind fun keys =>
      (hI.alike fun _ => rfl).bind fun ids => (hcan ids).bind fun _ => hI.transitionState _ _)

lemma Stable.markFailed (hI : Stable I) (reason : String) : Preserves I (markFailed w reason) :=
  (hI.recordAudit w _ _ _ _ (by decide)).bind fun _ => (hI.alike fun _ => rfl).bind fun _ =>
    hI.alike fun _ => rfl

/-- **Operations**: every operation but `cancel_action` keeps a stable property. -/
theorem Stable.step (hI : Stable I) (hh : I h) {op : HostOp}
    (hop : ∀ sessionId actionId, op ≠ .cancelAction sessionId actionId) : I (h.step w op) := by
  have unit : ∀ {α : Type} {m : HostM α}, Preserves I m → I ((do let _ ← m) h).2 := fun hm =>
    (hm.bind fun _ => preserves_pure ()) h hh
  cases op with
  | createSession actor => exact unit (hI.createSession w actor)
  | submitAction sessionId actor action => exact unit (hI.submitAction w sessionId actor action)
  | approveRequest approvalId => exact unit (hI.approveRequest w approvalId)
  | denyRequest approvalId reason => exact unit (hI.denyRequest w approvalId reason)
  | cancelAction sessionId actionId => exact absurd rfl (hop sessionId actionId)
  | cancelSession sessionId => exact unit (hI.cancelSession w sessionId)
  | grantCapabilities caps => exact hI.congr h _ rfl hh
  | stop => exact hI.stop w h hh
  | fail reason => exact hI.markFailed w reason h hh

lemma Stable.step_of_entry (hI : Stable I)
    (hent : ∀ h e, I h → I { h with audit := h.audit.push e }) (hh : I h) (op : HostOp) :
    I (h.step w op) := by
  by_cases hop : ∃ sessionId actionId, op = .cancelAction sessionId actionId
  · obtain ⟨sessionId, actionId, rfl⟩ := hop
    have hkeep : Preserves I (cancelAction w sessionId actionId) := by
      refine preserves_getSession_bind w fun h rec hrec hh => ?_
      split_ifs with hmem
      · refine holds_update_bind ?_
        refine ((hI.recordAudit_of_entry w _ _ _ _ fun h now detail hh => hent h _ hh).bind
          fun _ => (hI.alike fun _ => rfl).bind fun _ => preserves_pure true) _ ?_
        exact hI.session h sessionId rec _ hrec (.same rfl rfl) hh
      · exact hh
    exact (hkeep.bind fun _ => preserves_pure ()) h hh
  · exact hI.step w hh fun sessionId actionId heq => hop ⟨sessionId, actionId, heq⟩

end Host

end Aether.Runtime
