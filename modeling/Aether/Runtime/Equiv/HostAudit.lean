import Aether.Runtime.Equiv.HostGate
import Aether.Runtime.Equiv.Redact

/-!
# The host and its audit log

A command of the host panics only where it records a detail that is not `Recordable`.
-/

namespace Aether.Runtime

open Aether.Core Command

namespace Host

variable (w : World)

def roomy (h : Host) : Host :=
  { h with
    cursor := { h.cursor with times := h.cursor.times + 1 }
    audit := h.audit.makeRoom }

def recorded (h : Host) (sessionId : String) (eventType : AuditEventType) (detail : String)
    (success : Bool) : Host :=
  { h.roomy with
    audit := h.audit.makeRoom.push
      ⟨w.systemTime h.cursor.times, sessionId, eventType, detail, success, "host"⟩ }

section Record

variable {h : Host} {sessionId detail detail' : String} {eventType : AuditEventType}
  {success : Bool}

lemma recordAudit_of_some (hd : sanitizeDetail detail = some detail') :
    recordAudit w sessionId eventType detail success h =
      (.ok (), h.recorded w sessionId eventType detail' success) := by
  unfold recordAudit
  rw [hd]
  rfl

lemma recordAudit_of_none (hd : sanitizeDetail detail = none) :
    recordAudit w sessionId eventType detail success h = (.panic, h.roomy) := by
  unfold recordAudit
  rw [hd]
  rfl

lemma holds_recordAudit_bind {α : Type} {k : Unit → HostM α}
    {Q : Outcome AgentError α → Host → Prop} (hd : Recordable detail)
    (hk : ∀ detail', Holds (k ()) (h.recorded w sessionId eventType detail' success) Q) :
    Holds (recordAudit w sessionId eventType detail success >>= k) h Q := by
  obtain ⟨detail', hd'⟩ := hd.exists_sanitizeDetail
  rw [Holds, bind_apply, recordAudit_of_some w hd']
  exact hk detail'

lemma noPanic_recordAudit (hd : Recordable detail) :
    NoPanic (recordAudit w sessionId eventType detail success) := by
  intro h
  obtain ⟨detail', hd'⟩ := hd.exists_sanitizeDetail
  rw [recordAudit_of_some w hd']
  exact ⟨nofun, nofun⟩

lemma recordAudit_bind_of_not {α : Type} (k : Unit → HostM α) (hd : ¬ Recordable detail) :
    (recordAudit w sessionId eventType detail success >>= k) h = (.panic, h.roomy) := by
  have hnone : sanitizeDetail detail = none := by
    rwa [← sanitizeDetail_isSome_iff, Option.not_isSome_iff_eq_none] at hd
  rw [bind_apply, recordAudit_of_none w hnone]

end Record

variable (sessionId : Uuid)

section Fails

variable {P : Option AgentError → Prop}

lemma failsWith_take {α β : Type} {f : Host → α} {g : α → Host → Host} {k : α → β} :
    FailsWith P (peek f >>= fun a => update (g a) >>= fun _ => pure (k a)) :=
  (failsWith_peek f).bind fun a => (failsWith_update (g a)).bind fun _ => failsWith_pure (k a)

lemma failsWith_systemTime : FailsWith P (systemTime w) := failsWith_take

variable (hP : ∀ e, (∀ message, e ≠ .validation message) → P (some e))

include hP

lemma failsWith_getSession : FailsWith P (getSession w sessionId) := by
  refine (failsWith_peek _).bind fun found => ?_
  cases found with
  | none => exact failsWith_fail (hP _ nofun)
  | some rec => exact failsWith_pure rec

lemma failsWith_transitionSession (rec : HostSessionRecord) (next : SessionState) :
    FailsWith P (transitionSession w sessionId rec next) := by
  unfold transitionSession
  cases rec.session.transition next with
  | error e => exact failsWith_fail (hP _ nofun)
  | ok session => exact (failsWith_systemTime w).bind fun now => failsWith_update _

lemma failsWith_advanceSession (next : SessionState) :
    FailsWith P (advanceSession w sessionId next) := by
  refine (failsWith_getSession w sessionId hP).bind fun rec => ?_
  exact (failsWith_fail (hP _ (by nofun))).ite <| (failsWith_fail (hP _ (by nofun))).ite <|
    (failsWith_pure _).ite <| (failsWith_fail (hP _ (by nofun))).ite <|
    failsWith_transitionSession w sessionId hP rec next

end Fails

lemma noPanic_cancelSession : NoPanic (cancelSession w sessionId) := by
  have hd : Recordable "session cancelled by host" := .inl (by decide)
  exact (failsWith_getSession w sessionId fun _ _ => Option.some_ne_none _).bind fun rec =>
    (failsWith_update _).bind fun _ => (failsWith_pure _).ite <| (failsWith_update _).bind fun _ =>
    (noPanic_recordAudit w hd).bind fun _ => (failsWith_update _).bind fun _ => failsWith_pure _

lemma modifySession_fst (f : HostSessionRecord → HostSessionRecord) (h : Host) :
    (modifySession sessionId f h).1 = .ok () := by
  unfold modifySession
  rw [peek_bind_apply]
  cases h.sessions.lookup sessionId with
  | none => rfl
  | some rec => rfl

lemma markFailed_of_not (h : Host) {reason : String} (hd : ¬ Recordable reason) :
    (markFailed w reason h).1 = .panic := by
  rw [markFailed, recordAudit_bind_of_not w _ hd]

lemma markFailed_eq_ok_iff (h : Host) (reason : String) :
    (markFailed w reason h).1 = .ok () ↔ Recordable reason := by
  by_cases hd : Recordable reason
  · refine iff_of_true ?_ hd
    exact holds_recordAudit_bind (Q := fun o _ => o = .ok ()) w hd fun _ => rfl
  · refine iff_of_false (fun hok => ?_) hd
    rw [markFailed_of_not w h hd] at hok
    cases hok

def denialText (approvalId : Uuid) (pending : PendingApproval) (reason : String) : String :=
  s!"action={pending.action.actionName} approval_id={w.showUuid approvalId} reason={reason}"

def finishDenial (sessionId : Uuid) (pending : PendingApproval) (reason : String) : HostM Bool := do
  publish (.approvalDenied (w.showUuid sessionId) (w.showUuid pending.action.id) reason)
  let _ ← attempt (advanceSession w sessionId .cancelled)
  recordSessionError sessionId
  return true

lemma finishDenial_fst (pending : PendingApproval) (reason : String) (h : Host) :
    (finishDenial w sessionId pending reason h).1 = .ok true := by
  -- an advance that is refused is dropped
  set event :=
    AgentEvent.approvalDenied (w.showUuid sessionId) (w.showUuid pending.action.id) reason
  obtain ⟨r, hr⟩ := NoPanic.attempt_apply
    (failsWith_advanceSession w sessionId (fun _ _ => Option.some_ne_none _) .cancelled)
    (publish event h).2
  show ((attempt (advanceSession w sessionId .cancelled) >>= fun _ =>
    recordSessionError sessionId >>= fun _ => pure true) (publish event h).2).1 = .ok true
  rw [bind_apply, hr]
  show ((recordSessionError sessionId >>= fun _ => pure true) _).1 = .ok true
  rw [recordSessionError, bind_apply_of_ok (modifySession_fst sessionId _ _)]
  rfl

lemma removePending_bind_apply {α : Type} (approvalId : Uuid)
    (k : Option PendingApproval → HostM α) (h : Host) :
    (removePending approvalId >>= k) h =
      k (h.pendingApprovals.lookup approvalId) (h.drop approvalId) :=
  rfl

variable {w} in
lemma denyRequest_of_pending {h : Host} {approvalId sessionId : Uuid}
    {pending : PendingApproval} (hp : h.pendingApprovals.lookup approvalId = some pending)
    (hses : pending.approval.sessionId = w.showUuid sessionId) (reason : String) :
    denyRequest w approvalId reason h =
      (recordAudit w (w.showUuid sessionId) .approvalDenied (denialText w approvalId pending reason)
        false >>= fun _ => finishDenial w sessionId pending reason)
        { h.drop approvalId with
          cursor := { h.cursor with times := h.cursor.times + 1 } } := by
  rw [denyRequest, removePending_bind_apply, hp]
  simp only [hses, w.parse_show]
  rfl

lemma denyRequest_of_not_pending {h : Host} {approvalId : Uuid}
    (hp : h.pendingApprovals.lookup approvalId = none) (reason : String) :
    denyRequest w approvalId reason h = (.ok false, h.drop approvalId) := by
  rw [denyRequest, removePending_bind_apply, hp]
  rfl

def NamesSessions (h : Host) : Prop :=
  ∀ id p, h.pendingApprovals.lookup id = some p →
    ∃ sessionId, p.approval.sessionId = w.showUuid sessionId

lemma namesSessions_run (caps : List String) (controlPort surfacePort : UInt16)
    (ops : List HostOp) : NamesSessions w ((start w caps controlPort surfacePort).run w ops) := by
  intro id p hp
  obtain ⟨_, _, _, sessionId, _, -, hiss⟩ := issues_of_pending w rfl ops hp
  exact ⟨sessionId, hiss.session⟩

lemma denyRequest_eq_ok_iff {h : Host} (hnam : NamesSessions w h) (approvalId : Uuid)
    (reason : String) :
    (∃ found, (denyRequest w approvalId reason h).1 = .ok found) ↔
      ∀ p, h.pendingApprovals.lookup approvalId = some p →
        Recordable (denialText w approvalId p reason) := by
  cases hp : h.pendingApprovals.lookup approvalId with
  | none =>
    refine iff_of_true ⟨false, ?_⟩ fun q hq => ?_
    · rw [denyRequest_of_not_pending w hp]
    · cases hq
  | some p =>
    obtain ⟨sessionId, hses⟩ := hnam approvalId p hp
    rw [denyRequest_of_pending hp hses]
    constructor
    · rintro ⟨found, hok⟩ q hq
      cases hq
      by_contra hd
      rw [recordAudit_bind_of_not w _ hd] at hok
      cases hok
    · intro hd
      refine ⟨true, ?_⟩
      exact holds_recordAudit_bind (Q := fun o _ => o = .ok true) w (hd p rfl) fun _ =>
        finishDenial_fst w sessionId p reason _

/-- **Recording** a detail returns exactly if the detail is recordable; so do, in every run of a
host, its failure for a reason and the denial of a request. -/
theorem audit_returns_iff (w : World) (caps : List String) (controlPort surfacePort : UInt16)
    (ops : List HostOp) (reason : String) :
    (∀ (log : AuditLog) (now : UInt64) (sessionId : String) (eventType : AuditEventType)
      (success : Bool) (component : String),
      (log.record now sessionId eventType reason success component).isSome ↔ Recordable reason) ∧
    ((markFailed w reason ((start w caps controlPort surfacePort).run w ops)).1 = .ok () ↔
      Recordable reason) ∧
    ∀ approvalId, (∃ found, (denyRequest w approvalId reason
        ((start w caps controlPort surfacePort).run w ops)).1 = .ok found) ↔
      ∀ p, ((start w caps controlPort surfacePort).run w ops).pendingApprovals.lookup approvalId =
        some p → Recordable (denialText w approvalId p reason) := by
  refine ⟨fun log now sessionId eventType success component => ?_, ?_, fun approvalId => ?_⟩
  · exact record_isSome_iff log now sessionId eventType reason success component
  · exact markFailed_eq_ok_iff w _ reason
  · exact denyRequest_eq_ok_iff w (namesSessions_run w caps controlPort surfacePort ops) approvalId
      reason

def euroReason : String := String.ofList (List.replicate 167 '€')

lemma toList_euroReason : euroReason.toList = List.replicate 167 '€' := String.toList_ofList

lemma not_recordable_euroReason : ¬ Recordable euroReason := by
  rw [recordable_iff, toList_euroReason]
  decide +kernel

def parkedRun : List HostOp :=
  [.createSession ⟨.human, "user"⟩,
    .submitAction (World.counting.uuid 1) ⟨.human, "user"⟩ removeScratch]

lemma exists_pending_parkedRun :
    ∃ p, (deleter.run .counting parkedRun).pendingApprovals.lookup (World.counting.uuid 2) =
        some p ∧ p.action.actionName = "file.delete" ∧
      p.approval.sessionId = World.counting.showUuid (World.counting.uuid 1) := by
  have hpend : (((deleter.run .counting parkedRun).pendingApprovals.lookup
      (World.counting.uuid 2)).map fun p => (p.action.actionName, p.approval.sessionId)) =
      some ("file.delete", World.counting.showUuid (World.counting.uuid 1)) := by
    decide +kernel
  obtain ⟨p, hp, heq⟩ := Option.map_eq_some_iff.mp hpend
  obtain ⟨hname, hses⟩ := Prod.mk.inj heq
  exact ⟨p, hp, hname, hses⟩

/-- A reason that panics: recorded alone, as the reason of a failure, and of a denial. -/
theorem euro_reason_panics :
    (AuditLog.new 4096).record 0 "host" .sessionFailed euroReason false "host" = none ∧
    (markFailed .counting euroReason bareHost).1 = .panic ∧
    (denyRequest .counting (World.counting.uuid 2) euroReason
      (deleter.run .counting parkedRun)).1 = .panic := by
  refine ⟨?_, markFailed_of_not _ _ not_recordable_euroReason, ?_⟩
  · rw [← Option.not_isSome_iff_eq_none, record_isSome_iff]
    exact not_recordable_euroReason
  · obtain ⟨p, hp, hname, hses⟩ := exists_pending_parkedRun
    rw [denyRequest_of_pending hp hses]
    have hcs : (denialText .counting (World.counting.uuid 2) p euroReason).toList =
        "action=file.delete approval_id=02000000-0000-4000-8000-000000000000 reason=".toList ++
          List.replicate 167 '€' := by
      rw [denialText, hname, String.toList_append]
      refine congrArg₂ (· ++ ·) ?_ toList_euroReason
      decide +kernel
    have hd : ¬ Recordable (denialText .counting (World.counting.uuid 2) p euroReason) := by
      rw [recordable_iff, hcs]
      decide +kernel
    rw [recordAudit_bind_of_not _ _ hd]

end Host

end Aether.Runtime
