import Aether.Runtime.Equiv.HostLifecycle
import Aether.Runtime.Equiv.HostWrites

/-!
# The audit trail of an action

Only `cancel_action` records a cancellation, for every action that was started: the list of started
actions is not shortened when an action ends.
-/

namespace Aether.Runtime

open Aether.Core Command

def AuditEntry.Finishes (e : AuditEntry) : Prop :=
  e.eventType = .actionCompleted ∨ e.eventType = .actionFailed

namespace Host

variable (w : World)

def cancellationText (actionId : Uuid) : String := s!"action_id={w.showUuid actionId} cancelled"

def IsCancellation (e : AuditEntry) : Prop :=
  e.eventType = .actionDenied ∧ e.success = true ∧
    ∃ actionId, sanitizeDetail (cancellationText w actionId) = some e.detail

/-- No cancellation of an action comes after its end. -/
def Clean (h : Host) : Prop :=
  h.audit.entries.Pairwise fun e e' =>
    e.sessionId = e'.sessionId → e.Finishes → ¬ IsCancellation w e'

lemma clean_push_iff {h : Host} (hh : Clean w h) (e : AuditEntry) :
    Clean w { h with audit := h.audit.push e } ↔
      ∀ e' ∈ h.audit.entries, e'.sessionId = e.sessionId → e'.Finishes → ¬ IsCancellation w e := by
  show List.Pairwise _ (h.audit.entries ++ [e]) ↔ _
  rw [List.pairwise_append]
  constructor
  · rintro ⟨-, -, hcro⟩ e' he'
    exact hcro e' he' e (List.mem_singleton_self e)
  · intro hcro
    refine ⟨hh, List.pairwise_singleton _ _, fun e' he' e'' he'' => ?_⟩
    rw [List.mem_singleton.mp he'']
    exact hcro e' he'

lemma entries_makeRoom_sublist (log : AuditLog) : log.makeRoom.entries.Sublist log.entries := by
  unfold AuditLog.makeRoom
  split_ifs
  · exact List.drop_sublist 1 log.entries
  · exact List.Sublist.refl _

lemma clean_makeRoom {h : Host} (hh : Clean w h) :
    Clean w { h with audit := h.audit.makeRoom } :=
  List.Pairwise.sublist (entries_makeRoom_sublist h.audit) hh

lemma stable_clean : Stable (Clean w) where
  congr h h' hh hc := by
    have haud : h'.audit = h.audit := congrArg (fun k => k.2.2.2) hh
    rw [Clean, haud]
    exact hc
  room h hc := clean_makeRoom w hc
  entry h e he hc := by
    refine (clean_push_iff w hc e).mpr fun e' _ _ _ hcan => ?_
    -- an ordinary denial is recorded as a failure
    have hfal : e.success = false := he hcan.1
    rw [hcan.2.1] at hfal
    cases hfal
  session h id rec rec' _ _ hc := hc
  added h id rec _ _ hc := hc

section CancelAction

variable {w} {h : Host} {sessionId actionId : Uuid} {rec : HostSessionRecord}

lemma cancelAction_of_not_mem (hrec : h.sessions.lookup sessionId = some rec)
    (hmem : actionId ∉ rec.actions) :
    cancelAction w sessionId actionId h = (.ok false, h) := by
  rw [cancelAction, bind_apply_of_eq (getSession_of_some hrec), if_neg hmem]
  rfl

def forgetting (h : Host) (sessionId actionId : Uuid) (rec : HostSessionRecord) : Host :=
  let forgot : HostSessionRecord := { rec with actions := rec.actions.filter (· ≠ actionId) }
  { h with sessions := h.sessions.insert sessionId forgot }

lemma cancelAction_of_mem (hrec : h.sessions.lookup sessionId = some rec)
    (hmem : actionId ∈ rec.actions) :
    cancelAction w sessionId actionId h =
      (recordAudit w (w.showUuid sessionId) .actionDenied (cancellationText w actionId) true >>=
        fun _ => publish (.actionDenied (w.showUuid sessionId) (w.showUuid actionId) "cancelled")
        >>= fun _ => pure true) (h.forgetting sessionId actionId rec) := by
  rw [cancelAction, bind_apply_of_eq (getSession_of_some hrec), if_pos hmem]
  rfl

end CancelAction

/-- An action that is cancelled has no end in the log. -/
def KeepsClean (h : Host) : HostOp → Prop
  | .cancelAction sessionId actionId => ∀ rec, h.sessions.lookup sessionId = some rec →
      actionId ∈ rec.actions → Recordable (cancellationText w actionId) →
      ∀ e ∈ h.audit.makeRoom.entries, e.sessionId = w.showUuid sessionId → ¬ e.Finishes
  | _ => True

lemma clean_cancelAction_iff {h : Host} (hh : Clean w h) (sessionId actionId : Uuid) :
    Clean w (cancelAction w sessionId actionId h).2 ↔
      KeepsClean w h (.cancelAction sessionId actionId) := by
  cases hrec : h.sessions.lookup sessionId with
  | none =>
    have hsame : (cancelAction w sessionId actionId h).2 = h := by
      rw [cancelAction, bind_apply, getSession, peek_bind_apply, hrec]
      rfl
    rw [hsame]
    refine iff_of_true hh fun rec hrec' => ?_
    rw [hrec] at hrec'
    cases hrec'
  | some rec =>
    -- the condition is about this record
    have hkp : KeepsClean w h (.cancelAction sessionId actionId) ↔ (actionId ∈ rec.actions →
        Recordable (cancellationText w actionId) → ∀ e ∈ h.audit.makeRoom.entries,
          e.sessionId = w.showUuid sessionId → ¬ e.Finishes) := by
      refine ⟨fun hk => hk rec hrec, fun hk rec' hrec' => ?_⟩
      cases hrec.symm.trans hrec'
      exact hk
    rw [hkp]
    by_cases hmem : actionId ∈ rec.actions
    · rw [cancelAction_of_mem hrec hmem]
      by_cases hd : Recordable (cancellationText w actionId)
      · obtain ⟨detail, hdet⟩ := hd.exists_sanitizeDetail
        rw [bind_apply, recordAudit_of_some w hdet]
        set e : AuditEntry := ⟨w.systemTime h.cursor.times, w.showUuid sessionId, .actionDenied,
          detail, true, "host"⟩
        have hcan : IsCancellation w e := ⟨rfl, rfl, actionId, hdet⟩
        refine (clean_push_iff w (clean_makeRoom w hh) e).trans ⟨fun hnone _ _ e' he' hs hf => ?_,
          fun hnone e' he' hs hf => absurd hf (hnone hmem hd e' he' hs)⟩
        exact hnone e' he' hs hf hcan
      · rw [recordAudit_bind_of_not w _ hd]
        exact iff_of_true (clean_makeRoom w hh) fun _ hd' => absurd hd' hd
    · rw [cancelAction_of_not_mem hrec hmem]
      exact iff_of_true hh fun hmem' => absurd hmem' hmem

/-- **Step lemma**: an operation keeps the trails clean exactly if it cancels no action that has
ended. -/
theorem clean_step_iff {h : Host} (hh : Clean w h) (op : HostOp) :
    Clean w (h.step w op) ↔ KeepsClean w h op := by
  have other : (∀ sessionId actionId, op ≠ .cancelAction sessionId actionId) →
      Clean w (h.step w op) := (stable_clean w).step w hh
  cases op with
  | cancelAction sessionId actionId =>
    have hstep : h.step w (.cancelAction sessionId actionId) =
        (cancelAction w sessionId actionId h).2 := bind_pure_snd _ _ _
    rw [hstep]
    exact clean_cancelAction_iff w hh sessionId actionId
  | _ => exact iff_of_true (other nofun) trivial

/-- **Audit trails**: the trails of a run are clean throughout exactly if no step of the run cancels
an action whose end is in the log. -/
theorem trail_clean_iff (w : World) (caps : List String) (controlPort surfacePort : UInt16)
    (ops : List HostOp) :
    (∀ pre, pre <+: ops → Clean w ((start w caps controlPort surfacePort).run w pre)) ↔
      Run.Steps (Host.step w) (KeepsClean w) (start w caps controlPort surfacePort) ops := by
  have hsts : Run.Steps (Host.step w) (fun _ _ => True)
      (start w caps controlPort surfacePort) ops := fun _ _ _ _ => trivial
  exact Run.forall_prefix_iff_steps (I := fun _ => True) hsts (fun _ _ _ _ => trivial)
    (fun h op _ _ hh => clean_step_iff w hh op) trivial List.Pairwise.nil

def cancelApproved : Outcome AgentError Bool × Host :=
  cancelAction .counting (World.counting.uuid 1) removeScratch.id
    (deleter.run .counting approvedRun)

def cancelledTrail : List AuditEntry :=
  [⟨14, "01000000-0000-4000-8000-000000000000", .actionCompleted, "action=file.delete dur_ms=0",
      true, "host"⟩,
    ⟨17, "01000000-0000-4000-8000-000000000000", .sessionCompleted, "session completed", true,
      "host"⟩,
    ⟨18, "01000000-0000-4000-8000-000000000000", .actionDenied,
      "action_id=64000000-0000-4000-8000-000000000000 cancelled", true, "host"⟩]

lemma drop_entries_cancelApproved :
    cancelApproved.2.audit.entries.drop 6 = cancelledTrail := by
  decide +kernel

/-- An action that has completed is cancelled: its trail is not clean. -/
theorem completed_action_cancelled :
    cancelApproved.1 = .ok true ∧ cancelApproved.2.audit.entries.drop 6 = cancelledTrail ∧
      ¬ Clean .counting cancelApproved.2 := by
  refine ⟨by decide +kernel, drop_entries_cancelApproved, fun hcln => ?_⟩
  have hpai := List.Pairwise.sublist (List.drop_sublist 6 _) hcln
  rw [drop_entries_cancelApproved, cancelledTrail] at hpai
  have hcan := List.rel_of_pairwise_cons hpai (List.mem_cons_of_mem _ List.mem_cons_self)
  exact hcan rfl (.inl rfl) ⟨rfl, rfl, removeScratch.id, by decide +kernel⟩

end Host

end Aether.Runtime
