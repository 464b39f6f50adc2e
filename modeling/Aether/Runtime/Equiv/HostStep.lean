import Aether.Runtime.Equiv.Host

/-!
# What an operation of the host does

`Effect` lists what one operation can do to the core of a host, whether it returns, fails or panics
on the way; `effect_step` says that these are all.
-/

namespace Aether.Runtime

open Aether.Core Command

def HostOp.resolves : HostOp → Option Uuid
  | .approveRequest approvalId => some approvalId
  | .denyRequest approvalId _ => some approvalId
  | _ => none

def HostOp.mayRefuse : HostOp → Bool
  | .createSession _ | .submitAction _ _ _ | .cancelAction _ _ | .stop | .fail _ => true
  | _ => false

namespace Host

variable (w : World)

structure Dropped (h h' : Host) : Prop extends Frame h h' where
  phase : h'.phase = h.phase
  pending : ∀ id p, h'.pendingApprovals.lookup id = some p → h.pendingApprovals.lookup id = some p
  calls : h'.calls = h.calls

variable {h h' h₁ : Host} {sessionId : Uuid} {action : Action}

lemma Same.dropped (hh : Same h h') : Dropped h h' :=
  ⟨hh.1, hh.phase, fun _ _ hp => hh.pending ▸ hp, hh.calls⟩

lemma Dropped.trans {h₂ h₃ : Host} (h : Dropped h₁ h₂) (h' : Dropped h₂ h₃) : Dropped h₁ h₃ :=
  ⟨h.1.trans h'.1, h'.phase.trans h.phase, fun id p hp => h.pending id p (h'.pending id p hp),
    h'.calls.trans h.calls⟩

lemma Dropped.quiet {α : Type} {h₀ : Host} {m : HostM α} (hm : Quiet m) :
    Preserves (Dropped h₀) m :=
  hm.preserves fun _ _ hsame hh => hh.trans hsame.dropped

def drop (h : Host) (approvalId : Uuid) : Host :=
  { h with pendingApprovals := h.pendingApprovals.erase approvalId }

lemma dropped_drop (h : Host) (approvalId : Uuid) : Dropped h (h.drop approvalId) := by
  refine ⟨⟨rfl, rfl, le_rfl⟩, rfl, fun id p hp => ?_, rfl⟩
  rw [drop, AssocList.lookup_erase] at hp
  split_ifs at hp
  exact hp

lemma dropped_evictOldestPendingApproval (h₀ : Host) :
    Preserves (Dropped h₀) (evictOldestPendingApproval w) := by
  refine (Dropped.quiet (quiet_peek _)).bind fun pending =>
    (Dropped.quiet (quiet_iterate w _)).bind fun ids => ?_
  simp only
  split
  · exact preserves_pure _
  · rename_i oldestId _
    refine Preserves.bind (fun h hh => hh.trans (dropped_drop h oldestId)) fun removed => ?_
    cases removed with
    | none => exact preserves_pure _
    | some evicted => exact Dropped.quiet (quiet_recordAudit w _ _ _ _)

lemma dropped_makeRoom (h₀ : Host) : Preserves (Dropped h₀) (makeRoom w) :=
  (Dropped.quiet (quiet_peek _)).bind fun _ => (Dropped.quiet (quiet_peek _)).bind fun _ =>
    (dropped_evictOldestPendingApproval w h₀).ite (preserves_pure _)

structure Issued (sessionId : Uuid) (action : Action) (h h' : Host) (id : Uuid)
    (p : PendingApproval) : Prop where
  drawn : ∃ n, h.cursor.uuids ≤ n ∧ n < h'.cursor.uuids ∧ id = w.uuid n
  action : p.action = action
  approvalId : p.approval.id = id
  sessionId : p.approval.sessionId = w.showUuid sessionId

structure Parked (sessionId : Uuid) (action : Action) (h h' : Host) : Prop
    extends Frame h h' where
  phase : h'.phase = Function.update h.phase sessionId (some .waitingApproval)
  pending : ∃ newId, ∀ id p, h'.pendingApprovals.lookup id = some p →
    h.pendingApprovals.lookup id = some p ∨ id = newId ∧ Issued w sessionId action h h' id p
  calls : h'.calls = h.calls

lemma Moved.parked (hm : Moved sessionId .waitingApproval h h₁) (hd : Dropped h₁ h') :
    Parked w sessionId action h h' :=
  ⟨hm.1.trans hd.1, hd.phase.trans hm.phase,
    ⟨w.uuid 0, fun id p hp => .inl (hm.pending ▸ hd.pending id p hp)⟩, hd.calls.trans hm.calls⟩

lemma newApproval_spec (h : Host) (sessionId : Uuid) (action : Action) :
    Holds (newApproval w sessionId action) h fun o h' =>
      Same h h' ∧ h.cursor.uuids < h'.cursor.uuids ∧ ∀ a, o = .ok a →
        a.id = w.uuid h.cursor.uuids ∧ a.sessionId = w.showUuid sessionId := by
  refine ⟨⟨⟨rfl, rfl, Nat.le_succ _⟩, rfl, rfl, rfl⟩, Nat.lt_succ_self _, fun a ha => ?_⟩
  cases ha
  exact ⟨rfl, rfl⟩

lemma Moved.parked_insert {n : ℕ} {p : PendingApproval}
    (hm : Moved sessionId .waitingApproval h h₁) (hd : Dropped h₁ h') (hn : h.cursor.uuids ≤ n)
    (hn' : n < h'.cursor.uuids) (hact : p.action = action) (hid : p.approval.id = w.uuid n)
    (hses : p.approval.sessionId = w.showUuid sessionId) :
    Parked w sessionId action h
      { h' with pendingApprovals := h'.pendingApprovals.insert p.approval.id p } := by
  have hf := hm.1.trans hd.1
  refine ⟨⟨hf.state, hf.validator, hf.uuids⟩, hd.phase.trans hm.phase,
    ⟨p.approval.id, fun id q hq => ?_⟩, hd.calls.trans hm.calls⟩
  rw [AssocList.lookup_insert] at hq
  split_ifs at hq with hne
  · cases hq
    exact .inr ⟨hne, ⟨n, hn, hn', hne.trans hid⟩, hact, hne.symm, hses⟩
  · exact .inl (hm.pending ▸ hd.pending id q hq)

/-- **Parking**: the session goes to `WaitingApproval`, with at most one new pending approval. -/
theorem parkAction_spec (h : Host) (sessionId : Uuid) (actor : RequestActor) (action : Action) :
    Holds (parkAction w sessionId actor action) h fun _ h' =>
      Same h h' ∨ Parked w sessionId action h h' := by
  refine (advanceSession_spec w h sessionId .waitingApproval).bind ?_ (fun _ _ hh' => .inl hh')
    fun _ hh' => .inl hh'
  rintro ⟨⟩ h₁ ⟨s, hs, hcan, hmv⟩
  have waits : ∀ (o : Outcome AgentError RequestOutcome) h', Dropped h₁ h' →
      Same h h' ∨ Parked w sessionId action h h' := fun _ h' hd => .inr (hmv.parked w hd)
  refine (newApproval_spec w h₁ sessionId action).bind ?_
    (fun e h' hh' => waits (.error e) h' hh'.1.dropped) fun h' hh' => waits .panic h' hh'.1.dropped
  rintro approval h₂ ⟨hsame, hlt, happ⟩
  obtain ⟨hid, hses⟩ := happ approval rfl
  -- the approvals that were there may go, and the counter stays beyond the drawn id
  have waits₂ : ∀ (o : Outcome AgentError RequestOutcome) h', Dropped h₂ h' →
      Same h h' ∨ Parked w sessionId action h h' :=
    fun o h' hd => waits o h' (hsame.dropped.trans hd)
  have hd : Dropped h₂ h₂ := (Same.refl h₂).dropped
  refine (Dropped.quiet (quiet_recordAudit w _ _ _ _)).holds_bind hd waits₂ fun _ h₃ hd => ?_
  refine (Dropped.quiet (quiet_publish _)).holds_bind hd waits₂ fun _ h₄ hd => ?_
  refine (Dropped.quiet (quiet_newRequest w _ _ _)).holds_bind hd waits₂ fun request h₅ hd => ?_
  refine (dropped_makeRoom w h₂).holds_bind hd waits₂ fun _ h₆ hd => ?_
  exact .inr (hmv.parked_insert w (p := ⟨action, request, approval⟩) (hsame.dropped.trans hd)
    hmv.uuids (hlt.trans_le hd.uuids) rfl hid hses)

structure Cancelled (h h' : Host) : Prop extends Frame h h' where
  phase : ∀ id, h'.phase id = h.phase id ∨
    ∃ s, h.phase id = some s ∧ ¬ s.isTerminal ∧ h'.phase id = some .cancelled
  pending : h'.pendingApprovals = h.pendingApprovals
  calls : h'.calls = h.calls

def Ended (sessionId : Uuid) (h h' : Host) : Prop :=
  Cancelled h h' ∧
    ∀ s, h.phase sessionId = some s → ∃ s', h'.phase sessionId = some s' ∧ s'.isTerminal

inductive Effect (h : Host) : HostOp → Host → Prop
  | same {op : HostOp} {h' : Host} : op.mayRefuse → Same h h' → Effect h op h'
  | created {actor : SessionActor} {n : ℕ} {h' : Host} : h.state.isAccepting →
      h.cursor.uuids ≤ n → n < h'.cursor.uuids →
      Moved (w.uuid n) .ready { h with state := .running } h' →
      Effect h (.createSession actor) h'
  -- a submission that failed on the way
  | prepared {sessionId : Uuid} {actor : RequestActor} {action : Action} {s : SessionState}
      {h' : Host} : s.Fresh → Prepared sessionId s h h' →
      Effect h (.submitAction sessionId actor action) h'
  | parked {sessionId : Uuid} {actor : RequestActor} {action : Action} {s : SessionState}
      {h' : Host} : h.state.isAccepting → (h.validator.validate action).valid →
      (h.validator.validate action).requiresConfirmation → h.phase sessionId = some s → s.Fresh →
      Parked w sessionId action h h' → Effect h (.submitAction sessionId actor action) h'
  | executed {sessionId : Uuid} {actor : RequestActor} {action : Action} {s : SessionState}
      {h' : Host} : h.state.isAccepting → (h.validator.validate action).valid →
      ¬ (h.validator.validate action).requiresConfirmation → h.phase sessionId = some s → s.Fresh →
      Ran sessionId action h h' → Effect h (.submitAction sessionId actor action) h'
  | approved {approvalId sessionId : Uuid} {p : PendingApproval} {s : SessionState} {h' : Host} :
      h.pendingApprovals.lookup approvalId = some p →
      w.parseUuid p.approval.sessionId = .ok sessionId → h.phase sessionId = some s →
      s = .executing ∨ s.canTransitionTo .executing →
      Ran sessionId p.action (h.drop approvalId) h' → Effect h (.approveRequest approvalId) h'
  -- an approval or a denial that failed, or changed nothing but the approval
  | dropped {op : HostOp} {approvalId : Uuid} {h' : Host} : op.resolves = some approvalId →
      Same (h.drop approvalId) h' → Effect h op h'
  | denied {approvalId sessionId : Uuid} {reason : String} {p : PendingApproval}
      {s : SessionState} {h' : Host} : h.pendingApprovals.lookup approvalId = some p →
      h.phase sessionId = some s → s = .cancelled ∨ s.canTransitionTo .cancelled →
      Moved sessionId .cancelled (h.drop approvalId) h' →
      Effect h (.denyRequest approvalId reason) h'
  | cancelled {sessionId : Uuid} {h' : Host} : Ended sessionId h h' →
      Effect h (.cancelSession sessionId) h'
  | granted {caps : List String} {h' : Host} : Same { h with validator := ⟨caps⟩ } h' →
      Effect h (.grantCapabilities caps) h'
  | stopped {s : HostState} {h' : Host} : s = .stopping ∨ s = .stopped →
      Cancelled { h with state := s } h' → Effect h .stop h'
  | failed {reason : String} {h' : Host} : Same { h with state := .failed } h' →
      Effect h (.fail reason) h'

lemma Same.quiet {α : Type} {h₀ : Host} {m : HostM α} (hm : Quiet m) : Preserves (Same h₀) m :=
  hm.preserves fun _ _ hsame hh => hh.trans hsame

lemma ensureAccepting_spec (h : Host) :
    Holds ensureAccepting h fun o h' => h' = h ∧ ∀ u, o = .ok u → h.state.isAccepting := by
  unfold Holds ensureAccepting
  cases hacc : h.state.isAccepting <;> simp [hacc]

lemma newUuid_spec (h : Host) :
    Holds (newUuid w) h fun o h' => Same h h' ∧ h.cursor.uuids < h'.cursor.uuids ∧
      ∀ id, o = .ok id → id = w.uuid h.cursor.uuids := by
  refine ⟨quiet_newUuid w h, Nat.lt_succ_self _, fun id hid => ?_⟩
  cases hid
  rfl

lemma admitSession_spec {rec : HostSessionRecord} (hh : Same h h₁) (hacc : h.state.isAccepting)
    (hrec : rec.session.state = .ready) :
    Holds (admitSession sessionId rec) h₁ fun _ h' =>
      h'.cursor = h₁.cursor ∧ Moved sessionId .ready { h with state := .running } h' := by
  have hph := phase_insert h₁ sessionId rec
  rw [hrec, hh.phase] at hph
  by_cases hrdy : h₁.state = .ready
  · have hrun : (admitSession sessionId rec h₁).2 = { h₁ with
        sessions := h₁.sessions.insert sessionId rec, state := .running } := by
      simp [admitSession, putSession, transitionState, hrdy, HostState.allowed]
    rw [Holds, hrun]
    exact ⟨rfl, ⟨rfl, hh.validator, hh.uuids⟩, hph, hh.pending, hh.calls⟩
  · have hrun : (admitSession sessionId rec h₁).2 = { h₁ with
        sessions := h₁.sessions.insert sessionId rec } := by
      simp [admitSession, putSession, hrdy]
    have hst : h₁.state = .running := by
      rw [hh.state] at hrdy ⊢
      cases hs : h.state <;> simp_all [HostState.isAccepting]
    rw [Holds, hrun]
    exact ⟨rfl, ⟨hst, hh.validator, hh.uuids⟩, hph, hh.pending, hh.calls⟩

lemma createSession_spec (h : Host) (actor : SessionActor) :
    Holds (createSession w actor) h fun _ h' => Effect w h (.createSession actor) h' := by
  have same : ∀ (o : Outcome AgentError Uuid) h', Same h h' →
      Effect w h (.createSession actor) h' := fun _ _ hh => .same rfl hh
  refine (ensureAccepting_spec h).bind ?_ (fun e h' hh' => ?_) fun h' hh' => ?_
  · rintro ⟨⟩ h' ⟨rfl, hacc⟩
    have hacc := hacc _ rfl
    refine (Same.quiet (quiet_peek _)).holds_bind (Same.refl h') same fun count h₁ hh => ?_
    refine (Same.quiet (quiet_peek _)).holds_bind hh same fun maxSessions h₂ hh => ?_
    split_ifs with hmax
    · exact .same rfl hh
    refine (Same.quiet (quiet_systemTime w)).holds_bind hh same fun now h₃ hh => ?_
    refine (newUuid_spec w h₃).bind ?_ (fun e h₄ hh' => .same rfl (hh.trans hh'.1))
      fun h₄ hh' => .same rfl (hh.trans hh'.1)
    rintro id h₄ ⟨hsame, hlt, hid⟩
    -- from here on the drawn id is kept below the cursor
    have hid := hid id rfl
    subst hid
    have hn := hh.uuids
    set n := h₃.cursor.uuids
    have hh : Same h' h₄ ∧ n < h₄.cursor.uuids := ⟨hh.trans hsame, hlt⟩
    have quiet : ∀ {α : Type} {m : HostM α}, Quiet m →
        Preserves (fun x => Same h' x ∧ n < x.cursor.uuids) m := fun hm =>
      hm.preserves fun _ _ hs hx => ⟨hx.1.trans hs, hx.2.trans_le hs.uuids⟩
    have same : ∀ (o : Outcome AgentError Uuid) x, Same h' x ∧ n < x.cursor.uuids →
      Effect w h' (.createSession actor) x := fun _ _ hx => .same rfl hx.1
    refine (quiet (quiet_peek _)).holds_bind hh same fun ordinal h₅ hh => ?_
    refine (quiet fun _ => ⟨⟨rfl, rfl, le_rfl⟩, rfl, rfl, rfl⟩).holds_bind hh same fun _ h₆ hh => ?_
    refine (quiet (quiet_systemTime w)).holds_bind hh same fun readyAt h₇ hh => ?_
    refine (quiet (quiet_recordAudit w _ _ _ _)).holds_bind hh same fun _ h₈ hh => ?_
    refine (quiet (quiet_publish _)).holds_bind hh same fun _ h₉ hh => ?_
    have created : ∀ (o : Outcome AgentError Uuid) x, x.cursor = h₉.cursor ∧
        Moved (w.uuid n) .ready { h' with state := .running } x →
        Effect w h' (.createSession actor) x := fun _ _ hx =>
      .created hacc hn (hx.1 ▸ hh.2) hx.2
    exact (admitSession_spec hh.1 hacc rfl).bind (fun _ => created (.ok (w.uuid n)))
      (fun e => created (.error e)) (created .panic)
  · exact .same rfl (hh'.1 ▸ Same.refl h)
  · exact .same rfl (hh'.1 ▸ Same.refl h)

section Submit

variable {s : SessionState} {h₂ h₃ : Host}

lemma Moved.trans_parked (hm : Moved sessionId s h₁ h₂) (hp : Parked w sessionId action h₂ h₃) :
    Parked w sessionId action h₁ h₃ := by
  refine ⟨hm.1.trans hp.1, by rw [hp.phase, hm.phase, Function.update_idem], ?_,
    hp.calls.trans hm.calls⟩
  obtain ⟨newId, hpend⟩ := hp.pending
  refine ⟨newId, fun id p hid => ?_⟩
  rcases hpend id p hid with hold | ⟨hnew, ⟨n, hn, hn', hidn⟩, hact, happ, hses⟩
  · exact .inl (hm.pending ▸ hold)
  · exact .inr ⟨hnew, ⟨n, hm.uuids.trans hn, hn', hidn⟩, hact, happ, hses⟩

lemma Moved.trans_ran (hm : Moved sessionId s h₁ h₂) (hr : Ran sessionId action h₂ h₃) :
    Ran sessionId action h₁ h₃ := by
  obtain ⟨s', hs', hph⟩ := hr.phase
  have hcall : h₂.callOf sessionId action = h₁.callOf sessionId action := by
    rw [callOf, callOf, hm.state, hm.validator]
  refine ⟨hm.1.trans hr.1, ⟨s', hs', by rw [hph, hm.phase, Function.update_idem]⟩,
    hr.pending.trans hm.pending, ?_⟩
  rw [← hm.calls, ← hcall]
  exact hr.calls

lemma Prepared.quiet {α : Type} {m : HostM α} (hm : Quiet m) :
    Preserves (Prepared sessionId s h₁) m :=
  hm.preserves fun _ _ hsame hp => ⟨hp.1, hp.2.same hsame⟩

lemma prepared_rejectAction (errors : List String) :
    Preserves (Prepared sessionId .planning h₁) (rejectAction w sessionId action errors) := by
  refine Preserves.bind (Preserves.attempt fun h hp => ?_) fun _ =>
    (Prepared.quiet (quiet_recordAudit w _ _ _ _)).bind fun _ =>
    (Prepared.quiet (quiet_publish _)).bind fun _ => preserves_fail _
  show Holds _ h fun _ h' => Prepared sessionId .planning h₁ h'
  refine (advanceSession_spec w h sessionId .failed).mono fun o h' ho => ?_
  cases o with
  | ok _ =>
    -- `Planning` does not go to `Failed`
    obtain ⟨s, hs, hcan, -⟩ := ho
    rw [hp.2.phase_self, Option.some.injEq] at hs
    subst hs
    simp [SessionState.canTransitionTo] at hcan
  | error e => exact ⟨hp.1, hp.2.same ho⟩
  | panic => exact ⟨hp.1, hp.2.same ho⟩

end Submit

lemma submitAction_spec (h : Host) (sessionId : Uuid) (actor : RequestActor) (action : Action) :
    Holds (submitAction w sessionId actor action) h fun _ h' =>
      Effect w h (.submitAction sessionId actor action) h' := by
  refine (ensureAccepting_spec h).bind ?_ (fun e h' hh' => .same rfl (hh'.1 ▸ Same.refl h))
    fun h' hh' => .same rfl (hh'.1 ▸ Same.refl h)
  rintro ⟨⟩ h' ⟨rfl, hacc⟩
  have hacc := hacc _ rfl
  -- an advance of the session that fails leaves it where the last one took it
  have stopped : ∀ x, (Same h' x ∨ ∃ s, s.Fresh ∧ Prepared sessionId s h' x) →
      Effect w h' (.submitAction sessionId actor action) x := by
    rintro x (hsame | ⟨s, hs, hp⟩)
    · exact .same rfl hsame
    · exact .prepared hs hp
  refine (beginAction_spec w h' sessionId).bind ?_ (fun _ => stopped) stopped
  intro _ h₁ hp
  obtain ⟨s, hs, hfr⟩ := hp.1
  have prepared : ∀ (o : Outcome AgentError RequestOutcome) x,
      Prepared sessionId .planning h' x → Effect w h' (.submitAction sessionId actor action) x :=
    fun _ _ hx => .prepared rfl hx
  refine holds_peek_bind ?_
  rw [hp.2.validator]
  set result := h'.validator.validate action
  refine (Prepared.quiet (quiet_recordAudit w _ _ _ _)).holds_bind hp prepared fun _ h₂ hp => ?_
  refine (Prepared.quiet (quiet_recordAudit w _ _ _ _)).holds_bind hp prepared fun _ h₃ hp => ?_
  split_ifs with hinv hcon
  · exact prepared (.panic) _ (prepared_rejectAction w result.errors h₃ hp)
  · -- the action needs a confirmation
    refine (parkAction_spec w h₃ sessionId actor action).mono fun o h₄ hh => ?_
    rcases hh with hsame | hpar
    · exact .prepared rfl ⟨hp.1, hp.2.same hsame⟩
    · exact .parked hacc (by simpa using hinv) hcon hs hfr
        (hp.2.trans_parked w hpar)
  · -- the action is executed at once
    refine (Prepared.quiet (quiet_newRequest w _ _ _)).holds_bind hp prepared
      fun request h₄ hp => ?_
    refine (executeValidatedAction_spec w h₄ sessionId action request).mono fun o h₅ hh => ?_
    rcases hh with hsame | ⟨-, hran⟩
    · exact .prepared rfl ⟨hp.1, hp.2.same hsame⟩
    · exact .executed hacc (by simpa using hinv) hcon hs hfr (hp.2.trans_ran hran)

variable {α : Type} {h₀ : Host} {approvalId : Uuid} {m : HostM α}

lemma holds_removePending_bind {k : Option PendingApproval → HostM α}
    {Q : Outcome AgentError α → Host → Prop}
    (hk : Holds (k (h.pendingApprovals.lookup approvalId)) (h.drop approvalId) Q) :
    Holds (removePending approvalId >>= k) h Q := hk

lemma approveRequest_spec (h : Host) (approvalId : Uuid) :
    Holds (approveRequest w approvalId) h fun _ h' =>
      Effect w h (.approveRequest approvalId) h' := by
  have dropped : ∀ (o : Outcome AgentError (Option RequestOutcome)) x,
      Same (h.drop approvalId) x → Effect w h (.approveRequest approvalId) x :=
    fun _ _ hx => .dropped rfl hx
  have hsame := Same.refl (h.drop approvalId)
  refine holds_removePending_bind ?_
  cases hp : h.pendingApprovals.lookup approvalId with
  | none => exact .dropped rfl hsame
  | some p =>
    simp only
    cases hpar : w.parseUuid p.approval.sessionId with
    | error e => exact .dropped rfl hsame
    | ok sessionId =>
      refine (Same.quiet (quiet_recordAudit w _ _ _ _)).holds_bind hsame dropped fun _ h₁ hh => ?_
      refine (Same.quiet (quiet_publish _)).holds_bind hh dropped fun _ h₂ hh => ?_
      -- the approval is gone also when the session refuses to execute
      have ran : ∀ (o : Outcome AgentError (Option RequestOutcome)) x,
          (Same h₂ x ∨ ((∃ s, h₂.phase sessionId = some s ∧
            (s = .executing ∨ s.canTransitionTo .executing)) ∧ Ran sessionId p.action h₂ x)) →
          Effect w h (.approveRequest approvalId) x := by
        rintro - x (hsame | ⟨⟨s, hs, hcan⟩, hran⟩)
        · exact .dropped rfl (hh.trans hsame)
        · rw [hh.phase] at hs
          exact .approved hp hpar hs hcan ((hh.moved_self hs).trans_ran hran)
      exact (executeValidatedAction_spec w h₂ sessionId p.action p.request).bind
        (fun outcome => ran (.ok (some outcome))) (fun e => ran (.error e)) (ran .panic)

def Denied (approvalId sessionId : Uuid) (h h' : Host) : Prop :=
  Same (h.drop approvalId) h' ∨ ∃ s, h.phase sessionId = some s ∧
    (s = .cancelled ∨ s.canTransitionTo .cancelled) ∧
    Moved sessionId .cancelled (h.drop approvalId) h'

lemma Denied.quiet (hm : Quiet m) : Preserves (Denied approvalId sessionId h₀) m :=
  hm.preserves fun _ _ hsame hh =>
    hh.imp (fun hs => hs.trans hsame) fun ⟨s, hs, hcan, hmv⟩ => ⟨s, hs, hcan, hmv.same hsame⟩

lemma denied_attempt (hh : Same (h.drop approvalId) h₁) :
    Holds (attempt (advanceSession w sessionId .cancelled)) h₁ fun _ h' =>
      Denied approvalId sessionId h h' := by
  refine Holds.attempt ((advanceSession_spec w h₁ sessionId .cancelled).mono fun o x ho => ?_)
  cases o with
  | ok _ =>
    obtain ⟨s, hs, hcan, hmv⟩ := ho
    exact .inr ⟨s, hh.phase ▸ hs, hcan, hh.moved hmv⟩
  | error e => exact .inl (hh.trans ho)
  | panic => exact .inl (hh.trans ho)

lemma denyRequest_spec (h : Host) (approvalId : Uuid) (reason : String) :
    Holds (denyRequest w approvalId reason) h fun _ h' =>
      Effect w h (.denyRequest approvalId reason) h' := by
  have dropped : ∀ (o : Outcome AgentError Bool) x,
      Same (h.drop approvalId) x → Effect w h (.denyRequest approvalId reason) x :=
    fun _ _ hx => .dropped rfl hx
  have hsame := Same.refl (h.drop approvalId)
  refine holds_removePending_bind ?_
  cases hp : h.pendingApprovals.lookup approvalId with
  | none => exact .dropped rfl hsame
  | some p =>
    refine (Same.quiet (quiet_systemTime w)).holds_bind hsame dropped fun _ h₁ hh => ?_
    cases hpar : w.parseUuid p.approval.sessionId with
    | error e => exact .dropped rfl hh
    | ok sessionId =>
      refine (Same.quiet (quiet_recordAudit w _ _ _ _)).holds_bind hh dropped fun _ h₂ hh => ?_
      refine (Same.quiet (quiet_publish _)).holds_bind hh dropped fun _ h₃ hh => ?_
      have denied : ∀ (o : Outcome AgentError Bool) x, Denied approvalId sessionId h x →
          Effect w h (.denyRequest approvalId reason) x := by
        rintro - x (hsame | ⟨s, hs, hcan, hmv⟩)
        · exact .dropped rfl hsame
        · exact .denied hp hs hcan hmv
      refine (denied_attempt w hh).bind (fun _ h₄ hh => ?_) (fun e => denied (.error e))
        (denied .panic)
      refine (Denied.quiet (quiet_recordSessionError sessionId)).holds_bind hh denied
        fun _ h₅ hh => ?_
      exact denied (.ok true) h₅ hh

lemma Same.cancelled (hh : Same h h') : Cancelled h h' :=
  ⟨hh.1, fun id => .inl (congrFun hh.phase id), hh.pending, hh.calls⟩

lemma Moved.ended {s : SessionState} (hm : Moved sessionId .cancelled h h')
    (hs : h.phase sessionId = some s) (hterm : ¬ s.isTerminal) : Ended sessionId h h' := by
  refine ⟨⟨hm.1, fun id => ?_, hm.pending, hm.calls⟩,
    fun _ _ => ⟨.cancelled, hm.phase_self, rfl⟩⟩
  by_cases hid : id = sessionId
  · subst hid
    exact .inr ⟨s, hs, hterm, hm.phase_self⟩
  · exact .inl (by rw [hm.phase, Function.update_of_ne hid])

lemma Cancelled.trans {h₁ h₂ h₃ : Host} (h : Cancelled h₁ h₂) (h' : Cancelled h₂ h₃) :
    Cancelled h₁ h₃ := by
  refine ⟨h.1.trans h'.1, fun id => ?_, h'.pending.trans h.pending, h'.calls.trans h.calls⟩
  rcases h.phase id with h₁₂ | ⟨s, hs, hterm, hcan⟩
  · rw [← h₁₂]
    exact h'.phase id
  · rcases h'.phase id with h₂₃ | ⟨s', hs', hterm', -⟩
    · exact .inr ⟨s, hs, hterm, h₂₃.trans hcan⟩
    · -- a cancelled session has ended
      rw [hcan, Option.some.injEq] at hs'
      exact absurd rfl (hs' ▸ hterm')

lemma Cancelled.quiet (hm : Quiet m) : Preserves (Cancelled h₀) m :=
  hm.preserves fun _ _ hsame hh => hh.trans hsame.cancelled

lemma quiet_cancelAction (sessionId actionId : Uuid) :
    Quiet (cancelAction w sessionId actionId) := by
  intro h
  show Holds _ h fun _ h' => Same h h'
  refine holds_getSession_bind w (fun rec hrec => ?_) fun _ _ => Same.refl h
  have same := fun (_ : Outcome AgentError Bool) x (hx : Same h x) => hx
  split_ifs with hmem
  · refine holds_update_bind ?_
    refine (Same.quiet (quiet_recordAudit w _ _ _ _)).holds_bind
      (same_putSession hrec rfl) same fun _ h₁ hh => ?_
    exact ((Same.quiet (quiet_publish _)).bind fun _ => preserves_pure true) h₁ hh
  · exact Same.refl h

lemma Ended.quiet (hm : Quiet m) : Preserves (Ended sessionId h₀) m :=
  hm.preserves fun _ _ hsame hh => ⟨hh.1.trans hsame.cancelled, fun s hs => hsame.phase ▸ hh.2 s hs⟩

lemma cancelSession_spec (h : Host) (sessionId : Uuid) :
    Holds (cancelSession w sessionId) h fun _ h' => Ended sessionId h h' := by
  -- the error of an unknown session
  have missing (hnone : h.sessions.lookup sessionId = none) : Ended sessionId h h := by
    refine ⟨(Same.refl h).cancelled, fun s hs => ?_⟩
    rw [phase, hnone, Option.map_none] at hs
    cases hs
  refine holds_getSession_bind w (fun rec hrec => ?_) fun hnone _ => missing hnone
  have hph : h.phase sessionId = some rec.session.state := by
    rw [phase, hrec, Option.map_some]
  refine holds_update_bind ?_
  set h₁ : Host := { h with sessions := h.sessions.insert sessionId { rec with actions := [] } }
  have hsame : Same h h₁ := same_putSession hrec rfl
  split_ifs with hterm
  -- a session that has ended only loses its actions
  · exact ⟨hsame.cancelled, fun _ _ => ⟨_, hsame.phase ▸ hph, hterm⟩⟩
  · refine holds_update_bind ?_
    refine ((Ended.quiet (quiet_recordAudit w _ _ _ _)).bind fun _ =>
      (Ended.quiet (quiet_publish _)).bind fun _ => preserves_pure true) _ ?_
    refine Moved.ended (hsame.moved ?_) hph hterm
    exact ⟨⟨rfl, rfl, le_rfl⟩, phase_insert h₁ sessionId _, rfl, rfl⟩

lemma cancelled_cancelSessions (h₀ : Host) (ids : List Uuid) :
    Preserves (Cancelled h₀) (cancelSessions w ids) := by
  induction ids with
  | nil => exact preserves_pure ()
  | cons id ids ih =>
    exact Preserves.bind (Preserves.attempt fun h hh => hh.trans (cancelSession_spec w h id).1)
      fun _ => ih

lemma transitionState_spec (h : Host) (next : HostState) (reason : String) :
    Holds (transitionState next reason) h fun o h' =>
      match o with
      | .ok _ => h' = { h with state := next }
      | _ => h' = h := by
  unfold Holds transitionState
  cases hall : h.state.allowed next <;> simp [hall]

lemma stop_spec (h : Host) : Holds (stop w) h fun _ h' => Effect w h .stop h' := by
  refine holds_peek_bind ?_
  split_ifs with hstop
  · exact .same rfl (Same.refl h)
  refine (transitionState_spec h .stopping _).bind ?_
    (fun e h' hh' => .same rfl (hh' ▸ Same.refl h))
    fun h' hh' => .same rfl (hh' ▸ Same.refl h)
  rintro ⟨⟩ h₁ rfl
  set h₁ : Host := { h with state := .stopping }
  have stopping : ∀ (o : Outcome AgentError Unit) x, Cancelled h₁ x → Effect w h .stop x :=
    fun _ _ hx => .stopped (.inl rfl) hx
  refine (Cancelled.quiet (quiet_peek _)).holds_bind (Same.refl h₁).cancelled stopping
    fun keys h₂ hh => ?_
  refine (Cancelled.quiet (quiet_iterate w keys)).holds_bind hh stopping fun ids h₃ hh => ?_
  refine (cancelled_cancelSessions w h₁ ids).holds_bind hh stopping fun _ h₄ hh => ?_
  refine (transitionState_spec h₄ .stopped _).mono fun o h₅ ho => ?_
  cases o with
  | ok _ =>
    subst ho
    exact .stopped (.inr rfl) ⟨⟨rfl, hh.validator, hh.uuids⟩, hh.phase, hh.pending, hh.calls⟩
  -- the sessions stay cancelled if the last transition is refused
  | error e => exact ho ▸ stopping (.error e) h₄ hh
  | panic => exact ho ▸ stopping .panic h₄ hh

lemma markFailed_spec (h : Host) (reason : String) :
    Holds (markFailed w reason) h fun _ h' => Effect w h (.fail reason) h' := by
  have same : ∀ (o : Outcome AgentError Unit) x, Same h x → Effect w h (.fail reason) x :=
    fun _ _ hx => .same rfl hx
  refine (Same.quiet (quiet_recordAudit w _ _ _ _)).holds_bind (Same.refl h) same fun _ h₁ hh => ?_
  refine (Same.quiet (quiet_publish _)).holds_bind hh same fun _ h₂ hh => ?_
  exact .failed ⟨⟨rfl, hh.validator, hh.uuids⟩, hh.phase, hh.pending, hh.calls⟩

/-- **Every operation has one of the effects.** -/
theorem effect_step (h : Host) (op : HostOp) : Effect w h op (h.step w op) := by
  have unit : ∀ {α : Type} {m : HostM α}, (Holds m h fun _ h' => Effect w h op h') →
      Effect w h op ((do let _ ← m) h).2 := fun hm =>
    Holds.bind (Q := fun _ h' => Effect w h op h') hm (fun _ _ hh => hh) (fun _ _ hh => hh)
      fun _ hh => hh
  cases op with
  | createSession actor => exact unit (createSession_spec w h actor)
  | submitAction sessionId actor action => exact unit (submitAction_spec w h sessionId actor action)
  | approveRequest approvalId => exact unit (approveRequest_spec w h approvalId)
  | denyRequest approvalId reason => exact unit (denyRequest_spec w h approvalId reason)
  | cancelAction sessionId actionId =>
    exact unit (.same rfl (quiet_cancelAction w sessionId actionId h))
  | cancelSession sessionId =>
    exact unit ((cancelSession_spec w h sessionId).mono fun _ _ hh => .cancelled hh)
  | grantCapabilities caps => exact .granted ⟨⟨rfl, rfl, le_rfl⟩, rfl, rfl, rfl⟩
  | stop => exact stop_spec w h
  | fail reason => exact markFailed_spec w h reason

end Host

end Aether.Runtime
