import Aether.Algorithm.AssocList
import Aether.Runtime.Host

/-!
# What the commands of the host do

The core of a host is its lifecycle state, the phase of each session, the pending approvals, the
granted capabilities and the executor's calls.  `Same` relates hosts that agree on it.
-/

namespace Aether.Runtime

open Aether.Core Command

def SessionState.Fresh : SessionState → Bool
  | .created | .ready | .thinking | .planning => true
  | _ => false

def SessionState.Spent : SessionState → Bool
  | .executing | .observing | .completed | .failed | .cancelled => true
  | _ => false

namespace Host

def phase (h : Host) (sessionId : Uuid) : Option SessionState :=
  (h.sessions.lookup sessionId).map fun rec => rec.session.state

structure Frame (h h' : Host) : Prop where
  state : h'.state = h.state
  validator : h'.validator = h.validator
  uuids : h.cursor.uuids ≤ h'.cursor.uuids

structure Same (h h' : Host) : Prop extends Frame h h' where
  phase : h'.phase = h.phase
  pending : h'.pendingApprovals = h.pendingApprovals
  calls : h'.calls = h.calls

structure Moved (sessionId : Uuid) (next : SessionState) (h h' : Host) : Prop
    extends Frame h h' where
  phase : h'.phase = Function.update h.phase sessionId (some next)
  pending : h'.pendingApprovals = h.pendingApprovals
  calls : h'.calls = h.calls

section Changes

variable {h₁ h₂ h₃ : Host} {sessionId : Uuid} {next next' : SessionState}

lemma Frame.trans (h : Frame h₁ h₂) (h' : Frame h₂ h₃) : Frame h₁ h₃ :=
  ⟨h'.state.trans h.state, h'.validator.trans h.validator, h.uuids.trans h'.uuids⟩

lemma Same.refl (h : Host) : Same h h := ⟨⟨rfl, rfl, le_rfl⟩, rfl, rfl, rfl⟩

lemma Same.trans (h : Same h₁ h₂) (h' : Same h₂ h₃) : Same h₁ h₃ :=
  ⟨h.1.trans h'.1, h'.phase.trans h.phase, h'.pending.trans h.pending, h'.calls.trans h.calls⟩

lemma Same.moved (h : Same h₁ h₂) (h' : Moved sessionId next h₂ h₃) :
    Moved sessionId next h₁ h₃ :=
  ⟨h.1.trans h'.1, by rw [h'.phase, h.phase], h'.pending.trans h.pending,
    h'.calls.trans h.calls⟩

lemma Moved.same (h : Moved sessionId next h₁ h₂) (h' : Same h₂ h₃) : Moved sessionId next h₁ h₃ :=
  ⟨h.1.trans h'.1, h'.phase.trans h.phase, h'.pending.trans h.pending, h'.calls.trans h.calls⟩

lemma Moved.moved (h : Moved sessionId next h₁ h₂) (h' : Moved sessionId next' h₂ h₃) :
    Moved sessionId next' h₁ h₃ :=
  ⟨h.1.trans h'.1, by rw [h'.phase, h.phase, Function.update_idem], h'.pending.trans h.pending,
    h'.calls.trans h.calls⟩

lemma Moved.phase_self (hm : Moved sessionId next h₁ h₂) : h₂.phase sessionId = some next := by
  rw [hm.phase, Function.update_self]

lemma Same.moved_self (hh : Same h₁ h₂) (hs : h₁.phase sessionId = some next) :
    Moved sessionId next h₁ h₂ :=
  ⟨hh.1, by rw [hh.phase, ← hs, Function.update_eq_self], hh.pending, hh.calls⟩

end Changes

lemma phase_insert (h : Host) (sessionId : Uuid) (rec : HostSessionRecord) :
    ({ h with sessions := h.sessions.insert sessionId rec } : Host).phase =
      Function.update h.phase sessionId (some rec.session.state) := by
  funext s
  rw [phase, AssocList.lookup_insert, Function.update_apply]
  split_ifs <;> rfl

def Quiet {α : Type} (m : HostM α) : Prop := ∀ h, Same h (m h).2

variable {α β : Type}

lemma Quiet.bind {m : HostM α} {f : α → HostM β} (hm : Quiet m) (hf : ∀ a, Quiet (f a)) :
    Quiet (m >>= f) := by
  intro h
  have hkeep : Preserves (Same h) (m >>= f) :=
    Preserves.bind (fun s hs => hs.trans (hm s)) fun a s hs => hs.trans (hf a s)
  exact hkeep h (Same.refl h)

lemma quiet_pure (a : α) : Quiet (pure a) := fun h => Same.refl h

lemma quiet_peek (f : Host → α) : Quiet (peek f) := fun h => Same.refl h

lemma quiet_fail (e : AgentError) : Quiet (fail e : HostM α) := fun h => Same.refl h

lemma Quiet.preserves {m : HostM α} {I : Host → Prop} (hm : Quiet m)
    (hI : ∀ h h', Same h h' → I h → I h') : Preserves I m := fun h hh => hI h _ (hm h) hh

variable (w : World) {h : Host} {sessionId : Uuid}

lemma quiet_newUuid : Quiet (newUuid w) := fun h =>
  ⟨⟨rfl, rfl, Nat.le_succ h.cursor.uuids⟩, rfl, rfl, rfl⟩

lemma quiet_systemTime : Quiet (systemTime w) := fun _ => ⟨⟨rfl, rfl, le_rfl⟩, rfl, rfl, rfl⟩

lemma quiet_clock : Quiet (clock w) := fun _ => ⟨⟨rfl, rfl, le_rfl⟩, rfl, rfl, rfl⟩

lemma quiet_iterate (keys : List Uuid) : Quiet (iterate w keys) := fun _ =>
  ⟨⟨rfl, rfl, le_rfl⟩, rfl, rfl, rfl⟩

lemma quiet_publish (event : AgentEvent) : Quiet (publish event) := fun _ =>
  ⟨⟨rfl, rfl, le_rfl⟩, rfl, rfl, rfl⟩

lemma quiet_recordAudit (sessionId : String) (eventType : AuditEventType) (detail : String)
    (success : Bool) : Quiet (recordAudit w sessionId eventType detail success) := by
  unfold recordAudit
  refine (quiet_systemTime w).bind fun now => Quiet.bind ?_ fun _ => ?_
  · exact fun _ => ⟨⟨rfl, rfl, le_rfl⟩, rfl, rfl, rfl⟩
  · cases sanitizeDetail detail with
    | none => exact fun h => Same.refl h
    | some detail => exact fun _ => ⟨⟨rfl, rfl, le_rfl⟩, rfl, rfl, rfl⟩

lemma quiet_getSession (sessionId : Uuid) : Quiet (getSession w sessionId) := by
  refine (quiet_peek _).bind fun found => ?_
  cases found with
  | none => exact quiet_fail _
  | some rec => exact quiet_pure _

lemma same_putSession {rec rec' : HostSessionRecord}
    (hrec : h.sessions.lookup sessionId = some rec)
    (hst : rec'.session.state = rec.session.state) :
    Same h { h with sessions := h.sessions.insert sessionId rec' } := by
  refine ⟨⟨rfl, rfl, le_rfl⟩, ?_, rfl, rfl⟩
  rw [phase_insert, hst, Function.update_eq_self_iff, phase, hrec, Option.map_some]

lemma quiet_modifySession (sessionId : Uuid) {f : HostSessionRecord → HostSessionRecord}
    (hf : ∀ rec, (f rec).session.state = rec.session.state) :
    Quiet (modifySession sessionId f) := by
  intro h
  cases hrec : h.sessions.lookup sessionId with
  | none =>
    have hrun : (modifySession sessionId f h).2 = h := by simp [modifySession, hrec]
    rw [hrun]
    exact Same.refl h
  | some rec =>
    have hrun : (modifySession sessionId f h).2 =
        { h with sessions := h.sessions.insert sessionId (f rec) } := by
      simp [modifySession, hrec, putSession]
    rw [hrun]
    exact same_putSession hrec (hf rec)

lemma quiet_recordAction (sessionId actionId : Uuid) : Quiet (recordAction sessionId actionId) :=
  quiet_modifySession sessionId fun _ => rfl

lemma quiet_recordRequest (sessionId requestId : Uuid) :
    Quiet (recordRequest sessionId requestId) :=
  quiet_modifySession sessionId fun _ => rfl

lemma quiet_recordSessionError (sessionId : Uuid) : Quiet (recordSessionError sessionId) :=
  quiet_modifySession sessionId fun _ => rfl

lemma quiet_newRequest (sessionId : Uuid) (actor : RequestActor) (action : Action) :
    Quiet (newRequest w sessionId actor action) :=
  (quiet_systemTime w).bind fun _ => (quiet_newUuid w).bind fun _ => quiet_pure _

lemma transition_eq_ok {s : AgentSession} {next : SessionState} {f : UInt64 → AgentSession}
    (h : s.transition next = .ok f) (now : UInt64) :
    s.state.canTransitionTo next ∧ (f now).state = next := by
  unfold AgentSession.transition at h
  split_ifs at h with hterm hcan
  rw [Except.ok.injEq] at h
  subst h
  exact ⟨by simpa using hcan, rfl⟩

lemma transitionSession_spec (h : Host) (sessionId : Uuid) (rec : HostSessionRecord)
    (next : SessionState) :
    Holds (transitionSession w sessionId rec next) h fun o h' =>
      match o with
      | .ok _ => rec.session.state.canTransitionTo next ∧ Moved sessionId next h h'
      | _ => Same h h' := by
  unfold transitionSession
  cases htr : rec.session.transition next with
  | error e => exact Same.refl h
  | ok session =>
    set now := w.systemTime h.cursor.times
    obtain ⟨hcan, hst⟩ := transition_eq_ok htr now
    refine ⟨hcan, ⟨rfl, rfl, le_rfl⟩, ?_, rfl, rfl⟩
    show Host.phase { h with sessions := _, cursor := _ } = _
    rw [← hst]
    exact phase_insert h sessionId { rec with session := session now }

lemma holds_getSession_bind {k : HostSessionRecord → HostM α}
    {Q : Outcome AgentError α → Host → Prop}
    (hk : ∀ rec, h.sessions.lookup sessionId = some rec → Holds (k rec) h Q)
    (hnone : h.sessions.lookup sessionId = none → ∀ e, Q (.error e) h) :
    Holds (getSession w sessionId >>= k) h Q := by
  rw [Holds, bind_apply, getSession, peek_bind_apply]
  cases hrec : h.sessions.lookup sessionId with
  | none => exact hnone hrec _
  | some rec => exact hk rec hrec

/-- **One advance**: it is refused and changes nothing, or it leads to the next phase (where the
session may have been before). -/
theorem advanceSession_spec (h : Host) (sessionId : Uuid) (next : SessionState) :
    Holds (advanceSession w sessionId next) h fun o h' =>
      match o with
      | .ok _ => ∃ s, h.phase sessionId = some s ∧ (s = next ∨ s.canTransitionTo next) ∧
          Moved sessionId next h h'
      | _ => Same h h' := by
  refine holds_getSession_bind w (fun rec hrec => ?_) fun _ _ => Same.refl h
  have hph : h.phase sessionId = some rec.session.state := by
    rw [phase, hrec, Option.map_some]
  simp only
  split_ifs with hterm hcanc hnext hcan
  · exact Same.refl h
  · exact Same.refl h
  · exact ⟨_, hph, .inl hnext, (Same.refl h).moved_self (hnext ▸ hph)⟩
  · exact Same.refl h
  · refine (transitionSession_spec w h sessionId rec next).mono fun o h' ho => ?_
    cases o with
    | ok _ => exact ⟨_, hph, .inr ho.1, ho.2⟩
    | error e => exact ho
    | panic => exact ho

def Prepared (sessionId : Uuid) (s : SessionState) (h h' : Host) : Prop :=
  (∃ s₀, h.phase sessionId = some s₀ ∧ s₀.Fresh) ∧ Moved sessionId s h h'

lemma Prepared.advance {h₀ h : Host} {s : SessionState}
    (hh : Prepared sessionId s h₀ h) (next : SessionState) :
    Holds (advanceSession w sessionId next) h fun o h' =>
      match o with
      | .ok _ => Prepared sessionId next h₀ h'
      | _ => Prepared sessionId s h₀ h' := by
  refine (advanceSession_spec w h sessionId next).mono fun o h' ho => ?_
  cases o with
  | ok _ =>
    obtain ⟨-, -, -, hmv⟩ := ho
    exact ⟨hh.1, hh.2.moved hmv⟩
  | error e => exact ⟨hh.1, hh.2.same ho⟩
  | panic => exact ⟨hh.1, hh.2.same ho⟩

lemma advanceSessionIfNot_spec (h : Host) (sessionId : Uuid) :
    Holds (advanceSessionIfNot w sessionId .ready) h fun o h' =>
      match o with
      | .ok _ => Prepared sessionId .ready h h' ∨
          ∃ s, h.phase sessionId = some s ∧ s.isTerminal ∧ Same h h'
      | _ => Same h h' := by
  refine holds_getSession_bind w (fun rec hrec => ?_) fun _ _ => Same.refl h
  have hph : h.phase sessionId = some rec.session.state := by
    rw [phase, hrec, Option.map_some]
  split_ifs with hstop
  · rcases hstop with hrdy | hterm
    · rw [hrdy] at hph
      exact .inl ⟨⟨_, hph, rfl⟩, (Same.refl h).moved_self hph⟩
    · exact .inr ⟨_, hph, hterm, Same.refl h⟩
  · refine (advanceSession_spec w h sessionId .ready).mono fun o h' ho => ?_
    cases o with
    | ok _ =>
      obtain ⟨s, hs, hcan, hmv⟩ := ho
      refine .inl ⟨⟨s, hs, ?_⟩, hmv⟩
      cases s <;> simp_all [SessionState.canTransitionTo, SessionState.Fresh]
    | error e => exact ho
    | panic => exact ho

/-- **The start of an action**: the session goes from a fresh phase to `Planning`, or stops at a
fresh phase on the way. -/
theorem beginAction_spec (h : Host) (sessionId : Uuid) :
    Holds (beginAction w sessionId) h fun o h' =>
      match o with
      | .ok _ => Prepared sessionId .planning h h'
      | _ => Same h h' ∨ ∃ s, s.Fresh ∧ Prepared sessionId s h h' := by
  refine (advanceSessionIfNot_spec w h sessionId).bind ?_ (fun _ _ hh' => .inl hh')
    fun _ hh' => .inl hh'
  rintro ⟨⟩ h₁ (hrdy | ⟨s, hs, hterm, hsame⟩)
  · refine (hrdy.advance w .thinking).bind ?_ (fun _ _ hh' => .inr ⟨_, rfl, hh'⟩)
      fun _ hh' => .inr ⟨_, rfl, hh'⟩
    intro _ h₂ hthi
    refine (hthi.advance w .planning).mono fun o h₃ ho => ?_
    cases o with
    | ok _ => exact ho
    | error e => exact .inr ⟨_, rfl, ho⟩
    | panic => exact .inr ⟨_, rfl, ho⟩
  · -- a session that has ended does not advance
    refine (advanceSession_spec w h₁ sessionId .thinking).bind ?_
      (fun _ _ hh' => .inl (hsame.trans hh')) fun _ hh' => .inl (hsame.trans hh')
    rintro _ h₂ ⟨s', hs', hcan, -⟩
    rw [hsame.phase, hs, Option.some.injEq] at hs'
    subst hs'
    cases s <;> simp [SessionState.isTerminal, SessionState.canTransitionTo] at hterm hcan

structure Executed (sessionId : Uuid) (new : List ExecutorCall) (h h' : Host) : Prop
    extends Frame h h' where
  phase : ∃ s, s.Spent ∧ h'.phase = Function.update h.phase sessionId (some s)
  pending : h'.pendingApprovals = h.pendingApprovals
  calls : h'.calls = h.calls ++ new

section Executed

variable {new : List ExecutorCall} {h₁ h₂ h₃ : Host} {s : SessionState}

lemma Executed.same (h : Executed sessionId new h₁ h₂) (h' : Same h₂ h₃) :
    Executed sessionId new h₁ h₃ :=
  ⟨h.1.trans h'.1, by rw [h'.phase]; exact h.phase, h'.pending.trans h.pending,
    h'.calls.trans h.calls⟩

lemma Moved.executed (h : Moved sessionId s h₁ h₂) (hs : s.Spent) :
    Executed sessionId [] h₁ h₂ :=
  ⟨h.1, ⟨s, hs, h.phase⟩, h.pending, by rw [h.calls, List.append_nil]⟩

lemma Executed.moved (h : Executed sessionId new h₁ h₂)
    (h' : Moved sessionId s h₂ h₃) (hs : s.Spent) : Executed sessionId new h₁ h₃ := by
  obtain ⟨s₀, -, hph⟩ := h.phase
  exact ⟨h.1.trans h'.1, ⟨s, hs, by rw [h'.phase, hph, Function.update_idem]⟩,
    h'.pending.trans h.pending, h'.calls.trans h.calls⟩

lemma Executed.quiet {m : HostM α} (hm : Quiet m) : Preserves (Executed sessionId new h₁) m :=
  hm.preserves fun _ _ hsame hex => hex.same hsame

lemma Executed.advance {next : SessionState} (hnext : next.Spent) :
    Preserves (Executed sessionId new h₁) (advanceSession w sessionId next) := by
  intro h hex
  show Holds _ h fun _ h' => Executed sessionId new h₁ h'
  refine (advanceSession_spec w h sessionId next).mono fun o h' ho => ?_
  cases o with
  | ok _ =>
    obtain ⟨-, -, -, hmv⟩ := ho
    exact hex.moved hmv hnext
  | error e => exact hex.same ho
  | panic => exact hex.same ho

lemma Executed.complete :
    Preserves (Executed sessionId new h₁) (completeSession w sessionId) := by
  refine (Executed.quiet (quiet_getSession w sessionId)).bind fun rec => Preserves.bind ?_ fun _ =>
    (Executed.quiet (quiet_recordAudit w _ _ _ _)).bind fun _ => Executed.quiet (quiet_publish _)
  intro h hex
  show Holds _ h fun _ h' => Executed sessionId new h₁ h'
  refine (transitionSession_spec w h sessionId rec .completed).mono fun o h' ho => ?_
  cases o with
  | ok _ => exact hex.moved ho.2 rfl
  | error e => exact hex.same ho
  | panic => exact hex.same ho

lemma Executed.settleOk (action : Action) (request : UserRequest) (durationMs : UInt64)
    (result : ExecutionResult) : Preserves (Executed sessionId new h₁)
      (settleOk w sessionId action request durationMs result) :=
  (Executed.quiet (quiet_recordAudit w _ _ _ _)).bind fun _ =>
    (Executed.quiet (quiet_publish _)).bind fun _ =>
    (Executed.advance w rfl).bind fun _ =>
    (Executed.complete w).bind fun _ =>
    (Executed.quiet (quiet_peek _)).bind fun _ => preserves_pure _

lemma Executed.settleErr (action : Action) (request : UserRequest) (durationMs : UInt64)
    (e : AgentError) : Preserves (Executed sessionId new h₁)
      (settleErr w sessionId action request durationMs e) :=
  (Executed.quiet (quiet_recordAudit w _ _ _ _)).bind fun _ =>
    (Executed.quiet (quiet_publish _)).bind fun _ =>
    (Executed.advance w rfl).attempt.bind fun _ =>
    (Executed.quiet (quiet_recordSessionError sessionId)).bind fun _ =>
    (Executed.quiet (quiet_peek _)).bind fun _ => preserves_pure _

lemma Executed.settle (action : Action) (request : UserRequest) (durationMs : UInt64)
    (result : Except AgentError ExecutionResult) : Preserves (Executed sessionId new h₁)
      (settle w sessionId action request durationMs result) := by
  cases result with
  | ok result => exact Executed.settleOk w action request durationMs result
  | error e => exact Executed.settleErr w action request durationMs e

end Executed

def callOf (h : Host) (sessionId : Uuid) (action : Action) : ExecutorCall :=
  ⟨sessionId, action, h.state, h.validator.grantedCapabilities⟩

lemma callExecutor_spec {h₁ : Host} (hh : Executed sessionId [] h h₁) (action : Action) :
    Holds (callExecutor w sessionId action) h₁ fun _ h' =>
      Executed sessionId [h.callOf sessionId action] h h' := by
  refine ⟨⟨hh.state, hh.validator, hh.uuids⟩, hh.phase, hh.pending, ?_⟩
  show h₁.calls ++ [h₁.callOf sessionId action] = _
  rw [hh.calls, List.append_nil, callOf, hh.state, hh.validator, callOf]

structure Ran (sessionId : Uuid) (action : Action) (h h' : Host) : Prop extends Frame h h' where
  phase : ∃ s, s.Spent ∧ h'.phase = Function.update h.phase sessionId (some s)
  pending : h'.pendingApprovals = h.pendingApprovals
  calls : h'.calls = h.calls ∨ h'.calls = h.calls ++ [h.callOf sessionId action]

lemma Executed.ran {action : Action} {new : List ExecutorCall} {h' : Host}
    (hex : Executed sessionId new h h') (hnew : new = [] ∨ new = [h.callOf sessionId action]) :
    Ran sessionId action h h' := by
  refine ⟨hex.1, hex.phase, hex.pending, ?_⟩
  rcases hnew with hnew | hnew
  · exact .inl (by rw [hex.calls, hnew, List.append_nil])
  · exact .inr (hnew ▸ hex.calls)

lemma executeValidatedAction_of_advanced (action : Action) (request : UserRequest)
    (hadv : (advanceSession w sessionId .executing h).1 = .ok ()) :
    Holds (executeValidatedAction w sessionId action request) h fun _ h' =>
      Ran sessionId action h h' := by
  have hspec := advanceSession_spec w h sessionId .executing
  unfold Holds at hspec
  rw [hadv] at hspec
  obtain ⟨-, -, -, hmv⟩ := hspec
  rw [Holds, executeValidatedAction, bind_apply_of_ok hadv]
  have before : ∀ (_ : Outcome AgentError RequestOutcome) h', Executed sessionId [] h h' →
      Ran sessionId action h h' := fun _ _ hex => hex.ran (.inl rfl)
  refine (Executed.quiet (quiet_recordAudit w _ _ _ _)).holds_bind (hmv.executed rfl) before
    fun _ h₂ hex => ?_
  refine (Executed.quiet (quiet_publish _)).holds_bind hex before fun _ h₃ hex => ?_
  refine (Executed.quiet (quiet_recordAction sessionId _)).holds_bind hex before
    fun _ h₄ hex => ?_
  refine (Executed.quiet (quiet_clock w)).holds_bind hex before fun _ h₅ hex => ?_
  -- from here on the call has been made
  have after : ∀ (_ : Outcome AgentError RequestOutcome) h',
      Executed sessionId [h.callOf sessionId action] h h' → Ran sessionId action h h' :=
    fun _ _ hex => hex.ran (.inr rfl)
  refine (callExecutor_spec w hex action).bind (fun result h₆ hex => ?_)
    (fun e => after (.error e)) (after .panic)
  refine (Executed.quiet (quiet_clock w)).holds_bind hex after fun _ h₇ hex => ?_
  refine (Executed.settle w action request _ result).holds_bind hex after fun outcome h₈ hex => ?_
  refine (Executed.quiet (quiet_recordRequest sessionId _)).holds_bind hex after fun _ h₉ hex => ?_
  exact after (.ok outcome) h₉ hex

/-- **One execution**: nothing happens, or the action ran on a session that could execute. -/
theorem executeValidatedAction_spec (h : Host) (sessionId : Uuid) (action : Action)
    (request : UserRequest) :
    Holds (executeValidatedAction w sessionId action request) h fun _ h' =>
      Same h h' ∨ ((∃ s, h.phase sessionId = some s ∧
        (s = .executing ∨ s.canTransitionTo .executing)) ∧ Ran sessionId action h h') := by
  have hspec := advanceSession_spec w h sessionId .executing
  unfold Holds at hspec
  rcases hadv : advanceSession w sessionId .executing h with ⟨⟨⟩ | e | -, h₁⟩ <;>
    rw [hadv] at hspec
  · obtain ⟨s, hs, hcan, -⟩ := hspec
    refine .inr ⟨⟨s, hs, hcan⟩, ?_⟩
    exact executeValidatedAction_of_advanced w action request (by rw [hadv])
  · rw [Holds, executeValidatedAction, bind_apply, hadv]
    exact .inl hspec
  · rw [Holds, executeValidatedAction, bind_apply, hadv]
    exact .inl hspec

end Host

end Aether.Runtime
