import Aether.Runtime.Equiv.HostAudit

/-!
# Creating sessions and stopping the host

The limit of sessions counts those that have ended, and these stay in the table.
-/

namespace Aether.Runtime

open Aether.Core Command AList

namespace Host

variable (w : World)

def newRecord (h : Host) (actor : SessionActor) : HostSessionRecord where
  session := { AgentSession.new (w.uuid h.cursor.uuids) (w.systemTime h.cursor.times) actor with
    state := .ready
    updatedAt := w.systemTime (h.cursor.times + 1) }
  requests := []
  actions := []
  ordinal := h.nextSessionOrdinal

def drawing (h : Host) : Host :=
  { h with
    cursor := { h.cursor with uuids := h.cursor.uuids + 1, times := h.cursor.times + 1 + 1 }
    nextSessionOrdinal := h.nextSessionOrdinal + 1 }

lemma ensureAccepting_of_accepting {h : Host} (hacc : h.state.isAccepting) :
    ensureAccepting h = (.ok (), h) := by
  unfold ensureAccepting
  rw [peek_bind_apply, hacc]
  rfl

section Create

variable {w} {h : Host} {actor : SessionActor}

lemma createSession_of_full (hacc : h.state.isAccepting)
    (hfull : h.maxSessions ≤ h.sessions.entries.length) :
    createSession w actor h =
      (.error (.internal s!"max sessions ({h.maxSessions}) reached"), h) := by
  unfold createSession
  rw [bind_apply_of_eq (ensureAccepting_of_accepting hacc), peek_bind_apply, peek_bind_apply,
    if_pos hfull]
  rfl

lemma createSession_of_room (hacc : h.state.isAccepting)
    (hroom : h.sessions.entries.length < h.maxSessions) :
    createSession w actor h =
      (recordAudit w (w.showUuid (w.uuid h.cursor.uuids)) .sessionCreated
          s!"actor={actor.identity}" true >>= fun _ =>
        publish (.sessionCreated (w.showUuid (w.uuid h.cursor.uuids)) actor.identity) >>= fun _ =>
        admitSession (w.uuid h.cursor.uuids) (h.newRecord w actor) >>= fun _ =>
        pure (w.uuid h.cursor.uuids)) h.drawing := by
  unfold createSession
  rw [bind_apply_of_eq (ensureAccepting_of_accepting hacc), peek_bind_apply, peek_bind_apply,
    if_neg (Nat.not_le.mpr hroom)]
  rfl

def admitted (h : Host) (sessionId : Uuid) (rec : HostSessionRecord) : Host :=
  { h with sessions := h.sessions.insert sessionId rec, state := .running }

lemma admitSession_of_accepting (hacc : h.state.isAccepting) (sessionId : Uuid)
    (rec : HostSessionRecord) :
    admitSession sessionId rec h = (.ok (), h.admitted sessionId rec) := by
  have hst : h.state = .ready ∨ h.state = .running := by
    cases hs : h.state <;> simp_all [HostState.isAccepting]
  unfold admitted
  rcases hst with hs | hs
  · simp [admitSession, putSession, transitionState, hs, HostState.allowed]
  · simp [admitSession, putSession, hs]

structure Created (w : World) (actor : SessionActor) (h h' : Host) : Prop where
  state : h'.state = .running
  sessions : h'.sessions = h.sessions.insert (w.uuid h.cursor.uuids) (h.newRecord w actor)
  maxSessions : h'.maxSessions = h.maxSessions
  uuids : h'.cursor.uuids = h.cursor.uuids + 1

lemma createSession_of_recordable (hacc : h.state.isAccepting)
    (hroom : h.sessions.entries.length < h.maxSessions)
    (hd : Recordable s!"actor={actor.identity}") :
    Holds (createSession w actor) h fun o h' =>
      o = .ok (w.uuid h.cursor.uuids) ∧ Created w actor h h' := by
  rw [Holds, createSession_of_room hacc hroom]
  refine holds_recordAudit_bind (Q := fun o h' =>
    o = .ok (w.uuid h.cursor.uuids) ∧ Created w actor h h') w hd fun _ => holds_update_bind ?_
  rw [Holds, bind_apply, admitSession_of_accepting]
  · exact ⟨rfl, rfl, rfl, rfl, rfl⟩
  · exact hacc

/-- **Creating a session** returns exactly if the table of sessions, with those that have ended, is
not full and the actor can be recorded. -/
theorem createSession_returns_iff (w : World) (h : Host) (hacc : h.state.isAccepting)
    (actor : SessionActor) :
    (∃ sessionId, (createSession w actor h).1 = .ok sessionId) ↔
      h.sessions.entries.length < h.maxSessions ∧ Recordable s!"actor={actor.identity}" := by
  constructor
  · rintro ⟨sessionId, hok⟩
    have hroom : h.sessions.entries.length < h.maxSessions := by
      by_contra hfull
      rw [createSession_of_full hacc (Nat.not_lt.mp hfull)] at hok
      cases hok
    refine ⟨hroom, ?_⟩
    by_contra hd
    rw [createSession_of_room hacc hroom, recordAudit_bind_of_not w _ hd] at hok
    cases hok
  · rintro ⟨hroom, hd⟩
    exact ⟨_, (createSession_of_recordable hacc hroom hd).1⟩

theorem createSession_returns_iff_first :
    bareHost.state.isAccepting ∧
      ∃ sessionId, (createSession .counting ⟨.human, "user"⟩ bareHost).1 = .ok sessionId :=
  ⟨rfl, (createSession_returns_iff .counting _ rfl _).mpr
    ⟨by decide +kernel, .inl (by decide +kernel)⟩⟩

end Create

def churn (actor : SessionActor) (n : ℕ) : List HostOp :=
  (List.range n).flatMap fun k => [.createSession actor, .cancelSession (w.uuid (k + 1))]

structure Churned (n : ℕ) (h : Host) : Prop where
  accepting : h.state.isAccepting
  maxSessions : h.maxSessions = 64
  uuids : h.cursor.uuids = n + 1
  count : h.sessions.entries.length = n
  keys : ∀ id ∈ h.sessions, ∃ k < n, id = w.uuid (k + 1)
  ended : ∀ e ∈ h.sessions.entries, e.2.session.state = .cancelled

section Cancel

variable {w} {h : Host} {sessionId : Uuid} {rec : HostSessionRecord}

def cancelledRecord (rec : HostSessionRecord) : HostSessionRecord :=
  { rec with
    actions := []
    session := { rec.session with cancelled := true, state := .cancelled } }

lemma getSession_of_some (hrec : h.sessions.lookup sessionId = some rec) :
    getSession w sessionId h = (.ok rec, h) := by
  rw [getSession, peek_bind_apply, hrec]
  rfl

structure CancelledOne (sessionId : Uuid) (rec : HostSessionRecord) (h h' : Host) : Prop where
  state : h'.state = h.state
  sessions : h'.sessions = h.sessions.insert sessionId (cancelledRecord rec)
  maxSessions : h'.maxSessions = h.maxSessions
  pending : h'.pendingApprovals = h.pendingApprovals
  uuids : h'.cursor.uuids = h.cursor.uuids

lemma cancelSession_of_active (hrec : h.sessions.lookup sessionId = some rec)
    (hact : ¬ rec.session.state.isTerminal) :
    Holds (cancelSession w sessionId) h fun o h' =>
      o = .ok true ∧ CancelledOne sessionId rec h h' := by
  have hd : Recordable "session cancelled by host" := .inl (by decide)
  rw [Holds, cancelSession, bind_apply_of_eq (getSession_of_some hrec)]
  refine holds_update_bind (Q := fun o h' => o = .ok true ∧ CancelledOne sessionId rec h h') ?_
  rw [if_neg hact]
  refine holds_update_bind (holds_recordAudit_bind w hd fun _ => ?_)
  exact ⟨rfl, rfl, insert_insert _, rfl, rfl, rfl⟩

end Cancel

lemma step_createSession (h : Host) (actor : SessionActor) :
    h.step w (.createSession actor) = (createSession w actor h).2 :=
  bind_pure_snd _ _ _

lemma step_cancelSession (h : Host) (sessionId : Uuid) :
    h.step w (.cancelSession sessionId) = (cancelSession w sessionId h).2 :=
  bind_pure_snd _ _ _

variable {n : ℕ} {h : Host}

variable {w} in
lemma Churned.uuid_notMem (hc : Churned w n h) (hn : n < 64)
    (hinj : Set.InjOn w.uuid (Set.Iio 65)) : w.uuid (n + 1) ∉ h.sessions := by
  intro hmem
  obtain ⟨k, hk, heq⟩ := hc.keys _ hmem
  have hkn : n + 1 = k + 1 := hinj (show n + 1 < 65 by omega) (show k + 1 < 65 by omega) heq
  omega

variable {w} in
/-- **Step lemma**: one more session is created and cancelled. -/
theorem Churned.step (hc : Churned w n h) (hn : n < 64) {actor : SessionActor}
    (hd : Recordable s!"actor={actor.identity}") (hinj : Set.InjOn w.uuid (Set.Iio 65)) :
    Churned w (n + 1) (h.run w [.createSession actor, .cancelSession (w.uuid (n + 1))]) := by
  have hroom : h.sessions.entries.length < h.maxSessions := by
    rw [hc.count, hc.maxSessions]
    exact hn
  obtain ⟨-, hcre⟩ := createSession_of_recordable (w := w) hc.accepting hroom hd
  rw [← step_createSession] at hcre
  set h₁ := h.step w (.createSession actor)
  have hses := hcre.sessions
  rw [hc.uuids] at hses
  have hnew := hc.uuid_notMem hn hinj
  have hrec : h₁.sessions.lookup (w.uuid (n + 1)) = some (h.newRecord w actor) := by
    rw [hses, lookup_insert]
  have hact : ¬ (h.newRecord w actor).session.state.isTerminal := by
    simp [newRecord, SessionState.isTerminal]
  obtain ⟨-, hcan⟩ := cancelSession_of_active (w := w) hrec hact
  rw [← step_cancelSession] at hcan
  show Churned w (n + 1) (h₁.step w (.cancelSession (w.uuid (n + 1))))
  have hent := hcan.sessions
  rw [hses, insert_insert] at hent
  refine ⟨?_, ?_, ?_, ?_, ?_, ?_⟩
  · rw [hcan.state, hcre.state]
    rfl
  · rw [hcan.maxSessions, hcre.maxSessions, hc.maxSessions]
  · rw [hcan.uuids, hcre.uuids, hc.uuids]
  · rw [hent, entries_insert_of_notMem hnew, List.length_cons, hc.count]
  · intro id hid
    rw [hent, mem_insert] at hid
    rcases hid with hid | hid
    · exact ⟨n, Nat.lt_succ_self n, hid⟩
    · obtain ⟨k, hk, hidk⟩ := hc.keys id hid
      exact ⟨k, hk.trans (Nat.lt_succ_self n), hidk⟩
  · intro e he
    rw [hent, entries_insert_of_notMem hnew, List.mem_cons] at he
    rcases he with rfl | he
    · rfl
    · exact hc.ended e he

variable {w} in
lemma churned_run (caps : List String) (controlPort surfacePort : UInt16) (actor : SessionActor)
    (hd : Recordable s!"actor={actor.identity}") (hinj : Set.InjOn w.uuid (Set.Iio 65))
    (hn : n ≤ 64) :
    Churned w n ((start w caps controlPort surfacePort).run w (churn w actor n)) := by
  induction n with
  | zero => exact ⟨rfl, rfl, rfl, rfl, nofun, nofun⟩
  | succ n ih =>
    have hrun : churn w actor (n + 1) =
        churn w actor n ++ [.createSession actor, .cancelSession (w.uuid (n + 1))] := by
      rw [churn, List.range_succ, List.flatMap_append, List.flatMap_singleton, churn]
    rw [hrun, run_append]
    exact (ih (Nat.le_of_succ_le hn)).step hn hd hinj

variable {w} in
lemma Churned.activeSessionCount_eq (hc : Churned w n h) :
    h.activeSessionCount = 0 := by
  have hnone : (h.sessions.entries.countP fun e => e.2.session.isActive) = 0 := by
    rw [List.countP_eq_zero]
    intro e he
    rw [AgentSession.isActive, hc.ended e he]
    decide
  rw [activeSessionCount, hnone]
  rfl

def churnedHost : Host :=
  bareHost.run .counting (churn .counting ⟨.human, "user"⟩ 64)

/-- Sessions that have ended fill the table: no session is active, and none can be created. -/
theorem ended_sessions_block :
    churnedHost.state.isAccepting ∧ churnedHost.activeSessionCount = 0 ∧
      (createSession .counting ⟨.human, "user"⟩ churnedHost).1 =
        .error (.internal "max sessions (64) reached") := by
  have hd : ∀ actor : SessionActor, actor.identity = "user" →
      Recordable s!"actor={actor.identity}" := by
    intro actor hact
    rw [hact]
    exact .inl (by decide +kernel)
  have hc : Churned .counting 64 churnedHost :=
    churned_run [] 7777 7778 ⟨.human, "user"⟩ (hd _ rfl) (injOn_counting (by decide)) le_rfl
  refine ⟨hc.accepting, hc.activeSessionCount_eq, ?_⟩
  rw [createSession_of_full hc.accepting (by rw [hc.count, hc.maxSessions]), hc.maxSessions]
  rfl

lemma cancelSessions_cons (id : Uuid) (ids : List Uuid) (h : Host) :
    cancelSessions w (id :: ids) h = cancelSessions w ids (cancelSession w id h).2 := by
  obtain ⟨r, hr⟩ := (noPanic_cancelSession w id).attempt_apply h
  rw [cancelSessions, bind_apply, hr]

lemma cancelSessions_fst (ids : List Uuid) (h : Host) :
    (cancelSessions w ids h).1 = .ok () := by
  induction ids generalizing h with
  | nil => rfl
  | cons id ids ih =>
    rw [cancelSessions_cons]
    exact ih _

lemma Ended.cancelled {sessionId : Uuid} {h₁ h₂ h₃ : Host} (he : Ended sessionId h₁ h₂)
    (hc : Cancelled h₂ h₃) : Ended sessionId h₁ h₃ := by
  refine ⟨he.1.trans hc, fun s hs => ?_⟩
  obtain ⟨s', hs', hterm⟩ := he.2 s hs
  rcases hc.phase sessionId with heq | ⟨s'', hs'', hnot, -⟩
  · exact ⟨s', by rw [heq, hs'], hterm⟩
  · rw [hs', Option.some.injEq] at hs''
    exact absurd hterm (hs'' ▸ hnot)

lemma ended_cancelSessions {id : Uuid} {ids : List Uuid} (hid : id ∈ ids) (h : Host) :
    Ended id h (cancelSessions w ids h).2 := by
  induction ids generalizing h with
  | nil => cases hid
  | cons id' ids ih =>
    rw [cancelSessions_cons]
    have hfst : Ended id' h (cancelSession w id' h).2 := cancelSession_spec w h id'
    rcases List.mem_cons.mp hid with rfl | hmem
    · exact hfst.cancelled (cancelled_cancelSessions w _ ids _ (Same.refl _).cancelled)
    · have hrest := ih hmem (cancelSession w id' h).2
      refine ⟨hfst.1.trans hrest.1, fun s hs => ?_⟩
      obtain ⟨s', hs', -⟩ := hfst.1.forward id s hs
      exact hrest.2 s' hs'

def stopping (h : Host) : Host :=
  { h with
    state := .stopping
    cursor := { h.cursor with orders := h.cursor.orders + 1 } }

lemma cancelled_stopping (h : Host) (ids : List Uuid) :
    Cancelled h.stopping (cancelSessions w ids h.stopping).2 :=
  cancelled_cancelSessions w h.stopping ids h.stopping (Same.refl _).cancelled

lemma stop_of_running (hrunn : h.state = .running) :
    stop w h = (.ok (), { (cancelSessions w (w.order h.cursor.orders h.sessions.keys)
      h.stopping).2 with state := .stopped }) := by
  have hsto : transitionState .stopping "stop requested" h =
      (.ok (), { h with state := .stopping }) := by
    rw [transitionState, peek_bind_apply, hrunn]
    rfl
  unfold stop
  rw [peek_bind_apply, hrunn, if_neg (by decide), bind_apply, hsto]
  set ids := w.order h.cursor.orders h.sessions.keys
  show (cancelSessions w ids >>= fun _ => transitionState .stopped "host stopped") h.stopping = _
  rw [bind_apply_of_ok (cancelSessions_fst w ids h.stopping), transitionState, peek_bind_apply,
    (cancelled_stopping w h ids).state]
  rfl

lemma stop_of_running_spec (hrunn : h.state = .running) :
    Holds (stop w) h fun o h' => o = .ok () ∧
      Cancelled { h with state := .stopped } h' ∧ ∀ id s, h'.phase id = some s → s.isTerminal := by
  rw [Holds, stop_of_running w hrunn]
  set ids := w.order h.cursor.orders h.sessions.keys
  have hc := cancelled_stopping w h ids
  refine ⟨rfl, ⟨⟨rfl, hc.validator, hc.uuids⟩, hc.phase, hc.pending, hc.calls⟩, fun id s hs => ?_⟩
  -- the session was there before, and the loop visits every key of the table
  obtain ⟨s₀, hs₀⟩ := hc.exists_phase hs
  have hid : id ∈ ids := by
    rw [(w.order_perm _ _).mem_iff, ← mem_keys, ← lookup_isSome]
    obtain ⟨rec, hrec, -⟩ := Option.map_eq_some_iff.mp hs₀
    exact Option.isSome_of_eq_some hrec
  obtain ⟨s', hs', hterm⟩ := (ended_cancelSessions w hid h.stopping).2 s₀ hs₀
  obtain rfl : s = s' := Option.some.inj (hs.symm.trans hs')
  exact hterm

lemma stop_of_not_running (hrunn : h.state ≠ .running) : (stop w h).2 = h := by
  unfold stop
  rw [peek_bind_apply]
  split_ifs with hstop
  · rfl
  · have href : h.state.allowed .stopping = false := by
      cases hs : h.state <;> simp_all [HostState.allowed]
    rw [bind_apply, transitionState, peek_bind_apply, href]
    rfl

lemma stop_of_ready (hrdy : h.state = .ready) :
    stop w h =
      (.error (.internal "invalid host transition READY -> STOPPING (stop requested)"), h) := by
  unfold stop
  rw [peek_bind_apply, hrdy, if_neg (by decide), bind_apply, transitionState, peek_bind_apply,
    hrdy]
  rfl

/-- **Stopping** a host that accepts work returns, with the host stopped, every session ended and
no approval pending, exactly if the host runs and no approval was pending. -/
theorem stop_completes_iff (w : World) (h : Host) (hacc : h.state.isAccepting) :
    ((stop w h).1 = .ok () ∧ (stop w h).2.state = .stopped ∧
      (∀ id s, (stop w h).2.phase id = some s → s.isTerminal) ∧
      (stop w h).2.pendingApprovals.entries = []) ↔
    h.state = .running ∧ h.pendingApprovals.entries = [] := by
  have hst : h.state = .ready ∨ h.state = .running := by
    cases hs : h.state <;> simp_all [HostState.isAccepting]
  rcases hst with hrdy | hrunn
  · rw [stop_of_ready w hrdy, hrdy]
    simp
  · obtain ⟨hok, hc, hterm⟩ := stop_of_running_spec w hrunn
    rw [hc.pending]
    constructor
    · rintro ⟨-, -, -, hnone⟩
      exact ⟨hrunn, hnone⟩
    · rintro ⟨-, hnone⟩
      exact ⟨hok, hc.state, hterm, hnone⟩

/-- The one action of the run was approved and executed. -/
theorem stop_completes_iff_approved :
    let h := deleter.run .counting approvedRun
    h.state.isAccepting ∧ (stop .counting h).1 = .ok () ∧ (stop .counting h).2.state = .stopped ∧
      (∀ id s, (stop .counting h).2.phase id = some s → s.isTerminal) ∧
      (stop .counting h).2.pendingApprovals.entries = [] :=
  ⟨by decide +kernel,
    (stop_completes_iff .counting _ (by decide +kernel)).mpr ⟨by decide +kernel,
      List.length_eq_zero_iff.mp (by decide +kernel)⟩⟩

/-- A host without a session is not stopped; one with a pending approval keeps it. -/
theorem stop_incomplete :
    stop .counting bareHost = (.error (.internal
        "invalid host transition READY -> STOPPING (stop requested)"), bareHost) ∧
    let h := deleter.run .counting parkedRun
    (stop .counting h).1 = .ok () ∧ (stop .counting h).2.pendingApprovals.entries.length = 1 := by
  refine ⟨rfl, ?_, ?_⟩
  · decide +kernel
  · decide +kernel

end Host

end Aether.Runtime
