import Aether.Algorithm.Run
import Aether.Runtime.Equiv.HostStep

/-!
# Runs of the host

What one operation can do to the phases, the pending approvals and the executor's calls
(`Effect.forward`, `Effect.pending`, `Effect.calls`), and the invariant of a run, `Inv`.  The ids
that are drawn in the run must be distinct.
-/

namespace Aether.Runtime

open Aether.Core Command List

def SessionState.stage : SessionState → ℕ
  | .created | .ready | .thinking | .planning => 0
  | .waitingApproval => 1
  | .executing | .observing | .completed | .failed | .cancelled => 2

namespace SessionState

variable {s : SessionState}

lemma stage_of_fresh (h : s.Fresh) : s.stage = 0 := by
  cases s <;> simp_all [SessionState.Fresh, SessionState.stage]

lemma stage_of_spent (h : s.Spent) : s.stage = 2 := by
  cases s <;> simp_all [SessionState.Spent, SessionState.stage]

lemma stage_le (s : SessionState) : s.stage ≤ 2 := by cases s <;> decide

lemma spent_of_stage (h : 2 ≤ s.stage) : s.Spent := by
  cases s <;> simp_all [SessionState.Spent, SessionState.stage]

lemma not_isTerminal_of_fresh (h : s.Fresh) : ¬ s.isTerminal := by
  cases s <;> simp_all [SessionState.Fresh, SessionState.isTerminal]

lemma not_spent_of_fresh (h : s.Fresh) : ¬ s.Spent := by
  cases s <;> simp_all [SessionState.Fresh, SessionState.Spent]

lemma spent_of_isTerminal (h : s.isTerminal) : s.Spent := by
  cases s <;> simp_all [SessionState.isTerminal, SessionState.Spent]

lemma not_isTerminal_of_canTransitionTo {next : SessionState} (h : s.canTransitionTo next) :
    ¬ s.isTerminal := by
  cases s <;> simp_all [SessionState.canTransitionTo, SessionState.isTerminal]

end SessionState

def Forward (a b : Option SessionState) : Prop :=
  ∀ s, a = some s → ∃ s', b = some s' ∧ s.stage ≤ s'.stage ∧ (s.isTerminal → s' = s)

lemma Forward.refl (a : Option SessionState) : Forward a a := fun s hs =>
  ⟨s, hs, le_rfl, fun _ => rfl⟩

lemma Forward.trans {a b c : Option SessionState} (h : Forward a b) (h' : Forward b c) :
    Forward a c := by
  intro s hs
  obtain ⟨t, ht, hst, hterm⟩ := h s hs
  obtain ⟨u, hu, htu, hterm'⟩ := h' t ht
  refine ⟨u, hu, hst.trans htu, fun hs => ?_⟩
  have hts := hterm hs
  rw [hterm' (hts ▸ hs), hts]

namespace Host

variable {w : World} {h h' : Host} {op : HostOp}

def Drawn (w : World) (h : Host) (id : Uuid) : Prop := ∃ n < h.cursor.uuids, id = w.uuid n

variable {id sessionId : Uuid} {phase : Uuid → Option SessionState} {next s : SessionState}
  {p : PendingApproval} {c : ExecutorCall}

lemma Drawn.mono (hd : Drawn w h id) (hle : h.cursor.uuids ≤ h'.cursor.uuids) :
    Drawn w h' id := by
  obtain ⟨n, hn, hid⟩ := hd
  exact ⟨n, hn.trans_le hle, hid⟩

lemma Drawn.ne {n : ℕ} (hd : Drawn w h id) (hinj : Set.InjOn w.uuid (Set.Iio h'.cursor.uuids))
    (hn : h.cursor.uuids ≤ n) (hn' : n < h'.cursor.uuids) : id ≠ w.uuid n := by
  obtain ⟨m, hm, rfl⟩ := hd
  intro heq
  have hmn : m = n := hinj (hm.trans_le (hn.trans hn'.le)) hn' heq
  omega

lemma Effect.uuids (he : Effect w h op h') : h.cursor.uuids ≤ h'.cursor.uuids := by
  cases he with
  | same _ hs => exact hs.uuids
  | created _ hn hn' _ => exact hn.trans hn'.le
  | prepared _ hp => exact hp.2.uuids
  | parked _ _ _ _ _ hp => exact hp.uuids
  | executed _ _ _ _ _ hr => exact hr.uuids
  | approved _ _ _ _ hr => exact hr.uuids
  | dropped _ hs => exact hs.uuids
  | denied _ _ _ hm => exact hm.uuids
  | cancelled hc => exact hc.1.uuids
  | granted hs => exact hs.uuids
  | stopped _ hc => exact hc.uuids
  | failed hs => exact hs.uuids

lemma forward_update
    (hnext : ∀ s, phase sessionId = some s → s.stage ≤ next.stage ∧ (s.isTerminal → next = s))
    (id : Uuid) : Forward (phase id) (Function.update phase sessionId (some next) id) := by
  by_cases hid : id = sessionId
  · subst hid
    rw [Function.update_self]
    exact fun s hs => ⟨next, rfl, hnext s hs⟩
  · rw [Function.update_of_ne hid]
    exact Forward.refl _

lemma forward_update_of_stage (hs : phase sessionId = some s) (hterm : ¬ s.isTerminal)
    (hsta : s.stage ≤ next.stage) (id : Uuid) :
    Forward (phase id) (Function.update phase sessionId (some next) id) := by
  refine forward_update (fun t ht => ?_) id
  rw [hs, Option.some.injEq] at ht
  subst ht
  exact ⟨hsta, fun h => absurd h hterm⟩

lemma Cancelled.forward (hc : Cancelled h h') (id : Uuid) :
    Forward (h.phase id) (h'.phase id) := by
  rcases hc.phase id with heq | ⟨s, hs, hterm, hcan⟩
  · rw [heq]
    exact Forward.refl _
  · intro t ht
    rw [hs, Option.some.injEq] at ht
    subst ht
    exact ⟨.cancelled, hcan, s.stage_le, fun h => absurd h hterm⟩

/-- **Phases move forward** under every operation. -/
theorem Effect.forward (he : Effect w h op h')
    (hinj : Set.InjOn w.uuid (Set.Iio h'.cursor.uuids))
    (hdra : ∀ id s, h.phase id = some s → Drawn w h id) (id : Uuid) :
    Forward (h.phase id) (h'.phase id) := by
  cases he with
  | same _ hs => exact hs.phase ▸ Forward.refl _
  | created _ hn hn' hm =>
    rw [hm.phase]
    refine forward_update (fun s hs => ?_) id
    -- the new id belongs to no session
    exact absurd rfl ((hdra _ s hs).ne hinj hn hn')
  | prepared hnext hp =>
    obtain ⟨⟨s, hs, hfr⟩, hm⟩ := hp
    rw [hm.phase]
    exact forward_update_of_stage hs (SessionState.not_isTerminal_of_fresh hfr)
      (SessionState.stage_of_fresh hfr ▸ Nat.zero_le _) id
  | parked _ _ _ hs hfr hp =>
    rw [hp.phase]
    exact forward_update_of_stage hs (SessionState.not_isTerminal_of_fresh hfr)
      (SessionState.stage_of_fresh hfr ▸ Nat.zero_le _) id
  | executed _ _ _ hs hfr hr =>
    obtain ⟨s', -, hph⟩ := hr.phase
    rw [hph]
    exact forward_update_of_stage hs (SessionState.not_isTerminal_of_fresh hfr)
      (SessionState.stage_of_fresh hfr ▸ Nat.zero_le _) id
  | @approved _ _ _ s _ _ _ hs hcan hr =>
    obtain ⟨s', hspe, hph⟩ := hr.phase
    rw [hph]
    refine forward_update_of_stage hs ?_ (SessionState.stage_of_spent hspe ▸ s.stage_le) id
    rcases hcan with rfl | hcan
    · decide
    · exact SessionState.not_isTerminal_of_canTransitionTo hcan
  | dropped _ hs => exact hs.phase ▸ Forward.refl _
  | denied _ hs hcan hm =>
    rw [hm.phase]
    refine forward_update (fun t ht => ?_) id
    -- only a session that was cancelled before may have ended
    obtain rfl : _ = t := Option.some.inj (hs.symm.trans ht)
    refine ⟨SessionState.stage_le _, fun hterm => ?_⟩
    rcases hcan with rfl | hcan
    · rfl
    · exact absurd hterm (SessionState.not_isTerminal_of_canTransitionTo hcan)
  | cancelled hc => exact hc.1.forward id
  | granted hs => exact hs.phase ▸ Forward.refl _
  | stopped _ hc => exact hc.forward id
  | failed hs => exact hs.phase ▸ Forward.refl _

inductive Calls (w : World) (h : Host) : HostOp → ExecutorCall → Prop
  | direct {sessionId : Uuid} {actor : RequestActor} {action : Action} {s : SessionState} :
      h.state.isAccepting → (h.validator.validate action).valid →
      ¬ (h.validator.validate action).requiresConfirmation → h.phase sessionId = some s → s.Fresh →
      Calls w h (.submitAction sessionId actor action) (h.callOf sessionId action)
  | approved {approvalId sessionId : Uuid} {p : PendingApproval} {s : SessionState} :
      h.pendingApprovals.lookup approvalId = some p →
      w.parseUuid p.approval.sessionId = .ok sessionId → h.phase sessionId = some s →
      s = .executing ∨ s.canTransitionTo .executing →
      Calls w h (.approveRequest approvalId) (h.callOf sessionId p.action)

lemma Ran.spent {action : Action} (hr : Ran sessionId action h h') :
    ∃ s, h'.phase sessionId = some s ∧ s.Spent := by
  obtain ⟨s, hs, hph⟩ := hr.phase
  exact ⟨s, by rw [hph, Function.update_self], hs⟩

/-- **Calls**: an operation makes at most one, and its session is spent afterwards. -/
theorem Effect.calls (he : Effect w h op h') :
    h'.calls = h.calls ∨ ∃ c, h'.calls = h.calls ++ [c] ∧ Calls w h op c ∧
      ∃ s, h'.phase c.sessionId = some s ∧ s.Spent := by
  cases he with
  | same _ hs => exact .inl hs.calls
  | created _ _ _ hm => exact .inl hm.calls
  | prepared _ hp => exact .inl hp.2.calls
  | parked _ _ _ _ _ hp => exact .inl hp.calls
  | executed hacc hval hcon hs hfr hr =>
    exact hr.calls.imp_right fun hcal =>
      ⟨_, hcal, .direct hacc hval hcon hs hfr, hr.spent⟩
  | approved hp hpar hs hcan hr =>
    exact hr.calls.imp_right fun hcal => ⟨_, hcal, .approved hp hpar hs hcan, hr.spent⟩
  | dropped _ hs => exact .inl hs.calls
  | denied _ _ _ hm => exact .inl hm.calls
  | cancelled hc => exact .inl hc.1.calls
  | granted hs => exact .inl hs.calls
  | stopped _ hc => exact .inl hc.calls
  | failed hs => exact .inl hs.calls

structure Issues (w : World) (h : Host) (op : HostOp) (h' : Host) (id : Uuid) (p : PendingApproval)
    (sessionId : Uuid) (actor : RequestActor) : Prop where
  op : op = .submitAction sessionId actor p.action
  valid : (h.validator.validate p.action).valid
  confirm : Validator.needsConfirmation p.action.riskLevel
  fresh : ∃ s, h.phase sessionId = some s ∧ s.Fresh
  waits : h'.phase sessionId = some .waitingApproval
  drawn : ∃ n, h.cursor.uuids ≤ n ∧ n < h'.cursor.uuids ∧ id = w.uuid n
  approvalId : p.approval.id = id
  session : p.approval.sessionId = w.showUuid sessionId

/-- **Pending approvals**: an operation issues at most one, for a parked action. -/
theorem Effect.pending (he : Effect w h op h') :
    ∃ newId, ∀ id p, h'.pendingApprovals.lookup id = some p →
      h.pendingApprovals.lookup id = some p ∨
        id = newId ∧ ∃ sessionId actor, Issues w h op h' id p sessionId actor := by
  -- all but a submission that waits leave the approvals alone, or remove some
  have kept : (∀ id p, h'.pendingApprovals.lookup id = some p →
      h.pendingApprovals.lookup id = some p) → ∃ newId, ∀ id p,
      h'.pendingApprovals.lookup id = some p → h.pendingApprovals.lookup id = some p ∨
        id = newId ∧ ∃ sessionId actor, Issues w h op h' id p sessionId actor :=
    fun hkept => ⟨w.uuid 0, fun id p hp => .inl (hkept id p hp)⟩
  have eq : h'.pendingApprovals = h.pendingApprovals → _ := fun heq =>
    kept fun _ _ hp => heq ▸ hp
  have erased : ∀ approvalId, h'.pendingApprovals = (h.drop approvalId).pendingApprovals → _ :=
    fun approvalId heq => kept fun id p hp => (dropped_drop h approvalId).pending id p (heq ▸ hp)
  cases he with
  | same _ hs => exact eq hs.pending
  | created _ _ _ hm => exact eq hm.pending
  | prepared _ hpr => exact eq hpr.2.pending
  | @parked sessionId actor action s _ _ hval hcon hs hfr hpk =>
    obtain ⟨newId, hpend⟩ := hpk.pending
    refine ⟨newId, fun id p hp => (hpend id p hp).imp_right fun ⟨hnew, hiss⟩ =>
      ⟨hnew, sessionId, actor, ?_⟩⟩
    obtain ⟨hdra, rfl, happ, hses⟩ := hiss
    refine ⟨rfl, hval, hcon, ⟨s, hs, hfr⟩, ?_, hdra, happ, hses⟩
    rw [hpk.phase, Function.update_self]
  | executed _ _ _ _ _ hr => exact eq hr.pending
  | approved _ _ _ _ hr => exact erased _ hr.pending
  | dropped _ hs => exact erased _ hs.pending
  | denied _ _ _ hm => exact erased _ hm.pending
  | cancelled hc => exact eq hc.1.pending
  | granted hs => exact eq hs.pending
  | stopped _ hc => exact eq hc.pending
  | failed hs => exact eq hs.pending

lemma exists_of_update {s₀ s₁ : SessionState} (h₀ : phase sessionId = some s₀)
    (hs : Function.update phase sessionId (some s₁) id = some s) : ∃ s', phase id = some s' := by
  by_cases hid : id = sessionId
  · exact ⟨s₀, hid ▸ h₀⟩
  · rw [Function.update_of_ne hid] at hs
    exact ⟨s, hs⟩

lemma Cancelled.exists_phase (hc : Cancelled h h') (hs : h'.phase id = some s) :
    ∃ s₀, h.phase id = some s₀ := by
  rcases hc.phase id with heq | ⟨s₀, hs₀, -⟩
  · exact ⟨s, heq ▸ hs⟩
  · exact ⟨s₀, hs₀⟩

/-- **Grants**: only `grant_capabilities` changes the validator. -/
theorem Effect.validator (he : Effect w h op h') :
    h'.validator = h.validator ∨ ∃ caps, op = .grantCapabilities caps ∧ h'.validator = ⟨caps⟩ := by
  cases he with
  | same _ hs => exact .inl hs.validator
  | created _ _ _ hm => exact .inl hm.validator
  | prepared _ hp => exact .inl hp.2.validator
  | parked _ _ _ _ _ hp => exact .inl hp.validator
  | executed _ _ _ _ _ hr => exact .inl hr.validator
  | approved _ _ _ _ hr => exact .inl hr.validator
  | dropped _ hs => exact .inl hs.validator
  | denied _ _ _ hm => exact .inl hm.validator
  | cancelled hc => exact .inl hc.1.validator
  | granted hs => exact .inr ⟨_, rfl, hs.validator⟩
  | stopped _ hc => exact .inl hc.validator
  | failed hs => exact .inl hs.validator

lemma Effect.session_drawn (he : Effect w h op h') (hs : h'.phase id = some s) :
    (∃ s₀, h.phase id = some s₀) ∨ Drawn w h' id := by
  cases he with
  | same _ hh => exact .inl ⟨s, hh.phase ▸ hs⟩
  | @created _ n _ _ _ hn' hm =>
    by_cases hid : id = w.uuid n
    · exact .inr ⟨n, hn', hid⟩
    · rw [hm.phase, Function.update_of_ne hid] at hs
      exact .inl ⟨s, hs⟩
  | prepared _ hp =>
    obtain ⟨⟨s₀, hs₀, -⟩, hm⟩ := hp
    exact .inl (exists_of_update hs₀ (hm.phase ▸ hs))
  | parked _ _ _ hs₀ _ hp => exact .inl (exists_of_update hs₀ (hp.phase ▸ hs))
  | executed _ _ _ hs₀ _ hr =>
    obtain ⟨s', -, hph⟩ := hr.phase
    exact .inl (exists_of_update hs₀ (hph ▸ hs))
  | approved _ _ hs₀ _ hr =>
    obtain ⟨s', -, hph⟩ := hr.phase
    exact .inl (exists_of_update hs₀ (hph ▸ hs))
  | dropped _ hh => exact .inl ⟨s, hh.phase ▸ hs⟩
  | denied _ hs₀ _ hm => exact .inl (exists_of_update hs₀ (hm.phase ▸ hs))
  | cancelled hc => exact .inl (hc.1.exists_phase hs)
  | granted hh => exact .inl ⟨s, hh.phase ▸ hs⟩
  | stopped _ hc => exact .inl (hc.exists_phase hs)
  | failed hh => exact .inl ⟨s, hh.phase ▸ hs⟩

def Awaits (h : Host) (sessionId : Uuid) : Prop :=
  h.phase sessionId = some .waitingApproval ∨ h.phase sessionId = some .cancelled

lemma Awaits.congr (ha : h.Awaits id) (hph : h'.phase id = h.phase id) : h'.Awaits id := by
  rwa [Awaits, hph]

lemma Awaits.ne_of_fresh (ha : h.Awaits id) (hs : h.phase sessionId = some s) (hfr : s.Fresh) :
    id ≠ sessionId := by
  rintro rfl
  rcases ha with ha | ha
  · cases hs.symm.trans ha
    cases hfr
  · cases hs.symm.trans ha
    cases hfr

lemma Awaits.update_of_ne (ha : h.Awaits id) (hne : id ≠ sessionId)
    (hph : h'.phase = Function.update h.phase sessionId (some s)) : h'.Awaits id :=
  ha.congr (by rw [hph, Function.update_of_ne hne])

lemma Awaits.cancelled (ha : h.Awaits id) (hc : Cancelled h h') : h'.Awaits id := by
  rcases hc.phase id with heq | ⟨-, -, -, hcan⟩
  · exact ha.congr heq
  · exact .inr hcan

structure Inv (w : World) (h : Host) : Prop where
  session_drawn : ∀ id s, h.phase id = some s → Drawn w h id
  approval_drawn : ∀ id p, h.pendingApprovals.lookup id = some p → Drawn w h id
  awaits : ∀ id p, h.pendingApprovals.lookup id = some p →
    ∃ sessionId, p.approval.sessionId = w.showUuid sessionId ∧ h.Awaits sessionId
  unique : ∀ id id' p p', h.pendingApprovals.lookup id = some p →
    h.pendingApprovals.lookup id' = some p' → p.approval.sessionId = p'.approval.sessionId →
    id = id'
  confirm : ∀ id p, h.pendingApprovals.lookup id = some p →
    Validator.needsConfirmation p.action.riskLevel
  spent : ∀ c ∈ h.calls, ∃ s, h.phase c.sessionId = some s ∧ s.Spent
  once : (h.calls.map fun c => c.sessionId).Nodup

lemma showUuid_injective (w : World) : Function.Injective w.showUuid := by
  intro a b hab
  have hok : (.ok a : Except String Uuid) = .ok b := by rw [← w.parse_show a, hab, w.parse_show b]
  exact Except.ok.inj hok

lemma Inv.awaits_of_parse (hinv : Inv w h) (hp : h.pendingApprovals.lookup id = some p)
    (hpar : w.parseUuid p.approval.sessionId = .ok sessionId) :
    p.approval.sessionId = w.showUuid sessionId ∧ h.Awaits sessionId := by
  obtain ⟨sessionId', hses, ha⟩ := hinv.awaits id p hp
  rw [hses, w.parse_show, Except.ok.injEq] at hpar
  exact hpar ▸ ⟨hses, ha⟩

lemma Inv.awaits_step (hinv : Inv w h) (he : Effect w h op h')
    (hinj : Set.InjOn w.uuid (Set.Iio h'.cursor.uuids))
    (hp : h.pendingApprovals.lookup id = some p) (hp' : h'.pendingApprovals.lookup id = some p)
    (hses : p.approval.sessionId = w.showUuid sessionId) (ha : h.Awaits sessionId) :
    h'.Awaits sessionId := by
  cases he with
  | same _ hs => exact ha.congr (congrFun hs.phase _)
  | created _ hn hn' hm =>
    have hd : Drawn w h sessionId := ha.elim (hinv.session_drawn _ _) (hinv.session_drawn _ _)
    exact ha.update_of_ne (hd.ne hinj hn hn') hm.phase
  | prepared _ hpr =>
    obtain ⟨⟨s, hs, hfr⟩, hm⟩ := hpr
    exact ha.update_of_ne (ha.ne_of_fresh hs hfr) hm.phase
  | parked _ _ _ hs hfr hpk => exact ha.update_of_ne (ha.ne_of_fresh hs hfr) hpk.phase
  | executed _ _ _ hs hfr hr =>
    obtain ⟨s', -, hph⟩ := hr.phase
    exact ha.update_of_ne (ha.ne_of_fresh hs hfr) hph
  | @approved approvalId sessionId' q _ _ hq hpar _ _ hr =>
    obtain ⟨s', -, hph⟩ := hr.phase
    refine ha.update_of_ne ?_ hph
    -- for the same session it would be the same approval, which is gone
    rintro rfl
    have hid : approvalId = id := hinv.unique _ _ q p hq hp
      ((hinv.awaits_of_parse hq hpar).1.trans hses.symm)
    rw [hr.pending, drop, hid, AList.lookup_erase] at hp'
    cases hp'
  | dropped _ hs => exact ha.congr (congrFun hs.phase _)
  | @denied _ sessionId' _ _ _ _ _ _ _ hm =>
    by_cases hid : sessionId = sessionId'
    · subst hid
      exact .inr hm.phase_self
    · exact ha.update_of_ne hid hm.phase
  | cancelled hc => exact ha.cancelled hc.1
  | granted hs => exact ha.congr (congrFun hs.phase _)
  | @stopped s _ _ hc => exact Awaits.cancelled (h := { h with state := s }) ha hc
  | failed hs => exact ha.congr (congrFun hs.phase _)

lemma Inv.not_spent_of_calls (hinv : Inv w h) (hc : Calls w h op c) :
    ∀ s, h.phase c.sessionId = some s → ¬ s.Spent := by
  intro s hs
  cases hc with
  | direct _ _ _ hs' hfr =>
    cases hs.symm.trans hs'
    exact SessionState.not_spent_of_fresh hfr
  | approved hp hpar hs' hcan =>
    cases hs.symm.trans hs'
    -- its session waits, or is cancelled and refuses to execute
    obtain ⟨-, ha | ha⟩ := hinv.awaits_of_parse hp hpar
    · cases hs.symm.trans ha
      decide
    · cases hs.symm.trans ha
      simp [SessionState.canTransitionTo] at hcan

lemma Inv.session_ne_of_issues (hinv : Inv w h) {id' : Uuid} {p' : PendingApproval}
    {actor : RequestActor} (hp : h.pendingApprovals.lookup id = some p)
    (hiss : Issues w h op h' id' p' sessionId actor) :
    p.approval.sessionId ≠ p'.approval.sessionId := by
  obtain ⟨sessionId', hses, ha⟩ := hinv.awaits id p hp
  obtain ⟨s, hs, hfr⟩ := hiss.fresh
  rw [hses, hiss.session]
  exact fun heq => ha.ne_of_fresh hs hfr (showUuid_injective w heq)

/-- **Step lemma** of the invariant. -/
theorem Inv.step (hinv : Inv w h) (he : Effect w h op h')
    (hinj : Set.InjOn w.uuid (Set.Iio h'.cursor.uuids)) : Inv w h' := by
  obtain ⟨newId, hpend⟩ := he.pending
  -- spent sessions stay spent
  have hspe : ∀ id, (∃ s, h.phase id = some s ∧ s.Spent) →
      ∃ s, h'.phase id = some s ∧ s.Spent := by
    rintro id ⟨s, hs, hspe⟩
    obtain ⟨s', hs', hsta, -⟩ := he.forward hinj hinv.session_drawn id s hs
    rw [SessionState.stage_of_spent hspe] at hsta
    exact ⟨s', hs', SessionState.spent_of_stage hsta⟩
  refine ⟨?_, ?_, ?_, ?_, ?_, ?_, ?_⟩
  · intro id s hs
    rcases he.session_drawn hs with ⟨s₀, hs₀⟩ | hd
    · exact (hinv.session_drawn id s₀ hs₀).mono he.uuids
    · exact hd
  · intro id p hp
    rcases hpend id p hp with hold | ⟨-, _, _, hiss⟩
    · exact (hinv.approval_drawn id p hold).mono he.uuids
    · obtain ⟨n, -, hn, hid⟩ := hiss.drawn
      exact ⟨n, hn, hid⟩
  · intro id p hp
    rcases hpend id p hp with hold | ⟨-, sessionId, _, hiss⟩
    · obtain ⟨sessionId, hses, ha⟩ := hinv.awaits id p hold
      exact ⟨sessionId, hses, hinv.awaits_step he hinj hold hp hses ha⟩
    · exact ⟨sessionId, hiss.session, .inl hiss.waits⟩
  · -- one approval per session: a session that gets a new one was fresh
    intro id id' p p' hp hp' heq
    rcases hpend id p hp with hold | ⟨hnew, _, _, hiss⟩
    · rcases hpend id' p' hp' with hold' | ⟨-, _, _, hiss'⟩
      · exact hinv.unique id id' p p' hold hold' heq
      · exact absurd heq (hinv.session_ne_of_issues hold hiss')
    · rcases hpend id' p' hp' with hold' | ⟨hnew', -⟩
      · exact absurd heq.symm (hinv.session_ne_of_issues hold' hiss)
      · exact hnew.trans hnew'.symm
  · intro id p hp
    rcases hpend id p hp with hold | ⟨-, _, _, hiss⟩
    · exact hinv.confirm id p hold
    · exact hiss.confirm
  · intro c hc
    rcases he.calls with hcal | ⟨c', hcal, -, hspe'⟩
    · exact hspe _ (hinv.spent c (hcal ▸ hc))
    · rw [hcal, mem_append, mem_singleton] at hc
      rcases hc with hc | rfl
      · exact hspe _ (hinv.spent c hc)
      · exact hspe'
  · rcases he.calls with hcal | ⟨c, hcal, hcall, -⟩
    · exact hcal ▸ hinv.once
    · rw [hcal, map_append, map_singleton, nodup_append]
      refine ⟨hinv.once, nodup_singleton _, fun id hid id' hid' => ?_⟩
      -- the sessions called before are spent, the new one was not
      obtain ⟨c', hc', rfl⟩ := mem_map.mp hid
      obtain ⟨s, hs, hspe⟩ := hinv.spent c' hc'
      rw [mem_singleton.mp hid']
      intro heq
      exact hinv.not_spent_of_calls hcall s (heq ▸ hs) hspe

lemma Effect.not_pending (he : Effect w h op h')
    (hinj : Set.InjOn w.uuid (Set.Iio h'.cursor.uuids)) (hd : Drawn w h id)
    (hnone : h.pendingApprovals.lookup id = none) : h'.pendingApprovals.lookup id = none := by
  obtain ⟨newId, hpend⟩ := he.pending
  rw [Option.eq_none_iff_forall_ne_some]
  intro p hp
  rcases hpend id p hp with hold | ⟨-, _, _, hiss⟩
  · rw [hnone] at hold
    cases hold
  · obtain ⟨n, hn, hn', hid⟩ := hiss.drawn
    exact hd.ne hinj hn hn' hid

lemma Effect.resolved (he : Effect w h op h') (hop : op.resolves = some id) :
    h'.pendingApprovals.lookup id = none := by
  have gone : ∀ approvalId, some approvalId = some id →
      h'.pendingApprovals = (h.drop approvalId).pendingApprovals →
      h'.pendingApprovals.lookup id = none := by
    intro approvalId hid hpend
    rw [hpend, drop, Option.some.inj hid, AList.lookup_erase]
  cases he with
  | same href _ => cases op <;> cases hop <;> cases href
  | approved _ _ _ _ hr => exact gone _ hop hr.pending
  | dropped hop' hs => exact gone _ (hop'.symm.trans hop) hs.pending
  | denied _ _ _ hm => exact gone _ hop hm.pending
  | _ => cases hop

variable (w)

lemma run_append (h : Host) (ops ops' : List HostOp) :
    h.run w (ops ++ ops') = (h.run w ops).run w ops' :=
  foldl_append

lemma uuids_run (h : Host) (ops : List HostOp) :
    h.cursor.uuids ≤ (h.run w ops).cursor.uuids := by
  have hsts : Run.Steps (Host.step w) (fun _ _ => True) h ops := fun _ _ _ _ => trivial
  refine hsts.invariant (I := fun x => h.cursor.uuids ≤ x.cursor.uuids) ?_ le_rfl
  intro x op _ hx
  exact hx.trans (effect_step w x op).uuids

def DrawsDistinct (h : Host) (op : HostOp) : Prop :=
  Set.InjOn w.uuid (Set.Iio (h.step w op).cursor.uuids)

lemma steps_drawsDistinct {ops : List HostOp}
    (hinj : Set.InjOn w.uuid (Set.Iio (h.run w ops).cursor.uuids)) :
    Run.Steps (Host.step w) (DrawsDistinct w) h ops := by
  intro pre op post heq
  -- the cursor only grows
  have hle : ((h.run w pre).step w op).cursor.uuids ≤ (h.run w ops).cursor.uuids := by
    rw [heq, run_append]
    exact uuids_run w ((h.run w pre).step w op) post
  exact hinj.mono fun n hn => lt_of_lt_of_le hn hle

/-- **Run lemma** of the invariant. -/
theorem Inv.run (hinv : Inv w h) (ops : List HostOp)
    (hinj : Set.InjOn w.uuid (Set.Iio (h.run w ops).cursor.uuids)) : Inv w (h.run w ops) := by
  refine (steps_drawsDistinct w hinj).invariant (I := Inv w) ?_ hinv
  intro x op hdist hx
  exact hx.step (effect_step w x op) hdist

lemma forward_run (hinv : Inv w h) (ops : List HostOp)
    (hinj : Set.InjOn w.uuid (Set.Iio (h.run w ops).cursor.uuids)) (id : Uuid) :
    Forward (h.phase id) ((h.run w ops).phase id) := by
  refine ((steps_drawsDistinct w hinj).invariant
    (I := fun x => Inv w x ∧ Forward (h.phase id) (x.phase id)) ?_ ⟨hinv, Forward.refl _⟩).2
  rintro x op hdist ⟨hx, hfor⟩
  have he := effect_step w x op
  exact ⟨hx.step he hdist, hfor.trans (he.forward hdist hx.session_drawn id)⟩

lemma not_pending_run (hd : Drawn w h id)
    (hnone : h.pendingApprovals.lookup id = none) (ops : List HostOp)
    (hinj : Set.InjOn w.uuid (Set.Iio (h.run w ops).cursor.uuids)) :
    (h.run w ops).pendingApprovals.lookup id = none := by
  refine ((steps_drawsDistinct w hinj).invariant
    (I := fun x => Drawn w x id ∧ x.pendingApprovals.lookup id = none) ?_ ⟨hd, hnone⟩).2
  rintro x op hdist ⟨hx, hxno⟩
  have he := effect_step w x op
  exact ⟨hx.mono he.uuids, he.not_pending hdist hx hxno⟩

lemma issues_of_pending (hnone : h.pendingApprovals.lookup id = none)
    (ops : List HostOp) (hp : (h.run w ops).pendingApprovals.lookup id = some p) :
    ∃ pre op post sessionId actor, ops = pre ++ op :: post ∧
      Issues w (h.run w pre) op (h.run w (pre ++ [op])) id p sessionId actor := by
  -- the last operation issued the approval, or found it pending
  induction ops using reverseRecOn with
  | nil =>
    have hsome : h.pendingApprovals.lookup id = some p := hp
    rw [hnone] at hsome
    cases hsome
  | append_singleton ops op ih =>
    rw [run_append] at hp
    obtain ⟨newId, hpend⟩ := (effect_step w (h.run w ops) op).pending
    rcases hpend id p hp with hold | ⟨-, sessionId, actor, hiss⟩
    · obtain ⟨pre, op', post, sessionId, actor, hops, hiss⟩ := ih hold
      exact ⟨pre, op', post ++ [op], sessionId, actor, by simp [hops], hiss⟩
    · exact ⟨ops, op, [], sessionId, actor, rfl, by rw [run_append]; exact hiss⟩

lemma inv_start (caps : List String) (controlPort surfacePort : UInt16) :
    Inv w (start w caps controlPort surfacePort) := by
  refine ⟨fun _ _ h => ?_, fun _ _ h => ?_, fun _ _ h => ?_, fun _ _ _ _ h => ?_, fun _ _ h => ?_,
    fun _ h => ?_, nodup_nil⟩ <;> cases h

variable {w}

def newCalls (w : World) (h : Host) (op : HostOp) : List ExecutorCall :=
  (h.step w op).calls.drop h.calls.length

lemma calls_step (h : Host) (op : HostOp) :
    (h.step w op).calls = h.calls ++ newCalls w h op := by
  rw [newCalls]
  rcases (effect_step w h op).calls with hcal | ⟨c, hcal, -⟩
  · rw [hcal, drop_length, append_nil]
  · rw [hcal, drop_left]

lemma calls_of_mem_newCalls (hc : c ∈ newCalls w h op) :
    Calls w h op c := by
  rw [newCalls] at hc
  rcases (effect_step w h op).calls with hcal | ⟨c', hcal, hcall, -⟩
  · rw [hcal, drop_length] at hc
    cases hc
  · rw [hcal, drop_left, mem_singleton] at hc
    exact hc ▸ hcall

end Host

end Aether.Runtime
