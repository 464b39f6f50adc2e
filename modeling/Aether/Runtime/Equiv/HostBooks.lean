import Aether.Runtime.Equiv.HostLifecycle
import Aether.Runtime.Equiv.HostWrites

/-!
# The books of the approvals

There is room for one more approval whenever an action is parked (`Inv.pending_lt`), so none is
evicted.  The text of a UUID has 36 characters, so that the records of an approval do not panic.
-/

namespace Aether.Runtime

open Aether.Core Command List AList
open AssocList (length_keys length_keys_insert_le length_keys_insert_of_lookup)

namespace Host

variable (w : World)

def Names (h : Host) (approvalId sessionId : Uuid) : Prop :=
  ∃ p, h.pendingApprovals.lookup approvalId = some p ∧
    p.approval.sessionId = w.showUuid sessionId

/-- A session waits exactly if one pending approval names it. -/
def Booked (h : Host) : Prop :=
  ∀ sessionId, h.phase sessionId = some .waitingApproval ↔
    ∃! approvalId, Names w h approvalId sessionId

section

variable {w} {h : Host}

variable {sessionId : Uuid}

lemma Inv.names_unique (hinv : Inv w h) {a a' : Uuid} (hn : Names w h a sessionId)
    (hn' : Names w h a' sessionId) : a = a' := by
  obtain ⟨p, hp, hs⟩ := hn
  obtain ⟨p', hp', hs'⟩ := hn'
  exact hinv.unique a a' p p' hp hp' (hs.trans hs'.symm)

lemma Names.session_unique {approvalId sessionId' : Uuid} (hn : Names w h approvalId sessionId)
    (hn' : Names w h approvalId sessionId') : sessionId = sessionId' := by
  obtain ⟨p, hp, hs⟩ := hn
  obtain ⟨p', hp', hs'⟩ := hn'
  cases hp.symm.trans hp'
  exact showUuid_injective w (hs.symm.trans hs')

lemma Inv.booked_iff (hinv : Inv w h) :
    Booked w h ↔ ∀ sessionId, h.phase sessionId = some .waitingApproval ↔
      ∃ approvalId, Names w h approvalId sessionId := by
  refine forall_congr' fun sessionId => iff_congr Iff.rfl ⟨ExistsUnique.exists, ?_⟩
  rintro ⟨a, ha⟩
  exact ⟨a, ha, fun a' ha' => hinv.names_unique ha' ha⟩

end

structure Sound (h : Host) : Prop where
  limits : h.maxSessions ≤ h.maxPendingApprovals
  count : h.sessions.entries.length ≤ h.maxSessions
  flag : ∀ id rec, h.sessions.lookup id = some rec → rec.session.cancelled →
    rec.session.state = .cancelled

lemma stable_sound : Stable Sound where
  congr h h' hh hs := by
    obtain ⟨hses, hmax, hlim, -⟩ : _ ∧ _ ∧ _ ∧ _ := by simpa only [kept, Prod.mk.injEq] using hh
    refine ⟨?_, ?_, ?_⟩
    · rw [hmax, hlim]
      exact hs.limits
    · rw [hses, hmax]
      exact hs.count
    · rw [hses]
      exact hs.flag
  room h hs := ⟨hs.limits, hs.count, hs.flag⟩
  entry h e _ hs := ⟨hs.limits, hs.count, hs.flag⟩
  session h id rec rec' hrec hstep hs := by
    refine ⟨hs.limits, ?_, fun id' rec'' hrec'' hflag => ?_⟩
    · show (h.sessions.insert id rec').entries.length ≤ h.maxSessions
      rw [← length_keys, length_keys_insert_of_lookup hrec, length_keys]
      exact hs.count
    · rw [AssocList.lookup_insert] at hrec''
      split_ifs at hrec''
      · cases hrec''
        cases hstep with
        | same hst hcanc =>
          rw [hst]
          exact hs.flag id rec hrec (hcanc ▸ hflag)
        | moved hcan hcanc =>
          -- a session with the flag is cancelled and does not move
          rw [hs.flag id rec hrec (hcanc ▸ hflag)] at hcan
          cases hcan
        | cancelled hst => exact hst
      · exact hs.flag id' rec'' hrec'' hflag
  added h id rec hroom hrec hs := by
    refine ⟨hs.limits, ?_, fun id' rec' hrec' hflag => ?_⟩
    · show (h.sessions.insert id rec).entries.length ≤ h.maxSessions
      rw [← length_keys] at hroom ⊢
      exact length_keys_insert_le.trans hroom
    · rw [AssocList.lookup_insert] at hrec'
      split_ifs at hrec'
      · cases hrec'
        rw [hrec] at hflag
        cases hflag
      · exact hs.flag id' rec' hrec' hflag

lemma Sound.step {h : Host} (hs : Sound h) (op : HostOp) : Sound (h.step w op) :=
  stable_sound.step_of_entry w (fun _ _ hs => ⟨hs.limits, hs.count, hs.flag⟩) hs op

lemma Inv.pending_lt {w : World} {h : Host} (hinv : Inv w h) (hs : Sound h) {sessionId : Uuid}
    {s : SessionState} (hph : h.phase sessionId = some s) (hfr : s.Fresh) :
    h.pendingApprovals.entries.length < h.maxPendingApprovals := by
  set names := h.pendingApprovals.entries.map fun e => e.2.approval.sessionId with hnam
  have hlook : ∀ e ∈ h.pendingApprovals.entries, h.pendingApprovals.lookup e.1 = some e.2 :=
    fun e he => AList.mem_lookup_iff.mpr he
  have hnd : names.Nodup := by
    refine List.Nodup.map_on (fun e he e' he' heq => ?_) h.pendingApprovals.nodupKeys.nodup
    have hid : e.1 = e'.1 := hinv.unique _ _ _ _ (hlook e he) (hlook e' he') heq
    have hval := hlook e' he'
    rw [← hid, hlook e he, Option.some.injEq] at hval
    exact Sigma.ext hid (heq_of_eq hval)
  have hnew : w.showUuid sessionId ∉ names := by
    intro hmem
    obtain ⟨e, he, heq⟩ := mem_map.mp hmem
    obtain ⟨sessionId', hses, ha⟩ := hinv.awaits e.1 e.2 (hlook e he)
    exact ha.ne_of_fresh hph hfr (showUuid_injective w (hses.symm.trans heq))
  -- all these sessions are in the table
  have hkey : ∀ id s, h.phase id = some s → id ∈ h.sessions.keys := by
    intro id s hs
    obtain ⟨rec, hrec, -⟩ := Option.map_eq_some_iff.mp hs
    rw [← AList.mem_keys, ← AList.lookup_isSome, hrec]
    rfl
  have hsub : w.showUuid sessionId :: names ⊆ h.sessions.keys.map w.showUuid := by
    intro name hname
    rcases mem_cons.mp hname with rfl | hmem
    · exact mem_map_of_mem (hkey sessionId s hph)
    · obtain ⟨e, he, rfl⟩ := mem_map.mp hmem
      obtain ⟨sessionId', hses, ha⟩ := hinv.awaits e.1 e.2 (hlook e he)
      rw [hses]
      exact mem_map_of_mem (ha.elim (hkey _ _) (hkey _ _))
  have hle := (subperm_of_subset (nodup_cons.mpr ⟨hnew, hnd⟩) hsub).length_le
  rw [length_cons, hnam, length_map, length_map, length_keys] at hle
  have hcnt := hs.count
  have hlim := hs.limits
  omega

section Changes

variable {w} {h h' : Host}

structure Undisturbed (h h' : Host) : Prop where
  pending : ∀ id, h'.pendingApprovals.lookup id = h.pendingApprovals.lookup id
  waits : ∀ id, h'.phase id = some .waitingApproval ↔ h.phase id = some .waitingApproval

lemma Undisturbed.booked_iff (hu : Undisturbed h h') : Booked w h' ↔ Booked w h := by
  refine forall_congr' fun sessionId => ?_
  simp only [Names, hu.pending, hu.waits]

lemma Same.undisturbed (hs : Same h h') : Undisturbed h h' :=
  ⟨fun _ => by rw [hs.pending], fun _ => by rw [hs.phase]⟩

variable {sessionId approvalId : Uuid} {s : SessionState} {action : Action}

lemma undisturbed_of_update (hpend : h'.pendingApprovals = h.pendingApprovals)
    (hph : h'.phase = Function.update h.phase sessionId (some s))
    (hs : h.phase sessionId ≠ some .waitingApproval) (hs' : s ≠ .waitingApproval) :
    Undisturbed h h' := by
  refine ⟨fun _ => by rw [hpend], fun id => ?_⟩
  by_cases hid : id = sessionId
  · subst hid
    rw [hph, Function.update_self, Option.some.injEq]
    exact iff_of_false hs' hs
  · rw [hph, Function.update_of_ne hid]

structure Closed (approvalId sessionId : Uuid) (h h' : Host) : Prop where
  pending : h'.pendingApprovals = h.pendingApprovals.erase approvalId
  phase : ∃ s, s ≠ .waitingApproval ∧ h'.phase = Function.update h.phase sessionId (some s)

lemma names_erase_iff {id : Uuid}
    (hpend : h'.pendingApprovals = h.pendingApprovals.erase approvalId) :
    Names w h' id sessionId ↔ id ≠ approvalId ∧ Names w h id sessionId := by
  unfold Names
  rw [hpend, AssocList.lookup_erase]
  split_ifs with hid <;> simp [hid]

lemma Closed.booked (hc : Closed approvalId sessionId h h') (hinv : Inv w h) (hinv' : Inv w h')
    (hn : Names w h approvalId sessionId) (hb : Booked w h) : Booked w h' := by
  rw [hinv.booked_iff] at hb
  rw [hinv'.booked_iff]
  obtain ⟨s, hs, hph⟩ := hc.phase
  intro sessionId'
  by_cases hid : sessionId' = sessionId
  · subst hid
    rw [hph, Function.update_self, Option.some.injEq]
    refine iff_of_false hs ?_
    rintro ⟨a, ha⟩
    obtain ⟨hne, hold⟩ := (names_erase_iff hc.pending).mp ha
    exact hne (hinv.names_unique hold hn)
  · rw [hph, Function.update_of_ne hid, hb sessionId']
    refine exists_congr fun a => ?_
    rw [names_erase_iff hc.pending, iff_and_self]
    -- the approval that is gone names the other session
    rintro ha rfl
    exact hid (ha.session_unique hn)

structure Filed (w : World) (sessionId : Uuid) (action : Action) (h h' : Host) : Prop where
  phase : h'.phase = Function.update h.phase sessionId (some .waitingApproval)
  pending : ∃ id p, Issued w sessionId action h h' id p ∧
    h'.pendingApprovals = h.pendingApprovals.insert id p

lemma Filed.booked (hf : Filed w sessionId action h h') (hinv : Inv w h) (hinv' : Inv w h')
    (hinj : Set.InjOn w.uuid (Set.Iio h'.cursor.uuids)) (hb : Booked w h) : Booked w h' := by
  rw [hinv.booked_iff] at hb
  rw [hinv'.booked_iff]
  obtain ⟨id, p, hiss, hpend⟩ := hf.pending
  obtain ⟨n, hn, hn', rfl⟩ := hiss.drawn
  have hnew : Names w h' (w.uuid n) sessionId :=
    ⟨p, by rw [hpend, lookup_insert], hiss.sessionId⟩
  -- the older approvals have other ids
  have hold : ∀ a sessionId', Names w h a sessionId' → Names w h' a sessionId' := by
    rintro a sessionId' ⟨q, hq, hses⟩
    have hne : a ≠ w.uuid n := (hinv.approval_drawn a q hq).ne hinj hn hn'
    exact ⟨q, by rw [hpend, lookup_insert_ne hne, hq], hses⟩
  intro sessionId'
  by_cases hid : sessionId' = sessionId
  · subst hid
    rw [hf.phase, Function.update_self]
    exact iff_of_true rfl ⟨_, hnew⟩
  · rw [hf.phase, Function.update_of_ne hid, hb sessionId']
    refine exists_congr fun a => ⟨hold a sessionId', ?_⟩
    rintro ⟨q, hq, hses⟩
    by_cases ha : a = w.uuid n
    · subst ha
      exact absurd (Names.session_unique ⟨q, hq, hses⟩ hnew) hid
    · rw [hpend, lookup_insert_ne ha] at hq
      exact ⟨q, hq, hses⟩

lemma Moved.trans_filed {h₁ h₂ h₃ : Host} (hm : Moved sessionId s h₁ h₂)
    (hf : Filed w sessionId action h₂ h₃) : Filed w sessionId action h₁ h₃ := by
  obtain ⟨id, p, ⟨⟨n, hn, hn', hid⟩, hact, happ, hses⟩, hpend⟩ := hf.pending
  refine ⟨by rw [hf.phase, hm.phase, Function.update_idem], id, p, ?_, by rw [hpend, hm.pending]⟩
  exact ⟨⟨n, hm.uuids.trans hn, hn', hid⟩, hact, happ, hses⟩

end Changes

lemma stable_limit (n : ℕ) : Stable fun h => h.maxPendingApprovals = n where
  congr _ _ hh hn := (congrArg (fun k => k.2.2.1) hh).trans hn
  room _ hn := hn
  entry _ _ _ hn := hn
  session _ _ _ _ _ _ hn := hn
  added _ _ _ _ _ hn := hn

lemma length_actionName_le (action : Action) : action.actionName.length ≤ 22 := by
  unfold Action.actionName
  cases action.variant <;> simp only [ActionVariant.actionName] <;> decide

lemma recordable_approval (hshow : ∀ u, (w.showUuid u).length = 36) (action : Action)
    (id : Uuid) : Recordable s!"action={action.actionName} approval_id={w.showUuid id}" := by
  have hname := length_actionName_le action
  have htext : ("action=" ++ action.actionName ++ " approval_id=" ++ w.showUuid id).length =
      7 + action.actionName.length + 13 + 36 := by
    rw [String.length_append, String.length_append, String.length_append, hshow]
    rfl
  refine recordable_of_length (htext.trans_le ?_)
  omega

def drawn (h : Host) : Host :=
  { h with
    cursor := { h.cursor with uuids := h.cursor.uuids + 1, times := h.cursor.times + 1 } }

section Park

variable {w} {α : Type} {h : Host} {sessionId : Uuid} {action : Action}
  {Q : Outcome AgentError α → Host → Prop}

lemma holds_newApproval_bind {k : ApprovalRequest → HostM α}
    (hk : ∀ approval, approval.id = w.uuid h.cursor.uuids →
      approval.sessionId = w.showUuid sessionId → Holds (k approval) h.drawn Q) :
    Holds (newApproval w sessionId action >>= k) h Q := hk _ rfl rfl

lemma holds_newRequest_bind {actor : RequestActor} {k : UserRequest → HostM α}
    (hk : ∀ request, Holds (k request) h.drawn Q) :
    Holds (newRequest w sessionId actor action >>= k) h Q := hk _

lemma holds_makeRoom_bind {k : Unit → HostM α}
    (hroom : h.pendingApprovals.entries.length < h.maxPendingApprovals)
    (hk : Holds (k ()) h Q) : Holds (makeRoom w >>= k) h Q := by
  have hrun : makeRoom w h = (.ok (), h) := by
    rw [makeRoom, peek_bind_apply, peek_bind_apply, if_neg (Nat.not_le.mpr hroom)]
    rfl
  rw [Holds, bind_apply, hrun]
  exact hk

lemma parkAction_filed (hshow : ∀ u, (w.showUuid u).length = 36)
    (hroom : h.pendingApprovals.entries.length < h.maxPendingApprovals) (actor : RequestActor) :
    Holds (parkAction w sessionId actor action) h fun _ h' =>
      Same h h' ∨ Filed w sessionId action h h' := by
  have hlim := (stable_limit h.maxPendingApprovals).advanceSession w sessionId .waitingApproval
  refine ((advanceSession_spec w h sessionId .waitingApproval).and (hlim.holds rfl)).bind ?_
    (fun _ _ hh' => .inl hh'.1) fun _ hh' => .inl hh'.1
  rintro ⟨⟩ h₁ ⟨⟨-, -, -, hmv⟩, hlim⟩
  refine holds_newApproval_bind fun approval hid hses => ?_
  refine holds_recordAudit_bind w (recordable_approval w hshow action approval.id) fun detail => ?_
  refine holds_update_bind (holds_newRequest_bind fun request => holds_makeRoom_bind ?_ ?_)
  · show h₁.pendingApprovals.entries.length < h₁.maxPendingApprovals
    rw [hmv.pending, hlim]
    exact hroom
  · refine .inr ⟨hmv.phase, approval.id, ⟨action, request, approval⟩, ?_, ?_⟩
    · refine ⟨⟨h₁.cursor.uuids, hmv.uuids, ?_, hid⟩, rfl, rfl, hses⟩
      show h₁.cursor.uuids < h₁.cursor.uuids + 1 + 1
      omega
    · show h₁.pendingApprovals.insert approval.id _ = _
      rw [hmv.pending]

variable {s : SessionState}

lemma ne_waiting_of_fresh (hs : h.phase sessionId = some s) (hfr : s.Fresh) :
    h.phase sessionId ≠ some .waitingApproval := by
  rw [hs]
  rintro ⟨⟩
  cases hfr

lemma Prepared.undisturbed {h' : Host} (hp : Prepared sessionId s h h')
    (hs : s ≠ .waitingApproval) : Undisturbed h h' := by
  obtain ⟨⟨s₀, hs₀, hfr⟩, hmv⟩ := hp
  exact undisturbed_of_update hmv.pending hmv.phase (ne_waiting_of_fresh hs₀ hfr) hs

lemma Ran.undisturbed {h' : Host} (hr : Ran sessionId action h h')
    (hs : h.phase sessionId ≠ some .waitingApproval) : Undisturbed h h' := by
  obtain ⟨s, hspe, hph⟩ := hr.phase
  refine undisturbed_of_update hr.pending hph hs ?_
  rintro rfl
  cases hspe

lemma submitAction_filed (hshow : ∀ u, (w.showUuid u).length = 36)
    (hroom : ∀ s, h.phase sessionId = some s → s.Fresh →
      h.pendingApprovals.entries.length < h.maxPendingApprovals) (actor : RequestActor) :
    Holds (submitAction w sessionId actor action) h fun _ h' =>
      Undisturbed h h' ∨ Filed w sessionId action h h' := by
  have refused : ∀ x, x = h → Undisturbed h x := by
    rintro x rfl
    exact (Same.refl x).undisturbed
  refine (ensureAccepting_spec h).bind ?_ (fun _ x hx => .inl (refused x hx.1))
    fun x hx => .inl (refused x hx.1)
  rintro ⟨⟩ h' ⟨rfl, -⟩
  have stopped : ∀ x, (Same h' x ∨ ∃ s, s.Fresh ∧ Prepared sessionId s h' x) →
      Undisturbed h' x ∨ Filed w sessionId action h' x := by
    rintro x (hsame | ⟨s, hs, hp⟩)
    · exact .inl hsame.undisturbed
    · refine .inl (hp.undisturbed ?_)
      rintro rfl
      cases hs
  have hlim := stable_limit h'.maxPendingApprovals
  have hbeg := (beginAction_spec w h' sessionId).and ((hlim.beginAction w sessionId).holds rfl)
  refine hbeg.bind ?_ (fun _ x hx => stopped x hx.1) fun x hx => stopped x hx.1
  rintro ⟨⟩ h₁ hp
  -- from here on the session is in `Planning`, and the limit is what it was
  have planning : ∀ (o : Outcome AgentError RequestOutcome) x, Prepared sessionId .planning h' x ∧
      x.maxPendingApprovals = h'.maxPendingApprovals →
      Undisturbed h' x ∨ Filed w sessionId action h' x := fun _ x hx =>
    .inl (hx.1.undisturbed (by decide))
  refine holds_peek_bind ?_
  refine ((Prepared.quiet (quiet_recordAudit w _ _ _ _)).and
    (hlim.recordAudit w _ _ _ _ (by nofun))).holds_bind hp planning fun _ h₂ hp => ?_
  refine ((Prepared.quiet (quiet_recordAudit w _ _ _ _)).and
    (hlim.recordAudit w _ _ _ _ (by decide))).holds_bind hp planning fun _ h₃ hp => ?_
  obtain ⟨hp, hmax⟩ := hp
  split_ifs
  · exact .inl ((prepared_rejectAction w _ h₃ hp).undisturbed (by decide))
  · obtain ⟨⟨s₀, hs₀, hfr⟩, hmv⟩ := hp
    have hroom₃ : h₃.pendingApprovals.entries.length < h₃.maxPendingApprovals := by
      rw [hmv.pending, hmax]
      exact hroom s₀ hs₀ hfr
    refine (parkAction_filed hshow hroom₃ actor).mono fun o h₄ hh => ?_
    rcases hh with hsame | hfil
    · have hp₄ : Prepared sessionId .planning h' h₄ := ⟨⟨s₀, hs₀, hfr⟩, hmv.same hsame⟩
      exact .inl (hp₄.undisturbed (by decide))
    · exact .inr (hmv.trans_filed hfil)
  · refine holds_newRequest_bind fun request => ?_
    have hp₄ : Prepared sessionId .planning h' h₃.drawn :=
      Prepared.quiet (quiet_newRequest w sessionId actor action) h₃ hp
    refine (executeValidatedAction_spec w h₃.drawn sessionId action request).mono fun o h₅ hh => ?_
    rcases hh with hsame | ⟨-, hran⟩
    · have hp₅ : Prepared sessionId .planning h' h₅ := ⟨hp₄.1, hp₄.2.same hsame⟩
      exact .inl (hp₅.undisturbed (by decide))
    · obtain ⟨⟨s₀, hs₀, hfr⟩, hmv⟩ := hp₄
      exact .inl ((hmv.trans_ran hran).undisturbed (ne_waiting_of_fresh hs₀ hfr))

end Park

section Resolve

variable {w} {h : Host} {approvalId sessionId : Uuid} {p : PendingApproval}
  {rec : HostSessionRecord}

lemma advanceSession_moved {next : SessionState}
    (hrec : h.sessions.lookup sessionId = some rec) (hflag : rec.session.cancelled = false)
    (hcan : rec.session.state.canTransitionTo next) :
    Holds (advanceSession w sessionId next) h fun o h' =>
      o = .ok () ∧ Moved sessionId next h h' := by
  have hterm : rec.session.state.isTerminal = false := by
    simpa using SessionState.not_isTerminal_of_canTransitionTo hcan
  have hok : (advanceSession w sessionId next h).1 = .ok () := by
    rw [advanceSession, bind_apply_of_eq (getSession_of_some hrec)]
    simp only [hterm, hflag, hcan, Bool.false_eq_true, Bool.not_true, if_false]
    split_ifs
    · rfl
    · rw [transitionSession, AgentSession.transition, hterm, hcan]
      rfl
  refine ⟨hok, ?_⟩
  have hspec := advanceSession_spec w h sessionId next
  rw [Holds, hok] at hspec
  obtain ⟨-, -, -, hmv⟩ := hspec
  exact hmv

/-- The session waits for an approval and does not have the flag of a cancelled one. -/
def Waits (h : Host) (sessionId : Uuid) : Prop :=
  ∃ rec, h.sessions.lookup sessionId = some rec ∧ rec.session.state = .waitingApproval ∧
    rec.session.cancelled = false

lemma Same.execute_ran {h₀ : Host} (hsame : Same h₀ h) (hw : Waits h sessionId)
    (action : Action) (request : UserRequest) :
    Holds (executeValidatedAction w sessionId action request) h fun _ h' =>
      Ran sessionId action h₀ h' := by
  obtain ⟨rec, hrec, hwt, hflag⟩ := hw
  have hcan : rec.session.state.canTransitionTo .executing := by
    rw [hwt]
    rfl
  have hph : h₀.phase sessionId = some .waitingApproval := by
    rw [← hsame.phase]
    show (h.sessions.lookup sessionId).map _ = _
    rw [hrec, Option.map_some, hwt]
  obtain ⟨hok, -⟩ := advanceSession_moved (w := w) hrec hflag hcan
  exact (executeValidatedAction_of_advanced w action request hok).mono fun _ _ hran =>
    (hsame.moved_self hph).trans_ran hran

lemma approveRequest_ran (hshow : ∀ u, (w.showUuid u).length = 36)
    (hp : h.pendingApprovals.lookup approvalId = some p)
    (hses : p.approval.sessionId = w.showUuid sessionId) (hw : Waits h sessionId) :
    Holds (approveRequest w approvalId) h fun _ h' =>
      Ran sessionId p.action (h.drop approvalId) h' := by
  have hrun : approveRequest w approvalId h =
      (recordAudit w (w.showUuid sessionId) .approvalGranted
          s!"action={p.action.actionName} approval_id={w.showUuid approvalId}" true >>= fun _ =>
        publish (.approvalGranted (w.showUuid sessionId) (w.showUuid p.action.id)) >>= fun _ =>
        executeValidatedAction w sessionId p.action p.request >>= fun outcome =>
        pure (some outcome)) (h.drop approvalId) := by
    rw [approveRequest, removePending_bind_apply, hp]
    simp only [hses, w.parse_show]
  rw [Holds, hrun]
  refine holds_recordAudit_bind (Q := fun _ h' => Ran sessionId p.action (h.drop approvalId) h') w
    (recordable_approval w hshow p.action approvalId) fun detail => holds_update_bind ?_
  refine (Same.execute_ran ?_ ?_ p.action p.request).bind (fun _ _ hx => hx)
    (fun _ _ hx => hx) fun _ hx => hx
  · exact ⟨⟨rfl, rfl, le_rfl⟩, rfl, rfl, rfl⟩
  · exact hw

lemma finishDenial_moved (hw : Waits h sessionId) (reason : String) :
    Holds (finishDenial w sessionId p reason) h fun _ h' => Moved sessionId .cancelled h h' := by
  obtain ⟨rec, hrec, hwt, hflag⟩ := hw
  have hcan : rec.session.state.canTransitionTo .cancelled := by
    rw [hwt]
    rfl
  have hmv : ∀ h₁, Same h h₁ → h₁.sessions.lookup sessionId = some rec →
      Holds (attempt (advanceSession w sessionId .cancelled)) h₁ fun _ h' =>
        Moved sessionId .cancelled h h' := by
    intro h₁ hsame hrec₁
    refine Holds.attempt ((advanceSession_moved hrec₁ hflag hcan).mono fun o h' ho => ?_)
    obtain ⟨rfl, hmv⟩ := ho
    exact hsame.moved hmv
  have hrest : Preserves (Moved sessionId .cancelled h)
      (recordSessionError sessionId >>= fun _ => (pure true : HostM Bool)) :=
    ((quiet_recordSessionError sessionId).bind fun _ => quiet_pure true).preserves
      fun _ _ hsame hx => hx.same hsame
  refine holds_update_bind ?_
  exact Holds.bind (Q := fun _ h' => Moved sessionId .cancelled h h')
    (hmv _ ⟨⟨rfl, rfl, le_rfl⟩, rfl, rfl, rfl⟩ hrec) (fun _ x hx => hrest x hx)
    (fun _ _ hx => hx) fun _ hx => hx

lemma denyRequest_moved {reason : String}
    (hp : h.pendingApprovals.lookup approvalId = some p)
    (hses : p.approval.sessionId = w.showUuid sessionId) (hw : Waits h sessionId)
    (hd : Recordable (denialText w approvalId p reason)) :
    Holds (denyRequest w approvalId reason) h fun _ h' =>
      Moved sessionId .cancelled (h.drop approvalId) h' := by
  rw [Holds, denyRequest_of_pending hp hses]
  refine holds_recordAudit_bind
    (Q := fun _ h' => Moved sessionId .cancelled (h.drop approvalId) h') w hd fun detail => ?_
  refine (finishDenial_moved ?_ reason).mono fun _ _ hmv => Same.moved ?_ hmv
  · exact hw
  · exact ⟨⟨rfl, rfl, le_rfl⟩, rfl, rfl, rfl⟩

end Resolve

/-- No session that waits is cancelled or stopped, and a denial can be recorded. -/
def KeepsBooked (h : Host) : HostOp → Prop
  | .denyRequest approvalId reason => ∀ p, h.pendingApprovals.lookup approvalId = some p →
      Recordable (denialText w approvalId p reason)
  | .cancelSession sessionId => h.phase sessionId ≠ some .waitingApproval
  | .stop => h.state = .running → ∀ sessionId, h.phase sessionId ≠ some .waitingApproval
  | _ => True

section Operations

variable {w} {h : Host}

variable {sessionId approvalId : Uuid} {p : PendingApproval} {reason : String}

lemma Sound.waits (hs : Sound h) (hwt : h.phase sessionId = some .waitingApproval) :
    Waits h sessionId := by
  obtain ⟨rec, hrec, hst⟩ := Option.map_eq_some_iff.mp hwt
  refine ⟨rec, hrec, hst, ?_⟩
  by_contra hflag
  have hcan := hs.flag sessionId rec hrec (by simpa using hflag)
  rw [hst] at hcan
  cases hcan

lemma undisturbed_drop (hp : h.pendingApprovals.lookup approvalId = none) :
    Undisturbed h (h.drop approvalId) :=
  ⟨AssocList.lookup_erase_of_eq_none hp, fun _ => Iff.rfl⟩

lemma booked_createSession (hinv : Inv w h) (hb : Booked w h) {actor : SessionActor}
    (hinj : DrawsDistinct w h (.createSession actor)) :
    Booked w (h.step w (.createSession actor)) := by
  cases effect_step w h (.createSession actor) with
  | same _ hsame => exact hsame.undisturbed.booked_iff.mpr hb
  | @created _ n _ _ hn hn' hmv =>
    -- the new id is not the id of a session that waits
    refine (undisturbed_of_update hmv.pending hmv.phase ?_ (by decide)).booked_iff.mpr hb
    intro hwt
    exact (hinv.session_drawn _ _ hwt).ne hinj hn hn' rfl
  | dropped hop => cases hop

lemma booked_submitAction (hshow : ∀ u, (w.showUuid u).length = 36) (hinv : Inv w h)
    (hs : Sound h) (hb : Booked w h) {actor : RequestActor} {action : Action}
    (hinj : DrawsDistinct w h (.submitAction sessionId actor action)) :
    Booked w (h.step w (.submitAction sessionId actor action)) := by
  have hinv' := hinv.step (effect_step w h (.submitAction sessionId actor action)) hinj
  have hstep : h.step w (.submitAction sessionId actor action) =
      (submitAction w sessionId actor action h).2 := bind_pure_snd _ _ _
  have hroom : ∀ s, h.phase sessionId = some s → s.Fresh →
      h.pendingApprovals.entries.length < h.maxPendingApprovals :=
    fun _ hph hfr => hinv.pending_lt hs hph hfr
  rcases submitAction_filed hshow hroom actor with hu | hf
  · rw [hstep]
    exact hu.booked_iff.mpr hb
  · rw [← hstep] at hf
    exact hf.booked hinv hinv' hinj hb

lemma Inv.pending_record (hinv : Inv w h) (hs : Sound h) (hb : Booked w h)
    (hp : h.pendingApprovals.lookup approvalId = some p) :
    ∃ sessionId, p.approval.sessionId = w.showUuid sessionId ∧
      Names w h approvalId sessionId ∧ h.phase sessionId = some .waitingApproval ∧
      Waits h sessionId := by
  obtain ⟨sessionId, hses, -⟩ := hinv.awaits approvalId p hp
  have hn : Names w h approvalId sessionId := ⟨p, hp, hses⟩
  have hwt := (hinv.booked_iff.mp hb sessionId).mpr ⟨approvalId, hn⟩
  exact ⟨sessionId, hses, hn, hwt, hs.waits hwt⟩

lemma booked_approveRequest (hshow : ∀ u, (w.showUuid u).length = 36) (hinv : Inv w h)
    (hs : Sound h) (hb : Booked w h) (hinj : DrawsDistinct w h (.approveRequest approvalId)) :
    Booked w (h.step w (.approveRequest approvalId)) := by
  have hinv' := hinv.step (effect_step w h (.approveRequest approvalId)) hinj
  have hstep : h.step w (.approveRequest approvalId) = (approveRequest w approvalId h).2 :=
    bind_pure_snd _ _ _
  cases hp : h.pendingApprovals.lookup approvalId with
  | none =>
    have hrun : (approveRequest w approvalId h).2 = h.drop approvalId := by
      rw [approveRequest, removePending_bind_apply, hp]
      rfl
    rw [hstep, hrun]
    exact (undisturbed_drop hp).booked_iff.mpr hb
  | some p =>
    obtain ⟨sessionId, hses, hn, -, hw⟩ := hinv.pending_record hs hb hp
    have hran := approveRequest_ran hshow hp hses hw
    rw [Holds, ← hstep] at hran
    obtain ⟨s, hspe, hph⟩ := hran.phase
    refine Closed.booked ⟨hran.pending, s, ?_, hph⟩ hinv hinv' hn hb
    rintro rfl
    cases hspe

lemma denyRequest_of_not_recordable (hp : h.pendingApprovals.lookup approvalId = some p)
    (hses : p.approval.sessionId = w.showUuid sessionId)
    (hd : ¬ Recordable (denialText w approvalId p reason)) :
    (denyRequest w approvalId reason h).2.phase sessionId = h.phase sessionId ∧
      (denyRequest w approvalId reason h).2.pendingApprovals =
        h.pendingApprovals.erase approvalId := by
  rw [denyRequest_of_pending hp hses reason, recordAudit_bind_of_not w _ hd]
  exact ⟨rfl, rfl⟩

lemma booked_denyRequest_iff (hinv : Inv w h) (hs : Sound h) (hb : Booked w h)
    (hinj : DrawsDistinct w h (.denyRequest approvalId reason)) :
    Booked w (h.step w (.denyRequest approvalId reason)) ↔
      KeepsBooked w h (.denyRequest approvalId reason) := by
  have hinv' := hinv.step (effect_step w h (.denyRequest approvalId reason)) hinj
  have hstep : h.step w (.denyRequest approvalId reason) = (denyRequest w approvalId reason h).2 :=
    bind_pure_snd _ _ _
  cases hp : h.pendingApprovals.lookup approvalId with
  | none =>
    refine iff_of_true ?_ fun q hq => ?_
    · rw [hstep, denyRequest_of_not_pending w hp]
      exact (undisturbed_drop hp).booked_iff.mpr hb
    · rw [hp] at hq
      cases hq
  | some p =>
    obtain ⟨sessionId, hses, hn, hwt, hw⟩ := hinv.pending_record hs hb hp
    have hkp : KeepsBooked w h (.denyRequest approvalId reason) ↔
        Recordable (denialText w approvalId p reason) := by
      refine ⟨fun hk => hk p hp, fun hd q hq => ?_⟩
      cases hp.symm.trans hq
      exact hd
    rw [hkp]
    constructor
    · intro hb'
      by_contra hd
      obtain ⟨hph, hpend⟩ := denyRequest_of_not_recordable hp hses hd
      rw [← hstep] at hph hpend
      rw [← hph] at hwt
      obtain ⟨a, ha⟩ := (hinv'.booked_iff.mp hb' sessionId).mp hwt
      obtain ⟨hne, hold⟩ := (names_erase_iff hpend).mp ha
      exact hne (hinv.names_unique hold hn)
    · intro hd
      have hmv := denyRequest_moved hp hses hw hd
      rw [Holds, ← hstep] at hmv
      exact Closed.booked ⟨hmv.pending, .cancelled, by decide, hmv.phase⟩ hinv hinv' hn hb

lemma Inv.not_waiting_of_booked {h' : Host} (hinv : Inv w h) (hb : Booked w h)
    (hinv' : Inv w h') (hb' : Booked w h') (hpend : h'.pendingApprovals = h.pendingApprovals)
    (hwt' : h'.phase sessionId ≠ some .waitingApproval) :
    h.phase sessionId ≠ some .waitingApproval := by
  intro hwt
  obtain ⟨a, ha⟩ := (hinv.booked_iff.mp hb sessionId).mp hwt
  refine hwt' ((hinv'.booked_iff.mp hb' sessionId).mpr ⟨a, ?_⟩)
  unfold Names
  rw [hpend]
  exact ha

lemma undisturbed_cancelSession (hwt : h.phase sessionId ≠ some .waitingApproval) :
    Undisturbed h (cancelSession w sessionId h).2 := by
  cases hrec : h.sessions.lookup sessionId with
  | none =>
    have hrun : (cancelSession w sessionId h).2 = h := by
      rw [cancelSession, bind_apply, getSession, peek_bind_apply, hrec]
      rfl
    rw [hrun]
    exact (Same.refl h).undisturbed
  | some rec =>
    by_cases hterm : rec.session.state.isTerminal
    · -- a session that has ended only loses its actions
      have hrun : (cancelSession w sessionId h).2 =
          { h with sessions := h.sessions.insert sessionId { rec with actions := [] } } := by
        rw [cancelSession, bind_apply_of_eq (getSession_of_some hrec), putSession,
          update_bind_apply, if_pos hterm]
        rfl
      have hsame : Same h
          { h with sessions := h.sessions.insert sessionId { rec with actions := [] } } :=
        same_putSession hrec rfl
      rw [hrun]
      exact hsame.undisturbed
    · obtain ⟨-, hc⟩ := cancelSession_of_active (w := w) hrec hterm
      have hph : (cancelSession w sessionId h).2.phase =
          Function.update h.phase sessionId (some .cancelled) := by
        refine Eq.trans ?_ (phase_insert h sessionId (cancelledRecord rec))
        funext id
        unfold phase
        rw [hc.sessions]
      exact undisturbed_of_update hc.pending hph hwt (by decide)

lemma booked_cancelSession_iff (hinv : Inv w h) (hb : Booked w h)
    (hinj : DrawsDistinct w h (.cancelSession sessionId)) :
    Booked w (h.step w (.cancelSession sessionId)) ↔
      KeepsBooked w h (.cancelSession sessionId) := by
  have hinv' := hinv.step (effect_step w h (.cancelSession sessionId)) hinj
  have hend := ended_cancelSession (w := w) h sessionId
  constructor
  · intro hb'
    refine hinv.not_waiting_of_booked hb hinv' hb' hend.1.pending ?_
    -- the session has ended if it is there
    intro hwt'
    obtain ⟨s, hs⟩ := hend.1.exists_phase hwt'
    obtain ⟨s', hs', hterm⟩ := hend.2 s hs
    cases hwt'.symm.trans hs'
    cases hterm
  · intro hwt
    rw [step_cancelSession]
    exact (undisturbed_cancelSession hwt).booked_iff.mpr hb

lemma booked_stop_iff (hinv : Inv w h) (hb : Booked w h) (hinj : DrawsDistinct w h .stop) :
    Booked w (h.step w .stop) ↔ KeepsBooked w h .stop := by
  have hinv' := hinv.step (effect_step w h .stop) hinj
  by_cases hrunn : h.state = .running
  · obtain ⟨-, hc, hterm⟩ := stop_of_running_spec w hrunn
    have hnone : ∀ sessionId, (h.step w .stop).phase sessionId ≠ some .waitingApproval := by
      intro sessionId hwt
      cases hterm sessionId _ hwt
    constructor
    · intro hb' _ sessionId
      exact hinv.not_waiting_of_booked hb hinv' hb' hc.pending (hnone sessionId)
    · intro hk
      refine (Undisturbed.booked_iff ⟨fun _ => ?_, fun id => ?_⟩).mpr hb
      · show (stop w h).2.pendingApprovals.lookup _ = _
        rw [hc.pending]
      · exact iff_of_false (hnone id) (hk hrunn id)
  · have hstep : h.step w .stop = h := stop_of_not_running w hrunn
    rw [hstep]
    exact iff_of_true hb fun hrunn' => absurd hrunn' hrunn

/-- **Step lemma**: the operations that keep the books right, exactly. -/
theorem booked_step_iff (hshow : ∀ u, (w.showUuid u).length = 36) (hinv : Inv w h) (hs : Sound h)
    (hb : Booked w h) {op : HostOp} (hinj : DrawsDistinct w h op) :
    Booked w (h.step w op) ↔ KeepsBooked w h op := by
  cases op with
  | createSession actor => exact iff_of_true (booked_createSession hinv hb hinj) trivial
  | submitAction sessionId actor action =>
    exact iff_of_true (booked_submitAction hshow hinv hs hb hinj) trivial
  | approveRequest approvalId =>
    exact iff_of_true (booked_approveRequest hshow hinv hs hb hinj) trivial
  | denyRequest approvalId reason => exact booked_denyRequest_iff hinv hs hb hinj
  | cancelAction sessionId actionId =>
    have hstep : h.step w (.cancelAction sessionId actionId) =
        (cancelAction w sessionId actionId h).2 := bind_pure_snd _ _ _
    rw [hstep]
    have hsame : Same h (cancelAction w sessionId actionId h).2 :=
      quiet_cancelAction w sessionId actionId h
    exact iff_of_true (hsame.undisturbed.booked_iff.mpr hb) trivial
  | cancelSession sessionId => exact booked_cancelSession_iff hinv hb hinj
  | grantCapabilities caps =>
    have hu : Undisturbed h (h.step w (.grantCapabilities caps)) :=
      ⟨fun _ => rfl, fun _ => Iff.rfl⟩
    exact iff_of_true (hu.booked_iff.mpr hb) trivial
  | stop => exact booked_stop_iff hinv hb hinj
  | fail reason =>
    refine iff_of_true ?_ trivial
    cases effect_step w h (.fail reason) with
    | same _ hsame => exact hsame.undisturbed.booked_iff.mpr hb
    | dropped hop => cases hop
    | failed hsame =>
      have hu : Undisturbed h (h.step w (.fail reason)) :=
        ⟨fun _ => by rw [hsame.pending], fun _ => by rw [hsame.phase]; rfl⟩
      exact hu.booked_iff.mpr hb

end Operations

lemma booked_start (caps : List String) (controlPort surfacePort : UInt16) :
    Booked w (start w caps controlPort surfacePort) := by
  rw [(inv_start w caps controlPort surfacePort).booked_iff]
  intro sessionId
  refine iff_of_false nofun ?_
  rintro ⟨a, p, hp, -⟩
  cases hp

lemma sound_start (caps : List String) (controlPort surfacePort : UInt16) :
    Sound (start w caps controlPort surfacePort) := by
  refine ⟨le_rfl, Nat.zero_le 64, fun id rec hrec => ?_⟩
  cases hrec

/-- **The books of a run** from the start of a host are right throughout exactly if every step keeps
them right.  The ids that are drawn are distinct. -/
theorem booked_iff_steps (w : World) (hshow : ∀ u, (w.showUuid u).length = 36)
    (caps : List String) (controlPort surfacePort : UInt16) (ops : List HostOp)
    (hinj : Set.InjOn w.uuid
      (Set.Iio ((start w caps controlPort surfacePort).run w ops).cursor.uuids)) :
    (∀ pre, pre <+: ops → Booked w ((start w caps controlPort surfacePort).run w pre)) ↔
      Run.Steps (Host.step w) (KeepsBooked w) (start w caps controlPort surfacePort) ops := by
  refine Run.forall_prefix_iff_steps (I := fun h => Inv w h ∧ Sound h)
    (steps_drawsDistinct w hinj) ?_ ?_ ?_ (booked_start w caps controlPort surfacePort)
  · rintro h op hdist ⟨hinv, hs⟩
    exact ⟨hinv.step (effect_step w h op) hdist, hs.step w op⟩
  · rintro h op hdist ⟨hinv, hs⟩ hb
    exact booked_step_iff hshow hinv hs hb hdist
  · exact ⟨inv_start w caps controlPort surfacePort, sound_start w caps controlPort surfacePort⟩

/-- Nothing is denied, cancelled or stopped in `approvedRun`. -/
theorem booked_iff_steps_approved : Booked .counting (deleter.run .counting approvedRun) := by
  refine (booked_iff_steps .counting Uuid.length_hyphenated ["file.delete"] 7777 7778 approvedRun
    (injOn_counting (by decide +kernel))).mpr (fun pre op post heq => ?_) approvedRun
    prefix_rfl
  have hop : op ∈ approvedRun := by simp [heq]
  simp only [approvedRun, mem_cons, not_mem_nil, or_false] at hop
  rcases hop with rfl | rfl | rfl
  · trivial
  · trivial
  · trivial

/-- A session is cancelled while it waits: it has ended, and its approval stays pending. -/
theorem cancelled_session_pending :
    let h := deleter.run .counting (parkedRun ++ [.cancelSession (World.counting.uuid 1)])
    h.phase (World.counting.uuid 1) = some .cancelled ∧
      Names .counting h (World.counting.uuid 2) (World.counting.uuid 1) ∧ ¬ Booked .counting h := by
  intro h
  have hph : h.phase (World.counting.uuid 1) = some .cancelled := by decide +kernel
  have hnam : Names .counting h (World.counting.uuid 2) (World.counting.uuid 1) := by
    have hpend : (h.pendingApprovals.lookup (World.counting.uuid 2)).map
        (fun p => p.approval.sessionId) =
        some (World.counting.showUuid (World.counting.uuid 1)) := by
      decide +kernel
    exact Option.map_eq_some_iff.mp hpend
  have hinv : Inv .counting h :=
    (inv_start .counting ["file.delete"] 7777 7778).run _ _ (injOn_counting (by decide +kernel))
  refine ⟨hph, hnam, fun hb => ?_⟩
  have hwt := (hinv.booked_iff.mp hb _).mpr ⟨_, hnam⟩
  rw [hph] at hwt
  cases hwt

end Host

end Aether.Runtime
