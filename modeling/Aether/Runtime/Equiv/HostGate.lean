import Aether.Runtime.Equiv.HostRuns

/-!
# The approval gate

Which calls of the executor a run of the host makes.
-/

namespace Aether.Runtime

open Aether.Core Command

namespace Host

variable {w : World} {h : Host}

/-- A session calls the executor once at most, for an action that needs confirmation only by the
pending approval that was issued for it, and never after it has ended. -/
structure Gated (w : World) (h₀ : Host) (ops : List HostOp) : Prop where
  once : ((h₀.run w ops).calls.map fun c => c.sessionId).Nodup
  approved : ∀ pre op post c, ops = pre ++ op :: post → c ∈ newCalls w (h₀.run w pre) op →
    Validator.needsConfirmation c.action.riskLevel →
    ∃ id p, op = .approveRequest id ∧ (h₀.run w pre).pendingApprovals.lookup id = some p ∧
      p.action = c.action ∧ ∃ earlier submit later actor, pre = earlier ++ submit :: later ∧
        Issues w (h₀.run w earlier) submit (h₀.run w (earlier ++ [submit])) id p c.sessionId actor
  resolves : ∀ pre op post id, ops = pre ++ op :: post → op.resolves = some id →
    (h₀.run w (pre ++ [op])).pendingApprovals.lookup id = none
  resolved : ∀ pre mid post id p, ops = pre ++ mid ++ .approveRequest id :: post →
    (h₀.run w pre).pendingApprovals.lookup id = some p →
    (∃ mid', mid' <+: mid ∧ (h₀.run w (pre ++ mid')).pendingApprovals.lookup id = none) →
    newCalls w (h₀.run w (pre ++ mid)) (.approveRequest id) = []
  cancels : ∀ pre post id s, ops = pre ++ .cancelSession id :: post →
    (h₀.run w pre).phase id = some s →
    ∃ s', (h₀.run w (pre ++ [.cancelSession id])).phase id = some s' ∧ s'.isTerminal
  ended : ∀ pre mid post id s, ops = pre ++ mid ++ post → (h₀.run w pre).phase id = some s →
    s.isTerminal → (h₀.run w (pre ++ mid)).phase id = some s ∧
      ∀ c ∈ (h₀.run w (pre ++ mid)).calls, c.sessionId = id → c ∈ (h₀.run w pre).calls

lemma injOn_prefix {ops ops' : List HostOp}
    (hinj : Set.InjOn w.uuid (Set.Iio (h.run w (ops ++ ops')).cursor.uuids)) :
    Set.InjOn w.uuid (Set.Iio (h.run w ops).cursor.uuids) := by
  rw [run_append] at hinj
  exact hinj.mono fun _ hn => lt_of_lt_of_le hn (uuids_run w (h.run w ops) ops')

lemma mem_calls_of_ended (hinv : Inv w h) {id : Uuid} {s : SessionState}
    (hs : h.phase id = some s) (hterm : s.isTerminal) (ops : List HostOp)
    (hinj : Set.InjOn w.uuid (Set.Iio (h.run w ops).cursor.uuids)) {c : ExecutorCall}
    (hc : c ∈ (h.run w ops).calls) (hid : c.sessionId = id) : c ∈ h.calls := by
  refine ((steps_drawsDistinct w hinj).invariant (I := fun x => Inv w x ∧ x.phase id = some s ∧
    ∀ c ∈ x.calls, c.sessionId = id → c ∈ h.calls) ?_ ⟨hinv, hs, fun _ h _ => h⟩).2.2 c hc hid
  rintro x op hdist ⟨hx, hxs, hcal⟩
  have he := effect_step w x op
  obtain ⟨s', hs', -, hsame⟩ := he.forward hdist hx.session_drawn id s hxs
  refine ⟨hx.step he hdist, hsame hterm ▸ hs', fun c hc hid => ?_⟩
  rw [calls_step, List.mem_append] at hc
  rcases hc with hold | hnew
  · exact hcal c hold hid
  · -- a session that is called was not spent
    refine absurd ?_ (hx.not_spent_of_calls (calls_of_mem_newCalls hnew) s (hid ▸ hxs))
    exact SessionState.spent_of_isTerminal hterm

lemma newCalls_approveRequest {id : Uuid}
    (hnone : h.pendingApprovals.lookup id = none) : newCalls w h (.approveRequest id) = [] := by
  refine List.eq_nil_iff_forall_not_mem.mpr fun c hc => ?_
  cases calls_of_mem_newCalls hc with
  | approved hp =>
    rw [hnone] at hp
    cases hp

lemma ended_cancelSession (h : Host) (id : Uuid) : Ended id h (h.step w (.cancelSession id)) := by
  cases effect_step w h (.cancelSession id) with
  | same href => cases href
  | dropped hop => cases hop
  | cancelled hend => exact hend

/-- **The gate**: every run from the start of a host is gated, if the ids it draws are distinct. -/
theorem run_gated (w : World) (caps : List String) (controlPort surfacePort : UInt16)
    (ops : List HostOp)
    (hinj : Set.InjOn w.uuid
      (Set.Iio ((start w caps controlPort surfacePort).run w ops).cursor.uuids)) :
    Gated w (start w caps controlPort surfacePort) ops := by
  have hsta := inv_start w caps controlPort surfacePort
  set h₀ := start w caps controlPort surfacePort
  have inj : ∀ {pre}, pre <+: ops → Set.InjOn w.uuid (Set.Iio (h₀.run w pre).cursor.uuids) := by
    rintro pre ⟨post, rfl⟩
    exact injOn_prefix hinj
  have inv : ∀ {pre}, pre <+: ops → Inv w (h₀.run w pre) := fun hpre => hsta.run w _ (inj hpre)
  refine ⟨(hsta.run w ops hinj).once, ?_, ?_, ?_, ?_, ?_⟩
  · intro pre op post c hops hc hcon
    cases calls_of_mem_newCalls hc with
    | direct _ _ hno => exact absurd hcon hno
    | @approved id sessionId p s hp hpar _ _ =>
      obtain ⟨earlier, submit, later, sessionId', actor, hpre, hiss⟩ :=
        issues_of_pending w rfl pre hp
      have hses := (inv (by simp [hops])).awaits_of_parse hp hpar
      -- the approval names the session it was issued for
      have hid : sessionId' = sessionId :=
        showUuid_injective w (hiss.session.symm.trans hses.1)
      exact ⟨id, p, rfl, hp, rfl, earlier, submit, later, actor, hpre, hid ▸ hiss⟩
  · intro pre op post id _ hop
    rw [run_append]
    exact (effect_step w _ op).resolved hop
  · rintro pre mid post id p hops hp ⟨mid', ⟨rest, rfl⟩, hnone⟩
    refine newCalls_approveRequest ?_
    -- it is gone after `mid'`, and `rest` does not issue it again
    rw [← List.append_assoc, run_append w h₀ (pre ++ mid')]
    have hdra : Drawn w (h₀.run w (pre ++ mid')) id := by
      rw [run_append]
      exact ((inv (by simp [hops])).approval_drawn id p hp).mono (uuids_run w _ mid')
    refine not_pending_run w hdra hnone rest ?_
    rw [← run_append]
    exact inj (by simp [hops])
  · intro pre post id s _ hs
    rw [run_append]
    exact (ended_cancelSession _ id).2 s hs
  · intro pre mid post id s hops hs hterm
    have hinv : Inv w (h₀.run w pre) := inv (by simp [hops])
    have hinj' : Set.InjOn w.uuid (Set.Iio (h₀.run w (pre ++ mid)).cursor.uuids) :=
      inj (by simp [hops])
    rw [run_append] at hinj' ⊢
    obtain ⟨s', hs', -, hsame⟩ := forward_run w hinv mid hinj' id s hs
    exact ⟨hsame hterm ▸ hs', fun c hc hid => mem_calls_of_ended hinv hs hterm mid hinj' hc hid⟩

end Host

def World.counting : World where
  uuid n := ⟨#v[UInt8.ofNat n, 0, 0, 0, 0, 0, 0x40, 0, 0x80, 0, 0, 0, 0, 0, 0, 0]⟩
  systemTime n := UInt64.ofNat n
  nowMs n := UInt64.ofNat n
  execute n action := .ok ⟨true, Observation.new action.id (UInt64.ofNat n) action.id.hyphenated
    action.sessionId (.filesystemResult "delete" (.obj [("ok", .bool true)])), 0⟩
  order _ ids := ids
  order_perm _ ids := List.Perm.refl ids
  showUuid := Uuid.hyphenated
  parseUuid := Uuid.parseHyphenated
  parse_show := Uuid.parseHyphenated_hyphenated

lemma injOn_counting {k : ℕ} (hk : k ≤ 256) : Set.InjOn World.counting.uuid (Set.Iio k) := by
  intro a ha b hb hab
  have hbyte : UInt8.ofNat a = UInt8.ofNat b :=
    congrArg (fun u : Uuid => u.bytes[0]) hab
  have hmod := congrArg UInt8.toNat hbyte
  have ha' : a < k := ha
  have hb' : b < k := hb
  rw [UInt8.toNat_ofNat', UInt8.toNat_ofNat'] at hmod
  omega

def removeScratch : Action :=
  Action.new (World.counting.uuid 100) (World.counting.uuid 1).hyphenated
    (.fileDelete "/tmp/scratch") "clean up"

namespace Host

def bareHost : Host := start .counting [] 7777 7778

def deleter : Host := start .counting ["file.delete"] 7777 7778

def approvedRun : List HostOp :=
  [.createSession ⟨.human, "user"⟩,
    .submitAction (World.counting.uuid 1) ⟨.human, "user"⟩ removeScratch,
    .approveRequest (World.counting.uuid 2)]

lemma length_calls_approvedRun :
    (deleter.run .counting approvedRun).calls.length = 1 := by
  decide +kernel

theorem run_gated_approved :
    (deleter.run .counting approvedRun).calls.length = 1 ∧ Gated .counting deleter approvedRun :=
  ⟨length_calls_approvedRun, run_gated .counting ["file.delete"] 7777 7778 approvedRun
    (injOn_counting (by decide +kernel))⟩

/-- By the trusted table, what is called without an approval has low or medium risk, and all that is
called has its capabilities granted. -/
def Authorised (w : World) (h₀ : Host) (ops : List HostOp) : Prop :=
  ∀ pre op post c, ops = pre ++ op :: post → c ∈ newCalls w (h₀.run w pre) op →
    ((∀ id, op ≠ .approveRequest id) → (classifyAction c.action.variant).2 = .low ∨
      (classifyAction c.action.variant).2 = .medium) ∧
    (classifyAction c.action.variant).1 ⊆ (h₀.run w pre).validator.grantedCapabilities

def Honest (action : Action) : Prop :=
  (Validator.needsConfirmation (classifyAction action.variant).2 →
    Validator.needsConfirmation action.riskLevel) ∧
  (classifyAction action.variant).1 ⊆ action.requestedCapabilities

/-- Submitted actions are honest, and no capability that a pending one needs is taken away. -/
def Trusting (h : Host) : HostOp → Prop
  | .submitAction _ _ action => Honest action
  | .grantCapabilities caps => ∀ id p, h.pendingApprovals.lookup id = some p →
      (classifyAction p.action.variant).1 ⊆ caps
  | _ => True

def Covered (h : Host) : Prop :=
  ∀ id p, h.pendingApprovals.lookup id = some p →
    (classifyAction p.action.variant).1 ⊆ h.validator.grantedCapabilities

lemma requested_subset_of_valid {v : Validator} {action : Action}
    (h : (v.validate action).valid) : action.requestedCapabilities ⊆ v.grantedCapabilities := by
  intro cap hcap
  have hmis : v.missingCapabilities action = [] := by
    simp only [Validator.validate, Bool.and_eq_true, List.isEmpty_iff] at h
    exact h.1.2
  rw [Validator.missingCapabilities, List.filter_eq_nil_iff] at hmis
  simpa using hmis cap hcap

lemma Honest.required_subset {v : Validator} {action : Action} (hh : Honest action)
    (hval : (v.validate action).valid) :
    (classifyAction action.variant).1 ⊆ v.grantedCapabilities :=
  fun _ hcap => requested_subset_of_valid hval (hh.2 hcap)

lemma Covered.step {h : Host} (hc : Covered h) {op : HostOp} (hop : Trusting h op) :
    Covered (h.step w op) := by
  have he := effect_step w h op
  obtain ⟨newId, hpend⟩ := he.pending
  intro id p hp
  rcases hpend id p hp with hold | ⟨-, sessionId, actor, hiss⟩
  · rcases he.validator with hv | ⟨caps, rfl, hv⟩
    · rw [hv]
      exact hc id p hold
    · rw [hv]
      exact hop id p hold
  · obtain ⟨rfl, hval, -⟩ := hiss
    rcases he.validator with hv | ⟨caps, hgra, -⟩
    · rw [hv]
      exact Honest.required_subset hop hval
    · cases hgra

/-- **Calls agree with the trusted table** in every run whose steps are trusting. -/
theorem run_authorised (w : World) (caps : List String) (controlPort surfacePort : UInt16)
    (ops : List HostOp)
    (hops : ∀ pre op post, ops = pre ++ op :: post →
      Trusting ((start w caps controlPort surfacePort).run w pre) op) :
    Authorised w (start w caps controlPort surfacePort) ops := by
  intro pre op post c heq hc
  have hop := hops pre op post heq
  have hsts : Run.Steps (Host.step w) Trusting (start w caps controlPort surfacePort) ops := hops
  rw [heq] at hsts
  have hcov : Covered ((start w caps controlPort surfacePort).run w pre) := by
    refine hsts.of_append.invariant (I := Covered) ?_ fun _ _ hp => (nomatch hp)
    exact fun x op' hop' hx => hx.step hop'
  cases calls_of_mem_newCalls hc with
  | @direct sessionId actor action s _ hval hcon _ _ =>
    refine ⟨fun _ => ?_, Honest.required_subset hop hval⟩
    -- what an honest action may do without a confirmation, the table rates low or medium
    have hrisk : ¬ Validator.needsConfirmation (classifyAction action.variant).2 :=
      fun h => hcon (hop.1 h)
    show (classifyAction action.variant).2 = .low ∨ (classifyAction action.variant).2 = .medium
    cases hr : (classifyAction action.variant).2 <;> rw [hr] at hrisk
    · exact .inl rfl
    · exact .inr rfl
    · exact absurd rfl hrisk
    · exact absurd rfl hrisk
  | @approved id _ p _ hp _ _ _ => exact ⟨fun h => absurd rfl (h id), hcov id p hp⟩

lemma honest_new (id : Uuid) (sessionId : String) (variant : ActionVariant) (reason : String) :
    Honest (Action.new id sessionId variant reason) :=
  ⟨fun h => h, fun _ h => h⟩

theorem run_authorised_approved :
    (deleter.run .counting approvedRun).calls.length = 1 ∧
      Authorised .counting deleter approvedRun := by
  refine ⟨length_calls_approvedRun, run_authorised _ _ _ _ _ fun pre op post heq => ?_⟩
  have hop : op ∈ approvedRun := by simp [heq]
  simp only [approvedRun, List.mem_cons, List.not_mem_nil, or_false] at hop
  rcases hop with rfl | rfl | rfl
  · trivial
  · exact honest_new ..
  · trivial

def forgedRemoval : Action := { removeScratch with requestedCapabilities := [], riskLevel := .low }

/-- The forged deletion is executed, without an approval and without any capability granted. -/
theorem forged_not_authorised :
    ¬ Authorised .counting bareHost [.createSession ⟨.human, "user"⟩,
      .submitAction (World.counting.uuid 1) ⟨.agent, "model"⟩ forgedRemoval] := by
  intro h
  have hmem : ActionVariant.fileDelete "/tmp/scratch" ∈
      (newCalls .counting (bareHost.run .counting [.createSession ⟨.human, "user"⟩])
        (.submitAction (World.counting.uuid 1) ⟨.agent, "model"⟩ forgedRemoval)).map
        fun c => c.action.variant := by decide +kernel
  obtain ⟨c, hc, hvar⟩ := List.mem_map.mp hmem
  obtain ⟨hrisk, -⟩ := h [.createSession ⟨.human, "user"⟩] _ [] c rfl hc
  have hrisk := hrisk nofun
  rw [hvar] at hrisk
  rcases hrisk with hrisk | hrisk <;> cases hrisk

/-- An approval for a session that has not ended comes while the host accepts work. -/
def Timely (w : World) (h : Host) : HostOp → Prop
  | .approveRequest id => ∀ p sessionId s, h.pendingApprovals.lookup id = some p →
      w.parseUuid p.approval.sessionId = .ok sessionId → h.phase sessionId = some s →
      ¬ s.isTerminal → h.state.isAccepting
  | _ => True

lemma isAccepting_of_mem_newCalls {h : Host} {op : HostOp} (hop : Timely w h op)
    {c : ExecutorCall} (hc : c ∈ newCalls w h op) : c.hostState.isAccepting := by
  cases calls_of_mem_newCalls hc with
  | direct hacc _ _ _ _ => exact hacc
  | @approved id sessionId p s hp hpar hs hcan =>
    refine hop p sessionId s hp hpar hs ?_
    rcases hcan with rfl | hcan
    · decide
    · exact SessionState.not_isTerminal_of_canTransitionTo hcan

/-- **No call while the host does not accept work**, in every run whose approvals are timely. -/
theorem run_accepting (w : World) (caps : List String) (controlPort surfacePort : UInt16)
    (ops : List HostOp)
    (hops : ∀ pre op post, ops = pre ++ op :: post →
      Timely w ((start w caps controlPort surfacePort).run w pre) op) :
    ∀ c ∈ ((start w caps controlPort surfacePort).run w ops).calls, c.hostState.isAccepting := by
  have hsts : Run.Steps (Host.step w) (Timely w) (start w caps controlPort surfacePort) ops := hops
  refine hsts.invariant (I := fun x => ∀ c ∈ x.calls, c.hostState.isAccepting) ?_
    fun _ hc => (nomatch hc)
  intro x op hop hx c hc
  rw [calls_step, List.mem_append] at hc
  rcases hc with hold | hnew
  · exact hx c hold
  · exact isAccepting_of_mem_newCalls hop hnew

theorem run_accepting_approved :
    (deleter.run .counting approvedRun).calls.length = 1 ∧
      ∀ c ∈ (deleter.run .counting approvedRun).calls, c.hostState.isAccepting := by
  refine ⟨length_calls_approvedRun, run_accepting _ _ _ _ _ fun pre op post heq => ?_⟩
  have hacc : ∀ pre ∈ approvedRun.inits, (deleter.run .counting pre).state.isAccepting := by
    decide +kernel
  have hpre := hacc pre ((List.mem_inits _ _).mpr ⟨op :: post, heq.symm⟩)
  cases op with
  | approveRequest id => exact fun _ _ _ _ _ _ _ => hpre
  | _ => trivial

/-- The action of `approvedRun` is approved after the host has failed, and executed. -/
theorem failed_host_executes :
    ¬ ∀ c ∈ (deleter.run .counting (approvedRun.take 2 ++ .fail "disk error" ::
      approvedRun.drop 2)).calls, c.hostState.isAccepting := by
  decide +kernel

end Host

end Aether.Runtime
