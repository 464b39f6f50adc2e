import Aether.Security.Equiv.AppSecurity
import Aether.Store.Store

/-!
# What the store hands to the launcher

A payload is kept only together with the app that `install_signed` has entered (`Cached`), over all
runs with any file system.
-/

namespace Aether.Store

open Aether.Core Security Aether.Except Command List

variable {σ β : Type} {s s' : StoreSystem σ}

def sessionPayload (log : List StoreEvent) (appId : String) : Option (List UInt8) :=
  log.foldl (fun found event =>
    match event with
    | .opened => none
    | .installed package => if package.manifest.appId = appId then some package.payload else found
    | _ => found) none

lemma sessionPayload_concat (log : List StoreEvent) (event : StoreEvent) (appId : String) :
    sessionPayload (log ++ [event]) appId =
      match event with
      | .opened => none
      | .installed package =>
        if package.manifest.appId = appId then some package.payload else sessionPayload log appId
      | _ => sessionPayload log appId := by
  rw [sessionPayload, foldl_concat]
  rfl

lemma sessionPayload_append_failures (log : List StoreEvent) (n : Nat) (appId : String) :
    sessionPayload (log ++ List.replicate n .fsFailed) appId = sessionPayload log appId := by
  induction n with
  | zero => simp
  | succ n ih => rw [replicate_succ', ← append_assoc, sessionPayload_concat, ih]

def HasDigest (x : StoreEnv σ β) (plan : SandboxPlan) (record : AppInstallRecord) : Prop :=
  ∃ bytes, x.planToVec plan = .ok bytes ∧ record.planDigestHex = AppStore.sha256Hex x bytes

structure LaunchMatches (x : StoreEnv σ β) (before : List StoreEvent) (app : InstalledApp)
    (call : LauncherCall) : Prop where
  plan : HasDigest x call.plan app.record
  payload : sessionPayload before call.appId = some call.payload
  consent : app.consent.appId = call.appId
  record : app.record.appId = call.appId

/-- Each launch gets the plan whose digest is in the install record, the payload of the latest
installation in the session, and a record and a consent of the app. -/
def Launches (x : StoreEnv σ β) (log : List StoreEvent) : Prop :=
  ∀ before app call after, log = before ++ .launched app call :: after →
    LaunchMatches x before app call

variable {x : StoreEnv σ β} {log : List StoreEvent}

lemma launches_append_singleton {event : StoreEvent} (h : Launches x log)
    (heve : ∀ app call, event = .launched app call → LaunchMatches x log app call) :
    Launches x (log ++ [event]) := by
  intro before app call after heq
  rcases eq_nil_or_concat after with rfl | ⟨after', last, rfl⟩
  · obtain ⟨rfl, hlast⟩ := append_inj' heq rfl
    exact heve app call (cons.inj hlast).1
  · rw [concat_eq_append, ← cons_append, ← append_assoc] at heq
    obtain ⟨hlog, -⟩ := append_inj' heq rfl
    exact h before app call after' hlog

lemma launches_append_failures (h : Launches x log) (n : Nat) :
    Launches x (log ++ List.replicate n .fsFailed) := by
  induction n with
  | zero => simpa using h
  | succ n ih =>
    rw [replicate_succ', ← append_assoc]
    refine launches_append_singleton ih fun app call h => ?_
    exact nomatch h

structure Installed (x : StoreEnv σ β) (appId : String) (app : InstalledApp) : Prop where
  record : app.record.appId = appId
  consent : app.consent.appId = appId
  plan : HasDigest x (sandboxPlanForApp app.manifest) app.record

def Cached (x : StoreEnv σ β) (s : StoreSystem σ) : Prop :=
  ∀ appId payload, s.payloads.lookup appId = some payload →
    sessionPayload s.log appId = some payload ∧
      ∃ app, s.installed.lookup appId = some app ∧ Installed x appId app

structure Quiet (s s' : StoreSystem σ) : Prop where
  installed : s'.installed = s.installed
  payloads : s'.payloads = s.payloads
  log : ∃ n, s'.log = s.log ++ List.replicate n .fsFailed

lemma Quiet.refl (s : StoreSystem σ) : Quiet s s := ⟨rfl, rfl, 0, by simp⟩

lemma Quiet.trans {s'' : StoreSystem σ} (h : Quiet s s') (h' : Quiet s' s'') : Quiet s s'' := by
  obtain ⟨n, hn⟩ := h.log
  obtain ⟨n', hn'⟩ := h'.log
  refine ⟨h'.installed.trans h.installed, h'.payloads.trans h.payloads, n + n', ?_⟩
  rw [hn', hn, append_assoc, replicate_append_replicate]

structure LaunchInv (x : StoreEnv σ β) (s : StoreSystem σ) : Prop where
  cached : Cached x s
  launches : Launches x s.log

lemma Quiet.launchInv (h : Quiet s s') (hs : LaunchInv x s) : LaunchInv x s' := by
  obtain ⟨n, hn⟩ := h.log
  constructor
  · intro appId payload hpay
    rw [h.payloads] at hpay
    rw [hn, h.installed, sessionPayload_append_failures]
    exact hs.cached appId payload hpay
  · rw [hn]
    exact launches_append_failures hs.launches n

namespace AppStore

variable (x : StoreEnv σ β) {s₀ : StoreSystem σ}

lemma preserves_persisted {α : Type} {I : StoreSystem σ → Prop} (a : Except String α) :
    Preserves I (persisted a : StoreM σ α) := by
  cases a with
  | ok a => exact preserves_pure _
  | error e => exact preserves_fail _

lemma preserves_lift {α : Type} {I : StoreSystem σ → Prop} (a : Except StoreError α) :
    Preserves I (lift a : StoreM σ α) := by
  cases a with
  | ok a => exact preserves_pure _
  | error e => exact preserves_fail _

section Persistence

variable {I : StoreSystem σ → Prop}
  (hfs : ∀ {α : Type} (op : σ → Except String α × σ), Preserves I (fsCall op))
include hfs

lemma preserves_writeJson (codec : JsonCodec α β) (what path : String) (a : α) :
    Preserves I (writeJson x codec what path a) := by
  refine Preserves.bind (preserves_persisted _) fun json => ?_
  exact Preserves.bind (hfs _) fun _ => preserves_persisted _

lemma preserves_persistInstall (package : AppPackage) (decision : AppInstallDecision)
    (record : AppInstallRecord) : Preserves I (persistInstall x package decision record) := by
  refine Preserves.bind (hfs _) fun made => ?_
  refine Preserves.bind (preserves_persisted _) fun _ => ?_
  refine Preserves.bind (preserves_writeJson x hfs _ _ _ _) fun _ => ?_
  exact Preserves.bind (preserves_writeJson x hfs _ _ _ _) fun _ =>
    preserves_writeJson x hfs _ _ _ _

end Persistence

section Effects

variable {I : StoreSystem σ → Prop} (haudit : ∀ nowMs event component detail,
  Preserves I (recordAudit x nowMs event component detail))
include haudit

lemma preserves_prepareInstall (package : AppPackage) (userConsent : List AppPermission)
    (nowMs : UInt64) : Preserves I (prepareInstall x package userConsent nowMs) := by
  refine Preserves.bind (preserves_peek _) fun checked => ?_
  refine Preserves.bind (preserves_lift _) fun _ => ?_
  refine Preserves.bind (preserves_lift _) fun result => ?_
  refine Preserves.bind (haudit _ _ _ _) fun _ => ?_
  exact Preserves.bind (preserves_lift _) fun _ => preserves_pure _

lemma preserves_launch (hlog : ∀ app call, Preserves I (logEvent (.launched app call)))
    (hnext : ∀ s, I s → I { s with nextInstance := s.nextInstance + 1 }) (appId : String)
    (nowMs : UInt64) : Preserves I (launch x appId nowMs) := by
  refine Preserves.bind (preserves_peek _) fun checked => ?_
  refine Preserves.bind (preserves_lift _) fun found => ?_
  refine Preserves.bind (preserves_peek _) fun answer => ?_
  refine Preserves.bind (hlog _ _) fun _ => ?_
  refine Preserves.bind (preserves_lift _) fun outcome => ?_
  refine Preserves.bind (preserves_update hnext) fun _ => ?_
  refine Preserves.bind (preserves_peek _) fun instanceId => ?_
  exact Preserves.bind (haudit _ _ _ _) fun _ => preserves_pure _

lemma preserves_setTrust (trust : TrustedPublisherRegistry)
    (hwr : ∀ json, Preserves I (fsCall (x.fs.write trustFile json)))
    (htru : ∀ s, I s → I { s with trust := some trust }) (nowMs : UInt64) :
    Preserves I (setTrust x trust nowMs) := by
  refine Preserves.bind (preserves_persisted _) fun json => ?_
  refine Preserves.bind (hwr json) fun written => ?_
  refine Preserves.bind (preserves_persisted _) fun _ => ?_
  exact Preserves.bind (haudit _ _ _ _) fun _ => preserves_update htru

end Effects

lemma quiet_fsCall {α : Type} (op : σ → Except String α × σ) :
    Preserves (Quiet s₀) (fsCall op) := by
  intro s hs
  unfold fsCall
  rcases op s.fs with ⟨_ | _, fs⟩
  · exact hs.trans ⟨rfl, rfl, 1, rfl⟩
  · exact hs.trans ⟨rfl, rfl, 0, by simp⟩

lemma quiet_fsExists (path : String) : Preserves (Quiet s₀) (fsExists x path) :=
  fun _ hs => hs.trans ⟨rfl, rfl, 0, by simp [fsExists]⟩

lemma quiet_recordAudit (nowMs : UInt64) (event component detail : String) :
    Preserves (Quiet s₀) (recordAudit x nowMs event component detail) := by
  intro s hs
  unfold recordAudit
  cases s.audit.record x.sha256 nowMs event component detail with
  | none => exact hs
  | some r => exact hs.trans ⟨rfl, rfl, 0, by simp⟩

lemma quiet_persistInstall (package : AppPackage) (decision : AppInstallDecision)
    (record : AppInstallRecord) : Preserves (Quiet s₀) (persistInstall x package decision record) :=
  preserves_persistInstall x (fun op => quiet_fsCall op) package decision record

lemma quiet_setTrust (trust : TrustedPublisherRegistry) (nowMs : UInt64) :
    Preserves (Quiet s₀) (setTrust x trust nowMs) :=
  preserves_setTrust x (quiet_recordAudit x) trust (fun _ => quiet_fsCall _)
    (fun _ hs => hs.trans ⟨rfl, rfl, 0, by simp⟩) nowMs

section Opening

variable {I : StoreSystem σ → Prop}
  (hread : ∀ path, Preserves I (fsCall (x.fs.read path)))
  (hexists : ∀ path, Preserves I (fsExists x path))
include hread hexists

lemma preserves_loadTrust : Preserves I (loadTrust x) := by
  refine Preserves.bind (hexists _) fun found => Preserves.ite ?_ (preserves_pure _)
  exact Preserves.bind (hread _) fun _ => preserves_pure _

variable (hadd : ∀ app, Preserves I (addInstalled app))
include hadd

lemma preserves_rehydrateEntry (entry : String) : Preserves I (rehydrateEntry x entry) := by
  refine Preserves.bind (hexists _) fun found => Preserves.ite ?_ (preserves_pure _)
  refine Preserves.bind (hread _) fun installBytes => ?_
  cases installBytes with
  | error e => exact preserves_pure _
  | ok installBytes =>
    refine Preserves.bind (hread _) fun manifestBytes => ?_
    cases manifestBytes with
    | error e => exact preserves_pure _
    | ok manifestBytes =>
      refine Preserves.bind (hread _) fun consentBytes => ?_
      cases consentBytes with
      | error e => exact preserves_pure _
      | ok consentBytes =>
        simp only
        cases parseInstalled x installBytes manifestBytes consentBytes with
        | none => exact preserves_pure _
        | some app => exact hadd app

lemma preserves_rehydrateEach (entries : List String) :
    Preserves I (rehydrateEach x entries) := by
  induction entries with
  | nil => exact preserves_pure _
  | cons entry entries ih =>
    exact Preserves.bind (preserves_rehydrateEntry x hread hexists hadd entry) fun _ => ih

lemma preserves_rehydrateInstalls (hlist : Preserves I (fsCall (x.fs.list "."))) :
    Preserves I (rehydrateInstalls x) := by
  refine Preserves.bind hlist fun entries => ?_
  cases entries with
  | error e => exact preserves_pure _
  | ok entries => exact preserves_rehydrateEach x hread hexists hadd entries

end Opening

structure Prepared (package : AppPackage) (decision : AppInstallDecision)
    (record : AppInstallRecord) : Prop where
  recordId : record.appId = package.manifest.appId
  consentId : decision.consent.appId = package.manifest.appId
  digest : HasDigest x (sandboxPlanForApp package.manifest) record

variable {package : AppPackage} {decision : AppInstallDecision} {record : AppInstallRecord}
  {α : Type}

lemma prepared_of_buildRecord {userConsent : List AppPermission} {nowMs : UInt64}
    (hcons : decision.consent = consentFor package.manifest userConsent nowMs)
    (hplan : decision.plan = sandboxPlanForApp package.manifest)
    (h : buildRecord x package userConsent decision nowMs = .ok record) :
    Prepared x package decision record := by
  unfold buildRecord at h
  simp only [bind_eq_ok_iff, mapError_eq_ok_iff] at h
  obtain ⟨planJson, hjson, manifestBytes, -, h⟩ := h
  cases h
  exact ⟨rfl, by rw [hcons]; rfl, planJson, by rw [← hplan, hjson], rfl⟩

lemma lift_apply (a : Except StoreError α) (s : StoreSystem σ) :
    lift a s = match a with | .ok a => (.ok a, s) | .error e => (.error e, s) := by
  cases a <;> rfl

lemma prepareInstall_spec (package : AppPackage) (userConsent : List AppPermission)
    (nowMs : UInt64) (s : StoreSystem σ) :
    Holds (prepareInstall x package userConsent nowMs) s fun o s' =>
      Quiet s s' ∧ s'.fs = s.fs ∧ ∀ decision record, o = .ok (decision, record) →
        checkInstall package userConsent s = .ok () ∧ Prepared x package decision record := by
  unfold Holds
  rw [prepareInstall, peek_bind_apply, bind_apply, lift_apply]
  cases hchk : checkInstall package userConsent s with
  | error e => exact ⟨.refl s, rfl, fun _ _ h => absurd h (by simp)⟩
  | ok _ =>
    simp only
    rw [bind_apply, lift_apply]
    cases hinst : (appInstall package.manifest userConsent nowMs).mapError mapInstallError with
    | error e => exact ⟨.refl s, rfl, fun _ _ h => absurd h (by simp)⟩
    | ok result =>
      obtain ⟨decision, detail⟩ := result
      obtain ⟨-, hcons, hplan, -⟩ := appInstall_eq_ok (mapError_eq_ok_iff.mp hinst)
      simp only
      rw [bind_apply, recordAudit]
      cases s.audit.record x.sha256 nowMs "app.install" "app-installer" detail with
      | none => exact ⟨.refl s, rfl, fun _ _ h => absurd h (by simp)⟩
      | some audit =>
        simp only
        rw [bind_apply, lift_apply]
        have hqui : Quiet s { s with audit := audit.1 } := ⟨rfl, rfl, 0, by simp⟩
        cases hbui : buildRecord x package userConsent decision nowMs with
        | error e => exact ⟨hqui, rfl, fun _ _ h => absurd h (by simp)⟩
        | ok record =>
          refine ⟨hqui, rfl, fun decision' record' heq => ?_⟩
          cases heq
          exact ⟨trivial, prepared_of_buildRecord x hcons hplan hbui⟩

lemma commitInstall_spec (package : AppPackage) (decision : AppInstallDecision)
    (record : AppInstallRecord) (nowMs : UInt64) (s : StoreSystem σ) :
    Holds (commitInstall x package decision record nowMs) s fun o s' =>
      (o = .panic ∧ s' = s) ∨ (o = .ok () ∧ ∃ audit, s' = { s with
        audit
        payloads := s.payloads.insert package.manifest.appId package.payload
        installed := s.installed.insert package.manifest.appId
          { record, manifest := package.manifest, consent := decision.consent }
        log := s.log ++ [.installed package] }) := by
  unfold Holds
  rw [commitInstall, bind_apply, recordAudit]
  cases s.audit.record x.sha256 nowMs "store.install" "aether-store" _ with
  | none => exact .inl ⟨rfl, rfl⟩
  | some audit => exact .inr ⟨rfl, audit.1, rfl⟩

lemma launchInv_commit (hpre : Prepared x package decision record) (hs : LaunchInv x s)
    (audit : AuditChain) :
    LaunchInv x { s with
      audit
      payloads := s.payloads.insert package.manifest.appId package.payload
      installed := s.installed.insert package.manifest.appId
        { record, manifest := package.manifest, consent := decision.consent }
      log := s.log ++ [.installed package] } := by
  constructor
  · intro appId payload hpay
    simp only [sessionPayload_concat] at hpay ⊢
    by_cases hid : appId = package.manifest.appId
    · subst hid
      rw [AList.lookup_insert] at hpay
      refine ⟨by rw [if_pos rfl, hpay], _, AList.lookup_insert _, ?_⟩
      exact ⟨hpre.recordId, hpre.consentId, hpre.digest⟩
    · rw [AList.lookup_insert_ne hid] at hpay ⊢
      rw [if_neg fun heq => hid heq.symm]
      exact hs.cached appId payload hpay
  · exact launches_append_singleton hs.launches fun _ _ h => absurd h (by simp)

lemma launchInv_installSigned (package : AppPackage) (userConsent : List AppPermission)
    (nowMs : UInt64) : Preserves (LaunchInv x) (installSigned x package userConsent nowMs) := by
  intro s hs
  refine Holds.bind (Q := fun _ s' => LaunchInv x s')
    (prepareInstall_spec x package userConsent nowMs s)
    (fun result s₁ h₁ => ?_) (fun _ _ h => h.1.launchInv hs) fun _ h => h.1.launchInv hs
  obtain ⟨decision, record⟩ := result
  obtain ⟨hqui, -, hpre⟩ := h₁
  have hs₁ := hqui.launchInv hs
  have hper : Preserves (LaunchInv x) (persistInstall x package decision record) :=
    fun s₂ hs₂ => (quiet_persistInstall x package decision record s₂ (.refl s₂)).launchInv hs₂
  refine Preserves.holds_bind hper hs₁ (fun _ _ h => h) fun _ s₂ hs₂ => ?_
  refine Preserves.holds_bind (I := LaunchInv x) ?_ hs₂ (fun _ _ h => h) fun _ s₃ hs₃ => hs₃
  intro s₃ hs₃
  rcases commitInstall_spec x package decision record nowMs s₃ with ⟨-, h⟩ | ⟨-, audit, h⟩
  · rw [h]
    exact hs₃
  · rw [h]
    exact launchInv_commit x (hpre _ _ rfl).2 hs₃ audit

lemma checkLaunch_eq_ok {appId : String} {app : InstalledApp}
    {payload : List UInt8} (h : checkLaunch appId s = .ok (app, payload)) :
    s.installed.lookup appId = some app ∧ s.payloads.lookup appId = some payload := by
  unfold checkLaunch at h
  split at h
  · exact nomatch h
  case h_2 app' happ =>
    split at h
    · exact nomatch h
    case h_2 payload' hpay =>
      obtain ⟨_, _, h⟩ := bind_eq_ok_iff.mp h
      cases h
      exact ⟨happ, hpay⟩

lemma launchInv_launch (appId : String) (nowMs : UInt64) :
    Preserves (LaunchInv x) (launch x appId nowMs) := by
  intro s hs
  rw [launch, peek_bind_apply, bind_apply, lift_apply]
  cases hchk : checkLaunch appId s with
  | error e => exact hs
  | ok found =>
    obtain ⟨app, payload⟩ := found
    obtain ⟨happ, hpay⟩ := checkLaunch_eq_ok hchk
    obtain ⟨hses, app', happ', hins⟩ := hs.cached appId payload hpay
    cases happ.symm.trans happ'
    simp only [peek_bind_apply, logEvent, update_bind_apply]
    -- after the launch is logged nothing but the audit log and the counter changes
    have hlog : LaunchInv x { s with log := s.log ++ [.launched app
        ⟨appId, sandboxPlanForApp app.manifest, payload, nowMs / 1000⟩] } := by
      constructor
      · intro appId' payload' hpay'
        rw [sessionPayload_concat]
        exact hs.cached appId' payload' hpay'
      · refine launches_append_singleton hs.launches fun app' call heq => ?_
        cases heq
        exact ⟨hins.plan, hses, hins.consent, hins.record⟩
    refine Quiet.launchInv ?_ hlog
    refine Preserves.bind (preserves_lift _) (fun outcome => ?_) _ (.refl _)
    refine Preserves.bind (preserves_update fun s hs => hs.trans ⟨rfl, rfl, 0, by simp⟩) fun _ => ?_
    refine Preserves.bind (preserves_peek _) fun instanceId => ?_
    exact Preserves.bind (quiet_recordAudit x _ _ _ _) fun _ => preserves_pure _

lemma launchInv_uninstall (appId : String) (nowMs : UInt64) :
    Preserves (LaunchInv x) (uninstall x appId nowMs) := by
  refine Preserves.bind (preserves_peek _) fun found => Preserves.ite ?_ (preserves_fail _)
  refine Preserves.bind (preserves_update fun s hs => ⟨?_, ?_⟩) fun _ s hs =>
    (quiet_recordAudit x _ _ _ _ s (.refl s)).launchInv hs
  · intro appId' payload hpay
    by_cases hid : appId' = appId
    · subst hid
      rw [AList.lookup_erase] at hpay
      exact nomatch hpay
    · simp only [AList.lookup_erase_ne hid, sessionPayload_concat] at hpay ⊢
      exact hs.cached appId' payload hpay
  · exact launches_append_singleton hs.launches fun _ _ h => absurd h (by simp)

def Opening (x : StoreEnv σ β) (s : StoreSystem σ) : Prop := s.payloads = ∅ ∧ Launches x s.log

lemma Opening.launchInv (hs : Opening x s) : LaunchInv x s := by
  refine ⟨fun appId payload hpay => ?_, hs.2⟩
  rw [hs.1, AList.lookup_empty] at hpay
  exact nomatch hpay

lemma opening_of_quiet {m : StoreM σ α} (hm : ∀ s₀, Preserves (Quiet s₀) m) :
    Preserves (Opening x) m := by
  intro s hs
  have hqui := hm s s (.refl s)
  obtain ⟨n, hn⟩ := hqui.log
  refine ⟨hqui.payloads.trans hs.1, ?_⟩
  rw [hn]
  exact launches_append_failures hs.2 n

lemma opening_fsCall (op : σ → Except String α × σ) : Preserves (Opening x) (fsCall op) :=
  opening_of_quiet x fun _ => quiet_fsCall op

lemma opening_fsExists (path : String) : Preserves (Opening x) (fsExists x path) :=
  opening_of_quiet x fun _ => quiet_fsExists x path

lemma opening_new (s : StoreSystem σ) (hs : Launches x s.log) : Opening x (new x s).2 := by
  rw [new, update_bind_apply]
  refine Preserves.bind (preserves_loadTrust x (fun _ => opening_fsCall x _) (opening_fsExists x))
    (fun trust => ?_) _ ⟨rfl, launches_append_singleton hs fun _ _ h => absurd h (by simp)⟩
  refine Preserves.bind (preserves_update fun s hs => hs) fun _ => ?_
  exact preserves_rehydrateInstalls x (fun _ => opening_fsCall x _) (opening_fsExists x)
    (fun _ => preserves_update fun s hs => hs) (opening_fsCall x _)

end AppStore

lemma launchInv_step (x : StoreEnv σ β) (s : StoreSystem σ) (op : StoreOp)
    (hs : LaunchInv x s) : LaunchInv x (s.step x op) := by
  cases op with
  | installSigned package userConsent nowMs =>
    exact Preserves.bind (AppStore.launchInv_installSigned x _ _ _) (fun _ => preserves_pure _) s hs
  | launch appId nowMs =>
    exact Preserves.bind (AppStore.launchInv_launch x _ _) (fun _ => preserves_pure _) s hs
  | uninstall appId nowMs => exact AppStore.launchInv_uninstall x _ _ s hs
  | setTrust trust nowMs => exact (AppStore.quiet_setTrust x trust nowMs s (.refl s)).launchInv hs
  | reopen => exact (AppStore.opening_new x s hs.launches).launchInv x

/-- **What is launched is what was installed**: over every run, on every file system and with every
launcher. -/
theorem run_launches (x : StoreEnv σ β) (fs : σ) (ops : List StoreOp) :
    Launches x ((StoreSystem.start x fs).run x ops).log := by
  have hrun : ∀ (ops : List StoreOp) (s : StoreSystem σ), LaunchInv x s →
      LaunchInv x (s.run x ops) := by
    intro ops
    induction ops with
    | nil => exact fun _ hs => hs
    | cons op ops ih => exact fun s hs => ih _ (launchInv_step x s op hs)
  refine (hrun ops _ ?_).launches
  refine (AppStore.opening_new x _ fun before app call after heq => ?_).launchInv x
  exact absurd heq (by simp)

end Aether.Store
