import Aether.Store.Equiv.Restart

/-!
# Installations that fail

`AppInstaller::install` records an installation before the store has written anything.
-/

namespace Aether.Store

open Aether.Core Security Aether.Except Command

variable {σ β : Type}

namespace AppStore

variable (x : StoreEnv σ β) {package : AppPackage} {userConsent : List AppPermission}
  {nowMs : UInt64} {s s' : StoreSystem σ}

lemma appInstall_of_checkInstall (h : checkInstall package userConsent s = .ok ())
    (nowMs : UInt64) :
    ∃ decision detail, appInstall package.manifest userConsent nowMs = .ok (decision, detail) := by
  unfold checkInstall at h
  obtain ⟨_, hval, h⟩ := bind_eq_ok_iff.mp h
  have hval := mapError_eq_ok_iff.mp hval
  cases hfind : userConsent.find? fun granted => granted ∉ package.manifest.permissions with
  | some granted =>
    simp only [hfind] at h
    split at h
    · cases h
    · split_ifs at h
  | none =>
    unfold appInstall
    rw [hval]
    simp only [hfind]
    exact ⟨_, _, rfl⟩

variable {decision : AppInstallDecision} {detail : String}

lemma prepareInstall_of_checkInstall (hchk : checkInstall package userConsent s = .ok ())
    (hinst : appInstall package.manifest userConsent nowMs = .ok (decision, detail)) :
    prepareInstall x package userConsent nowMs s =
      match s.audit.record x.sha256 nowMs "app.install" "app-installer" detail with
      | none => (.panic, s)
      | some (audit, _) =>
        match buildRecord x package userConsent decision nowMs with
        | .error e => (.error e, { s with audit })
        | .ok record => (.ok (decision, record), { s with audit }) := by
  rw [prepareInstall, peek_bind_apply, hchk, bind_apply, lift_apply]
  simp only
  rw [bind_apply, lift_apply, hinst]
  simp only [Except.mapError]
  rw [bind_apply, recordAudit]
  cases s.audit.record x.sha256 nowMs "app.install" "app-installer" detail with
  | none => rfl
  | some audit =>
    simp only
    rw [bind_apply, lift_apply]
    cases buildRecord x package userConsent decision nowMs with
    | error e => rfl
    | ok record => rfl

/-- What the store has in memory is the same. -/
structure SameMemory (s s' : StoreSystem σ) : Prop where
  installed : s'.installed = s.installed
  payloads : s'.payloads = s.payloads
  audit : s'.audit = s.audit

lemma sameMemory_fsCall {s₀ : StoreSystem σ} {α : Type} (op : σ → Except String α × σ) :
    Preserves (SameMemory s₀) (fsCall op) := by
  intro s hs
  unfold fsCall
  rcases op s.fs with ⟨_ | _, fs⟩
  · exact ⟨hs.installed, hs.payloads, hs.audit⟩
  · exact ⟨hs.installed, hs.payloads, hs.audit⟩

lemma sameMemory_of_failed_install {audit : AuditChain} {i : UInt64} {e : StoreError}
    (hchk : checkInstall package userConsent s = .ok ())
    (hinst : appInstall package.manifest userConsent nowMs = .ok (decision, detail))
    (haud : s.audit.record x.sha256 nowMs "app.install" "app-installer" detail = some (audit, i))
    (herr : installSigned x package userConsent nowMs s = (.error e, s')) :
    SameMemory { s with audit } s' := by
  have hpre := prepareInstall_of_checkInstall x hchk hinst
  rw [haud] at hpre
  rw [installSigned, bind_apply, hpre] at herr
  cases hbui : buildRecord x package userConsent decision nowMs with
  | error e' =>
    simp only [hbui, Prod.mk.injEq] at herr
    obtain ⟨-, rfl⟩ := herr
    exact ⟨rfl, rfl, rfl⟩
  | ok record =>
    simp only [hbui] at herr
    rw [bind_apply] at herr
    have hper := preserves_persistInstall x (fun op => sameMemory_fsCall op) package decision
      record { s with audit } ⟨rfl, rfl, rfl⟩
    rcases hp : persistInstall x package decision record { s with audit } with ⟨_ | e' | -, s₁⟩
    · -- the last step never returns an error
      simp only [hp] at herr
      rw [bind_apply] at herr
      rcases commitInstall_spec x package decision record nowMs s₁ with ⟨ho, -⟩ | ⟨ho, -⟩
      · rcases hc : commitInstall x package decision record nowMs s₁ with ⟨o, s₂⟩
        rw [hc] at ho
        simp only at ho
        simp [hc, ho] at herr
      · rcases hc : commitInstall x package decision record nowMs s₁ with ⟨o, s₂⟩
        rw [hc] at ho
        simp only at ho
        simp [hc, ho] at herr
    · rw [hp] at hper
      simp only [hp, Prod.mk.injEq] at herr
      rw [← herr.2]
      exact hper
    · simp [hp] at herr

/-- **When a failed installation leaves no trace**: iff the checks refused it, or the audit log is
full of its record already. -/
theorem installSigned_unchanged_iff (package : AppPackage) (userConsent : List AppPermission)
    (nowMs : UInt64) (s s' : StoreSystem σ) (e : StoreError)
    (herror : installSigned x package userConsent nowMs s = (.error e, s')) :
    SameMemory s s' ↔
      (∃ e', checkInstall package userConsent s = .error e') ∨
        ∃ decision detail, appInstall package.manifest userConsent nowMs = .ok (decision, detail) ∧
          s.audit.Saturated x.sha256 nowMs "app.install" "app-installer" detail := by
  cases hchk : checkInstall package userConsent s with
  | error e' =>
    have hsame : s' = s := by
      rw [installSigned, bind_apply, prepareInstall, peek_bind_apply, bind_apply, hchk,
        lift_apply] at herror
      exact (Prod.mk.inj herror).2.symm
    rw [hsame]
    exact ⟨fun _ => .inl ⟨e', rfl⟩, fun _ => ⟨rfl, rfl, rfl⟩⟩
  | ok u =>
    obtain ⟨decision, detail, hinst⟩ := appInstall_of_checkInstall hchk nowMs
    rcases haud : s.audit.record x.sha256 nowMs "app.install" "app-installer" detail with
      - | ⟨audit, i⟩
    · -- the audit log panics, so no error is returned
      have hpre := prepareInstall_of_checkInstall x hchk hinst
      rw [haud] at hpre
      rw [installSigned, bind_apply, hpre] at herror
      cases herror
    · have hsame := sameMemory_of_failed_install x hchk hinst haud herror
      have hself := AuditChain.record_eq_self_iff x.sha256 haud
      constructor
      · intro h
        have haud' : audit = s.audit := hsame.audit.symm.trans h.audit
        exact .inr ⟨decision, detail, hinst, hself.mp haud'⟩
      · rintro (⟨e', he'⟩ | ⟨decision', detail', hinst', hsat⟩)
        · cases he'
        · cases hinst.symm.trans hinst'
          exact ⟨hsame.installed, hsame.payloads, hsame.audit.trans (hself.mpr hsat)⟩

def readOnlyEnv : StoreEnv (LocalTree StoredValue) StoredValue :=
  { diskEnv with
    fs := { diskEnv.fs with mkdirAll := fun _ fs => (.error "read-only file system", fs) } }

def trustingSystem : StoreSystem (LocalTree StoredValue) :=
  { fs := .empty, trust := some ⟨[⟨"key", none, none⟩]⟩, audit := AuditChain.new .default,
    installed := ∅, nextInstance := 0, payloads := ∅, log := [] }

/-- The calculator without a permission that the user grants is refused, and nothing is recorded. -/
theorem installSigned_unchanged_iff_unrequested :
    installSigned diskEnv calcPackage [.camera] 2 trustingSystem
        = (.error (.unrequestedGrant "camera"), trustingSystem) ∧
      (SameMemory trustingSystem trustingSystem ↔
        (∃ e', checkInstall calcPackage [.camera] trustingSystem = .error e') ∨
          ∃ decision detail, appInstall calcManifest [.camera] 2 = .ok (decision, detail) ∧
            trustingSystem.audit.Saturated diskEnv.sha256 2 "app.install" "app-installer" detail) := by
  have herr : installSigned diskEnv calcPackage [.camera] 2 trustingSystem
      = (.error (.unrequestedGrant "camera"), trustingSystem) := by
    have hchk : checkInstall calcPackage [.camera] trustingSystem
        = .error (.unrequestedGrant "camera") := by
      decide +kernel
    rw [installSigned, bind_apply, prepareInstall, peek_bind_apply, bind_apply, hchk, lift_apply]
  exact ⟨herr, installSigned_unchanged_iff diskEnv calcPackage [.camera] 2
    trustingSystem trustingSystem _ herr⟩

/-- On the read-only disk the installation fails, and the audit log says that it happened. -/
theorem failed_install_is_recorded :
    (installSigned readOnlyEnv calcPackage [.notify] 2 trustingSystem).1
        = .error (.persistence "read-only file system") ∧
      trustingSystem.audit.entries = [] ∧
      (installSigned readOnlyEnv calcPackage [.notify] 2
        trustingSystem).2.audit.entries.map AuditEntry.event = ["app.install"] := by
  decide +kernel

end AppStore

end Aether.Store
