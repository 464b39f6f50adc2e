import Aether.Algorithm.Command
import Aether.Security.AppSecurity
import Aether.Security.Equiv.Audit
import Mathlib.Data.Finset.Disjoint
import Mathlib.Data.Finset.Lattice.Basic

/-!
# Consent at installation and at run time

The gate's table of capabilities is the inverse of the one used at installation, so the gate of an
installed app allows what the granted permissions back (`evaluate_allowed_iff`).
-/

namespace Aether.Security

open Aether.Core List
open Aether.Except (bind_eq_ok_iff pure_eq_ok_iff)

variable {manifest : AppManifest} {userConsent : List AppPermission} {grantedAtMs : UInt64}
  {p : AppPermission}

lemma appInstall_eq_ok {decision : AppInstallDecision} {detail : String}
    (h : appInstall manifest userConsent grantedAtMs = .ok (decision, detail)) :
    (∀ p ∈ userConsent, p ∈ manifest.permissions) ∧
      decision.consent = consentFor manifest userConsent grantedAtMs ∧
      decision.plan = sandboxPlanForApp manifest ∧
      decision.refused = refusedPermissions manifest userConsent := by
  unfold appInstall at h
  obtain ⟨_, -, h⟩ := bind_eq_ok_iff.mp h
  split at h
  · cases h
  · rename_i hfind
    obtain ⟨rfl, -⟩ := Prod.mk.inj (pure_eq_ok_iff.mp h)
    refine ⟨?_, rfl, rfl, rfl⟩
    intro p hp
    simpa using find?_eq_none.mp hfind p hp

@[simp] lemma mem_consentFor_granted :
    p ∈ (consentFor manifest userConsent grantedAtMs).granted ↔ p ∈ userConsent :=
  (perm_insertionSort _ userConsent).mem_iff

lemma mem_refusedPermissions :
    p ∈ refusedPermissions manifest userConsent ↔ p ∈ manifest.permissions ∧ p ∉ userConsent := by
  simp [refusedPermissions]

lemma AuditChain.record_isSome {c : AuditChain} (hc : c.retention.maxEntries ≠ 0)
    (sha256 : List UInt8 → Digest) (ts : UInt64) (event component detail : String) :
    ∃ r, c.record sha256 ts event component detail = some r := by
  have hpos : c.retention.maxEntries.toNat ≠ 0 := fun h0 => hc (UInt64.toNat_inj.mp h0)
  obtain ⟨entries, hevi⟩ : ∃ entries, c.evict = some entries := by
    rw [AuditChain.evict_eq]
    split
    · exact ⟨_, rfl⟩
    · rename_i hfull
      cases hent : c.entries with
      | nil =>
        rw [hent, length_nil] at hfull
        omega
      | cons e es => exact ⟨es, rfl⟩
  exact ⟨_, by rw [AuditChain.record, hevi, Option.map_some]⟩

/-- The permission stands for the capability. -/
def Backs (p : AppPermission) (capability : Capability) : Prop :=
  (appPermissionCapability p).domain = capability.domain ∧
    (appPermissionCapability p).name = capability.name

lemma gatedCapabilities_backed : ∀ entry ∈ gatedCapabilities,
    (appPermissionCapability entry.2.2).domain = entry.1 ∧
      (appPermissionCapability entry.2.2).name = entry.2.1 := by
  simp only [gatedCapabilities, forall_mem_cons, appPermissionCapability, and_self,
    not_mem_nil, false_implies, implies_true]

lemma appPermissionForCapability_guarded (p : AppPermission) (risk : RiskLevel) :
    appPermissionForCapability
      ⟨(appPermissionCapability p).domain, (appPermissionCapability p).name, risk⟩ = some p := by
  cases p <;> rfl

lemma appPermissionForCapability_eq_some_iff {capability : Capability} :
    appPermissionForCapability capability = some p ↔ Backs p capability := by
  constructor
  · intro h
    obtain ⟨entry, hfind, rfl⟩ := Option.map_eq_some_iff.mp h
    have hkey := find?_some hfind
    simp only [Bool.and_eq_true, beq_iff_eq] at hkey
    obtain ⟨hdom, hname⟩ := gatedCapabilities_backed entry (mem_of_find?_eq_some hfind)
    exact ⟨hdom.trans hkey.1.symm, hname.trans hkey.2.symm⟩
  · rintro ⟨hdom, hname⟩
    have hgua := appPermissionForCapability_guarded p capability.riskLevel
    rw [hdom, hname] at hgua
    exact hgua

lemma evaluate_allowed_iff (gate : AppPermissionGate) (appId : String) (capability : Capability) :
    (gate.evaluate appId capability).allowed = true ↔
      appId = gate.consent.appId ∧
        ((∀ p, ¬ Backs p capability) ∨ ∃ p ∈ gate.consent.granted, Backs p capability) := by
  unfold AppPermissionGate.evaluate
  by_cases hid : appId = gate.consent.appId
  · rw [if_neg (not_not.mpr hid)]
    cases hlook : appPermissionForCapability capability with
    | none =>
      have hnone : ∀ p, ¬ Backs p capability := by
        intro p hp
        rw [appPermissionForCapability_eq_some_iff.mpr hp] at hlook
        cases hlook
      exact iff_of_true rfl ⟨hid, Or.inl hnone⟩
    | some permission =>
      have hbac := appPermissionForCapability_eq_some_iff.mp hlook
      -- the tables are inverse to each other, so no other permission backs the capability
      have huni : ∀ p, Backs p capability → p = permission := by
        intro p hp
        have hp' := appPermissionForCapability_eq_some_iff.mpr hp
        rw [hlook] at hp'
        exact (Option.some.inj hp').symm
      by_cases hgra : permission ∈ gate.consent.granted
      · have hgran : gate.consent.grants permission = true := decide_eq_true hgra
        simp only [hgran, if_true]
        exact iff_of_true rfl ⟨hid, Or.inr ⟨permission, hgra, hbac⟩⟩
      · have hgran : ¬ gate.consent.grants permission = true := by
          simpa [AppConsentRecord.grants] using hgra
        simp only [hgran]
        refine iff_of_false (by simp [GateVerdict.deny]) ?_
        rintro ⟨-, hnone | ⟨p, hp, hpb⟩⟩
        · exact hnone permission hbac
        · exact hgra (huni p hpb ▸ hp)
  · rw [if_pos hid]
    exact iff_of_false (by simp [GateVerdict.deny]) fun h => hid h.1

/-- An installation that succeeds splits the requested permissions into the user's choice and the
refused rest, and the gate of its consent record enforces this choice; one that fails records
nothing. -/
theorem install_gate_spec (sha256 : List UInt8 → Digest) (auditChain : AuditChain)
    (hcap : auditChain.retention.maxEntries ≠ 0) (manifest : AppManifest)
    (userConsent : List AppPermission) (grantedAtMs : UInt64) :
    ∃ chain result,
      AppInstaller.install sha256 auditChain manifest userConsent grantedAtMs =
        some (chain, result) ∧
      (∀ decision, result = .ok decision →
        Disjoint decision.consent.granted.toFinset decision.refused.toFinset ∧
        decision.consent.granted.toFinset ∪ decision.refused.toFinset =
          manifest.permissions.toFinset ∧
        decision.consent.granted.toFinset = userConsent.toFinset ∧
        ∀ appId capability,
          ((AppPermissionGate.mk decision.consent).evaluate appId capability).allowed = true ↔
            appId = manifest.appId ∧
              ((∀ p, ¬ Backs p capability) ∨
                ∃ p ∈ decision.consent.granted, Backs p capability)) ∧
      ∀ e, result = .error e → chain = auditChain := by
  unfold AppInstaller.install
  cases hinst : appInstall manifest userConsent grantedAtMs with
  | error e => exact ⟨auditChain, .error e, rfl, by simp, fun _ _ => rfl⟩
  | ok r =>
    obtain ⟨decision, detail⟩ := r
    obtain ⟨⟨chain, index⟩, hrcd⟩ := auditChain.record_isSome hcap sha256 grantedAtMs
      "app.install" "app-installer" detail
    obtain ⟨hsub, hcons, -, href⟩ := appInstall_eq_ok hinst
    refine ⟨chain, .ok decision, by simp only [hrcd, Option.map_some], ?_, by simp⟩
    rintro _ ⟨⟩
    -- the record has the user's choice in another order
    have hgra : ∀ p, p ∈ decision.consent.granted ↔ p ∈ userConsent := by
      intro p
      rw [hcons, mem_consentFor_granted]
    refine ⟨?_, ?_, ?_, ?_⟩
    · rw [Finset.disjoint_left]
      intro p hp hpr
      rw [mem_toFinset, hgra] at hp
      rw [mem_toFinset, href, mem_refusedPermissions] at hpr
      exact hpr.2 hp
    · ext p
      rw [Finset.mem_union, mem_toFinset, mem_toFinset, mem_toFinset, hgra,
        href, mem_refusedPermissions]
      have := hsub p
      tauto
    · ext p
      rw [mem_toFinset, mem_toFinset, hgra]
    · intro appId capability
      rw [evaluate_allowed_iff, hcons]
      rfl

def notesManifest : AppManifest where
  schemaVersion := "1"
  appId := "com.example.notes"
  name := "Notes"
  version := "1.0.0"
  publisher := "Example"
  description := ""
  minOsVersion := "0.1.0"
  permissions := [.notify, .camera]
  sandboxProfile := .restrictedService
  resources := ⟨100, none, none, 100⟩
  binarySha256 := "0123456789abcdef0123456789abcdef0123456789abcdef0123456789abcdef"
  payloadLen := 1
  dependsOn := []
  timestampMs := 0
  publisherKeyId := "key"

/-- The camera was asked for and refused: the gate denies it and allows the notifications. -/
theorem install_gate_spec_notes :
    ∃ chain decision,
      AppInstaller.install (fun _ => Vector.replicate 32 0) (.new .default) notesManifest [.notify]
          7 = some (chain, .ok decision) ∧
        ((AppPermissionGate.mk decision.consent).evaluate "com.example.notes"
          ⟨.application, "notify", .low⟩).allowed = true ∧
        ¬ ((AppPermissionGate.mk decision.consent).evaluate "com.example.notes"
          ⟨.application, "camera", .high⟩).allowed = true := by
  obtain ⟨chain, result, hinst, hok, -⟩ := install_gate_spec (fun _ => Vector.replicate 32 0)
    (.new .default) (by decide) notesManifest [.notify] 7
  have hisOk : (AppInstaller.install (fun _ => Vector.replicate 32 0) (.new .default) notesManifest
      [.notify] 7).any (fun r => r.2.toBool) = true := by decide +kernel
  rw [hinst, Option.any_some] at hisOk
  obtain ⟨decision, rfl⟩ : ∃ decision, result = .ok decision := by
    cases result with
    | error e => cases hisOk
    | ok decision => exact ⟨decision, rfl⟩
  obtain ⟨-, -, hgra, hgate⟩ := hok decision rfl
  have hmem : ∀ p, p ∈ decision.consent.granted ↔ p = .notify := by
    intro p
    rw [← mem_toFinset, hgra, mem_toFinset, mem_singleton]
  refine ⟨chain, decision, hinst, ?_, ?_⟩
  · rw [hgate]
    exact ⟨rfl, Or.inr ⟨.notify, (hmem _).mpr rfl, rfl, rfl⟩⟩
  · rw [hgate]
    rintro ⟨-, hnone | ⟨p, hp, hbac⟩⟩
    · exact hnone .camera ⟨rfl, rfl⟩
    · rw [(hmem p).mp hp] at hbac
      exact absurd hbac.2 (by decide)

end Aether.Security
