import Aether.Core.Manifest
import Aether.Security.Audit
import Mathlib.Data.List.Sort

/-!
# Consent and sandbox plans of apps (`aether-security/src/app_security.rs`)

The install-time consent flow, the sandbox plan of an app, the check of a consent record against a
package and the gate that consults the record at run time.
-/

namespace Aether.Security

open Aether.Core

structure AppConsentRecord where
  appId : String
  publisherKeyId : String
  granted : List AppPermission
  grantedAtMs : UInt64
  version : UInt32
  deriving DecidableEq

structure AppInstallDecision where
  manifest : AppManifest
  consent : AppConsentRecord
  plan : SandboxPlan
  refused : List AppPermission
  deriving DecidableEq

def sandboxPlanForApp (manifest : AppManifest) : SandboxPlan :=
  let plan := planSandbox .restrictedService
  { plan with
    resources :=
      { plan.resources with
        cgroupSlice := appCgroupSlice manifest.appId
        memoryMaxBytes := manifest.resources.memoryMaxBytes.or plan.resources.memoryMaxBytes } }

def refusedPermissions (manifest : AppManifest) (userConsent : List AppPermission) :
    List AppPermission :=
  manifest.permissions.filter fun p => p ∉ userConsent

def consentFor (manifest : AppManifest) (userConsent : List AppPermission) (grantedAtMs : UInt64) :
    AppConsentRecord :=
  { appId := manifest.appId, publisherKeyId := manifest.publisherKeyId,
    granted := userConsent.insertionSort fun a b => a.asStr ≤ b.asStr,
    grantedAtMs, version := 1 }

def appInstall (manifest : AppManifest) (userConsent : List AppPermission) (grantedAtMs : UInt64) :
    Except String (AppInstallDecision × String) := do
  manifest.validate
  match userConsent.find? fun granted => granted ∉ manifest.permissions with
  | some granted => throw s!"user granted '{granted.asStr}' but the manifest did not request it"
  | none =>
    let refused := refusedPermissions manifest userConsent
    let consent := consentFor manifest userConsent grantedAtMs
    let plan := sandboxPlanForApp manifest
    let refusedStrs := String.intercalate "," (refused.map fun p => p.asStr)
    let seccomp := plan.seccomp.getD "none"
    let detail := s!"version={consent.version} refused=[{refusedStrs}] plan_seccomp={seccomp} plan_slice={plan.resources.cgroupSlice}"
    return ({ manifest, consent, plan, refused }, detail)

def AppInstaller.install (sha256 : List UInt8 → Digest) (auditChain : AuditChain)
    (manifest : AppManifest) (userConsent : List AppPermission) (grantedAtMs : UInt64) :
    Option (AuditChain × Except String AppInstallDecision) :=
  match appInstall manifest userConsent grantedAtMs with
  | .error e => some (auditChain, .error e)
  | .ok (decision, detail) =>
    (auditChain.record sha256 grantedAtMs "app.install" "app-installer" detail).map fun r =>
      (r.1, .ok decision)

def verifyConsentForPackage (consent : AppConsentRecord) (package : AppPackage) :
    Except String String :=
  if consent.appId ≠ package.manifest.appId then
    .error s!"consent record is for '{consent.appId}' but package is for '{package.manifest.appId}'"
  else if consent.publisherKeyId ≠ package.manifest.publisherKeyId then
    .error s!"consent record was issued for publisher '{consent.publisherKeyId}' but package is signed by '{package.manifest.publisherKeyId}'"
  else .ok package.manifest.publisherKeyId

def AppConsentRecord.grants (consent : AppConsentRecord) (permission : AppPermission) : Bool :=
  permission ∈ consent.granted

def appPermissionCapability : AppPermission → Capability
  | .readUserFiles => ⟨.filesystem, "user.read", .medium⟩
  | .writeUserFiles => ⟨.filesystem, "user.write", .high⟩
  | .networkEgress => ⟨.network, "egress", .high⟩
  | .networkListen => ⟨.network, "listen", .high⟩
  | .readPersonalData => ⟨.identity, "personal.read", .high⟩
  | .notify => ⟨.application, "notify", .low⟩
  | .captureScreen => ⟨.application, "screen.capture", .critical⟩
  | .camera => ⟨.application, "camera", .high⟩
  | .microphone => ⟨.application, "microphone", .high⟩
  | .location => ⟨.application, "location", .high⟩
  | .pairDevices => ⟨.application, "pair.devices", .medium⟩

def gatedCapabilities : List (CapabilityDomain × String × AppPermission) :=
  [(.filesystem, "user.read", .readUserFiles), (.filesystem, "user.write", .writeUserFiles),
    (.network, "egress", .networkEgress), (.network, "listen", .networkListen),
    (.identity, "personal.read", .readPersonalData), (.application, "notify", .notify),
    (.application, "screen.capture", .captureScreen), (.application, "camera", .camera),
    (.application, "microphone", .microphone), (.application, "location", .location),
    (.application, "pair.devices", .pairDevices)]

def appPermissionForCapability (capability : Capability) : Option AppPermission :=
  (gatedCapabilities.find? fun entry =>
    capability.domain == entry.1 && capability.name == entry.2.1).map fun entry => entry.2.2

structure GateVerdict where
  allowed : Bool
  reason : String
  deriving DecidableEq

def GateVerdict.allow (reason : String) : GateVerdict := ⟨true, reason⟩

def GateVerdict.deny (reason : String) : GateVerdict := ⟨false, reason⟩

structure AppPermissionGate where
  consent : AppConsentRecord
  deriving DecidableEq

def AppPermissionGate.evaluate (gate : AppPermissionGate) (appId : String)
    (capability : Capability) : GateVerdict :=
  if appId ≠ gate.consent.appId then
    .deny s!"consent record is for '{gate.consent.appId}', not '{appId}'"
  else
    match appPermissionForCapability capability with
    | none => .allow "system capability not gated by user consent"
    | some permission =>
      if gate.consent.grants permission then
        .allow s!"user granted '{permission.asStr}' at install time"
      else
        .deny s!"user did not grant '{permission.asStr}' (capability {capability.qualifiedName} at {capability.riskLevel.debug} risk)"

end Aether.Security
