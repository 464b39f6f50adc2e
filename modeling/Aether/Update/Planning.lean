import Aether.Core.Str
import Aether.Security.Signing
import Aether.Update.Agent

/-!
# The version policy (`aether-update-core/src/version.rs`)

Versions are `MAJOR.MINOR.PATCH` with an optional `-prerelease`.  The policy compares the numbers,
treats a changed pre-release suffix as a case of its own, and lets the action decide about a
version that is the same.
-/

namespace Aether.Update

open Aether.Core (Str)

inductive UpdateAction where
  | upgradeOsImage
  | reinstallOsImage
  | upgradeServiceBundle
  | reinstallServiceBundle
  | upgradeAgentModel
  deriving DecidableEq

inductive VersionRequirement where
  | upgrade
  | downgrade
  | same
  | prerelease
  deriving DecidableEq

structure ParsedVersion where
  major : UInt32
  minor : UInt32
  patch : UInt32
  pre : Option Str
  deriving DecidableEq

namespace ParsedVersion

def isPrerelease (p : Str) : Bool :=
  !p.isEmpty && p.len ≤ 32 && p.all fun c => c.isAlphanum || c == '-' || c == '.'

def parse (raw : String) : Option ParsedVersion :=
  let (core, pre) :=
    match Str.splitOnce raw.toList '-' with
    | some (core, pre) => (core, some pre)
    | none => (raw.toList, none)
  match core.splitOn '.' with
  | [major, minor, patch] => do
    let major ← Str.parseU32 major
    let minor ← Str.parseU32 minor
    let patch ← Str.parseU32 patch
    if pre.all isPrerelease then return { major, minor, patch, pre } else none
  | _ => none

def numericCmp (v w : ParsedVersion) : Ordering :=
  ((compare v.major w.major).then (compare v.minor w.minor)).then (compare v.patch w.patch)

def display (v : ParsedVersion) : String :=
  let numbers := s!"{v.major}.{v.minor}.{v.patch}"
  match v.pre with
  | some pre => numbers ++ "-" ++ String.ofList pre
  | none => numbers

end ParsedVersion

structure VersionPolicyDecision where
  requirement : VersionRequirement
  allowed : Bool
  reason : String
  deriving DecidableEq

namespace VersionPolicyDecision

def allow (requirement : VersionRequirement) : VersionPolicyDecision := ⟨requirement, true, ""⟩

def deny (requirement : VersionRequirement) (reason : String) : VersionPolicyDecision :=
  ⟨requirement, false, reason⟩

end VersionPolicyDecision

structure VersionPolicy where
  allowDowngrade : Bool := false
  allowPrerelease : Bool := false
  deriving DecidableEq

open VersionPolicyDecision in
def VersionPolicy.compareVersions (policy : VersionPolicy) (action : UpdateAction)
    (installed target : ParsedVersion) : VersionPolicyDecision :=
  let sameNumeric := installed.numericCmp target == .eq
  if sameNumeric && installed.pre != target.pre then
    if policy.allowPrerelease then allow .prerelease
    else
      deny .prerelease
        s!"pre-release target '{target.display}' is not allowed by the version policy"
  else
    match installed.numericCmp target with
    | .lt => allow .upgrade
    | .gt =>
      if policy.allowDowngrade then allow .downgrade
      else
        deny .downgrade (s!"downgrade from '{installed.display}' to '{target.display}' " ++
          "is not allowed by the version policy")
    | .eq =>
      match action with
      | .reinstallOsImage | .reinstallServiceBundle => allow .same
      | .upgradeOsImage | .upgradeServiceBundle | .upgradeAgentModel =>
        deny .same (s!"target version '{target.display}' is identical to the installed version " ++
          "for an upgrade")

open VersionPolicyDecision in
def VersionPolicy.evaluate (policy : VersionPolicy) (action : UpdateAction)
    (installed target : String) : VersionPolicyDecision :=
  match ParsedVersion.parse installed with
  | none => deny .same s!"installed version '{installed}' is not a valid Aether version"
  | some installedVersion =>
    match ParsedVersion.parse target with
    | none => deny .same s!"target version '{target}' is not a valid Aether version"
    | some targetVersion => policy.compareVersions action installedVersion targetVersion

/-!
## Update plans and snapshots (`aether-update-core`: `plan.rs`, `recovery.rs`)

The fields of a plan that the apply engines read, and the record of a component in a snapshot.
-/

structure UpdatePlan where
  target : String
  version : String
  timestampMs : UInt64
  deriving DecidableEq

def UpdatePlan.planId (plan : UpdatePlan) : String := s!"{plan.target}@{plan.timestampMs}"

structure SnapshotComponent where
  target : String
  fromVersion : String
  stashPath : String
  note : Option String
  deriving DecidableEq

def SnapshotComponent.new (target fromVersion stashPath : String) : SnapshotComponent :=
  ⟨target, fromVersion, stashPath, none⟩

/-!
## From signed updates to plans (`aether-update-core/src/plan.rs`)

`plan_from_signed_update` asks the version policy twice: once to learn how the versions relate, and
once more with the action that follows from that.
-/

open Security (SignedUpdate UpdateKind)

structure PlannedUpdate extends UpdatePlan where
  kind : UpdateKind
  action : UpdateAction
  signerFingerprint : String
  payloadLen : ℕ
  versionDecision : VersionPolicyDecision
  deriving DecidableEq

inductive UpdatePlanError where
  | policyDenied (reason : String)
  | emptyTarget
  | emptyVersion
  | emptyPayload
  deriving DecidableEq

def actionPlaceholder : UpdateKind → UpdateAction
  | .osImage => .upgradeOsImage
  | .serviceBundle => .upgradeServiceBundle
  | .agentModel => .upgradeAgentModel

def deriveAction : UpdateKind → VersionRequirement → UpdateAction
  | .osImage, .same => .reinstallOsImage
  | .serviceBundle, .same => .reinstallServiceBundle
  | .osImage, _ => .upgradeOsImage
  | .serviceBundle, _ => .upgradeServiceBundle
  | .agentModel, _ => .upgradeAgentModel

def planFromSignedUpdate (update : SignedUpdate) (installedVersion : Option String)
    (policy : VersionPolicy) : Except UpdatePlanError PlannedUpdate := do
  if update.header.target.isEmpty then throw .emptyTarget
  if update.header.version.isEmpty then throw .emptyVersion
  if update.header.payloadLen = 0 then throw .emptyPayload
  let installed := installedVersion.getD "0.0.0"
  let pre := policy.evaluate (actionPlaceholder update.header.kind) installed update.header.version
  let action := deriveAction update.header.kind pre.requirement
  let decision := policy.evaluate action installed update.header.version
  if !decision.allowed then throw (.policyDenied decision.reason)
  return {
    target := update.header.target
    version := update.header.version
    timestampMs := update.header.timestampMs
    kind := update.header.kind
    action
    signerFingerprint := update.header.signerKeyId
    payloadLen := update.header.payloadLen
    versionDecision := decision }

def acceptedPlans (policy : VersionPolicy) : Option String → List SignedUpdate → List PlannedUpdate
  | _, [] => []
  | installed, update :: updates =>
    match planFromSignedUpdate update installed policy with
    | .ok plan => plan :: acceptedPlans policy (some plan.version) updates
    | .error _ => acceptedPlans policy installed updates

end Aether.Update
