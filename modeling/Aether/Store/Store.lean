import Aether.Core.Str
import Aether.Security.AppSecurity
import Aether.Store.Fs
import Aether.Store.Trust

/-!
# The app store (`aether-store/src/store.rs`)

What comes from outside is a `StoreEnv`.  The log holds what was installed, launched and
uninstalled, when a store was opened, and which file operations failed.
-/

namespace Aether.Store

open Aether.Core Security Command

inductive StoreError where
  | trustRegistryMissing
  | untrustedPublisher (fingerprint : String)
  | badSignature (reason : String)
  | badManifest (reason : String)
  | unrequestedGrant (permission : String)
  | alreadyInstalled (appId : String)
  | notInstalled (appId : String)
  | consentMismatch (reason : String)
  | persistence (reason : String)
  | launchFailed (reason : String)
  deriving DecidableEq

structure AppInstallRecord where
  appId : String
  version : String
  publisherKeyId : String
  installedAtMs : UInt64
  manifestDigestHex : String
  granted : List AppPermission
  refused : List AppPermission
  planDigestHex : String
  seccompFilter : String
  cgroupSlice : String
  receiptVersion : UInt32
  deriving DecidableEq

structure InstalledApp where
  record : AppInstallRecord
  manifest : AppManifest
  consent : AppConsentRecord
  deriving DecidableEq

structure LaunchOutcome where
  appId : String
  instanceId : UInt64
  seccompFilter : String
  cgroupSlice : String
  planDigestHex : String
  startedAtUnixS : UInt64
  deriving DecidableEq

structure LauncherCall where
  appId : String
  plan : SandboxPlan
  payload : List UInt8
  nowUnixS : UInt64
  deriving DecidableEq

inductive StoreEvent where
  | opened
  | installed (package : AppPackage)
  | launched (app : InstalledApp) (call : LauncherCall)
  | uninstalled (appId : String)
  | fsFailed
  deriving DecidableEq

structure JsonCodec (α β : Type) where
  toVecPretty : α → Except String β
  fromSlice : β → Except String α

structure StoreEnv (σ β : Type) where
  fs : StoreFs σ β
  sha256 : List UInt8 → Digest
  planToVec : SandboxPlan → Except String (List UInt8)
  manifestToVec : AppManifest → Except String (List UInt8)
  manifestCodec : JsonCodec AppManifest β
  consentCodec : JsonCodec AppConsentRecord β
  recordCodec : JsonCodec AppInstallRecord β
  trustCodec : JsonCodec TrustedPublisherRegistry β
  launch : List StoreEvent → LauncherCall → Except String LaunchOutcome

abbrev AppMap (α : Type) := AList fun _ : String => α

structure StoreSystem (σ : Type) where
  fs : σ
  trust : Option TrustedPublisherRegistry
  audit : AuditChain
  installed : AppMap InstalledApp
  nextInstance : UInt64
  payloads : AppMap (List UInt8)
  log : List StoreEvent

abbrev StoreM (σ α : Type) := Command (StoreSystem σ) StoreError α

def trustFile : String := "trust.json"

def manifestPath (entry : String) : String := s!"{entry}/manifest.json"

def consentPath (entry : String) : String := s!"{entry}/consent.json"

def installPath (entry : String) : String := s!"{entry}/install.json"

namespace AppStore

variable {σ β : Type} (x : StoreEnv σ β)

def fsCall {α : Type} (op : σ → Except String α × σ) : StoreM σ (Except String α) := fun s =>
  match op s.fs with
  | (.ok a, fs) => (.ok (.ok a), { s with fs })
  | (.error e, fs) => (.ok (.error e), { s with fs, log := s.log ++ [.fsFailed] })

def fsExists (path : String) : StoreM σ Bool := fun s =>
  match x.fs.pathExists path s.fs with
  | (found, fs) => (.ok found, { s with fs })

def persisted {α : Type} : Except String α → StoreM σ α
  | .ok a => return a
  | .error e => fail (.persistence e)

def logEvent (event : StoreEvent) : StoreM σ Unit :=
  update fun s => { s with log := s.log ++ [event] }

def recordAudit (nowMs : UInt64) (event component detail : String) : StoreM σ Unit := fun s =>
  match s.audit.record x.sha256 nowMs event component detail with
  | some (audit, _) => (.ok (), { s with audit })
  | none => (.panic, s)

def loadTrust : StoreM σ (Option TrustedPublisherRegistry) := do
  let found ← fsExists x trustFile
  if found then
    let bytes ← fsCall (x.fs.read trustFile)
    return bytes.toOption.bind fun bytes => (x.trustCodec.fromSlice bytes).toOption
  else return some ⟨[]⟩

def parseInstalled (installBytes manifestBytes consentBytes : β) : Option InstalledApp := do
  let record ← (x.recordCodec.fromSlice installBytes).toOption
  let manifest ← (x.manifestCodec.fromSlice manifestBytes).toOption
  let consent ← (x.consentCodec.fromSlice consentBytes).toOption
  return { record, manifest, consent }

def addInstalled (app : InstalledApp) : StoreM σ Unit :=
  update fun s => { s with installed := s.installed.insert app.record.appId app }

def rehydrateEntry (entry : String) : StoreM σ Unit := do
  let found ← fsExists x (installPath entry)
  if found then
    let installBytes ← fsCall (x.fs.read (installPath entry))
    match installBytes with
    | .error _ => return ()
    | .ok installBytes => do
      let manifestBytes ← fsCall (x.fs.read (manifestPath entry))
      match manifestBytes with
      | .error _ => return ()
      | .ok manifestBytes => do
        let consentBytes ← fsCall (x.fs.read (consentPath entry))
        match consentBytes with
        | .error _ => return ()
        | .ok consentBytes =>
          match parseInstalled x installBytes manifestBytes consentBytes with
          | none => return ()
          | some app => addInstalled app
  else return ()

def rehydrateEach : List String → StoreM σ Unit
  | [] => return ()
  | entry :: entries => do
    rehydrateEntry x entry
    rehydrateEach entries

def rehydrateInstalls : StoreM σ Unit := do
  let entries ← fsCall (x.fs.list ".")
  match entries with
  | .error _ => return ()
  | .ok entries => rehydrateEach x entries

def new : StoreM σ Unit := do
  update fun s =>
    { fs := s.fs, trust := none, audit := AuditChain.new .default, installed := ∅,
      nextInstance := 0, payloads := ∅, log := s.log ++ [.opened] }
  let trust ← loadTrust x
  update fun s => { s with trust }
  rehydrateInstalls x

def setTrust (trust : TrustedPublisherRegistry) (nowMs : UInt64) : StoreM σ Unit := do
  let json ← persisted ((x.trustCodec.toVecPretty trust).mapError fun e => s!"encode trust: {e}")
  let written ← fsCall (x.fs.write trustFile json)
  persisted written
  recordAudit x nowMs "store.trust.replace" "aether-store" s!"publishers={trust.publishers.length}"
  update fun s => { s with trust := some trust }

def mapInstallError (e : String) : StoreError :=
  if containsText e "schema_version" || containsText e "app_id" || containsText e "publisher" then
    .badManifest e
  else if containsText e "did not request" then .unrequestedGrant e
  else .badManifest e

def sha256Hex (bytes : List UInt8) : String := hexLower (x.sha256 bytes).toList

def checkInstall (package : AppPackage) (userConsent : List AppPermission)
    (s : StoreSystem σ) : Except StoreError Unit := do
  package.manifest.validate.mapError StoreError.badManifest
  match s.trust with
  | none => throw .trustRegistryMissing
  | some trust =>
    if !trust.contains package.manifest.publisherKeyId then
      throw (.untrustedPublisher package.manifest.publisherKeyId)
    else
      match userConsent.find? fun granted => granted ∉ package.manifest.permissions with
      | some granted => throw (.unrequestedGrant granted.asStr)
      | none =>
        if (s.installed.lookup package.manifest.appId).isSome then
          throw (.alreadyInstalled package.manifest.appId)
        else return ()

def buildRecord (package : AppPackage) (userConsent : List AppPermission)
    (decision : AppInstallDecision) (nowMs : UInt64) : Except StoreError AppInstallRecord := do
  let planJson ← (x.planToVec decision.plan).mapError fun e =>
    StoreError.persistence s!"encode plan: {e}"
  let manifestBytes ← (package.canonicalManifestBytes x.manifestToVec).mapError fun e =>
    StoreError.persistence s!"encode manifest: {e}"
  return {
    appId := package.manifest.appId
    version := package.manifest.version
    publisherKeyId := package.manifest.publisherKeyId
    installedAtMs := nowMs
    manifestDigestHex := sha256Hex x manifestBytes
    granted := decision.consent.granted
    refused := refusedPermissions package.manifest userConsent
    planDigestHex := sha256Hex x planJson
    seccompFilter := decision.plan.seccomp.getD ""
    cgroupSlice := decision.plan.resources.cgroupSlice
    receiptVersion := 1 }

def lift {α : Type} : Except StoreError α → StoreM σ α
  | .ok a => return a
  | .error e => fail e

def prepareInstall (package : AppPackage) (userConsent : List AppPermission) (nowMs : UInt64) :
    StoreM σ (AppInstallDecision × AppInstallRecord) := do
  let checked ← peek (checkInstall package userConsent)
  lift checked
  let (decision, detail) ←
    lift ((appInstall package.manifest userConsent nowMs).mapError mapInstallError)
  recordAudit x nowMs "app.install" "app-installer" detail
  let record ← lift (buildRecord x package userConsent decision nowMs)
  return (decision, record)

def writeJson {α : Type} (codec : JsonCodec α β) (what path : String) (a : α) : StoreM σ Unit := do
  let json ← persisted ((codec.toVecPretty a).mapError fun e => s!"encode {what}: {e}")
  let written ← fsCall (x.fs.write path json)
  persisted written

def persistInstall (package : AppPackage) (decision : AppInstallDecision)
    (record : AppInstallRecord) : StoreM σ Unit := do
  let made ← fsCall (x.fs.mkdirAll record.appId)
  persisted made
  writeJson x x.manifestCodec "manifest" (manifestPath record.appId) package.manifest
  writeJson x x.consentCodec "consent" (consentPath record.appId) decision.consent
  writeJson x x.recordCodec "install" (installPath record.appId) record

def commitInstall (package : AppPackage) (decision : AppInstallDecision)
    (record : AppInstallRecord) (nowMs : UInt64) : StoreM σ Unit := do
  recordAudit x nowMs "store.install" "aether-store"
    s!"version={record.receiptVersion} plan_digest={record.planDigestHex}"
  update fun s => { s with
    payloads := s.payloads.insert package.manifest.appId package.payload
    installed := s.installed.insert package.manifest.appId
      { record, manifest := package.manifest, consent := decision.consent }
    log := s.log ++ [.installed package] }

def installSigned (package : AppPackage) (userConsent : List AppPermission) (nowMs : UInt64) :
    StoreM σ AppInstallDecision := do
  let (decision, record) ← prepareInstall x package userConsent nowMs
  persistInstall x package decision record
  commitInstall x package decision record nowMs
  return decision

def checkLaunch (appId : String) (s : StoreSystem σ) :
    Except StoreError (InstalledApp × List UInt8) := do
  match s.installed.lookup appId with
  | none => throw (.notInstalled appId)
  | some app =>
    match s.payloads.lookup appId with
    | none => throw (.persistence s!"no cached payload for {appId}")
    | some payload =>
      let package : AppPackage := { manifest := app.manifest, signature := "", payload }
      let _ ← (verifyConsentForPackage app.consent package).mapError StoreError.consentMismatch
      return (app, payload)

def launch (appId : String) (nowMs : UInt64) : StoreM σ LaunchOutcome := do
  let checked ← peek (checkLaunch appId)
  let (app, payload) ← lift checked
  let call : LauncherCall :=
    { appId, plan := sandboxPlanForApp app.manifest, payload, nowUnixS := nowMs / 1000 }
  let answer ← peek fun s : StoreSystem σ => x.launch s.log call
  logEvent (.launched app call)
  let outcome ← lift (answer.mapError StoreError.launchFailed)
  update fun s => { s with nextInstance := s.nextInstance + 1 }
  let instanceId ← peek fun s : StoreSystem σ => s.nextInstance
  recordAudit x nowMs "store.launch" "aether-store"
    s!"version={app.record.receiptVersion} instance_id={instanceId} plan_digest={app.record.planDigestHex}"
  return { outcome with appId, instanceId }

def uninstall (appId : String) (nowMs : UInt64) : StoreM σ Unit := do
  let found ← peek fun s : StoreSystem σ => (s.installed.lookup appId).isSome
  if found then
    update fun s => { s with
      installed := s.installed.erase appId
      payloads := s.payloads.erase appId
      log := s.log ++ [.uninstalled appId] }
    recordAudit x nowMs "store.uninstall" "aether-store" appId
  else fail (.notInstalled appId)

end AppStore

inductive StoreOp where
  | installSigned (package : AppPackage) (userConsent : List AppPermission) (nowMs : UInt64)
  | launch (appId : String) (nowMs : UInt64)
  | uninstall (appId : String) (nowMs : UInt64)
  | setTrust (trust : TrustedPublisherRegistry) (nowMs : UInt64)
  | reopen

def StoreOp.run {σ β : Type} (x : StoreEnv σ β) : StoreOp → StoreM σ Unit
  | .installSigned package userConsent nowMs => do
    let _ ← AppStore.installSigned x package userConsent nowMs
  | .launch appId nowMs => do let _ ← AppStore.launch x appId nowMs
  | .uninstall appId nowMs => AppStore.uninstall x appId nowMs
  | .setTrust trust nowMs => AppStore.setTrust x trust nowMs
  | .reopen => AppStore.new x

def StoreSystem.step {σ β : Type} (x : StoreEnv σ β) (s : StoreSystem σ) (op : StoreOp) :
    StoreSystem σ :=
  (op.run x s).2

def StoreSystem.run {σ β : Type} (x : StoreEnv σ β) (s : StoreSystem σ) (ops : List StoreOp) :
    StoreSystem σ :=
  ops.foldl (StoreSystem.step x) s

def StoreSystem.start {σ β : Type} (x : StoreEnv σ β) (fs : σ) : StoreSystem σ :=
  (AppStore.new x
    { fs, trust := none, audit := AuditChain.new .default, installed := ∅, nextInstance := 0,
      payloads := ∅, log := [] }).2

end Aether.Store
