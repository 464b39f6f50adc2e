import Mathlib.Data.List.Basic

/-!
# Shared errors (`aether-core/src/error.rs`)
-/

namespace Aether.Core

inductive ErrorKind where
  | io
  | permissionDenied
  | unauthorized
  | notCapable
  | pathTraversal
  | symlinkEscape
  | resourceExhausted
  | notFound
  | invalidInput
  | serviceFailed
  | internal
  | audit
  | config
  | other
  deriving DecidableEq

def ErrorKind.display : ErrorKind → String
  | .io => "IO"
  | .permissionDenied => "PERMISSION_DENIED"
  | .unauthorized => "UNAUTHORIZED"
  | .notCapable => "NOT_CAPABLE"
  | .pathTraversal => "PATH_TRAVERSAL"
  | .symlinkEscape => "SYMLINK_ESCAPE"
  | .resourceExhausted => "RESOURCE_EXHAUSTED"
  | .notFound => "NOT_FOUND"
  | .invalidInput => "INVALID_INPUT"
  | .serviceFailed => "SERVICE_FAILED"
  | .internal => "INTERNAL"
  | .audit => "AUDIT"
  | .config => "CONFIG"
  | .other => "OTHER"

structure AetherError where
  code : ErrorKind
  message : String
  details : List (String × String)
  deriving DecidableEq

namespace AetherError

def new (code : ErrorKind) (message : String) : AetherError := ⟨code, message, []⟩

def pathTraversal (path : String) : AetherError :=
  new .pathTraversal s!"Path traversal detected: {path}"

def symlinkEscape (path target : String) : AetherError :=
  new .symlinkEscape s!"Symlink escape detected: {path} -> {target}"

def notFound (path : String) : AetherError := new .notFound s!"Path not found: {path}"

def invalidInput (msg : String) : AetherError := new .invalidInput msg

def serviceFailed (service reason : String) : AetherError :=
  new .serviceFailed s!"Service {service} failed: {reason}"

end AetherError


inductive ServiceStatus where
  | starting
  | running
  | stopped
  | failed
  | recovering
  deriving DecidableEq

inductive HealthStatus where
  | healthy
  | degraded
  | unhealthy
  deriving DecidableEq

structure ServiceHealth where
  serviceId : String
  status : ServiceStatus
  health : HealthStatus
  pid : Option UInt32
  restarts : UInt32
  failures : UInt32
  uptimeMs : UInt64
  deriving DecidableEq

/-!
## Capabilities (`aether-core/src/capability.rs`)
-/

inductive CapabilityDomain where
  | filesystem
  | network
  | process
  | storage
  | system
  | audit
  | identity
  | application
  deriving DecidableEq

def CapabilityDomain.display : CapabilityDomain → String
  | .filesystem => "filesystem"
  | .network => "network"
  | .process => "process"
  | .storage => "storage"
  | .system => "system"
  | .audit => "audit"
  | .identity => "identity"
  | .application => "application"

inductive RiskLevel where
  | low
  | medium
  | high
  | critical
  deriving DecidableEq

def RiskLevel.debug : RiskLevel → String
  | .low => "Low"
  | .medium => "Medium"
  | .high => "High"
  | .critical => "Critical"

def RiskLevel.rank : RiskLevel → Nat
  | .low => 0
  | .medium => 1
  | .high => 2
  | .critical => 3

instance : LE RiskLevel := ⟨fun a b => a.rank ≤ b.rank⟩

instance (a b : RiskLevel) : Decidable (a ≤ b) := inferInstanceAs (Decidable (a.rank ≤ b.rank))

structure Capability where
  domain : CapabilityDomain
  name : String
  riskLevel : RiskLevel
  deriving DecidableEq

def Capability.qualifiedName (c : Capability) : String := s!"{c.domain.display}.{c.name}"

/-!
## Service manifests (`aether-core/src/manifest.rs`)

The fields that the dependency graph and the service manager read, and those that only the
validation of a manifest reads.
-/

inductive ServiceType where
  | internal
  | process
  deriving DecidableEq

inductive RestartPolicy where
  | never
  | onFailure
  | always
  deriving DecidableEq

inductive SandboxProfile where
  | internal
  | systemService
  | restrictedService
  deriving DecidableEq

structure ServiceManifest where
  serviceId : String
  serviceType : ServiceType
  command : Option String
  dependencies : List String
  startupPriority : UInt32
  restartPolicy : RestartPolicy
  restartLimit : UInt32
  sandboxProfile : SandboxProfile
  deriving DecidableEq

structure ManifestDocument extends ServiceManifest where
  schemaVersion : String
  name : String
  deriving DecidableEq

def manifestSchemaVersion : String := "1"

def ManifestDocument.validate (m : ManifestDocument) : Except AetherError Unit :=
  if m.schemaVersion ≠ manifestSchemaVersion then
    .error (.invalidInput s!"Unsupported manifest schema version: {m.schemaVersion}")
  else if m.serviceId = "" then .error (.invalidInput "service_id is required")
  else if m.name = "" then .error (.invalidInput "name is required")
  else if m.serviceType = .process ∧ m.command = none then
    .error (.invalidInput "command is required for process services")
  else .ok ()

/-!
## Application packages

`AppManifest`, its `validate` and `is_valid_app_id` from `aether-core`.  A manifest is serialised
as a whole when it is signed, so the record has all of its fields.
-/

def appPackageSchemaVersion : String := "1"

inductive AppPermission where
  | readUserFiles
  | writeUserFiles
  | networkEgress
  | networkListen
  | readPersonalData
  | notify
  | captureScreen
  | camera
  | microphone
  | location
  | pairDevices
  deriving DecidableEq

def AppPermission.asStr : AppPermission → String
  | .readUserFiles => "read-user-files"
  | .writeUserFiles => "write-user-files"
  | .networkEgress => "network-egress"
  | .networkListen => "network-listen"
  | .readPersonalData => "read-personal-data"
  | .notify => "notify"
  | .captureScreen => "capture-screen"
  | .camera => "camera"
  | .microphone => "microphone"
  | .location => "location"
  | .pairDevices => "pair-devices"

structure AppResourceLimits where
  cpuWeight : UInt32
  memoryMaxBytes : Option UInt64
  pidsMax : Option UInt32
  ioWeight : UInt32
  deriving DecidableEq

structure AppManifest where
  schemaVersion : String
  appId : String
  name : String
  version : String
  publisher : String
  description : String
  minOsVersion : String
  permissions : List AppPermission
  sandboxProfile : SandboxProfile
  resources : AppResourceLimits
  binarySha256 : String
  payloadLen : UInt64
  dependsOn : List String
  timestampMs : UInt64
  publisherKeyId : String
  deriving DecidableEq

def isValidSegment (seg : List Char) : Bool :=
  !seg.isEmpty && (String.ofList seg).utf8ByteSize ≤ 63 &&
    seg.head? != some '-' && seg.getLast? != some '-' &&
    seg.all fun c => c.isLower || c.isDigit || c == '-'

def isValidAppId (id : String) : Bool :=
  if id.isEmpty || 253 < id.utf8ByteSize then false
  else
    let segments := id.toList.splitOn '.'
    if segments.length < 2 then false
    else segments.all isValidSegment

def isAsciiHexdigit (c : Char) : Bool :=
  c.isDigit || ('a' ≤ c && c ≤ 'f') || ('A' ≤ c && c ≤ 'F')

def AppManifest.validate (m : AppManifest) : Except String Unit := do
  if m.schemaVersion ≠ appPackageSchemaVersion then
    throw s!"unsupported app manifest schema_version '{m.schemaVersion}' (this build expects '{appPackageSchemaVersion}')"
  if m.appId.isEmpty then throw "app_id is required"
  if !isValidAppId m.appId then
    throw s!"app_id '{m.appId}' is not a valid reverse-DNS identifier"
  if m.name.isEmpty then throw "name is required"
  if m.version.isEmpty then throw "version is required"
  if m.publisher.isEmpty then throw "publisher is required"
  if m.publisherKeyId.isEmpty then throw "publisher_key_id is required"
  if m.minOsVersion.isEmpty then throw "min_os_version is required"
  if m.binarySha256.utf8ByteSize ≠ 64 || !m.binarySha256.toList.all isAsciiHexdigit then
    throw s!"binary_sha256 '{m.binarySha256}' is not a 64-character hex string"
  if m.payloadLen = 0 then throw "payload_len must be > 0"
  if m.resources.cpuWeight < 1 || m.resources.cpuWeight > 10000 then
    throw s!"cpu_weight {m.resources.cpuWeight} is outside the cgroup v2 range 1..=10000"
  if m.resources.ioWeight < 1 || m.resources.ioWeight > 10000 then
    throw s!"io_weight {m.resources.ioWeight} is outside the cgroup v2 range 1..=10000"

structure AppPackage where
  manifest : AppManifest
  signature : String
  payload : List UInt8
  deriving DecidableEq

def AppPackage.canonicalManifestBytes (toVec : AppManifest → Except String (List UInt8))
    (package : AppPackage) : Except String (List UInt8) :=
  (toVec package.manifest).mapError fun e => s!"encode manifest: {e}"

def appCgroupSlice (appId : String) : String :=
  let sanitised := String.ofList (appId.toList.map fun c => if c.isAlphanum then c else '_')
  s!"aether.slice/app.{sanitised}.slice"

/-!
## Kernel sandbox plans (`aether-core/src/sandbox.rs`)

The plan a launcher has to enforce, and `plan_sandbox`, which derives it from a profile.
-/

inductive LinuxCapability where
  | chown
  | dacOverride
  | dacReadSearch
  | fowner
  | fsetid
  | kill
  | setgid
  | setuid
  | setpcap
  | linuxImmutable
  | netBindService
  | netBroadcast
  | netAdmin
  | netRaw
  | ipcLock
  | ipcOwner
  | sysModule
  | sysRawio
  | sysChroot
  | sysPtrace
  | sysPacct
  | sysAdmin
  | sysBoot
  | sysNice
  | sysResource
  | sysTime
  | sysTtyConfig
  | mknod
  | lease
  | auditWrite
  | auditControl
  | setfcap
  | macOverride
  | macAdmin
  | syslog
  | wakeAlarm
  | blockSuspend
  | auditRead
  | perfmon
  | bpf
  | checkpointRestore
  deriving DecidableEq

def LinuxCapability.name : LinuxCapability → String
  | .chown => "chown"
  | .dacOverride => "dac_override"
  | .dacReadSearch => "dac_read_search"
  | .fowner => "fowner"
  | .fsetid => "fsetid"
  | .kill => "kill"
  | .setgid => "setgid"
  | .setuid => "setuid"
  | .setpcap => "setpcap"
  | .linuxImmutable => "linux_immutable"
  | .netBindService => "net_bind_service"
  | .netBroadcast => "net_broadcast"
  | .netAdmin => "net_admin"
  | .netRaw => "net_raw"
  | .ipcLock => "ipc_lock"
  | .ipcOwner => "ipc_owner"
  | .sysModule => "sys_module"
  | .sysRawio => "sys_rawio"
  | .sysChroot => "sys_chroot"
  | .sysPtrace => "sys_ptrace"
  | .sysPacct => "sys_pacct"
  | .sysAdmin => "sys_admin"
  | .sysBoot => "sys_boot"
  | .sysNice => "sys_nice"
  | .sysResource => "sys_resource"
  | .sysTime => "sys_time"
  | .sysTtyConfig => "sys_tty_config"
  | .mknod => "mknod"
  | .lease => "lease"
  | .auditWrite => "audit_write"
  | .auditControl => "audit_control"
  | .setfcap => "setfcap"
  | .macOverride => "mac_override"
  | .macAdmin => "mac_admin"
  | .syslog => "syslog"
  | .wakeAlarm => "wake_alarm"
  | .blockSuspend => "block_suspend"
  | .auditRead => "audit_read"
  | .perfmon => "perfmon"
  | .bpf => "bpf"
  | .checkpointRestore => "checkpoint_restore"

inductive LinuxNamespace where
  | mount
  | pid
  | network
  | ipc
  | uts
  | user
  | cgroup
  deriving DecidableEq

structure ResourceLimits where
  cgroupSlice : String
  cpuWeight : UInt32
  memoryMaxBytes : Option UInt64
  pidsMax : Option UInt32
  ioWeight : UInt32
  deriving DecidableEq

namespace ResourceLimits

def systemDefault : ResourceLimits :=
  { cgroupSlice := "aether.slice/system.service.slice", cpuWeight := 100, memoryMaxBytes := none,
    pidsMax := some 256, ioWeight := 100 }

def restrictedDefault : ResourceLimits :=
  { cgroupSlice := "aether.slice/restricted.app.slice", cpuWeight := 50,
    memoryMaxBytes := some (512 * 1024 * 1024), pidsMax := some 64, ioWeight := 50 }

end ResourceLimits

structure SandboxPlan where
  profile : SandboxProfile
  namespaces : List LinuxNamespace
  capabilities : List LinuxCapability
  noNewPrivs : Bool
  seccomp : Option String
  resources : ResourceLimits
  rationale : String
  deriving DecidableEq

def planSandbox : SandboxProfile → SandboxPlan
  | .internal =>
    { profile := .internal, namespaces := [], capabilities := [], noNewPrivs := false,
      seccomp := none,
      resources :=
        { cgroupSlice := "aether.slice/internal.slice", cpuWeight := 100, memoryMaxBytes := none,
          pidsMax := none, ioWeight := 100 }
      rationale :=
        "internal services run inside the system-core address space; no kernel sandbox is applied" }
  | .systemService =>
    { profile := .systemService, namespaces := [.user, .mount, .uts],
      capabilities :=
        [.chown, .fowner, .fsetid, .setgid, .setuid, .setpcap, .netBindService, .kill, .sysTime,
          .sysResource, .auditWrite]
      noNewPrivs := true, seccomp := some "system-service-v1",
      resources := ResourceLimits.systemDefault,
      rationale := "system services get a user namespace, the Linux capabilities they actually need, a seccomp allow-list, and no_new_privs so setuid binaries cannot escalate" }
  | .restrictedService =>
    { profile := .restrictedService, namespaces := [.user, .mount, .pid, .network, .ipc, .uts],
      capabilities := [], noNewPrivs := true, seccomp := some "restricted-app-v1",
      resources := ResourceLimits.restrictedDefault,
      rationale := "user-facing apps run in their own user+pid+network namespace, drop every ambient capability, and are constrained to a strict seccomp allow-list" }

end Aether.Core
