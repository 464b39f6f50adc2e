import Aether.Algorithm.Checked
import Aether.Core.Str
import Aether.Runtime.Action

/-!
# The action executor

Each action is one request, and an observation made from the reply.  What the connection does and
what the JSON parser returns are given by an `Io`.
-/

namespace Aether.Runtime

open Aether.Core

inductive Exchange where
  | connectFailed (e : String)
  | timeoutFailed (e : String)
  | sendFailed (e : String)
  | recvFailed (e : String)
  | line (text : String)

structure Io where
  exchange : UInt16 → ℕ → Json → Exchange
  decode : String → Except String Json
  observationId : Uuid
  now : UInt64
  elapsedMs : UInt64

structure ActionExecutor where
  controlPort : UInt16
  surfacePort : UInt16

inductive ExecutorRequest where
  | none
  | ipc (command : String) (parameters : Json)
  | surface (payload : Json)
  | refused (e : AgentError)

def ActionVariant.request : ActionVariant → ExecutorRequest
  | .applicationLaunch app => .ipc "app.launch" (.obj [("app", .str app)])
  | .applicationClose app => .ipc "app.close" (.obj [("app", .str app)])
  | .windowList => .surface (.obj [("op", .str "window.list")])
  | .windowFocus id _ =>
    .surface (.obj [("op", .str "window.focus"), ("window_id", .ofNat (id.getD 0).toNat)])
  | .windowMinimize id =>
    .surface (.obj [("op", .str "window.minimize"), ("window_id", .ofNat id.toNat)])
  | .windowMaximize id =>
    .surface (.obj [("op", .str "window.maximize"), ("window_id", .ofNat id.toNat)])
  | .windowClose (some id) _ =>
    .surface (.obj [("op", .str "window.close"), ("window_id", .ofNat id.toNat)])
  | .windowClose none (some app) =>
    .surface (.obj [("op", .str "window.close"), ("app_id", .str app)])
  | .windowClose none none => .refused (.execution "Window close requires ID or app_id")
  | .fileList path => .ipc "file.list" (.obj [("path", .str path)])
  | .fileRead path => .ipc "file.read" (.obj [("path", .str path)])
  | .fileCreate path content =>
    .ipc "file.create" (.obj [("path", .str path), ("content", .ofOption .str content)])
  | .fileWrite path content =>
    .ipc "file.write" (.obj [("path", .str path), ("content", .str content)])
  | .fileSearch query path =>
    .ipc "file.search" (.obj [("query", .str query), ("path", .ofOption .str path)])
  | .fileRename fromPath toPath =>
    .ipc "file.rename" (.obj [("from", .str fromPath), ("to", .str toPath)])
  | .fileMove fromPath toPath =>
    .ipc "file.move" (.obj [("from", .str fromPath), ("to", .str toPath)])
  | .fileDelete path => .ipc "file.delete" (.obj [("path", .str path)])
  | .processList => .ipc "process.list" (.obj [])
  | .processInspect pid name =>
    .ipc "process.inspect"
      (.obj [("pid", .ofOption (fun p => .ofNat p.toNat) pid), ("name", .ofOption .str name)])
  | .networkStatus => .ipc "network.status" (.obj [])
  | .networkInterfaces => .ipc "network.interfaces" (.obj [])
  | .systemStatus => .ipc "status" (.obj [])
  | .systemInfo => .ipc "system.info" (.obj [])
  | .systemResources => .ipc "system.resources" (.obj [])
  | .systemUptime => .ipc "system.uptime" (.obj [])
  | .serviceRestart service => .ipc "restart" (.obj [("service", .str service)])
  | .storageStatus => .ipc "storage.status" (.obj [])
  | .contextGet => .none
  | .displayList => .ipc "display.list" (.obj [])
  | .displaySetBrightness display level =>
    .ipc "display.set_brightness"
      (.obj [("display_id", .str display), ("level", .ofNat level.toNat)])
  | .displaySetResolution display width height =>
    .ipc "display.set_resolution"
      (.obj [("display_id", .str display), ("width", .ofNat width.toNat),
        ("height", .ofNat height.toNat)])
  | .deviceList => .ipc "device.list" (.obj [])
  | .deviceInspect device => .ipc "device.inspect" (.obj [("device_id", .str device)])
  | .deviceEnable device => .ipc "device.enable" (.obj [("device_id", .str device)])
  | .deviceDisable device => .ipc "device.disable" (.obj [("device_id", .str device)])
  | .systemReboot delayMs => .ipc "system.reboot" (.obj [("delay_ms", .ofNat delayMs.toNat)])
  | .systemShutdown delayMs => .ipc "system.shutdown" (.obj [("delay_ms", .ofNat delayMs.toNat)])
  | .systemSuspend => .ipc "system.suspend" (.obj [])
  | .credentialSeal name plaintext =>
    .ipc "credentials.seal" (.obj [("name", .str name), ("plaintext", .str plaintext)])
  | .credentialUnseal name => .ipc "credentials.unseal" (.obj [("name", .str name)])
  | .policyReload => .ipc "policy.reload" (.obj [])

def ActionVariant.observe (resp : Json) : ActionVariant → ObservationType
  | .applicationLaunch app => .applicationStarted app
  | .applicationClose app => .applicationClosed app
  | .windowList => .windowList (resp.field "windows")
  | .windowFocus id _ => .windowFocused (id.getD 0)
  | .windowMinimize id => .windowMinimized id
  | .windowMaximize id => .windowMaximized id
  | .windowClose id _ => .windowClosed (id.getD 0)
  | .fileList _ => .filesystemResult "list" resp
  | .fileRead _ => .filesystemResult "read" resp
  | .fileCreate _ _ => .filesystemResult "create" resp
  | .fileWrite _ _ => .filesystemResult "write" resp
  | .fileSearch _ _ => .filesystemResult "search" resp
  | .fileRename _ _ => .filesystemResult "rename" resp
  | .fileMove _ _ => .filesystemResult "move" resp
  | .fileDelete _ => .filesystemResult "delete" resp
  | .processList => .processList (resp.field "processes")
  | .processInspect _ _ => .processInspect resp
  | .networkStatus => .networkStatus resp
  | .networkInterfaces => .networkInterfaces resp
  | .systemStatus => .systemStatus resp
  | .systemInfo => .systemInfo resp
  | .systemResources => .systemResources resp
  | .systemUptime => .systemUptime resp
  | .serviceRestart service => .serviceRestarted service
  | .storageStatus => .storageStatus resp
  | .contextGet => .contextSnapshot resp
  | .displayList => .displayList resp
  | .displaySetBrightness display level => .displayBrightnessSet display level
  | .displaySetResolution display width height => .displayResolutionSet display width height
  | .deviceList => .deviceList resp
  | .deviceInspect _ => .deviceInspect resp
  | .deviceEnable device => .deviceEnabled device
  | .deviceDisable device => .deviceDisabled device
  | .systemReboot delayMs => .systemRebootRequested delayMs
  | .systemShutdown delayMs => .systemShutdownRequested delayMs
  | .systemSuspend => .systemSuspendRequested
  | .credentialSeal name _ => .credentialSealed name
  | .credentialUnseal name => .credentialUnsealed name ((resp.field "plaintext").asStr.getD "")
  | .policyReload => .policyReloaded

namespace ActionExecutor

def exchangeLine (io : Io) (port : UInt16) (timeoutSecs : ℕ) (payload : Json)
    (peer reply : String) : Except AgentError Json :=
  match io.exchange port timeoutSecs payload with
  | .connectFailed e => .error (.ipc s!"connect {peer}: {e}")
  | .timeoutFailed e => .error (.ipc e)
  | .sendFailed e => .error (.ipc s!"send: {e}")
  | .recvFailed e => .error (.ipc s!"recv: {e}")
  | .line text =>
    if text.isEmpty then .error (.ipc s!"empty {reply}")
    else (io.decode (trim text)).mapError fun e => .ipc s!"decode: {e}"

def ipcPayload (serviceId command : String) (parameters : Json) : Json :=
  .obj [("service_id", .str serviceId), ("command", .str command), ("parameters", parameters)]

def ipcRequest (io : Io) (port : UInt16) (serviceId command : String) (parameters : Json) :
    Except AgentError Json :=
  exchangeLine io port 10 (ipcPayload serviceId command parameters) (toString port.toNat) "response"

def surfaceRequest (executor : ActionExecutor) (io : Io) (payload : Json) :
    Except AgentError Json :=
  exchangeLine io executor.surfacePort 5 payload "surface" "surface response"

def send (executor : ActionExecutor) (io : Io) : ExecutorRequest → Except AgentError Json
  | .none => .ok (.obj [])
  | .ipc command parameters =>
    ipcRequest io executor.controlPort "aether-system-core" command parameters
  | .surface payload => executor.surfaceRequest io payload
  | .refused e => .error e

def execute (executor : ActionExecutor) (io : Io) (action : Action) :
    Except AgentError ExecutionResult := do
  let resp ← executor.send io action.variant.request
  let observation := Observation.new io.observationId io.now action.id.hyphenated action.sessionId
    (action.variant.observe resp)
  return { success := true, observation, durationMs := io.elapsedMs }

end ActionExecutor

section Recovery

variable (execute : ℕ → Except AgentError ExecutionResult) (elapsedMs : ℕ → UInt64)

def recoveryLoop (policy : RecoveryPolicy) :
    (fuel calls : ℕ) → (attempt : UInt32) → Option (ℕ × Except AgentError ExecutionResult)
  | 0, _, _ => none
  | fuel + 1, calls, attempt =>
    let attempt := saturatingSucc attempt
    let calls := calls + 1
    match execute calls with
    | .ok result => some (calls, .ok { result with durationMs := elapsedMs calls })
    | .error e =>
      match decideRecovery policy attempt.toNat (.fromError e) false with
      | some .retry => recoveryLoop policy fuel calls attempt
      | some .abort | some .skip => some (calls, .error e)
      | none => none

def executeWithRecovery (variant : ActionVariant) (fuel : ℕ) :
    Option (ℕ × Except AgentError ExecutionResult) :=
  recoveryLoop execute elapsedMs (recoveryPolicyFor variant) fuel 0 0

end Recovery

end Aether.Runtime
