import Aether.Core.Json
import Aether.Device.Registry

/-!
# Device commands (`aether-system-core/src/main.rs`, `dispatch_inner`)

A string parameter is `none` if it is missing or not a string; a parameter that is deserialized is
`none` if it is missing and otherwise the value or the text of the error.
-/

namespace Aether.SystemCore

open Aether.Core Device
open Security (asBytes)

structure IpcError where
  code : String
  message : String
  deriving DecidableEq

inductive DeviceCommand where
  | register (deviceId deviceClass fingerprint : Option String)
      (grant : Option (Except String PairingGrant))
  | pairBegin (deviceId : Option String)
  | pairComplete (request : Option (Except String PairingRequest))
      (acceptance : Option (Except String PairingAcceptance)) (localCode : Option String)
  | revoke (deviceId : Option String)
  | unregister (deviceId : Option String)

abbrev DeviceResult := Except IpcError (Json × DeviceRegistry)

def invalidInput (message : String) : IpcError := ⟨"INVALID_INPUT", message⟩

def required (name : String) (parameter : Option α) : Except IpcError α :=
  match parameter with
  | some value => .ok value
  | none => .error (invalidInput s!"parameter '{name}' is required")

def decoded (name : String) (value : Except String α) : Except IpcError α :=
  match value with
  | .ok a => .ok a
  | .error e => .error (invalidInput s!"{name} decode: {e}")

def parseDeviceId (id : String) : Except IpcError DeviceId :=
  match DeviceId.new id with
  | some deviceId => .ok deviceId
  | none => .error (invalidInput "device id is empty or too long")

def parseDeviceClass : String → Except IpcError DeviceClass
  | "phone" => .ok .phone
  | "tablet" => .ok .tablet
  | "laptop" => .ok .laptop
  | "desktop" => .ok .desktop
  | "iot" => .ok .iot
  | "server" => .ok .server
  | "external" => .ok .external
  | "other" => .ok .other
  | other => .error (invalidInput s!"unknown device class '{other}'")

def hexValue (b : UInt8) : Option UInt8 :=
  if 0x30 ≤ b && b ≤ 0x39 then some (b - 0x30)
  else if 0x61 ≤ b && b ≤ 0x66 then some (b - 0x61 + 10)
  else if 0x41 ≤ b && b ≤ 0x46 then some (b - 0x41 + 10)
  else none

def decodeHexPairs : List UInt8 → Option (List UInt8)
  | [] => some []
  | [_] => none
  | hi :: lo :: rest => do
    let hi ← hexValue hi
    let lo ← hexValue lo
    let bytes ← decodeHexPairs rest
    return (hi * 16 + lo) :: bytes

def decodeHex32 (s : String) : Option (Vector UInt8 32) := do
  let bytes ← decodeHexPairs (asBytes s)
  if h : bytes.length = 32 then return ⟨bytes.toArray, by simpa using h⟩ else none

def parseFingerprint (fingerprint : Option String) : Except IpcError DeviceFingerprint :=
  match fingerprint with
  | none => .error (invalidInput "parameter 'fingerprint' is required (64 hex chars)")
  | some s =>
    match decodeHex32 s with
    | some bytes => .ok ⟨bytes⟩
    | none => .error (invalidInput "fingerprint must be 64 hex chars")

def readGrant (grant : Option (Except String PairingGrant)) : Except IpcError PairingGrant :=
  match grant with
  | some value => decoded "grant" value
  | none => .ok .permissive

def registryErrorCode : DeviceRegistryError → String
  | .full => "REGISTRY_FULL"
  | .alreadyRegistered => "ALREADY_REGISTERED"
  | .unknownDevice => "UNKNOWN_DEVICE"

def pairingErrorCode : PairingError → String
  | .codeMismatch => "CODE_MISMATCH"
  | .fingerprintMismatch => "FINGERPRINT_MISMATCH"
  | .identityMismatch => "IDENTITY_MISMATCH"
  | .requestExpired => "REQUEST_EXPIRED"
  | .alreadyPaired => "ALREADY_PAIRED"
  | .terminalState => "TERMINAL_STATE"

def notRegistered (id : String) : IpcError := ⟨"NOT_FOUND", s!"device '{id}' is not registered"⟩

def stateReply (id : String) (state : PairingState) : Json :=
  .obj [("id", .str id), ("state", .str state.asStr)]

def fingerprintJson (f : DeviceFingerprint) : Json :=
  .arr (f.bytes.toList.map fun b => .ofNat b.toNat)

def grantJson (g : PairingGrant) : Json :=
  .obj [("receive_observations", .bool g.receiveObservations),
    ("receive_proposals", .bool g.receiveProposals),
    ("execute_remote_tasks", .bool g.executeRemoteTasks)]

def entryJson (e : RegisteredDevice) : Json :=
  .obj [("device_id", .str e.deviceId.value), ("device_class", .str e.deviceClass.asStr),
    ("fingerprint", fingerprintJson e.fingerprint),
    ("pairing", .obj [("device_id", .str e.pairing.deviceId.value),
      ("device_class", .str e.pairing.deviceClass.asStr),
      ("fingerprint", fingerprintJson e.pairing.fingerprint),
      ("state", .str e.pairing.state.asStr), ("grant", grantJson e.pairing.grant),
      ("last_transition_ms", .ofNat e.pairing.lastTransitionMs.toNat)])]

def handleRegister (now : UInt64) (deviceId deviceClass fingerprint : Option String)
    (grant : Option (Except String PairingGrant)) (r : DeviceRegistry) : DeviceResult := do
  let id ← required "device_id" deviceId
  let deviceClass ← required "device_class" deviceClass
  let deviceClass ← parseDeviceClass deviceClass
  let fingerprint ← parseFingerprint fingerprint
  let grant ← readGrant grant
  let deviceId ← parseDeviceId id
  match r.register deviceId deviceClass fingerprint grant now with
  | .ok r' => .ok (stateReply id .available, r')
  | .error e => .error ⟨registryErrorCode e, e.display⟩

def finishTransition (now : UInt64) (id : String) (deviceId : DeviceId) (next : PairingState)
    (r : DeviceRegistry) : DeviceResult :=
  match r.transition deviceId next now with
  | .ok r' => .ok (stateReply id next, r')
  | .error e => .error ⟨"REGISTRY_ERROR", e.display⟩

def currentState (id : String) (deviceId : DeviceId) (r : DeviceRegistry) :
    Except IpcError PairingState :=
  match r.get deviceId with
  | some entry => .ok entry.pairing.state
  | none => .error (notRegistered id)

def handlePairBegin (now : UInt64) (deviceId : Option String) (r : DeviceRegistry) :
    DeviceResult := do
  let id ← required "device_id" deviceId
  let deviceId ← parseDeviceId id
  let current ← currentState id deviceId r
  if current = .available ∨ current = .cancelled then finishTransition now id deviceId .pairing r
  else .error ⟨"INVALID_STATE", s!"device is in '{current.asStr}' state; only Available or Cancelled can begin pairing"⟩

def readLocalCode (localCode : Option String) (request : PairingRequest) :
    Except IpcError PairingCode :=
  match localCode with
  | none => .ok request.code
  | some s =>
    match PairingCode.new s with
    | some code => .ok code
    | none => .error (invalidInput "local_code is not a 6-digit decimal")

def handlePairComplete (now : UInt64) (request : Option (Except String PairingRequest))
    (acceptance : Option (Except String PairingAcceptance)) (localCode : Option String)
    (r : DeviceRegistry) : DeviceResult := do
  let request ← required "request" request
  let acceptance ← required "acceptance" acceptance
  let request ← decoded "request" request
  let acceptance ← decoded "acceptance" acceptance
  let localCode ← readLocalCode localCode request
  let synthetic := { request with code := localCode }
  match validateAcceptance synthetic acceptance 60000 now with
  | .error e => .error ⟨pairingErrorCode e, e.display⟩
  | .ok () => do
    let deviceId ← parseDeviceId acceptance.deviceId.value
    let current ← currentState acceptance.deviceId.value deviceId r
    if current = .pairing then finishTransition now acceptance.deviceId.value deviceId .paired r
    else .error ⟨"INVALID_STATE", s!"device is in '{current.asStr}' state; only Pairing can be completed"⟩

def handleRevoke (now : UInt64) (deviceId : Option String) (r : DeviceRegistry) :
    DeviceResult := do
  let id ← required "device_id" deviceId
  let deviceId ← parseDeviceId id
  let _ ← currentState id deviceId r
  finishTransition now id deviceId .revoked r

def handleUnregister (deviceId : Option String) (r : DeviceRegistry) : DeviceResult := do
  let id ← required "device_id" deviceId
  let deviceId ← parseDeviceId id
  match r.unregister deviceId with
  | (some entry, r') => .ok (.obj [("id", .str id), ("removed", entryJson entry)], r')
  | (none, _) => .error (notRegistered id)

def DeviceCommand.handle (now : UInt64) : DeviceCommand → DeviceRegistry → DeviceResult
  | .register deviceId deviceClass fingerprint grant =>
    handleRegister now deviceId deviceClass fingerprint grant
  | .pairBegin deviceId => handlePairBegin now deviceId
  | .pairComplete request acceptance localCode =>
    handlePairComplete now request acceptance localCode
  | .revoke deviceId => handleRevoke now deviceId
  | .unregister deviceId => handleUnregister deviceId

abbrev TimedCommand := UInt64 × DeviceCommand

def deviceStep (r : DeviceRegistry) (c : TimedCommand) : DeviceRegistry :=
  match c.2.handle c.1 r with
  | .ok (_, r') => r'
  | .error _ => r

def deviceRun (commands : List TimedCommand) : DeviceRegistry :=
  commands.foldl deviceStep DeviceRegistry.new

end Aether.SystemCore
