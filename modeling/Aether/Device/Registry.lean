import Aether.Algorithm.AssocList
import Aether.Security.Audit

/-!
# Device identities and pairing (`aether-device-core`: `identity.rs`, `fingerprint.rs`,
`pairing.rs`)

A `DeviceId` or `PairingCode` that was deserialized has not gone through `new`, so neither type
carries the check that `new` makes.
-/

namespace Aether.Device

open Security (asBytes saturatingSub)

def deviceIdMaxLen : Nat := 64

structure DeviceId where
  value : String
  deriving DecidableEq

def DeviceId.new (s : String) : Option DeviceId :=
  if s.isEmpty || deviceIdMaxLen < s.utf8ByteSize then none else some ⟨s⟩

inductive DeviceClass where
  | phone
  | tablet
  | laptop
  | desktop
  | iot
  | server
  | external
  | other
  deriving DecidableEq

def DeviceClass.asStr : DeviceClass → String
  | .phone => "phone"
  | .tablet => "tablet"
  | .laptop => "laptop"
  | .desktop => "desktop"
  | .iot => "iot"
  | .server => "server"
  | .external => "external"
  | .other => "other"

structure DeviceFingerprint where
  bytes : Vector UInt8 32
  deriving DecidableEq

inductive PairingState where
  | available
  | pairing
  | paired
  | cancelled
  | revoked
  | expired
  deriving DecidableEq

def PairingState.asStr : PairingState → String
  | .available => "available"
  | .pairing => "pairing"
  | .paired => "paired"
  | .cancelled => "cancelled"
  | .revoked => "revoked"
  | .expired => "expired"

structure PairingCode where
  bytes : Vector UInt8 6
  deriving DecidableEq

def isAsciiDigit (b : UInt8) : Bool := 0x30 ≤ b && b ≤ 0x39

def PairingCode.new (s : String) : Option PairingCode :=
  match asBytes s with
  | [b₀, b₁, b₂, b₃, b₄, b₅] =>
    if [b₀, b₁, b₂, b₃, b₄, b₅].all isAsciiDigit then some ⟨#v[b₀, b₁, b₂, b₃, b₄, b₅]⟩ else none
  | _ => none

structure PairingGrant where
  receiveObservations : Bool
  receiveProposals : Bool
  executeRemoteTasks : Bool
  deriving DecidableEq

def PairingGrant.permissive : PairingGrant :=
  { receiveObservations := true, receiveProposals := true, executeRemoteTasks := false }

structure PairingRequest where
  deviceId : DeviceId
  deviceClass : DeviceClass
  fingerprint : DeviceFingerprint
  code : PairingCode
  grant : PairingGrant
  timestampMs : UInt64
  deriving DecidableEq

structure PairingAcceptance where
  deviceId : DeviceId
  deviceClass : DeviceClass
  fingerprint : DeviceFingerprint
  code : PairingCode
  grant : PairingGrant
  timestampMs : UInt64
  deriving DecidableEq

structure Pairing where
  deviceId : DeviceId
  deviceClass : DeviceClass
  fingerprint : DeviceFingerprint
  state : PairingState
  grant : PairingGrant
  lastTransitionMs : UInt64
  deriving DecidableEq

inductive PairingError where
  | codeMismatch
  | fingerprintMismatch
  | identityMismatch
  | requestExpired
  | alreadyPaired
  | terminalState
  deriving DecidableEq

def PairingError.display : PairingError → String
  | .codeMismatch => "pairing code does not match"
  | .fingerprintMismatch => "pairing fingerprint does not match"
  | .identityMismatch => "peer identity does not match"
  | .requestExpired => "pairing request has expired"
  | .alreadyPaired => "peer is already paired"
  | .terminalState => "peer is in a terminal state; re-register first"

def validateAcceptance (request : PairingRequest) (acceptance : PairingAcceptance)
    (skewMs nowMs : UInt64) : Except PairingError Unit :=
  if acceptance.code ≠ request.code then .error .codeMismatch
  else if acceptance.fingerprint ≠ request.fingerprint then .error .fingerprintMismatch
  else if acceptance.deviceId ≠ request.deviceId then .error .identityMismatch
  else if skewMs < saturatingSub nowMs request.timestampMs then .error .requestExpired
  else .ok ()

/-!
## The device registry (`aether-device-core/src/registry.rs`)

The registry holds at most `deviceRegistryLimit` devices, each filed under its own id, with a
pairing record of the same device.  Both facts are fields, so that every registry has them.
-/

open AList

def deviceRegistryLimit : Nat := 256

structure RegisteredDevice where
  deviceId : DeviceId
  deviceClass : DeviceClass
  fingerprint : DeviceFingerprint
  pairing : Pairing
  deriving DecidableEq

inductive DeviceRegistryError where
  | full
  | alreadyRegistered
  | unknownDevice
  deriving DecidableEq

def DeviceRegistryError.display : DeviceRegistryError → String
  | .full => "device registry is full"
  | .alreadyRegistered => "device is already registered"
  | .unknownDevice => "device is not registered"

structure RegisteredDevice.Filed (id : DeviceId) (entry : RegisteredDevice) : Prop where
  deviceId : entry.deviceId = id
  pairingId : entry.pairing.deviceId = id
  deviceClass : entry.pairing.deviceClass = entry.deviceClass
  fingerprint : entry.pairing.fingerprint = entry.fingerprint

abbrev DeviceMap := AList fun _ : DeviceId => RegisteredDevice

structure DeviceRegistry where
  devices : DeviceMap
  filed : ∀ id entry, devices.lookup id = some entry → entry.Filed id
  bounded : devices.keys.length ≤ deviceRegistryLimit

namespace DeviceRegistry

variable {devices : DeviceMap}

lemma filed_insert {id : DeviceId} {entry : RegisteredDevice}
    (hfil : ∀ id entry, devices.lookup id = some entry → entry.Filed id)
    (hent : entry.Filed id) (id' : DeviceId) (entry' : RegisteredDevice)
    (hlook : (devices.insert id entry).lookup id' = some entry') : entry'.Filed id' := by
  rw [AssocList.lookup_insert] at hlook
  split_ifs at hlook with hid
  · cases hlook
    exact hid ▸ hent
  · exact hfil id' entry' hlook

lemma filed_erase {id : DeviceId}
    (hfil : ∀ id entry, devices.lookup id = some entry → entry.Filed id) (id' : DeviceId)
    (entry' : RegisteredDevice) (hlook : (devices.erase id).lookup id' = some entry') :
    entry'.Filed id' := by
  rw [AssocList.lookup_erase] at hlook
  split_ifs at hlook
  exact hfil id' entry' hlook

lemma length_keys_erase_le (devices : DeviceMap) (id : DeviceId) :
    (devices.erase id).keys.length ≤ devices.keys.length := by
  rw [keys_erase]
  exact List.length_erase_le ..

def new : DeviceRegistry where
  devices := ∅
  filed _ _ h := nomatch h
  bounded := Nat.zero_le _

def get (r : DeviceRegistry) (id : DeviceId) : Option RegisteredDevice := r.devices.lookup id

def isFull (r : DeviceRegistry) : Bool := deviceRegistryLimit ≤ r.devices.keys.length

def register (r : DeviceRegistry) (deviceId : DeviceId) (deviceClass : DeviceClass)
    (fingerprint : DeviceFingerprint) (grant : PairingGrant) (nowMs : UInt64) :
    Except DeviceRegistryError DeviceRegistry :=
  if (r.get deviceId).isSome then .error .alreadyRegistered
  else if hfull : r.isFull then .error .full
  else
    let pairing : Pairing :=
      { deviceId, deviceClass, fingerprint, state := .available, grant, lastTransitionMs := nowMs }
    .ok {
      devices := r.devices.insert deviceId { deviceId, deviceClass, fingerprint, pairing }
      filed := filed_insert r.filed ⟨rfl, rfl, rfl, rfl⟩
      bounded := AssocList.length_keys_insert_le.trans
        (Nat.succ_le_of_lt (by simpa [isFull] using hfull)) }

def transition (r : DeviceRegistry) (id : DeviceId) (next : PairingState) (nowMs : UInt64) :
    Except DeviceRegistryError DeviceRegistry :=
  match hentry : r.devices.lookup id with
  | none => .error .unknownDevice
  | some entry =>
    let pairing := { entry.pairing with state := next, lastTransitionMs := nowMs }
    have hfiled := r.filed id entry hentry
    .ok {
      devices := r.devices.insert id { entry with pairing }
      filed := filed_insert r.filed
        ⟨hfiled.deviceId, hfiled.pairingId, hfiled.deviceClass, hfiled.fingerprint⟩
      bounded := by
        rw [AssocList.length_keys_insert_of_lookup hentry]
        exact r.bounded }

def unregister (r : DeviceRegistry) (id : DeviceId) :
    Option RegisteredDevice × DeviceRegistry :=
  (r.get id, {
    devices := r.devices.erase id
    filed := filed_erase r.filed
    bounded := (length_keys_erase_le ..).trans r.bounded })

def state (r : DeviceRegistry) (id : DeviceId) : Option PairingState :=
  (r.get id).map fun entry => entry.pairing.state

variable {r r' : DeviceRegistry} {id : DeviceId} {nowMs : UInt64}

lemma state_of_register {deviceClass : DeviceClass} {fingerprint : DeviceFingerprint}
    {grant : PairingGrant} (h : r.register id deviceClass fingerprint grant nowMs = .ok r') :
    r.state id = none ∧
      ∀ id', r'.state id' = if id' = id then some .available else r.state id' := by
  unfold register at h
  split_ifs at h with hnew hfull
  cases h
  refine ⟨by simpa [state] using hnew, fun id' => ?_⟩
  rw [state, get, AssocList.lookup_insert]
  split_ifs <;> rfl

lemma state_of_transition {next : PairingState} (h : r.transition id next nowMs = .ok r') :
    ∀ id', r'.state id' = if id' = id then some next else r.state id' := by
  unfold transition at h
  split at h
  · exact nomatch h
  · cases h
    intro id'
    rw [state, get, AssocList.lookup_insert]
    split_ifs <;> rfl

lemma state_unregister (r : DeviceRegistry) (id id' : DeviceId) :
    (r.unregister id).2.state id' = if id' = id then none else r.state id' := by
  rw [state, get, unregister, AssocList.lookup_erase]
  split_ifs <;> rfl

end DeviceRegistry

end Aether.Device
