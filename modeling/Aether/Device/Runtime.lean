import Aether.Device.Registry

/-!
# Cross-device deliveries (`aether-device-core/src/remote.rs`)

The source that a peer attaches to an observation or a proposal, and the check of a source.  What is
delivered is only handed on, so its type is a parameter.
-/

namespace Aether.Device

open Security (saturatingSub)

structure RemoteSource where
  deviceId : DeviceId
  fingerprint : DeviceFingerprint
  seq : UInt64
  timestampMs : UInt64
  deriving DecidableEq

structure RemoteObservation (Observation : Type) where
  source : RemoteSource
  observation : Observation
  deriving DecidableEq

structure RemoteProposal (Proposal : Type) where
  source : RemoteSource
  proposal : Proposal
  deriving DecidableEq

inductive RemoteDeliveryError where
  | unknownPeer
  | notPaired
  | grantMissing
  | fingerprintMismatch
  | outOfOrder (lastSeq newSeq : UInt64)
  | tooOld
  deriving DecidableEq

inductive RemoteDeliveryKind where
  | observation
  | proposal
  deriving DecidableEq

def PairingState.isTrusted (s : PairingState) : Bool := s == .paired

def PairingGrant.covers (grant : PairingGrant) : RemoteDeliveryKind → Bool
  | .observation => grant.receiveObservations
  | .proposal => grant.receiveProposals

def acceptRemoteDelivery (state : PairingState) (grant : PairingGrant)
    (registeredFingerprint : DeviceFingerprint) (source : RemoteSource)
    (lastSeq skewMs nowMs : UInt64) (kind : RemoteDeliveryKind) :
    Except RemoteDeliveryError Unit :=
  if !state.isTrusted then .error .notPaired
  else if source.fingerprint ≠ registeredFingerprint then .error .fingerprintMismatch
  else if !grant.covers kind then .error .grantMissing
  else if source.seq ≤ lastSeq then .error (.outOfOrder lastSeq source.seq)
  else if skewMs < saturatingSub nowMs source.timestampMs then .error .tooOld
  else .ok ()

lemma lt_seq_of_acceptRemoteDelivery {state : PairingState} {grant : PairingGrant}
    {fingerprint : DeviceFingerprint} {source : RemoteSource} {lastSeq skewMs nowMs : UInt64}
    {kind : RemoteDeliveryKind}
    (h : acceptRemoteDelivery state grant fingerprint source lastSeq skewMs nowMs kind = .ok ()) :
    lastSeq < source.seq := by
  unfold acceptRemoteDelivery at h
  split_ifs at h with _ _ _ hseq _
  exact UInt64.not_le.mp hseq

/-!
## The device runtime (`aether-device-runtime/src/lib.rs`)

The runtime checks every delivery against the registry, and keeps for every peer the last number of
an accepted observation and the last number of an accepted proposal.
-/

structure PeerState where
  lastObsSeq : UInt64
  lastPropSeq : UInt64
  deriving DecidableEq

namespace PeerState

def default : PeerState := ⟨0, 0⟩

def lastSeq (p : PeerState) : RemoteDeliveryKind → UInt64
  | .observation => p.lastObsSeq
  | .proposal => p.lastPropSeq

def setLastSeq (p : PeerState) (seq : UInt64) : RemoteDeliveryKind → PeerState
  | .observation => { p with lastObsSeq := seq }
  | .proposal => { p with lastPropSeq := seq }

lemma lastSeq_setLastSeq (p : PeerState) (seq : UInt64) (kind kind' : RemoteDeliveryKind) :
    (p.setLastSeq seq kind).lastSeq kind' = if kind' = kind then seq else p.lastSeq kind' := by
  cases kind <;> cases kind' <;> rfl

end PeerState

inductive DeliveryOutcome where
  | accepted
  | rejected (error : RemoteDeliveryError)
  deriving DecidableEq

structure DeviceRuntime where
  registry : DeviceRegistry
  peerState : AList fun _ : String => PeerState
  skewMs : UInt64

namespace DeviceRuntime

def new (registry : DeviceRegistry) (skewMs : UInt64) : DeviceRuntime := ⟨registry, ∅, skewMs⟩

def peer (r : DeviceRuntime) (id : DeviceId) : PeerState :=
  (r.peerState.lookup id.value).getD .default

def accept (r : DeviceRuntime) (kind : RemoteDeliveryKind) (source : RemoteSource)
    (nowMs : UInt64) : DeliveryOutcome × DeviceRuntime :=
  match r.registry.get source.deviceId with
  | none => (.rejected .unknownPeer, r)
  | some peer =>
    let lastSeq := (r.peer source.deviceId).lastSeq kind
    match acceptRemoteDelivery peer.pairing.state peer.pairing.grant peer.pairing.fingerprint source
        lastSeq r.skewMs nowMs kind with
    | .ok () =>
      let entry := (r.peer source.deviceId).setLastSeq source.seq kind
      (.accepted, { r with peerState := r.peerState.insert source.deviceId.value entry })
    | .error e => (.rejected e, r)

def acceptObservation {Observation : Type} (r : DeviceRuntime)
    (remote : RemoteObservation Observation) (nowMs : UInt64) : DeliveryOutcome × DeviceRuntime :=
  r.accept .observation remote.source nowMs

def acceptProposal {Proposal : Type} (r : DeviceRuntime) (remote : RemoteProposal Proposal)
    (nowMs : UInt64) : DeliveryOutcome × DeviceRuntime :=
  r.accept .proposal remote.source nowMs

end DeviceRuntime

inductive Delivery (Observation Proposal : Type) where
  | observation (remote : RemoteObservation Observation) (nowMs : UInt64)
  | proposal (remote : RemoteProposal Proposal) (nowMs : UInt64)

namespace Delivery

variable {Observation Proposal : Type}

def kind : Delivery Observation Proposal → RemoteDeliveryKind
  | .observation _ _ => .observation
  | .proposal _ _ => .proposal

def source : Delivery Observation Proposal → RemoteSource
  | .observation remote _ => remote.source
  | .proposal remote _ => remote.source

def nowMs : Delivery Observation Proposal → UInt64
  | .observation _ nowMs => nowMs
  | .proposal _ nowMs => nowMs

def sender (d : Delivery Observation Proposal) : DeviceId := d.source.deviceId

def seq (d : Delivery Observation Proposal) : UInt64 := d.source.seq

end Delivery

def DeviceRuntime.deliver {Observation Proposal : Type} (r : DeviceRuntime) :
    Delivery Observation Proposal → DeliveryOutcome × DeviceRuntime
  | .observation remote nowMs => r.acceptObservation remote nowMs
  | .proposal remote nowMs => r.acceptProposal remote nowMs

end Aether.Device
