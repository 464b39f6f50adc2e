import Aether.Device.Registry

/-!
# Handshakes and the states of registered devices
-/

namespace Aether.Device

open Security (saturatingSub)

lemma validateAcceptance_eq_ok_iff {request : PairingRequest} {acceptance : PairingAcceptance}
    {skewMs nowMs : UInt64} :
    validateAcceptance request acceptance skewMs nowMs = .ok () ↔
      acceptance.code = request.code ∧ acceptance.fingerprint = request.fingerprint ∧
        acceptance.deviceId = request.deviceId ∧
        ¬ skewMs < saturatingSub nowMs request.timestampMs := by
  unfold validateAcceptance
  split_ifs <;> simp_all

structure Responder where
  deviceId : DeviceId
  deviceClass : DeviceClass
  fingerprint : DeviceFingerprint
  deriving DecidableEq

def Responder.accept (responder : Responder) (request : PairingRequest) (grant : PairingGrant)
    (timestampMs : UInt64) : PairingAcceptance :=
  { deviceId := responder.deviceId, deviceClass := responder.deviceClass,
    fingerprint := responder.fingerprint, code := request.code, grant, timestampMs }

/-- **When a responder is accepted** within the clock skew: iff its id and its fingerprint are those
of the initiator, which no other device has. -/
theorem validateAcceptance_responder_iff (request : PairingRequest) (responder : Responder)
    (grant : PairingGrant) (timestampMs skewMs nowMs : UInt64)
    (hskew : saturatingSub nowMs request.timestampMs ≤ skewMs) :
    validateAcceptance request (responder.accept request grant timestampMs) skewMs nowMs = .ok () ↔
      responder.deviceId = request.deviceId ∧ responder.fingerprint = request.fingerprint := by
  have hfr : ¬ skewMs < saturatingSub nowMs request.timestampMs := UInt64.not_lt.mpr hskew
  rw [validateAcceptance_eq_ok_iff]
  constructor
  · rintro ⟨-, hfin, hid, -⟩
    exact ⟨hid, hfin⟩
  · rintro ⟨hid, hfin⟩
    exact ⟨rfl, hfin, hid, hfr⟩

def laptopRequest : PairingRequest :=
  { deviceId := ⟨"laptop"⟩, deviceClass := .laptop, fingerprint := ⟨Vector.replicate 32 1⟩,
    code := ⟨Vector.replicate 6 48⟩, grant := .permissive, timestampMs := 1000 }

def phoneResponder : Responder := ⟨⟨"phone"⟩, .phone, ⟨Vector.replicate 32 2⟩⟩

/-- The check in use: the only responder that the laptop accepts is itself. -/
theorem validateAcceptance_responder_iff_laptop :
    saturatingSub 1500 laptopRequest.timestampMs ≤ 60000 ∧
      (validateAcceptance laptopRequest
        ((⟨⟨"laptop"⟩, .laptop, ⟨Vector.replicate 32 1⟩⟩ : Responder).accept laptopRequest
          .permissive 1200) 60000 1500 = .ok () ↔
        (⟨"laptop"⟩ : DeviceId) = laptopRequest.deviceId ∧
          (⟨Vector.replicate 32 1⟩ : DeviceFingerprint) = laptopRequest.fingerprint) :=
  ⟨by decide, validateAcceptance_responder_iff laptopRequest
    ⟨⟨"laptop"⟩, .laptop, ⟨Vector.replicate 32 1⟩⟩ .permissive 1200 60000 1500 (by decide)⟩

/-- The phone repeats the code in time and is refused. -/
theorem validateAcceptance_phone_refused :
    phoneResponder.deviceId ≠ laptopRequest.deviceId ∧
      phoneResponder.fingerprint ≠ laptopRequest.fingerprint ∧
      saturatingSub 1500 laptopRequest.timestampMs ≤ 60000 ∧
      validateAcceptance laptopRequest (phoneResponder.accept laptopRequest .permissive 1200)
        60000 1500 = .error .fingerprintMismatch := by
  decide

inductive RegistryOp where
  | register (deviceId : DeviceId) (deviceClass : DeviceClass) (fingerprint : DeviceFingerprint)
      (grant : PairingGrant) (nowMs : UInt64)
  | unregister (deviceId : DeviceId)
  | transition (deviceId : DeviceId) (next : PairingState) (nowMs : UInt64)

namespace DeviceRegistry

def call (r : DeviceRegistry) : RegistryOp → Except DeviceRegistryError Unit × DeviceRegistry
  | .register deviceId deviceClass fingerprint grant nowMs =>
    match r.register deviceId deviceClass fingerprint grant nowMs with
    | .ok r' => (.ok (), r')
    | .error e => (.error e, r)
  | .unregister deviceId => (.ok (), (r.unregister deviceId).2)
  | .transition deviceId next nowMs =>
    match r.transition deviceId next nowMs with
    | .ok r' => (.ok (), r')
    | .error e => (.error e, r)

def after (r : DeviceRegistry) (op : RegistryOp) : DeviceRegistry := (r.call op).2

def run (r : DeviceRegistry) (ops : List RegistryOp) : DeviceRegistry := ops.foldl after r

variable {r : DeviceRegistry} {id : DeviceId}

lemma transition_eq_error_iff {next : PairingState} {nowMs : UInt64} :
    (∃ e, (r.call (.transition id next nowMs)).1 = .error e) ↔ r.state id = none := by
  cases htr : r.transition id next nowMs with
  | error e =>
    have hnone : r.state id = none := by
      unfold transition at htr
      split at htr
      · next hlook => rw [state, get, hlook, Option.map_none]
      · cases htr
    simp [call, htr, hnone]
  | ok r' =>
    have hsome : r.state id ≠ none := by
      unfold transition at htr
      split at htr
      · cases htr
      · next entry hlook =>
        rw [state, get, hlook, Option.map_some]
        exact Option.some_ne_none _
    simp [call, htr, hsome]

lemma eq_transition_of_paired {op : RegistryOp} (hbef : r.state id ≠ some .paired)
    (haft : (r.after op).state id = some .paired) :
    ∃ nowMs, op = .transition id .paired nowMs := by
  cases op with
  | register deviceId deviceClass fingerprint grant nowMs =>
    cases hreg : r.register deviceId deviceClass fingerprint grant nowMs with
    | error e =>
      rw [after, call, hreg] at haft
      exact absurd haft hbef
    | ok r' =>
      rw [after, call, hreg, (state_of_register hreg).2 id] at haft
      split_ifs at haft
      · cases haft
      · exact absurd haft hbef
  | unregister deviceId =>
    rw [after, call, state_unregister] at haft
    split_ifs at haft
    exact absurd haft hbef
  | transition deviceId next nowMs =>
    cases htr : r.transition deviceId next nowMs with
    | error e =>
      rw [after, call, htr] at haft
      exact absurd haft hbef
    | ok r' =>
      rw [after, call, htr, state_of_transition htr id] at haft
      split_ifs at haft with hid
      · cases haft
        exact ⟨nowMs, by rw [hid]⟩
      · exact absurd haft hbef

def Ended (s : Option PairingState) : Prop :=
  s = some .revoked ∨ s = some .cancelled ∨ s = some .expired

/-- Devices become paired from `Pairing` only, and all other calls for it fail. -/
structure PairedFromPairing (r : DeviceRegistry) (ops : List RegistryOp) : Prop where
  enters : Run.Steps after (fun r op => ∀ id, r.state id ≠ some .paired →
    (r.after op).state id = some .paired → r.state id = some .pairing) r ops
  refused : Run.Steps after (fun r op => ∀ id nowMs, op = .transition id .paired nowMs →
    r.state id ≠ some .pairing → ∃ e, (r.call op).1 = .error e) r ops
  handshake : ∀ pre mid post id, ops = pre ++ mid ++ post → Ended ((r.run pre).state id) →
    (r.run (pre ++ mid)).state id = some .paired →
    ∃ mid₁ mid₂, mid = mid₁ ++ mid₂ ∧ (r.run (pre ++ mid₁)).state id = some .pairing

/-- A call for `Paired` finds its device in `Pairing`, or not registered. -/
def AsksFromPairing (r : DeviceRegistry) (op : RegistryOp) : Prop :=
  ∀ id nowMs, op = .transition id .paired nowMs → ∀ s, r.state id = some s → s = .pairing

lemma refused_iff_asksFromPairing {op : RegistryOp} :
    (∀ id nowMs, op = .transition id .paired nowMs → r.state id ≠ some .pairing →
      ∃ e, (r.call op).1 = .error e) ↔ AsksFromPairing r op := by
  constructor
  · rintro h id nowMs rfl s hs
    by_contra hne
    have hnone := transition_eq_error_iff.mp
      (h id nowMs rfl fun hpai => hne (Option.some.inj (hs.symm.trans hpai)))
    exact absurd (hs.symm.trans hnone) (Option.some_ne_none s)
  · rintro h id nowMs rfl hne
    refine transition_eq_error_iff.mpr ?_
    cases hs : r.state id with
    | none => rfl
    | some s =>
      have hpai : s = .pairing := h id nowMs rfl s hs
      exact absurd (hs.trans (congrArg some hpai)) hne

lemma AsksFromPairing.enters {op : RegistryOp} (h : AsksFromPairing r op)
    (hbef : r.state id ≠ some .paired) (haft : (r.after op).state id = some .paired) :
    r.state id = some .pairing := by
  obtain ⟨nowMs, rfl⟩ := eq_transition_of_paired hbef haft
  cases hs : r.state id with
  | none =>
    -- an unknown device is refused, so that it is not paired afterwards
    obtain ⟨e, he⟩ := transition_eq_error_iff.mpr hs
    have hsame : r.after (.transition id .paired nowMs) = r := by
      cases htr : r.transition id .paired nowMs with
      | error e => rw [after, call, htr]
      | ok r' =>
        rw [call, htr] at he
        cases he
    rw [hsame] at haft
    exact absurd haft hbef
  | some s => rw [h id nowMs rfl s hs]

lemma not_paired_of_ended {s : Option PairingState} (h : Ended s) : s ≠ some .paired := by
  rcases h with rfl | rfl | rfl <;> simp

/-- **When devices are paired by handshake**: iff every call asks from `Pairing`. -/
theorem pairedFromPairing_iff (r : DeviceRegistry) (ops : List RegistryOp) :
    PairedFromPairing r ops ↔ Run.Steps after AsksFromPairing r ops := by
  constructor
  · intro h pre op post heq
    exact refused_iff_asksFromPairing.mp (h.refused pre op post heq)
  · intro h
    have hent : ∀ pre op post, ops = pre ++ op :: post → ∀ id,
        (r.run pre).state id ≠ some .paired → ((r.run pre).after op).state id = some .paired →
          (r.run pre).state id = some .pairing :=
      fun pre op post heq id => (h pre op post heq).enters
    refine ⟨hent, fun pre op post heq => refused_iff_asksFromPairing.mpr (h pre op post heq), ?_⟩
    intro pre mid post id heq hend hpai
    rw [run, List.foldl_append] at hpai
    -- the step of `mid` in which the device becomes paired
    obtain ⟨mid₁, op, mid₂, rfl, hbef, haft⟩ :=
      Run.exists_step_of_foldl (P := fun r : DeviceRegistry => r.state id = some .paired)
        (not_paired_of_ended hend) hpai
    refine ⟨mid₁, op :: mid₂, rfl, ?_⟩
    rw [run, List.foldl_append]
    have hspl : ops = (pre ++ mid₁) ++ op :: (mid₂ ++ post) := by simp [heq]
    have hpair := hent (pre ++ mid₁) op (mid₂ ++ post) hspl id
    rw [run, List.foldl_append] at hpair
    exact hpair hbef haft

def phoneRevoked : List RegistryOp :=
  [.register ⟨"phone"⟩ .phone ⟨Vector.replicate 32 0⟩ .permissive 0,
    .transition ⟨"phone"⟩ .revoked 1]

/-- A revoked device is paired again by one call. -/
theorem not_pairedFromPairing_revoked :
    ¬ PairedFromPairing .new (phoneRevoked ++ [.transition ⟨"phone"⟩ .paired 2]) := by
  intro h
  have hrev : (DeviceRegistry.new.run phoneRevoked).state ⟨"phone"⟩ = some .revoked := by
    decide +kernel
  obtain ⟨e, he⟩ := h.refused phoneRevoked (.transition ⟨"phone"⟩ .paired 2) [] rfl ⟨"phone"⟩ 2
    rfl (by rw [← run, hrev]; decide)
  have hnone := transition_eq_error_iff.mp ⟨e, he⟩
  rw [← run, hrev] at hnone
  cases hnone

end DeviceRegistry

end Aether.Device
