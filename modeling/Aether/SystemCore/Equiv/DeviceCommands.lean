import Aether.Algorithm.Command
import Aether.Device.Equiv.Pairing
import Aether.SystemCore.DeviceCommands

/-!
# Pairing over whole histories of device commands

`DeviceChange` lists what a command can do to the states of the devices.
-/

namespace Aether.SystemCore

open Device Aether.Except

variable {r r' : DeviceRegistry}

def SetsState (r : DeviceRegistry) (id : DeviceId) (next : Option PairingState)
    (r' : DeviceRegistry) : Prop :=
  ∀ id', r'.state id' = if id' = id then next else r.state id'

inductive DeviceChange (r : DeviceRegistry) : TimedCommand → DeviceRegistry → Prop
  | rejected {c : TimedCommand} : DeviceChange r c r
  | registered {now : UInt64} {deviceId deviceClass fingerprint : Option String}
      {grant : Option (Except String PairingGrant)} {id : DeviceId} {r' : DeviceRegistry} :
      r.state id = none → SetsState r id (some .available) r' →
      DeviceChange r (now, .register deviceId deviceClass fingerprint grant) r'
  | begun {now : UInt64} {deviceId : Option String} {id : DeviceId} {r' : DeviceRegistry} :
      r.state id = some .available ∨ r.state id = some .cancelled →
      SetsState r id (some .pairing) r' → DeviceChange r (now, .pairBegin deviceId) r'
  | completed {now : UInt64} {request : PairingRequest} {acceptance : PairingAcceptance}
      {localCode : Option String} {code : PairingCode} {r' : DeviceRegistry} :
      readLocalCode localCode request = .ok code →
      validateAcceptance { request with code } acceptance 60000 now = .ok () →
      r.state acceptance.deviceId = some .pairing →
      SetsState r acceptance.deviceId (some .paired) r' →
      DeviceChange r (now, .pairComplete (some (.ok request)) (some (.ok acceptance)) localCode) r'
  | revoked {now : UInt64} {deviceId : Option String} {id : DeviceId} {r' : DeviceRegistry} :
      (r.state id).isSome → SetsState r id (some .revoked) r' →
      DeviceChange r (now, .revoke deviceId) r'
  | removed {now : UInt64} {deviceId : Option String} {id : DeviceId} {r' : DeviceRegistry} :
      SetsState r id none r' → DeviceChange r (now, .unregister deviceId) r'

lemma required_eq_ok_iff {α : Type} {name : String} {parameter : Option α} {a : α} :
    required name parameter = .ok a ↔ parameter = some a := by
  cases parameter with
  | none => simp [required]
  | some b => simp [required]

lemma decoded_eq_ok_iff {α : Type} {name : String} {value : Except String α} {a : α} :
    decoded name value = .ok a ↔ value = .ok a := by
  cases value with
  | error e => simp [decoded]
  | ok b => simp [decoded]

variable {s : String} {id : DeviceId} {now : UInt64} {next : Option PairingState}
  {reply : Core.Json} {deviceId localCode : Option String} {c : TimedCommand}

lemma value_of_parseDeviceId (h : parseDeviceId s = .ok id) : id.value = s := by
  unfold parseDeviceId DeviceId.new at h
  split_ifs at h with hlen
  cases h
  rfl

lemma currentState_eq_ok_iff {state : PairingState} :
    currentState s id r = .ok state ↔ r.state id = some state := by
  unfold currentState DeviceRegistry.state
  cases r.get id with
  | none => simp
  | some entry => simp

lemma setsState_of_finishTransition {next : PairingState}
    (h : finishTransition now s id next r = .ok (reply, r')) : SetsState r id (some next) r' := by
  unfold finishTransition at h
  split at h
  case h_1 r₁ hr₁ =>
    cases h
    exact DeviceRegistry.state_of_transition hr₁
  case h_2 => exact nomatch h

lemma change_register {deviceClass fingerprint : Option String}
    {grant : Option (Except String PairingGrant)}
    (h : handleRegister now deviceId deviceClass fingerprint grant r = .ok (reply, r')) :
    DeviceChange r (now, .register deviceId deviceClass fingerprint grant) r' := by
  unfold handleRegister at h
  simp only [bind_eq_ok_iff] at h
  obtain ⟨_, _, _, _, _, _, _, _, _, _, id, _, hreg⟩ := h
  split at hreg
  case h_1 r₁ hr₁ =>
    cases hreg
    obtain ⟨hnew, hst⟩ := DeviceRegistry.state_of_register hr₁
    exact .registered hnew hst
  case h_2 => exact nomatch hreg

lemma change_pairBegin (h : handlePairBegin now deviceId r = .ok (reply, r')) :
    DeviceChange r (now, .pairBegin deviceId) r' := by
  unfold handlePairBegin at h
  simp only [bind_eq_ok_iff, currentState_eq_ok_iff] at h
  obtain ⟨_, _, id, _, current, hcur, h⟩ := h
  split_ifs at h with hall
  refine .begun ?_ (setsState_of_finishTransition h)
  rw [hcur]
  exact hall.imp (congrArg some) (congrArg some)

lemma change_pairComplete {request : Option (Except String PairingRequest)}
    {acceptance : Option (Except String PairingAcceptance)}
    (h : handlePairComplete now request acceptance localCode r = .ok (reply, r')) :
    DeviceChange r (now, .pairComplete request acceptance localCode) r' := by
  unfold handlePairComplete at h
  simp only [bind_eq_ok_iff, required_eq_ok_iff, decoded_eq_ok_iff] at h
  obtain ⟨_, rfl, _, rfl, q, rfl, a, rfl, code, hcode, h⟩ := h
  split at h
  case h_1 => exact nomatch h
  case h_2 hval =>
    simp only [bind_eq_ok_iff, currentState_eq_ok_iff] at h
    obtain ⟨id, hid, current, hcur, h⟩ := h
    split_ifs at h with hpai
    -- the id that is parsed again is the one of the acceptance
    obtain rfl : id = a.deviceId := by
      have hvalue := value_of_parseDeviceId hid
      cases id
      cases hd : a.deviceId
      simp_all
    exact .completed hcode hval (hpai ▸ hcur) (setsState_of_finishTransition h)

lemma change_revoke (h : handleRevoke now deviceId r = .ok (reply, r')) :
    DeviceChange r (now, .revoke deviceId) r' := by
  unfold handleRevoke at h
  simp only [bind_eq_ok_iff, currentState_eq_ok_iff] at h
  obtain ⟨_, _, id, _, current, hcur, h⟩ := h
  exact .revoked (by rw [hcur]; rfl) (setsState_of_finishTransition h)

lemma change_unregister (h : handleUnregister deviceId r = .ok (reply, r')) :
    DeviceChange r (now, .unregister deviceId) r' := by
  unfold handleUnregister at h
  simp only [bind_eq_ok_iff] at h
  obtain ⟨_, _, id, _, h⟩ := h
  have hst := DeviceRegistry.state_unregister r id
  split at h
  case h_1 entry r₁ hr₁ =>
    cases h
    rw [hr₁] at hst
    exact .removed hst
  case h_2 => exact nomatch h

/-- **Every command makes one of the changes.** -/
theorem deviceStep_change (r : DeviceRegistry) (c : TimedCommand) :
    DeviceChange r c (deviceStep r c) := by
  obtain ⟨now, command⟩ := c
  unfold deviceStep
  split
  case h_1 reply r' h =>
    cases command with
    | register => exact change_register h
    | pairBegin => exact change_pairBegin h
    | pairComplete => exact change_pairComplete h
    | revoke => exact change_revoke h
    | unregister => exact change_unregister h
  case h_2 => exact .rejected

/-- The command makes a paired device of one that was not. -/
def Enters (r : DeviceRegistry) (c : TimedCommand) (id : DeviceId) : Prop :=
  r.state id ≠ some .paired ∧ (deviceStep r c).state id = some .paired

def Binds (r : DeviceRegistry) (c : TimedCommand) (id : DeviceId) : Prop :=
  ∃ request acceptance localCode code entry,
    c.2 = .pairComplete (some (.ok request)) (some (.ok acceptance)) localCode ∧
    readLocalCode localCode request = .ok code ∧ r.get id = some entry ∧
    acceptance.fingerprint = entry.fingerprint ∧ code = request.code ∧
    request.code = acceptance.code

/-- A device gets paired only by a completion with its registered key and the code of both sides. -/
def Binding (commands : List TimedCommand) : Prop :=
  ∀ pre c post id, commands = pre ++ c :: post →
    Enters (deviceRun pre) c id → Binds (deviceRun pre) c id

/-- A completion has the fingerprint of the registry and the local code. -/
def Checked (r : DeviceRegistry) (c : TimedCommand) : Prop :=
  ∀ request acceptance localCode,
    c.2 = .pairComplete (some (.ok request)) acceptance localCode →
    (∀ entry, r.get request.deviceId = some entry → request.fingerprint = entry.fingerprint) ∧
      ∀ s, localCode = some s → PairingCode.new s = some request.code

lemma readLocalCode_eq_request_iff {request : PairingRequest} {code : PairingCode}
    (h : readLocalCode localCode request = .ok code) :
    code = request.code ↔ ∀ s, localCode = some s → PairingCode.new s = some request.code := by
  unfold readLocalCode at h
  cases localCode with
  | none => simpa using h.symm
  | some s =>
    simp only at h
    cases hnew : PairingCode.new s with
    | none =>
      rw [hnew] at h
      exact nomatch h
    | some c =>
      rw [hnew] at h
      cases h
      simp [hnew]

lemma SetsState.paired {id' : DeviceId} (h : SetsState r id next r')
    (hbef : r.state id' ≠ some .paired) (haft : r'.state id' = some .paired) :
    id' = id ∧ next = some .paired := by
  rw [h id'] at haft
  split_ifs at haft with hid
  · exact ⟨hid, haft⟩
  · exact absurd haft hbef

lemma Enters.completed (h : Enters r c id) :
    ∃ request acceptance localCode code,
      c.2 = .pairComplete (some (.ok request)) (some (.ok acceptance)) localCode ∧
      readLocalCode localCode request = .ok code ∧ acceptance.code = code ∧
      acceptance.fingerprint = request.fingerprint ∧ acceptance.deviceId = request.deviceId ∧
      id = request.deviceId ∧ (r.get id).isSome := by
  obtain ⟨hbef, haft⟩ := h
  have hcha := deviceStep_change r c
  generalize deviceStep r c = r' at hcha haft
  cases hcha with
  | rejected => exact absurd haft hbef
  | registered _ hset | begun _ hset | revoked _ hset | removed hset =>
    obtain ⟨-, hpai⟩ := hset.paired hbef haft
    exact nomatch hpai
  | @completed now request acceptance localCode code _ hcode hval hpair hset =>
    obtain ⟨hid, -⟩ := hset.paired hbef haft
    obtain ⟨hc, hf, hd, -⟩ := validateAcceptance_eq_ok_iff.mp hval
    refine ⟨request, acceptance, localCode, code, rfl, hcode, hc, hf, hd, hid.trans hd, ?_⟩
    rw [← hid] at hpair
    obtain ⟨entry, hent, -⟩ := Option.map_eq_some_iff.mp hpair
    rw [hent]
    rfl

/-- **A completion binds iff it was checked.** -/
theorem Enters.binds_iff (h : Enters r c id) : Binds r c id ↔ Checked r c := by
  obtain ⟨request, acceptance, localCode, code, hc, hcode, hsame, hfin, -, rfl, hsome⟩ :=
    h.completed
  constructor
  · rintro ⟨request', acceptance', localCode', code', entry, hc', hcode', hent, hsto,
      hloc, -⟩
    intro request'' acceptance'' localCode'' hc''
    rw [hc] at hc' hc''
    cases hc'
    cases hc''
    refine ⟨fun entry' hent' => ?_, (readLocalCode_eq_request_iff hcode').mp hloc⟩
    cases hent.symm.trans hent'
    rw [← hfin, hsto]
  · intro hche
    obtain ⟨hsto, hloc⟩ := hche request _ localCode hc
    obtain ⟨entry, hent⟩ := Option.isSome_iff_exists.mp hsome
    have hcod : code = request.code := (readLocalCode_eq_request_iff hcode).mpr hloc
    exact ⟨request, acceptance, localCode, code, entry, hc, hcode, hent,
      hfin.trans (hsto entry hent), hcod, by rw [hsame, hcod]⟩

/-- **Pairing binds the key** in exactly the histories whose accepted completions are checked. -/
theorem run_binding_iff (commands : List TimedCommand) :
    Binding commands ↔
      Run.Steps deviceStep (fun r c => (∃ id, Enters r c id) → Checked r c) DeviceRegistry.new
        commands := by
  constructor
  · rintro h pre c post heq ⟨id, hent⟩
    exact hent.binds_iff.mp (h pre c post id heq hent)
  · intro h pre c post id heq hent
    exact hent.binds_iff.mpr (h pre c post heq ⟨id, hent⟩)

def foreignRequest : PairingRequest :=
  { deviceId := ⟨"peer"⟩, deviceClass := .phone, fingerprint := ⟨Vector.replicate 32 1⟩,
    code := ⟨#v[0x31, 0x32, 0x33, 0x34, 0x35, 0x36]⟩, grant := .permissive, timestampMs := 1000 }

def foreignAcceptance : PairingAcceptance := { foreignRequest with }

def foreignRun : List TimedCommand :=
  [(1000, .register (some "peer") (some "phone")
      (some "0000000000000000000000000000000000000000000000000000000000000000") none),
    (1000, .pairBegin (some "peer")),
    (1000, .pairComplete (some (.ok foreignRequest)) (some (.ok foreignAcceptance)) none)]

/-- The completion is accepted: the registered key is not looked at. -/
theorem foreign_key_not_bound : ¬ Binding foreignRun := by
  intro h
  have hent : Enters (deviceRun (foreignRun.take 2)) (foreignRun.get ⟨2, by decide⟩) ⟨"peer"⟩ := by
    unfold Enters
    decide +kernel
  have hkey : ((deviceRun (foreignRun.take 2)).get ⟨"peer"⟩).map (fun entry => entry.fingerprint) =
      some ⟨Vector.replicate 32 0⟩ := by decide +kernel
  obtain ⟨entry, hentry, hsto⟩ := Option.map_eq_some_iff.mp hkey
  have hche := hent.binds_iff.mp (h (foreignRun.take 2) _ [] ⟨"peer"⟩ rfl hent)
  have heq := (hche foreignRequest _ none rfl).1 entry hentry
  rw [hsto] at heq
  exact absurd heq (by decide +kernel)

end Aether.SystemCore
