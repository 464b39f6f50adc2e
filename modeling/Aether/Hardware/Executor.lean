import Mathlib.Data.List.Induction
import Mathlib.Data.List.Nodup

/-!
# The hardware service and its executor (`aether-hardware-service`: `lib.rs`, `executor.rs`)

The registry of devices, the approvals of the user, and `execute`, which decides whether a
capability may be exercised.
-/

namespace Aether.Hardware

inductive DeviceKind where
  | cpu
  | gpu
  | display
  | externalDisplay
  | keyboard
  | touchpad
  | mouse
  | audioOutput
  | microphone
  | camera
  | wifi
  | bluetooth
  | ethernet
  | usb
  | storage
  | battery
  | thermalSensor
  | printer
  | futureSensor
  deriving DecidableEq

def DeviceKind.label : DeviceKind → String
  | .cpu => "CPU"
  | .gpu => "GPU"
  | .display => "Display"
  | .externalDisplay => "External display"
  | .keyboard => "Keyboard"
  | .touchpad => "Touchpad"
  | .mouse => "Mouse"
  | .audioOutput => "Audio output"
  | .microphone => "Microphone"
  | .camera => "Camera"
  | .wifi => "Wi-Fi"
  | .bluetooth => "Bluetooth"
  | .ethernet => "Ethernet"
  | .usb => "USB"
  | .storage => "Storage"
  | .battery => "Battery"
  | .thermalSensor => "Thermal sensor"
  | .printer => "Printer"
  | .futureSensor => "Future sensor"

inductive DeviceState where
  | present
  | disabled
  | errored
  | disconnected
  deriving DecidableEq

inductive Capability where
  | routeAudio
  | captureAudio
  | captureVideo
  | connectWifi (ssid : String)
  | connectBluetooth (peerId : String)
  | mountStorage
  | unmountStorage
  | enable
  | disable
  | setBrightness (percent : UInt8)
  | print (path : String)
  deriving DecidableEq

namespace Capability

def verb : Capability → String
  | routeAudio => "route-audio"
  | captureAudio => "capture-audio"
  | captureVideo => "capture-video"
  | connectWifi _ => "connect-wifi"
  | connectBluetooth _ => "connect-bluetooth"
  | mountStorage => "mount-storage"
  | unmountStorage => "unmount-storage"
  | enable => "enable"
  | disable => "disable"
  | setBrightness _ => "set-brightness"
  | print _ => "print"

def requiresConsent : Capability → Bool
  | routeAudio | setBrightness _ | enable | disable => false
  | captureAudio | captureVideo | connectWifi _ | connectBluetooth _ | mountStorage
  | unmountStorage | print _ => true

def isSwitch : Capability → Bool
  | enable | disable => true
  | _ => false

end Capability

structure Device where
  id : String
  kind : DeviceKind
  name : String
  state : DeviceState
  capabilities : List Capability
  deriving DecidableEq

def Device.isUsable (d : Device) : Bool := d.state = .present

def Device.hasCapability (d : Device) (cap : Capability) : Bool :=
  d.capabilities.any fun c => c = cap

def replaceFirst {α : Type} (p : α → Bool) (f : α → α) : List α → List α
  | [] => []
  | a :: as => if p a then f a :: as else a :: replaceFirst p f as

structure HardwareService where
  devices : List Device
  deriving DecidableEq

namespace HardwareService

def get (s : HardwareService) (id : String) : Option Device := s.devices.find? fun d => d.id = id

def upsert (s : HardwareService) (device : Device) : Bool × HardwareService :=
  if (s.get device.id).isSome then
    (false, ⟨replaceFirst (fun d => d.id = device.id) (fun _ => device) s.devices⟩)
  else (true, ⟨s.devices ++ [device]⟩)

def remove (s : HardwareService) (id : String) : Option Device × HardwareService :=
  (s.get id, ⟨s.devices.eraseP fun d => d.id = id⟩)

def setState (s : HardwareService) (id : String) (state : DeviceState) :
    Option DeviceState × HardwareService :=
  ((s.get id).map fun d => d.state,
    ⟨replaceFirst (fun d => d.id = id) (fun d => { d with state }) s.devices⟩)

def toggle (s : HardwareService) (id : String) : Option DeviceState × HardwareService :=
  match s.get id with
  | none => (none, s)
  | some d =>
    let state := if d.state = .disabled then .present else .disabled
    (some state, (s.setState id state).2)

end HardwareService

inductive Actor where
  | user
  | agent
  | peer
  deriving DecidableEq

def Actor.requiresConsent : Actor → Bool
  | .user => false
  | .agent | .peer => true

structure CapabilityRequest where
  capability : Capability
  targetDeviceId : String
  actor : Actor
  deriving DecidableEq

inductive CapabilityResult where
  | ok (detail : String)
  | refused (reason : String)
  | invalidState (state : DeviceState)
  | timeout
  deriving DecidableEq

def CapabilityResult.isOk : CapabilityResult → Bool
  | .ok _ => true
  | _ => false

structure CapabilityExecutor where
  service : HardwareService
  approved : List Capability
  deriving DecidableEq

def stateAllows (device : Device) (cap : Capability) : Bool := cap.isSwitch || device.isUsable

def describe (kind : DeviceKind) (cap : Capability) (name : String) : String :=
  match cap with
  | .routeAudio => s!"routed audio to {name}"
  | .captureAudio => s!"set {name} as the active microphone"
  | .captureVideo => s!"opened {name} for video capture"
  | .connectWifi ssid => s!"connected {name} to '{ssid}'"
  | .connectBluetooth peerId => s!"paired {name} with '{peerId}'"
  | .mountStorage => s!"mounted {name}"
  | .unmountStorage => s!"unmounted {name}"
  | .enable => s!"enabled {kind.label}"
  | .disable => s!"disabled {kind.label}"
  | .setBrightness percent => s!"set {name} brightness to {percent}%"
  | .print path => s!"sent '{path}' to {name}"

namespace CapabilityExecutor

def new (service : HardwareService) : CapabilityExecutor := ⟨service, []⟩

def approve (x : CapabilityExecutor) (cap : Capability) : CapabilityExecutor :=
  { x with approved := x.approved ++ [cap] }

def isApproved (x : CapabilityExecutor) (cap : Capability) : Bool := x.approved.any fun c => c = cap

def execute (x : CapabilityExecutor) (request : CapabilityRequest) : CapabilityResult :=
  match x.service.get request.targetDeviceId with
  | none => .refused s!"device '{request.targetDeviceId}' not found"
  | some device =>
    if !stateAllows device request.capability then .invalidState device.state
    else if !request.capability.isSwitch && !device.hasCapability request.capability then
      .refused s!"device '{device.id}' does not claim capability '{request.capability.verb}'"
    else if request.actor.requiresConsent && request.capability.requiresConsent &&
        !x.isApproved request.capability then
      .refused s!"capability '{request.capability.verb}' requires user consent"
    else .ok (describe device.kind request.capability device.name)

end CapabilityExecutor

inductive ExecutorOp where
  | upsert (device : Device)
  | remove (id : String)
  | setState (id : String) (state : DeviceState)
  | toggle (id : String)
  | approve (cap : Capability)

def CapabilityExecutor.step (x : CapabilityExecutor) : ExecutorOp → CapabilityExecutor
  | .upsert device => { x with service := (x.service.upsert device).2 }
  | .remove id => { x with service := (x.service.remove id).2 }
  | .setState id state => { x with service := (x.service.setState id state).2 }
  | .toggle id => { x with service := (x.service.toggle id).2 }
  | .approve cap => x.approve cap

def CapabilityExecutor.run (x : CapabilityExecutor) (ops : List ExecutorOp) : CapabilityExecutor :=
  ops.foldl step x

/-!
## The consent gate of the hardware executor
-/

namespace CapabilityExecutor

/-- The device is registered and, unless it is enabled or disabled, present and capable. -/
def Usable (x : CapabilityExecutor) (request : CapabilityRequest) : Prop :=
  ∃ device, x.service.get request.targetDeviceId = some device ∧
    (request.capability ≠ .enable ∧ request.capability ≠ .disable →
      device.state = .present ∧ request.capability ∈ device.capabilities)

variable {cap : Capability} {device : Device} {x : CapabilityExecutor}

lemma isSwitch_iff : cap.isSwitch ↔ cap = .enable ∨ cap = .disable := by
  cases cap <;> simp [Capability.isSwitch]

lemma hasCapability_iff : device.hasCapability cap ↔ cap ∈ device.capabilities := by
  simp [Device.hasCapability]

lemma isApproved_iff : x.isApproved cap ↔ cap ∈ x.approved := by
  simp [isApproved]

lemma actor_requiresConsent_iff {actor : Actor} : actor.requiresConsent ↔ actor ≠ .user := by
  cases actor <;> simp [Actor.requiresConsent]

lemma execute_isOk_of_get {request : CapabilityRequest}
    (hget : x.service.get request.targetDeviceId = some device) :
    (x.execute request).isOk ↔
      stateAllows device request.capability ∧
      (¬ request.capability.isSwitch → device.hasCapability request.capability) ∧
      (request.actor.requiresConsent → request.capability.requiresConsent →
        x.isApproved request.capability) := by
  unfold execute
  rw [hget]
  dsimp only
  split_ifs <;> simp_all [CapabilityResult.isOk]

/-- **When a request is executed**: the device is usable for it, and what needs consent on both
sides was approved. -/
theorem execute_isOk_iff (x : CapabilityExecutor) (request : CapabilityRequest) :
    (x.execute request).isOk ↔
      x.Usable request ∧ (request.actor ≠ .user → request.capability.requiresConsent →
        request.capability ∈ x.approved) := by
  unfold Usable
  cases hget : x.service.get request.targetDeviceId with
  | none => simp [execute, hget, CapabilityResult.isOk]
  | some device =>
    rw [execute_isOk_of_get hget, hasCapability_iff, isApproved_iff, actor_requiresConsent_iff,
      ← and_assoc]
    refine and_congr_left fun _ => ?_
    simp only [stateAllows, Device.isUsable, Bool.or_eq_true, decide_eq_true_eq, isSwitch_iff,
      Option.some.injEq, exists_eq_left']
    rw [or_iff_not_imp_left, ← imp_and, not_or]

/-- A success has the approval and the device that its actor needs. -/
def Gated (x : CapabilityExecutor) (request : CapabilityRequest) : Prop :=
  (x.execute request).isOk →
    (request.actor = .peer → request.capability ∈ x.approved) ∧
    (request.actor = .agent →
      request.capability ∈ x.approved ∨ ¬ request.capability.requiresConsent) ∧
    (request.actor = .peer ∨ request.actor = .agent → x.Usable request)

/-- **The gate holds** for a request iff a peer that asks for a usable capability without need of
consent has an approval. -/
theorem execute_gated_iff (x : CapabilityExecutor) (request : CapabilityRequest) :
    x.Gated request ↔
      (request.actor = .peer → ¬ request.capability.requiresConsent → x.Usable request →
        request.capability ∈ x.approved) := by
  unfold Gated
  rw [execute_isOk_iff]
  constructor
  · intro hgat hpeer hfree husa
    exact (hgat ⟨husa, fun _ hnee => absurd hnee hfree⟩).1 hpeer
  · rintro hpeer ⟨husa, hcons⟩
    refine ⟨fun hact => ?_, fun hact => ?_, fun _ => husa⟩
    · by_cases hnee : request.capability.requiresConsent
      · exact hcons (by simp [hact]) hnee
      · exact hpeer hact hnee husa
    · by_cases hnee : request.capability.requiresConsent
      · exact .inl (hcons (by simp [hact]) hnee)
      · exact .inr hnee

/-- A peer's request to route audio to the speakers, which nobody has approved. -/
theorem peer_routes_audio_ungated :
    ¬ (new ⟨[⟨"speakers", .audioOutput, "Built-in Audio", .present, [.routeAudio]⟩]⟩).Gated
      ⟨.routeAudio, "speakers", .peer⟩ := by
  intro h
  have happ := (h (by decide)).1 rfl
  exact absurd happ List.not_mem_nil

lemma mem_approved_step {op : ExecutorOp} :
    cap ∈ (x.step op).approved ↔ cap ∈ x.approved ∨ op = .approve cap := by
  cases op <;> simp [step, approve, eq_comm]

lemma mem_approved_run {service : HardwareService} {ops : List ExecutorOp} :
    cap ∈ ((new service).run ops).approved ↔ .approve cap ∈ ops := by
  induction ops using List.reverseRecOn with
  | nil => simp [run, new]
  | append_singleton ops op ih =>
    rw [run, List.foldl_append, List.foldl_cons, List.foldl_nil, mem_approved_step, ← run, ih,
      List.mem_append, List.mem_singleton]
    exact or_congr_right eq_comm

/-- **Consent comes first**: what an agent or a peer exercises, if it needs consent, was approved
earlier in the run. -/
theorem run_consent (service : HardwareService) (ops : List ExecutorOp)
    (request : CapabilityRequest) (hok : (((new service).run ops).execute request).isOk)
    (hact : request.actor ≠ .user) (hnee : request.capability.requiresConsent) :
    .approve request.capability ∈ ops :=
  mem_approved_run.mp (((execute_isOk_iff _ _).mp hok).2 hact hnee)

theorem run_consent_microphone :
    (((new ⟨[⟨"mic", .microphone, "Mic", .present, [.captureAudio]⟩]⟩).run
      [.toggle "mic", .approve .captureAudio, .toggle "mic"]).execute
        ⟨.captureAudio, "mic", .agent⟩).isOk ∧
      .approve .captureAudio ∈ [.toggle "mic", .approve .captureAudio, ExecutorOp.toggle "mic"] :=
  have hok := by decide
  ⟨hok, run_consent _ _ _ hok (by decide) rfl⟩

end CapabilityExecutor

end Aether.Hardware
