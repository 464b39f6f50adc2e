import Aether.Update.Planning
import Mathlib.Data.List.AList

/-!
# The in-memory apply engine (`aether-update-agent/src/engine.rs`)

The maps behind locks are the fields of a state, since nobody else uses the engine during an update.
Payloads and expected hashes are registered together.
-/

namespace Aether.Update

abbrev TextMap (α : Type) := AList fun _ : String => α

inductive FilesystemApplyError where
  | noPayloadRegistered
  | stagedFileMissing
  | hashMismatch (expected observed : String)
  | stagedBytesMissing
  deriving DecidableEq

namespace FilesystemApplyError

def display : FilesystemApplyError → String
  | .noPayloadRegistered => "no payload registered for plan id"
  | .stagedFileMissing => "staged file missing when verify was asked"
  | .hashMismatch expected observed => s!"sha-256 mismatch: expected {expected}, observed {observed}"
  | .stagedBytesMissing => "staged bytes missing when apply was asked"

def intoApplyError (err : FilesystemApplyError) (step : ApplyStep) : ApplyError :=
  .refused step err.display

end FilesystemApplyError

inductive EngineAudit where
  | payloadRegistered (planId : String) (bytes : ℕ)
  | downloaded (planId : String) (bytes : ℕ)
  | verified (planId sha256 : String)
  | staged (planId path : String)
  | snapshotted (planId : String) (components : ℕ)
  | applied (planId path : String)
  | rebootRequested (planId : String)
  deriving DecidableEq

structure FilesystemApplyEngine where
  fs : TextMap (List UInt8)
  payloads : TextMap (List UInt8)
  expectedSha256 : TextMap String
  snapshot : List SnapshotComponent
  audit : List EngineAudit
  registered : ∀ id, id ∈ payloads ↔ id ∈ expectedSha256

namespace FilesystemApplyEngine

def new : FilesystemApplyEngine where
  fs := ∅
  payloads := ∅
  expectedSha256 := ∅
  snapshot := []
  audit := []
  registered _ := iff_of_false (AList.notMem_empty _) (AList.notMem_empty _)

def registerPayload (e : FilesystemApplyEngine) (planId : String) (payload : List UInt8)
    (expectedSha256 : String) : FilesystemApplyEngine where
  fs := e.fs
  payloads := e.payloads.insert planId payload
  expectedSha256 := e.expectedSha256.insert planId expectedSha256
  snapshot := e.snapshot
  audit := e.audit ++ [.payloadRegistered planId payload.length]
  registered id := by rw [AList.mem_insert, AList.mem_insert, e.registered]

def seedActive (e : FilesystemApplyEngine) (path : String) (bytes : List UInt8) :
    FilesystemApplyEngine :=
  { e with fs := e.fs.insert path bytes }

def record (e : FilesystemApplyEngine) (row : EngineAudit) : FilesystemApplyEngine :=
  { e with audit := e.audit ++ [row] }

def activePath (plan : UpdatePlan) : String := s!"active/{plan.target}"

def stagingPath (planId : String) : String := s!"staging/{planId}.bin"

def stagedPath (planId : String) : String := s!"staging/{planId}.staged"

def snapshotPath (plan : UpdatePlan) : String := s!"snapshot/{plan.target}"

def registeredFor {α : Type} (m : TextMap α) (plan : UpdatePlan) : Option α :=
  (m.lookup plan.planId).orElse fun _ => m.lookup plan.target

abbrev StepResult := Except ApplyError Unit × FilesystemApplyEngine

def refuse (e : FilesystemApplyEngine) (err : FilesystemApplyError) (step : ApplyStep) :
    StepResult :=
  (.error (err.intoApplyError step), e)

def download (e : FilesystemApplyEngine) (plan : UpdatePlan) : StepResult :=
  match registeredFor e.payloads plan with
  | none => e.refuse .noPayloadRegistered .download
  | some payload =>
    (.ok (), { e with fs := e.fs.insert (stagingPath plan.planId) payload }.record
      (.downloaded plan.planId payload.length))

def verify (sha256Inline : List UInt8 → String) (e : FilesystemApplyEngine) (plan : UpdatePlan) :
    StepResult :=
  match e.fs.lookup (stagingPath plan.planId) with
  | none => e.refuse .stagedFileMissing .verify
  | some staged =>
    let observed := sha256Inline staged
    match registeredFor e.expectedSha256 plan with
    | none => e.refuse .stagedFileMissing .verify
    | some expected =>
      if observed ≠ expected then e.refuse (.hashMismatch expected observed) .verify
      else (.ok (), e.record (.verified plan.planId observed))

def stage (e : FilesystemApplyEngine) (plan : UpdatePlan) : StepResult :=
  let path := stagedPath plan.planId
  match e.fs.lookup (stagingPath plan.planId) with
  | none => e.refuse .stagedFileMissing .stage
  | some bytes =>
    (.ok (), { e with fs := (e.fs.erase (stagingPath plan.planId)).insert path bytes }.record
      (.staged plan.planId path))

def takeSnapshot (e : FilesystemApplyEngine) (plan : UpdatePlan) : StepResult :=
  let component := SnapshotComponent.new plan.target plan.version (snapshotPath plan)
  (.ok (), { e with snapshot := e.snapshot ++ [component] }.record (.snapshotted plan.planId 1))

def apply (e : FilesystemApplyEngine) (plan : UpdatePlan) : StepResult :=
  match e.fs.lookup (stagedPath plan.planId) with
  | none => e.refuse .stagedBytesMissing .apply
  | some bytes =>
    (.ok (), { e with fs := e.fs.insert (activePath plan) bytes }.record
      (.applied plan.planId (stagedPath plan.planId)))

def reboot (e : FilesystemApplyEngine) (plan : UpdatePlan) : StepResult :=
  (.ok (), e.record (.rebootRequested plan.planId))

def run (sha256Inline : List UInt8 → String) (e : FilesystemApplyEngine) (step : ApplyStep)
    (plan : UpdatePlan) : StepResult :=
  match step with
  | .download => e.download plan
  | .verify => e.verify sha256Inline plan
  | .stage => e.stage plan
  | .snapshot => e.takeSnapshot plan
  | .apply => e.apply plan
  | .reboot => e.reboot plan

def replay (sha256Inline : List UInt8 → String) (plan : UpdatePlan) (e : FilesystemApplyEngine)
    (calls : List EngineCall) : FilesystemApplyEngine :=
  calls.foldl (fun e c => (e.run sha256Inline c.step plan).2) e

def toApplyEngine (sha256Inline : List UInt8 → String) (e : FilesystemApplyEngine) (made : ℕ) :
    ApplyEngine UpdatePlan := fun calls step plan =>
  ((e.replay sha256Inline plan (calls.drop made)).run sha256Inline step plan).1

end FilesystemApplyEngine

def UpdateAgent.applyOn (sha256Inline : List UInt8 → String) (e : FilesystemApplyEngine)
    (a : UpdateAgent UpdatePlan) (nowMs : UInt64) :
    Option (Except ApplyError Unit) × FilesystemApplyEngine :=
  match a.apply (e.toApplyEngine sha256Inline a.calls.length) nowMs, a.status.currentPlan with
  | (outcome, _), none => (outcome, e)
  | (outcome, a'), some plan =>
    (outcome, e.replay sha256Inline plan (a'.calls.drop a.calls.length))

end Aether.Update
