import Aether.Core.Str
import Aether.Security.Audit
import Mathlib.Data.List.Sort

/-!
# The boot measurement chain (`aether-security/src/boot_measure.rs`)

A chain like the one of the audit log.
-/

namespace Aether.Security

open Aether.Core (Str)

inductive BootStage where
  | kernelCommandLine
  | initramfsComponent
  | kernelModule
  | serviceManifest
  | bootComplete
  deriving DecidableEq

def BootStage.asStr : BootStage → String
  | .kernelCommandLine => "kernel-command-line"
  | .initramfsComponent => "initramfs-component"
  | .kernelModule => "kernel-module"
  | .serviceManifest => "service-manifest"
  | .bootComplete => "boot-complete"

structure BootMeasurement where
  index : UInt64
  prevHash : Digest
  payload : Digest
  contentHash : Digest
  stage : BootStage
  name : String
  note : String
  timestampMs : UInt64
  deriving DecidableEq

def BootMeasurement.canonicalBytes (m : BootMeasurement) : List UInt8 :=
  toBeBytes m.index ++ toBeBytes m.timestampMs ++ m.prevHash.toList ++ m.payload.toList ++
    (asBytes m.stage.asStr ++ [0]) ++ (asBytes m.name ++ [0]) ++ (asBytes m.note ++ [0])

def BootMeasurement.recomputeHash (sha256 : List UInt8 → Digest) (m : BootMeasurement) : Digest :=
  sha256 m.canonicalBytes

structure BootRetention where
  maxEntries : UInt64
  maxAgeMs : UInt64
  deriving DecidableEq

def BootRetention.lastN (n : UInt64) : BootRetention := ⟨n, 0⟩

inductive BootChainStatus where
  | contentMismatch (index : UInt64)
  | brokenLink (index : UInt64)
  | indexGap (index : UInt64)
  | missingBootComplete (lastIndex : UInt64)
  deriving DecidableEq

structure BootMeasurementChain where
  entries : List BootMeasurement
  retention : BootRetention

def verifyMeasurements (sha256 : List UInt8 → Digest) :
    UInt64 → Digest → List BootMeasurement → Except BootChainStatus Unit
  | _, _, [] => .ok ()
  | i, prev, m :: ms =>
    if m.index ≠ i then .error (.indexGap m.index)
    else if m.prevHash ≠ prev then .error (.brokenLink m.index)
    else if m.recomputeHash sha256 ≠ m.contentHash then .error (.contentMismatch m.index)
    else verifyMeasurements sha256 (i + 1) m.contentHash ms

def restampMeasurements (sha256 : List UInt8 → Digest) :
    UInt64 → Digest → List BootMeasurement → List BootMeasurement
  | _, _, [] => []
  | i, prev, m :: ms =>
    let m := { m with index := i, prevHash := prev }
    let m := { m with contentHash := m.recomputeHash sha256 }
    m :: restampMeasurements sha256 (i + 1) m.contentHash ms

namespace BootMeasurementChain

def new (retention : BootRetention) : BootMeasurementChain := ⟨[], retention⟩

def evict (c : BootMeasurementChain) : Option (List BootMeasurement) :=
  if c.retention.maxEntries ≠ 0 ∧ c.entries.length ≥ c.retention.maxEntries.toNat then
    removeFirst c.entries
  else some c.entries

def newMeasurement (sha256 : List UInt8 → Digest) (entries : List BootMeasurement)
    (timestampMs : UInt64) (stage : BootStage) (name note : String) (payload : Digest) :
    BootMeasurement :=
  let entry : BootMeasurement :=
    { index := UInt64.ofNat entries.length, timestampMs,
      prevHash := (entries.getLast?.map BootMeasurement.contentHash).getD genesisPrevHash,
      payload, contentHash := Vector.replicate 32 0, stage, name, note }
  { entry with contentHash := entry.recomputeHash sha256 }

def record (sha256 : List UInt8 → Digest) (c : BootMeasurementChain) (timestampMs : UInt64)
    (stage : BootStage) (name note : String) (payload : Digest) :
    Option (BootMeasurementChain × UInt64) :=
  c.evict.map fun entries =>
    let entry := newMeasurement sha256 entries timestampMs stage name note payload
    ({ c with entries := entries ++ [entry] }, entry.index)

def verifyChainInner (sha256 : List UInt8 → Digest) (c : BootMeasurementChain)
    (requireComplete : Bool) : Except BootChainStatus Unit := do
  verifyMeasurements sha256 0 genesisPrevHash c.entries
  if requireComplete && !c.entries.getLast?.any (fun m => m.stage = .bootComplete) then
    throw (.missingBootComplete (UInt64.ofNat (c.entries.length - 1)))

def verifyChainLenient (sha256 : List UInt8 → Digest) (c : BootMeasurementChain) :
    Except BootChainStatus Unit := c.verifyChainInner sha256 false

def pruneOlderThan (sha256 : List UInt8 → Digest) (c : BootMeasurementChain) (nowMs : UInt64) :
    BootMeasurementChain × ℕ :=
  if c.retention.maxAgeMs = 0 then (c, 0)
  else
    let cutoff := saturatingSub nowMs c.retention.maxAgeMs
    match c.entries.findIdx? fun m => decide (cutoff ≤ m.timestampMs) with
    | none => ({ c with entries := [] }, c.entries.length)
    | some 0 => (c, 0)
    | some keepFrom =>
      ({ c with entries :=
          restampMeasurements sha256 0 genesisPrevHash (c.entries.drop keepFrom) }, keepFrom)

end BootMeasurementChain

inductive BootOp where
  | record (timestampMs : UInt64) (stage : BootStage) (name note : String) (payload : Digest)
  | pruneOlderThan (nowMs : UInt64)

def BootMeasurementChain.step (sha256 : List UInt8 → Digest) (c : BootMeasurementChain) :
    BootOp → Option BootMeasurementChain
  | .record timestampMs stage name note payload =>
    (c.record sha256 timestampMs stage name note payload).map Prod.fst
  | .pruneOlderThan nowMs => some (c.pruneOlderThan sha256 nowMs).1

def StrLe (p q : String) : Prop := ¬ List.Lex (· < ·) (asBytes q) (asBytes p)

instance : DecidableRel StrLe := fun p q =>
  inferInstanceAs (Decidable (¬ List.Lex (· < ·) (asBytes q) (asBytes p)))

def sortedArguments (cmdline : String) : List String :=
  ((Str.splitWhitespace cmdline.toList).map String.ofList).insertionSort StrLe

def cmdlineBytes (cmdline : String) : List UInt8 :=
  (sortedArguments cmdline).flatMap fun p => asBytes p ++ [0]

def kernelCmdlineDigest (sha256 : List UInt8 → Digest) (cmdline : String) : Digest :=
  sha256 (cmdlineBytes cmdline)

end Aether.Security
