import Aether.Algorithm.Checked
import Aether.Algorithm.Consecutive
import Mathlib.Data.List.Forall2

/-!
# The installation plan (`aether-installer`: `lib.rs`)

`plan_installation` sizes four partitions from the disk size in bytes and places them one after the
other in 512-byte sectors.  An overflow of the 64-bit arithmetic is `none`.
-/

namespace Aether.Installer

open Checked

structure Partition where
  index : UInt32
  name : String
  typeGuid : String
  uniqueGuid : String
  startLba : UInt64
  endLba : UInt64
  sizeBytes : UInt64
  filesystem : Option String
  mountPoint : Option String
  isEsp : Bool
  isBoot : Bool
  isRoot : Bool
  isRecovery : Bool
  deriving DecidableEq

namespace PartitionTypes

def esp : String := "C12A7328-F81F-11D2-BA4B-00A0C93EC93B"

def linuxFs : String := "0FC63DAF-8483-4772-8E79-3D69D8477DE4"

def aetherRoot : String := "A5B2D3E4-F6A7-8901-2345-6789ABCDEF01"

def aetherRecovery : String := "B6C3D4E5-A7B8-9012-3456-789ABCDEF012"

end PartitionTypes

structure DiskLayout where
  device : String
  sizeBytes : UInt64
  sectorSize : UInt32
  partitions : List Partition
  diskGuid : String
  deriving DecidableEq

structure InstallPlan where
  targetDisk : String
  eraseDisk : Bool
  layout : DiskLayout
  osVersion : String
  osHash : String
  installBootloader : Bool
  createRecovery : Bool
  deriving DecidableEq

def hex04 (n : UInt32) : String := String.ofList ((Nat.toDigits 16 n.toNat).leftpad 4 '0')

structure PartRequest where
  name : String
  guid : String
  size : UInt64

def makePart (index : UInt32) (request : PartRequest) (startLba : UInt64) : Option Partition := do
  let sectors := request.size / 512
  let endLba ← subU64 (← addU64 startLba sectors) 1
  some
    { index, name := request.name, typeGuid := request.guid,
      uniqueGuid := s!"install-{hex04 index}", startLba, endLba, sizeBytes := request.size,
      filesystem := none, mountPoint := none,
      isEsp := request.guid == PartitionTypes.esp, isBoot := request.guid == PartitionTypes.esp,
      isRoot := request.guid == PartitionTypes.aetherRoot,
      isRecovery := request.guid == PartitionTypes.aetherRecovery }

def makeParts : UInt32 → UInt64 → List PartRequest → Option (List Partition)
  | _, _, [] => some []
  | index, startLba, r :: rs => do
    let p ← makePart index r startLba
    let next ← addU64 p.endLba 1
    let ps ← makeParts (index + 1) next rs
    some (p :: ps)

def espSize : UInt64 := 512 * 1024 * 1024

def recoverySize : UInt64 := 2 * 1024 * 1024 * 1024

def bootSize : UInt64 := 1024 * 1024 * 1024

def rootSize (diskSize : UInt64) : Option UInt64 := do
  subU64 (← subU64 (← subU64 diskSize espSize) recoverySize) bootSize

def partRequests (root : UInt64) : List PartRequest :=
  [⟨"ESP", PartitionTypes.esp, espSize⟩, ⟨"boot", PartitionTypes.linuxFs, bootSize⟩,
    ⟨"aether-root", PartitionTypes.aetherRoot, root⟩,
    ⟨"recovery", PartitionTypes.aetherRecovery, recoverySize⟩]

def firstLba : UInt64 := 2048

def planInstallation (device : String) (diskSize : UInt64) : Option InstallPlan := do
  let root ← rootSize diskSize
  let partitions ← makeParts 1 firstLba (partRequests root)
  some
    { targetDisk := device, eraseDisk := true,
      layout :=
        { device, sizeBytes := diskSize, sectorSize := 512, partitions,
          diskGuid := "aether-install-001" },
      osVersion := "0.1.0", osHash := "", installBootloader := true, createRecovery := true }

/-!
## Where the planned partitions lie

The sizes add up to the whole disk (`rootSize`), so nothing is left for the 2048 sectors in front:
the recovery partition always ends 2048 sectors behind the end of the disk.
-/

open Option

def Partition.first (p : Partition) : ℕ := p.startLba.toNat

def Partition.last (p : Partition) : ℕ := p.endLba.toNat

structure Partition.Answers (p : Partition) (request : PartRequest) : Prop where
  size : p.sizeBytes = request.size
  recovery : p.isRecovery = (request.guid == PartitionTypes.aetherRecovery)
  sectors : p.last + 1 = p.first + request.size.toNat / 512

lemma makePart_spec (index : UInt32) {r : PartRequest} {startLba : UInt64}
    (hsize : 512 ≤ r.size.toNat) (hfits : startLba.toNat + r.size.toNat / 512 < UInt64.size) :
    ∃ p, makePart index r startLba = some p ∧ p.Answers r ∧ p.first = startLba.toNat := by
  have hsec : (r.size / 512).toNat = r.size.toNat / 512 := UInt64.toNat_div r.size 512
  obtain ⟨sum, hadd, hsum⟩ := exists_addU64 (a := startLba) (b := r.size / 512)
    (by rw [hsec]; exact hfits)
  rw [hsec] at hsum
  obtain ⟨endLba, hsub, hend⟩ := exists_subU64 (a := sum) (b := 1) (by
    show 1 ≤ sum.toNat
    omega)
  have hone : (1 : UInt64).toNat = 1 := rfl
  refine ⟨_, by simp only [makePart, hadd, hsub, bind_eq_bind, bind_some]; rfl,
    ⟨rfl, rfl, ?_⟩, rfl⟩
  show endLba.toNat + 1 = startLba.toNat + r.size.toNat / 512
  omega

def sectorsOf : List PartRequest → ℕ
  | [] => 0
  | r :: rs => r.size.toNat / 512 + sectorsOf rs

variable {rs : List PartRequest} {ps : List Partition} {diskSize : UInt64}

lemma makeParts_spec (hsize : ∀ r ∈ rs, 512 ≤ r.size.toNat) (index : UInt32) (startLba : UInt64)
    (hfits : startLba.toNat + sectorsOf rs < UInt64.size) :
    ∃ ps, makeParts index startLba rs = some ps ∧ List.Forall₂ Partition.Answers ps rs ∧
      Consecutive Partition.first Partition.last startLba.toNat ps
        (startLba.toNat + sectorsOf rs) := by
  -- after a partition the loop goes on at the sector behind its last one
  induction rs generalizing index startLba with
  | nil => exact ⟨[], rfl, List.Forall₂.nil, Consecutive.nil _⟩
  | cons r rs ih =>
    rw [List.forall_mem_cons] at hsize
    simp only [sectorsOf] at hfits ⊢
    have hroom : startLba.toNat + r.size.toNat / 512 < UInt64.size := by omega
    obtain ⟨p, hp, hans, hfst⟩ := makePart_spec index hsize.1 hroom
    have hlast := hans.sectors
    have hone : (1 : UInt64).toNat = 1 := rfl
    obtain ⟨next, hadd, hnext⟩ := exists_addU64 (a := p.endLba) (b := 1) (by
      show p.last + 1 < UInt64.size
      omega)
    have hnext' : next.toNat = p.last + 1 := hnext
    obtain ⟨ps, hps, hall, hcons⟩ := ih hsize.2 (index + 1) next (by omega)
    refine ⟨p :: ps, ?_, List.Forall₂.cons hans hall, ?_⟩
    · simp only [makeParts, hp, hadd, hps, bind_eq_bind, bind_some]
    · have hhi : startLba.toNat + (r.size.toNat / 512 + sectorsOf rs) =
          next.toNat + sectorsOf rs := by omega
      rw [hhi]
      refine Consecutive.cons hfst (by omega) ?_
      rw [← hnext']
      exact hcons

lemma sectors_of_answers (hall : List.Forall₂ Partition.Answers ps rs) :
    ∀ p ∈ ps, p.last + 1 = p.first + p.sizeBytes.toNat / 512 := by
  induction hall with
  | nil => simp
  | cons hans _ ih =>
    rw [List.forall_mem_cons]
    refine ⟨?_, ih⟩
    rw [hans.sectors, hans.size]

@[simp] lemma espSize_toNat : espSize.toNat = 536870912 := rfl

@[simp] lemma bootSize_toNat : bootSize.toNat = 1073741824 := rfl

@[simp] lemma recoverySize_toNat : recoverySize.toNat = 2147483648 := rfl

@[simp] lemma firstLba_toNat : firstLba.toNat = 2048 := rfl

def minDiskSize : ℕ :=
  espSize.toNat + bootSize.toNat + recoverySize.toNat + firstLba.toNat * 512 + 512

lemma minDiskSize_eq : minDiskSize = 3759145472 := rfl

lemma rootSize_spec (h : minDiskSize ≤ diskSize.toNat) :
    ∃ root, rootSize diskSize = some root ∧ 512 ≤ root.toNat ∧
      diskSize.toNat = espSize.toNat + bootSize.toNat + root.toNat + recoverySize.toNat := by
  rw [minDiskSize_eq] at h
  obtain ⟨a, ha, hesp⟩ := exists_subU64 (a := diskSize) (b := espSize) (by
    rw [espSize_toNat]; omega)
  rw [espSize_toNat] at hesp
  obtain ⟨b, hb, hrec⟩ := exists_subU64 (a := a) (b := recoverySize) (by
    rw [recoverySize_toNat]; omega)
  rw [recoverySize_toNat] at hrec
  obtain ⟨root, hroot, hboot⟩ := exists_subU64 (a := b) (b := bootSize) (by
    rw [bootSize_toNat]; omega)
  rw [bootSize_toNat] at hboot
  refine ⟨root, ?_, by omega, ?_⟩
  · simp only [rootSize, ha, hb, hroot, bind_eq_bind, bind_some]
  · rw [espSize_toNat, bootSize_toNat, recoverySize_toNat]
    omega

def DiskLayout.sectors (layout : DiskLayout) : ℕ :=
  layout.sizeBytes.toNat / layout.sectorSize.toNat

/-- Four non-empty partitions in increasing order, with the sectors of their bytes. -/
structure DiskLayout.Placed (layout : DiskLayout) : Prop where
  four : layout.partitions.length = 4
  nonempty : ∀ p ∈ layout.partitions, p.first ≤ p.last
  increasing : layout.partitions.Pairwise fun p q => p.last < q.first
  sizes : ∀ p ∈ layout.partitions,
    p.last + 1 - p.first = p.sizeBytes.toNat / layout.sectorSize.toNat

lemma planInstallation_spec (device : String) (h : minDiskSize ≤ diskSize.toNat) :
    ∃ plan root, planInstallation device diskSize = some plan ∧ plan.layout.sizeBytes = diskSize ∧
      plan.layout.sectorSize = 512 ∧
      diskSize.toNat = espSize.toNat + bootSize.toNat + root.toNat + recoverySize.toNat ∧
      List.Forall₂ Partition.Answers plan.layout.partitions (partRequests root) ∧
      Consecutive Partition.first Partition.last 2048 plan.layout.partitions
        (diskSize.toNat / 512 + 2048) := by
  obtain ⟨root, hroot, hsec, hsum⟩ := rootSize_spec h
  have hsize : ∀ r ∈ partRequests root, 512 ≤ r.size.toNat := by
    simp only [partRequests, List.forall_mem_cons, espSize_toNat, bootSize_toNat,
      recoverySize_toNat]
    exact ⟨by omega, by omega, hsec, by omega, by simp⟩
  -- the fixed sizes are whole sectors, so only the root partition is rounded down
  have hsect : sectorsOf (partRequests root) = diskSize.toNat / 512 := by
    simp only [sectorsOf, partRequests, hsum, espSize_toNat, bootSize_toNat, recoverySize_toNat]
    omega
  have hdisk := diskSize.toNat_lt_size
  have hbou : UInt64.size = 18446744073709551616 := rfl
  obtain ⟨ps, hps, hall, hcons⟩ := makeParts_spec hsize 1 firstLba (by
    rw [hsect, firstLba_toNat]; omega)
  rw [hsect, firstLba_toNat, Nat.add_comm] at hcons
  refine ⟨⟨device, true, ⟨device, diskSize, 512, ps, "aether-install-001"⟩, "0.1.0", "", true,
    true⟩, root, ?_, rfl, rfl, hsum, hall, hcons⟩
  simp only [planInstallation, hroot, hps, bind_eq_bind, bind_some]

lemma exists_four {root : UInt64} (hall : List.Forall₂ Partition.Answers ps (partRequests root)) :
    ∃ esp boot aetherRoot recovery, ps = [esp, boot, aetherRoot, recovery] ∧
      esp.isRecovery = false ∧ boot.isRecovery = false ∧ aetherRoot.isRecovery = false ∧
      recovery.isRecovery = true ∧
      recovery.last + 1 = recovery.first + recoverySize.toNat / 512 := by
  unfold partRequests at hall
  cases hall with
  | cons h₁ hall => cases hall with
  | cons h₂ hall => cases hall with
  | cons h₃ hall => cases hall with
  | cons h₄ hall =>
  cases hall
  refine ⟨_, _, _, _, rfl, ?_, ?_, ?_, ?_, h₄.sectors⟩
  · exact h₁.recovery.trans (by decide)
  · exact h₂.recovery.trans (by decide)
  · refine h₃.recovery.trans ?_
    show (PartitionTypes.aetherRoot == PartitionTypes.aetherRecovery) = false
    decide
  · exact h₄.recovery.trans (by decide)

lemma recovery_last {root : UInt64} {lo hi : ℕ}
    (hall : List.Forall₂ Partition.Answers ps (partRequests root))
    (hcons : Consecutive Partition.first Partition.last lo ps hi) :
    (∀ p ∈ ps, p.isRecovery = false → p.last + recoverySize.toNat / 512 < hi) ∧
      (∀ p ∈ ps, p.isRecovery = true → p.last + 1 = hi) ∧ ∃ p ∈ ps, p.isRecovery = true := by
  obtain ⟨esp, boot, aetherRoot, recovery, rfl, hesp, hboot, hroot, hrec, hsize⟩ :=
    exists_four hall
  cases hcons with
  | cons _ hne₁ hcons => cases hcons with
  | cons hf₂ hne₂ hcons => cases hcons with
  | cons hf₃ hne₃ hcons => cases hcons with
  | cons hf₄ hne₄ hcons =>
  cases hcons
  simp only [List.forall_mem_cons, List.exists_mem_cons_iff, List.not_mem_nil, false_implies,
    implies_true, and_true, hesp, hboot, hroot, hrec, Bool.false_eq_true, Bool.true_eq_false,
    true_implies, false_or, true_or]
  refine ⟨?_, ?_, ?_⟩ <;> omega

/-- The partitions are placed on a disk that has room for the fixed ones, the gap and a sector of
root.  Exactly the recovery partition does not lie on the disk: it ends 2048 sectors behind its end,
whatever the size. -/
theorem planInstallation_layout (device : String) (diskSize : UInt64)
    (h : minDiskSize ≤ diskSize.toNat) :
    ∃ plan, planInstallation device diskSize = some plan ∧ plan.layout.Placed ∧
      (∀ p ∈ plan.layout.partitions, p.last < plan.layout.sectors ↔ p.isRecovery = false) ∧
      ∃ p ∈ plan.layout.partitions,
        p.isRecovery = true ∧ p.last + 1 = plan.layout.sectors + 2048 := by
  obtain ⟨plan, root, hplan, hsize, hsec, -, hall, hcons⟩ := planInstallation_spec device h
  have hlay : plan.layout.sectors = diskSize.toNat / 512 := by
    rw [DiskLayout.sectors, hsize, hsec]
    rfl
  have hsiz := sectors_of_answers hall
  obtain ⟨hoth, hrec, p, hp, hprec⟩ := recovery_last hall hcons
  rw [recoverySize_toNat] at hoth
  refine ⟨plan, hplan, ⟨hall.length_eq, ?_, hcons.pairwise, ?_⟩, ?_, p, hp, hprec, ?_⟩
  · intro q hq
    exact (hcons.bounds q hq).2.1
  · intro q hq
    rw [hsec]
    have hq' := hsiz q hq
    show q.last + 1 - q.first = q.sizeBytes.toNat / 512
    omega
  · intro q hq
    rw [hlay]
    cases hqrec : q.isRecovery with
    | false =>
      have hend := hoth q hq hqrec
      exact iff_of_true (by omega) rfl
    | true =>
      have hend := hrec q hq hqrec
      exact iff_of_false (by omega) (by simp)
  · rw [hlay]
    exact hrec p hp hprec

theorem planInstallation_layout_smallest : ∃ plan,
    planInstallation "/dev/sda" 3759145472 = some plan ∧ plan.layout.Placed ∧
      (∀ p ∈ plan.layout.partitions, p.last < plan.layout.sectors ↔ p.isRecovery = false) ∧
      ∃ p ∈ plan.layout.partitions,
        p.isRecovery = true ∧ p.last + 1 = plan.layout.sectors + 2048 :=
  planInstallation_layout "/dev/sda" 3759145472 (by decide)

/-- A disk of 256 GiB, the size the mock backend has. -/
theorem planInstallation_recovery_off_disk :
    minDiskSize ≤ (256 * 1024 * 1024 * 1024 : UInt64).toNat ∧
      ((planInstallation "/dev/sda" (256 * 1024 * 1024 * 1024)).map fun plan =>
        (plan.layout.sectors, plan.layout.partitions.map fun p => (p.first, p.last))) =
        some (536870912, [(2048, 1050623), (1050624, 3147775), (3147776, 532678655),
          (532678656, 536872959)]) ∧
      ¬ 536872959 < 536870912 := by
  decide +kernel

end Aether.Installer
