import Aether.Algorithm.HashChain
import Aether.Security.BootMeasure
import Mathlib.Data.Multiset.Defs

/-!
# When a boot chain verifies

As in the audit log, `record` at capacity drops the head without renumbering the rest; other than
there, a limit of zero does not fail (`evict_ne_none`).
-/

namespace Aether.Security

variable (sha256 : List UInt8 → Digest)

def BootMeasurement.format : HashChain.Format BootMeasurement Digest where
  index := BootMeasurement.index
  prev := BootMeasurement.prevHash
  hash := BootMeasurement.contentHash
  recompute := BootMeasurement.recomputeHash sha256
  stamp i prev m :=
    let m := { m with index := i, prevHash := prev }
    { m with contentHash := m.recomputeHash sha256 }
  index_stamp _ _ _ := rfl
  prev_stamp _ _ _ := rfl
  recompute_stamp _ _ _ := rfl

lemma verifyMeasurements_eq_ok_iff (i : UInt64) (prev : Digest) (ms : List BootMeasurement) :
    verifyMeasurements sha256 i prev ms = .ok () ↔
      HashChain.Verified (BootMeasurement.format sha256) i prev ms := by
  induction ms generalizing i prev with
  | nil => exact iff_of_true rfl trivial
  | cons m ms ih =>
    rw [verifyMeasurements, HashChain.Verified, ← ih]
    split_ifs with hix hprev hhash
    · exact iff_of_false (by simp) fun h => hix h.1
    · exact iff_of_false (by simp) fun h => hprev h.2.1
    · exact iff_of_false (by simp) fun h => hhash h.2.2.1
    · simp only [ne_eq, not_not] at hix hprev hhash
      exact ⟨fun h => ⟨hix, hprev, hhash, h⟩, fun h => h.2.2.2⟩

lemma restampMeasurements_eq (i : UInt64) (prev : Digest) (ms : List BootMeasurement) :
    restampMeasurements sha256 i prev ms =
      HashChain.restamp (BootMeasurement.format sha256) i prev ms := by
  induction ms generalizing i prev with
  | nil => rfl
  | cons m ms ih => exact congrArg (List.cons _) (ih _ _)

def BootMeasurementChain.RecordFits (c : BootMeasurementChain) : Prop :=
  c.retention.maxEntries = 0 ∨ c.entries.length < c.retention.maxEntries.toNat ∨
    c.entries.length = 1

/-- A `record` finds room or a single entry. -/
def BootOp.Fits (c : BootMeasurementChain) : BootOp → Prop
  | .record _ _ _ _ _ => c.RecordFits
  | .pruneOlderThan _ => True

namespace BootMeasurementChain

variable {c : BootMeasurementChain}

lemma verifyChainLenient_eq_ok_iff : c.verifyChainLenient sha256 = .ok () ↔
    HashChain.Verified (BootMeasurement.format sha256) 0 genesisPrevHash c.entries := by
  rw [← verifyMeasurements_eq_ok_iff, verifyChainLenient, verifyChainInner]
  cases verifyMeasurements sha256 0 genesisPrevHash c.entries with
  | error e => exact iff_of_false nofun nofun
  | ok u => exact iff_of_true rfl rfl

lemma evict_ne_none (c : BootMeasurementChain) : c.evict ≠ none := by
  unfold evict
  split_ifs with hfull
  · cases hent : c.entries with
    | nil =>
      rw [hent, List.length_nil] at hfull
      exact absurd (UInt64.toNat_inj.mp (Nat.le_zero.mp hfull.2)) hfull.1
    | cons m ms => exact Option.some_ne_none ms
  · exact Option.some_ne_none c.entries

lemma verified_evict_iff {kept : List BootMeasurement} (hkept : c.evict = some kept)
    (hc : c.verifyChainLenient sha256 = .ok ()) :
    HashChain.Verified (BootMeasurement.format sha256) 0 genesisPrevHash kept ↔ c.RecordFits := by
  rw [verifyChainLenient_eq_ok_iff] at hc
  unfold evict at hkept
  unfold RecordFits
  split_ifs at hkept with hfull
  · cases hent : c.entries with
    | nil =>
      rw [hent] at hkept
      cases hkept
    | cons m ms =>
      rw [hent] at hkept hc hfull
      cases hkept
      rw [HashChain.verified_tail_iff hc]
      constructor
      · rintro rfl
        exact .inr (.inr rfl)
      · rintro (hmax | hroom | hone)
        · exact absurd hmax hfull.1
        · exact absurd hroom (not_lt.mpr hfull.2)
        · exact List.length_eq_zero_iff.mp (Nat.succ.inj hone)
  · cases hkept
    refine iff_of_true hc ?_
    by_cases hmax : c.retention.maxEntries = 0
    · exact .inl hmax
    · exact .inr (.inl (not_le.mp fun hle => hfull ⟨hmax, hle⟩))

variable {timestampMs : UInt64} {stage : BootStage} {payload : Digest}

lemma verified_newMeasurement {entries : List BootMeasurement} {name note : String} :
    HashChain.Verified (BootMeasurement.format sha256) 0 genesisPrevHash
        (entries ++ [newMeasurement sha256 entries timestampMs stage name note payload]) ↔
      HashChain.Verified (BootMeasurement.format sha256) 0 genesisPrevHash entries := by
  rw [HashChain.verified_concat, UInt64.zero_add]
  exact and_iff_left ⟨rfl, rfl, rfl⟩

lemma step_record_lenient_iff (hc : c.verifyChainLenient sha256 = .ok ()) {name note : String} :
    (∃ c', c.step sha256 (.record timestampMs stage name note payload) = some c' ∧
      c'.verifyChainLenient sha256 = .ok ()) ↔ c.RecordFits := by
  obtain ⟨kept, hkept⟩ := Option.ne_none_iff_exists'.mp c.evict_ne_none
  have hstep : c.step sha256 (.record timestampMs stage name note payload) = some { c with
      entries := kept ++ [newMeasurement sha256 kept timestampMs stage name note payload] } := by
    rw [step, record, hkept]
    rfl
  simp only [hstep, Option.some.injEq, exists_eq_left', verifyChainLenient_eq_ok_iff]
  rw [verified_newMeasurement, verified_evict_iff sha256 hkept hc]

lemma prune_lenient (hc : c.verifyChainLenient sha256 = .ok ()) (nowMs : UInt64) :
    (c.pruneOlderThan sha256 nowMs).1.verifyChainLenient sha256 = .ok () := by
  unfold pruneOlderThan
  split_ifs with hage
  · exact hc
  · dsimp only
    split
    · rfl
    · exact hc
    · rw [verifyChainLenient_eq_ok_iff, restampMeasurements_eq]
      exact HashChain.verified_restamp

/-- **Step lemma**: from a verifying chain, a call returns in a verifying chain iff it fits. -/
theorem step_lenient_iff (hc : c.verifyChainLenient sha256 = .ok ()) (op : BootOp) :
    (∃ c', c.step sha256 op = some c' ∧ c'.verifyChainLenient sha256 = .ok ()) ↔ op.Fits c := by
  cases op with
  | record timestampMs stage name note payload => exact step_record_lenient_iff sha256 hc
  | pruneOlderThan nowMs => exact iff_of_true ⟨_, rfl, prune_lenient sha256 hc nowMs⟩ trivial

/-- **Which runs keep the boot chain verifying**: from a new chain, every call returns and every
state reached passes the lenient verification iff every operation fits. -/
theorem exec_lenient_iff (retention : BootRetention) (ops : List BootOp) :
    (∀ ops', ops' <+: ops → ∃ c, Run.exec (step sha256) (new retention) ops' = some c ∧
        c.verifyChainLenient sha256 = .ok ()) ↔
      Run.Along (step sha256) BootOp.Fits (new retention) ops := by
  have hrun := Run.always_iff_along (I := fun _ => True) (fun _ _ _ _ _ => trivial)
    (fun _ op _ hc => step_lenient_iff sha256 hc op) trivial (s := new retention) rfl ops
  exact Run.always_iff_prefix.symm.trans hrun

/-- With any hash function, a chain of capacity two with three measurements reports an index gap in
itself. -/
theorem full_boot_chain_does_not_verify :
    ¬ ∃ sha256 : List UInt8 → Digest, ∀ (retention : BootRetention) (ops : List BootOp),
      ∃ c, Run.exec (step sha256) (new retention) ops = some c ∧
        c.verifyChainLenient sha256 = .ok () := by
  rintro ⟨sha256, h⟩
  let ops : List BootOp :=
    [.record 1 .kernelCommandLine "" "" genesisPrevHash,
      .record 2 .kernelModule "a" "" genesisPrevHash,
      .record 3 .kernelModule "b" "" genesisPrevHash]
  obtain ⟨c, hc, hv⟩ := h (BootRetention.lastN 2) ops
  have hgap : (Run.exec (step sha256) (new (BootRetention.lastN 2)) ops).map
      (verifyChainLenient sha256) = some (.error (.indexGap 1)) := rfl
  rw [hc, Option.map_some, hv] at hgap
  cases hgap

end BootMeasurementChain

/-!
## What the digest of a kernel command line commits to

The arguments are sorted, so their order does not matter (`sortedArguments_eq_iff`), and each is
followed by a zero byte, so that without NUL characters they can be read back (`cmdlineBytes_inj`).
-/

open Aether.Core (Str)
open Framing List

instance : Std.Total StrLe where
  total p q := List.le_total (asBytes p) (asBytes q)

instance : IsTrans String StrLe where
  trans _ _ _ hpq hqr := List.le_trans hpq hqr

instance : Std.Antisymm StrLe where
  antisymm _ _ hpq hqp := asBytes_injective (List.le_antisymm hpq hqp)

def arguments (cmdline : String) : List String :=
  (Str.splitWhitespace cmdline.toList).map String.ofList

lemma sortedArguments_perm (cmdline : String) :
    (sortedArguments cmdline).Perm (arguments cmdline) := perm_insertionSort ..

lemma sortedArguments_eq_iff {a b : String} :
    sortedArguments a = sortedArguments b ↔ (arguments a).Perm (arguments b) := by
  constructor
  · intro h
    have hb := sortedArguments_perm b
    rw [← h] at hb
    exact (sortedArguments_perm a).symm.trans hb
  · intro h
    have hperm : (sortedArguments a).Perm (sortedArguments b) :=
      (sortedArguments_perm a).trans (h.trans (sortedArguments_perm b).symm)
    exact hperm.eq_of_pairwise' (pairwise_insertionSort ..) (pairwise_insertionSort ..)

lemma mem_of_mem_splitOnP {α : Type*} {p : α → Bool} {xs l : List α} {x : α}
    (hl : l ∈ xs.splitOnP p) (hx : x ∈ l) : x ∈ xs := by
  induction xs generalizing l with
  | nil =>
    rw [splitOnP_nil, mem_singleton] at hl
    exact hl ▸ hx
  | cons y ys ih =>
    rw [splitOnP_cons_eq_if_modifyHead] at hl
    split_ifs at hl
    · rcases mem_cons.mp hl with rfl | hl
      · cases hx
      · exact mem_cons_of_mem y (ih hl hx)
    · obtain ⟨first, rest, hspl⟩ := exists_cons_of_ne_nil (splitOnP_ne_nil p ys)
      rw [hspl] at hl ih
      rcases mem_cons.mp hl with rfl | hl
      · rcases mem_cons.mp hx with rfl | hx
        · exact mem_cons_self
        · exact mem_cons_of_mem y (ih mem_cons_self hx)
      · exact mem_cons_of_mem y (ih (mem_cons_of_mem first hl) hx)

variable {cmdline : String}

lemma not_mem_argument {c : Char} {p : String} (hc : c ∉ cmdline.toList)
    (hp : p ∈ arguments cmdline) : c ∉ p.toList := by
  obtain ⟨word, hword, rfl⟩ := mem_map.mp hp
  rw [String.toList_ofList]
  exact fun hmem => hc (mem_of_mem_splitOnP (mem_filter.mp hword).1 hmem)

lemma cmdlineBytes_eq (cmdline : String) :
    cmdlineBytes cmdline = frame 0 ((sortedArguments cmdline).map asBytes) := by
  rw [frame, flatMap_map]
  rfl

lemma zero_not_mem_of_mem_sortedArguments (h : '\x00' ∉ cmdline.toList) :
    ∀ bytes ∈ (sortedArguments cmdline).map asBytes, (0 : UInt8) ∉ bytes := by
  intro bytes hbs
  obtain ⟨p, hp, rfl⟩ := mem_map.mp hbs
  exact zero_not_mem_asBytes (not_mem_argument h ((sortedArguments_perm cmdline).mem_iff.mp hp))

lemma cmdlineBytes_inj {a b : String} (ha : '\x00' ∉ a.toList) (hb : '\x00' ∉ b.toList)
    (h : cmdlineBytes a = cmdlineBytes b) : sortedArguments a = sortedArguments b := by
  rw [cmdlineBytes_eq, cmdlineBytes_eq] at h
  have hmap := frame_inj_of_not_mem (zero_not_mem_of_mem_sortedArguments ha)
    (zero_not_mem_of_mem_sortedArguments hb) h
  exact map_injective_iff.mpr asBytes_injective hmap

/-- **The digest identifies the arguments up to their order**, for command lines without NUL
characters on whose bytes SHA-256 has no collision. -/
theorem kernelCmdlineDigest_eq_iff {a b : String} (ha : '\x00' ∉ a.toList)
    (hb : '\x00' ∉ b.toList) (hinj : Set.InjOn sha256 {cmdlineBytes a, cmdlineBytes b}) :
    kernelCmdlineDigest sha256 a = kernelCmdlineDigest sha256 b ↔
      (Str.splitWhitespace a.toList : Multiset Str) = Str.splitWhitespace b.toList := by
  have harg : (arguments a).Perm (arguments b) ↔
      (Str.splitWhitespace a.toList).Perm (Str.splitWhitespace b.toList) :=
    map_perm_map_iff fun _ _ h => String.ofList_injective h
  rw [Multiset.coe_eq_coe, ← harg, ← sortedArguments_eq_iff, kernelCmdlineDigest,
    kernelCmdlineDigest]
  constructor
  · intro h
    exact cmdlineBytes_inj ha hb (hinj (Set.mem_insert ..) (Set.mem_insert_of_mem _ rfl) h)
  · intro h
    rw [cmdlineBytes, cmdlineBytes, h]

/-- SHA-256 on the bytes of `quiet ro` and of `quiet quiet ro`. -/
def quietSha256 (message : List UInt8) : Digest :=
  if message.length = 9 then
    #v[15, 197, 105, 59, 134, 232, 213, 37, 198, 192, 51, 116, 198, 190, 185, 211, 253, 244, 239,
      227, 103, 215, 51, 23, 174, 74, 159, 21, 234, 214, 181, 35]
  else
    #v[107, 176, 82, 247, 96, 232, 174, 6, 255, 252, 186, 218, 16, 122, 253, 14, 201, 76, 126, 184,
      17, 34, 123, 172, 173, 94, 104, 147, 212, 209, 79, 69]

/-- Order and spacing do not matter, but how often an argument is given does. -/
theorem kernelCmdlineDigest_eq_iff_quiet :
    kernelCmdlineDigest quietSha256 "quiet ro" = kernelCmdlineDigest quietSha256 " ro\tquiet" ∧
      kernelCmdlineDigest quietSha256 "quiet ro" ≠
        kernelCmdlineDigest quietSha256 "quiet quiet ro" := by
  constructor
  · refine (kernelCmdlineDigest_eq_iff quietSha256 (by decide) (by decide) ?_).mpr ?_
    · exact Set.injOn_pair.mpr fun _ => by decide +kernel
    · decide +kernel
  · refine mt (kernelCmdlineDigest_eq_iff quietSha256 (by decide) (by decide) ?_).mp ?_
    · exact Set.injOn_pair.mpr (by decide +kernel)
    · decide +kernel

end Aether.Security
