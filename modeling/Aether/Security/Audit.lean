import Aether.Algorithm.Run
import Mathlib.Data.Vector.Basic

/-!
# The tamper-evident audit log (`aether-security/src/audit.rs`)

SHA-256 comes from a crate outside the repository and is the parameter `sha256`.  `record` returns
`none` where `Vec::remove(0)` panics on an empty log.
-/

namespace Aether.Security

abbrev Digest := Vector UInt8 32

def genesisPrevHash : Digest := Vector.replicate 32 0

def toBeBytes (n : UInt64) : List UInt8 :=
  [(n >>> 56).toUInt8, (n >>> 48).toUInt8, (n >>> 40).toUInt8, (n >>> 32).toUInt8,
    (n >>> 24).toUInt8, (n >>> 16).toUInt8, (n >>> 8).toUInt8, n.toUInt8]

def asBytes (s : String) : List UInt8 := s.toUTF8.data.toList

structure AuditEntry where
  index : UInt64
  timestampMs : UInt64
  event : String
  component : String
  detail : String
  prevHash : Digest
  contentHash : Digest
  deriving DecidableEq

def AuditEntry.canonicalBytes (e : AuditEntry) : List UInt8 :=
  toBeBytes e.index ++ toBeBytes e.timestampMs ++
    (asBytes e.event ++ [0]) ++ (asBytes e.component ++ [0]) ++ (asBytes e.detail ++ [0]) ++
    e.prevHash.toList

def AuditEntry.recomputeHash (sha256 : List UInt8 → Digest) (e : AuditEntry) : Digest :=
  sha256 e.canonicalBytes

structure RetentionPolicy where
  maxEntries : UInt64
  maxAgeMs : UInt64
  deriving DecidableEq

def RetentionPolicy.default : RetentionPolicy := ⟨4096, 0⟩

def RetentionPolicy.lastN (n : UInt64) : RetentionPolicy := ⟨n, 0⟩

inductive ChainStatus where
  | contentMismatch (index : UInt64)
  | brokenLink (index : UInt64)
  | indexGap (index : UInt64)
  deriving DecidableEq

structure AuditChain where
  entries : List AuditEntry
  retention : RetentionPolicy

def checkedAdd (a b : UInt64) : Option UInt64 :=
  if a.toNat + b.toNat < 2 ^ 64 then some (a + b) else none

def removeFirst {α : Type*} : List α → Option (List α)
  | [] => none
  | _ :: l => some l

def saturatingSub (a b : UInt64) : UInt64 := if b ≤ a then a - b else 0

def verifyFrom (sha256 : List UInt8 → Digest) :
    UInt64 → Digest → List AuditEntry → Except ChainStatus Unit
  | _, _, [] => .ok ()
  | i, prev, e :: es =>
    if e.index ≠ i then .error (.indexGap e.index)
    else if e.prevHash ≠ prev then .error (.brokenLink e.index)
    else if e.recomputeHash sha256 ≠ e.contentHash then .error (.contentMismatch e.index)
    else verifyFrom sha256 (i + 1) e.contentHash es

def restamp (sha256 : List UInt8 → Digest) : UInt64 → Digest → List AuditEntry → List AuditEntry
  | _, _, [] => []
  | i, prev, e :: es =>
    let e := { e with index := i, prevHash := prev }
    let e := { e with contentHash := e.recomputeHash sha256 }
    e :: restamp sha256 (i + 1) e.contentHash es

namespace AuditChain

def new (retention : RetentionPolicy) : AuditChain := ⟨[], retention⟩

def evict (c : AuditChain) : Option (List AuditEntry) :=
  match checkedAdd c.retention.maxEntries 1 with
  | some cap =>
    if cap ≠ 0 ∧ c.entries.length ≥ c.retention.maxEntries.toNat then removeFirst c.entries
    else some c.entries
  | none => some c.entries

def newEntry (sha256 : List UInt8 → Digest) (entries : List AuditEntry) (timestampMs : UInt64)
    (event component detail : String) : AuditEntry :=
  let entry : AuditEntry :=
    { index := UInt64.ofNat entries.length, timestampMs, event, component, detail,
      prevHash := (entries.getLast?.map AuditEntry.contentHash).getD genesisPrevHash,
      contentHash := Vector.replicate 32 0 }
  { entry with contentHash := entry.recomputeHash sha256 }

def record (sha256 : List UInt8 → Digest) (c : AuditChain) (timestampMs : UInt64)
    (event component detail : String) : Option (AuditChain × UInt64) :=
  c.evict.map fun entries =>
    let entry := newEntry sha256 entries timestampMs event component detail
    ({ c with entries := entries ++ [entry] }, entry.index)

def recent (c : AuditChain) (n : Nat) : List AuditEntry := c.entries.reverse.take n

def verifyChain (sha256 : List UInt8 → Digest) (c : AuditChain) : Except ChainStatus Unit :=
  verifyFrom sha256 0 genesisPrevHash c.entries

def pruneOlderThan (sha256 : List UInt8 → Digest) (c : AuditChain) (nowMs : UInt64) :
    AuditChain × Nat :=
  if c.retention.maxAgeMs = 0 then (c, 0)
  else
    let cutoff := saturatingSub nowMs c.retention.maxAgeMs
    match c.entries.findIdx? fun e => decide (cutoff ≤ e.timestampMs) with
    | none => ({ c with entries := [] }, c.entries.length)
    | some 0 => (c, 0)
    | some keepFrom =>
      ({ c with entries := restamp sha256 0 genesisPrevHash (c.entries.drop keepFrom) }, keepFrom)

def restoreFrom (sha256 : List UInt8 → Digest) (c : AuditChain) (entries : List AuditEntry) :
    Except ChainStatus AuditChain :=
  match verifyFrom sha256 0 genesisPrevHash entries with
  | .error e => .error e
  | .ok () =>
    if c.retention.maxEntries ≠ 0 ∧ entries.length > c.retention.maxEntries.toNat then
      .ok { c with entries := entries.drop (entries.length - c.retention.maxEntries.toNat) }
    else .ok { c with entries }

end AuditChain

inductive AuditOp where
  | record (timestampMs : UInt64) (event component detail : String)
  | pruneOlderThan (nowMs : UInt64)
  | restoreFrom (entries : List AuditEntry) (hlen : entries.length < 2 ^ 64)

def AuditChain.step (sha256 : List UInt8 → Digest) (c : AuditChain) : AuditOp → Option AuditChain
  | .record timestampMs event component detail =>
    (c.record sha256 timestampMs event component detail).map Prod.fst
  | .pruneOlderThan nowMs => some (c.pruneOlderThan sha256 nowMs).1
  | .restoreFrom entries _ =>
    match c.restoreFrom sha256 entries with
    | .ok c' => some c'
    | .error _ => some c

/-!
## The bytes of a text

The UTF-8 encoding of a text is that of its characters one after the other, it determines the text,
and a byte below 0x80 in it is a character of the text.
-/

lemma asBytes_eq (s : String) : asBytes s = s.toList.flatMap String.utf8EncodeChar := by
  rw [asBytes, String.toUTF8, ← String.utf8Encode_toList, List.utf8Encode]
  simp

lemma asBytes_injective : Function.Injective asBytes := by
  intro s t h
  rw [← String.toByteArray_inj]
  exact ByteArray.ext (Array.toList_inj.mp h)

lemma fromUTF8_eq_some_iff {bytes : List UInt8} {text : String} :
    String.fromUTF8? ⟨bytes.toArray⟩ = some text ↔ bytes = asBytes text := by
  constructor
  · intro h
    unfold String.fromUTF8? at h
    split_ifs at h with hval
    cases h
    simp [asBytes, String.fromUTF8, String.toUTF8]
  · rintro rfl
    have hbs : (⟨(asBytes text).toArray⟩ : ByteArray) = text.toByteArray := by
      simp [asBytes, String.toUTF8]
    rw [hbs, String.fromUTF8?, dif_pos text.isValidUTF8]
    rfl

lemma asBytes_append (s t : String) : asBytes (s ++ t) = asBytes s ++ asBytes t := by
  rw [asBytes_eq, asBytes_eq, asBytes_eq, String.toList_append, List.flatMap_append]

lemma eq_of_mem_utf8EncodeChar {c : Char} {b : UInt8} (hb : b < 0x80)
    (h : b ∈ String.utf8EncodeChar c) : c.toNat = b.toNat := by
  have hb' : b.toNat < 128 := UInt8.lt_iff_toNat_lt.mp hb
  have hlt := c.val.toNat_lt
  -- Every byte of a longer sequence has its highest bit set.
  have hne : ∀ n : ℕ, 128 ≤ n → n < 256 → b ≠ UInt8.ofNat n := by
    intro n hlow hn heq
    have hval := congrArg UInt8.toNat heq
    rw [UInt8.toNat_ofNat', Nat.mod_eq_of_lt hn] at hval
    omega
  unfold String.utf8EncodeChar at h
  dsimp only at h
  split_ifs at h with h1 h2 h3
  · have hval := congrArg UInt8.toNat (List.mem_singleton.mp h)
    rw [UInt8.toNat_ofNat', Nat.mod_eq_of_lt (by omega)] at hval
    exact hval.symm
  · simp only [List.mem_cons, List.not_mem_nil, or_false] at h
    rcases h with h | h <;> exact absurd h (hne _ (by omega) (by omega))
  · simp only [List.mem_cons, List.not_mem_nil, or_false] at h
    rcases h with h | h | h <;> exact absurd h (hne _ (by omega) (by omega))
  · simp only [List.mem_cons, List.not_mem_nil, or_false] at h
    rcases h with h | h | h | h <;> exact absurd h (hne _ (by omega) (by omega))

lemma mem_toList_of_mem_asBytes {s : String} {b : UInt8} (hb : b < 0x80) (h : b ∈ asBytes s) :
    Char.ofNat b.toNat ∈ s.toList := by
  rw [asBytes_eq, List.mem_flatMap] at h
  obtain ⟨c, hc, hbc⟩ := h
  rw [← eq_of_mem_utf8EncodeChar hb hbc, Char.ofNat_toNat]
  exact hc

lemma zero_not_mem_asBytes {s : String} (hs : '\x00' ∉ s.toList) : (0 : UInt8) ∉ asBytes s :=
  fun h => hs (mem_toList_of_mem_asBytes (by decide) h)

end Aether.Security
