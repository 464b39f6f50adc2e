import Aether.Algorithm.Checked
import Aether.Algorithm.Sha256
import Aether.Security.Equiv.AuditTamper

/-!
# The SHA-256 of the update agent (`aether-update-agent/src/engine.rs`)

`sha256_inline`, the dependency-free hash that the filesystem engine verifies with.  `h` and the
eight working variables are one record; the schedule is a list of 64 words.  Additions of `UInt32`
wrap, as the source's do.
-/

namespace Aether.Update

open Security (toBeBytes)

def sha256K : List UInt32 :=
  [0x428a2f98, 0x71374491, 0xb5c0fbcf, 0xe9b5dba5, 0x3956c25b, 0x59f111f1, 0x923f82a4,
    0xab1c5ed5, 0xd807aa98, 0x12835b01, 0x243185be, 0x550c7dc3, 0x72be5d74, 0x80deb1fe,
    0x9bdc06a7, 0xc19bf174, 0xe49b69c1, 0xefbe4786, 0x0fc19dc6, 0x240ca1cc, 0x2de92c6f,
    0x4a7484aa, 0x5cb0a9dc, 0x76f988da, 0x983e5152, 0xa831c66d, 0xb00327c8, 0xbf597fc7,
    0xc6e00bf3, 0xd5a79147, 0x06ca6351, 0x14292967, 0x27b70a85, 0x2e1b2138, 0x4d2c6dfc,
    0x53380d13, 0x650a7354, 0x766a0abb, 0x81c2c92e, 0x92722c85, 0xa2bfe8a1, 0xa81a664b,
    0xc24b8b70, 0xc76c51a3, 0xd192e819, 0xd6990624, 0xf40e3585, 0x106aa070, 0x19a4c116,
    0x1e376c08, 0x2748774c, 0x34b0bcb5, 0x391c0cb3, 0x4ed8aa4a, 0x5b9cca4f, 0x682e6ff3,
    0x748f82ee, 0x78a5636f, 0x84c87814, 0x8cc70208, 0x90befffa, 0xa4506ceb, 0xbef9a3f7,
    0xc67178f2]

structure Sha256State where
  a : UInt32
  b : UInt32
  c : UInt32
  d : UInt32
  e : UInt32
  f : UInt32
  g : UInt32
  h : UInt32
  deriving DecidableEq

def sha256Init : Sha256State :=
  ⟨0x6a09e667, 0xbb67ae85, 0x3c6ef372, 0xa54ff53a, 0x510e527f, 0x9b05688c, 0x1f83d9ab,
    0x5be0cd19⟩

def padLoop : ℕ → List UInt8 → List UInt8
  | 0, msg => msg
  | fuel + 1, msg => if msg.length % 64 ≠ 56 then padLoop fuel (msg ++ [0]) else msg

def paddedMessage (input : List UInt8) : List UInt8 :=
  let bitLen := UInt64.ofNat input.length * 8
  padLoop 64 (input ++ [0x80]) ++ toBeBytes bitLen

def chunks {α : Type*} (n : ℕ) (l : List α) : List (List α) :=
  (List.range ((l.length + n - 1) / n)).map fun i => (l.drop (n * i)).take n

def fromBeBytes (chunk : List UInt8) : UInt32 :=
  ((chunk.getD 0 0).toUInt32 <<< 24) ||| ((chunk.getD 1 0).toUInt32 <<< 16) |||
    ((chunk.getD 2 0).toUInt32 <<< 8) ||| (chunk.getD 3 0).toUInt32

def rotateRight (x n : UInt32) : UInt32 := (x >>> n) ||| (x <<< (32 - n))

def scheduleWord (w : List UInt32) (i : ℕ) : UInt32 :=
  let w15 := w.getD (i - 15) 0
  let w2 := w.getD (i - 2) 0
  let s0 := rotateRight w15 7 ^^^ rotateRight w15 18 ^^^ (w15 >>> 3)
  let s1 := rotateRight w2 17 ^^^ rotateRight w2 19 ^^^ (w2 >>> 10)
  w.getD (i - 16) 0 + s0 + w.getD (i - 7) 0 + s1

def messageSchedule (block : List UInt8) : List UInt32 :=
  let words := (chunks 4 block).map fromBeBytes
  let w := words ++ List.replicate (64 - words.length) 0
  (List.range' 16 48).foldl (fun w i => w.set i (scheduleWord w i)) w

def sha256Round (w : List UInt32) (v : Sha256State) (i : ℕ) : Sha256State :=
  let s1 := rotateRight v.e 6 ^^^ rotateRight v.e 11 ^^^ rotateRight v.e 25
  let ch := (v.e &&& v.f) ^^^ (~~~v.e &&& v.g)
  let t1 := v.h + s1 + ch + sha256K.getD i 0 + w.getD i 0
  let s0 := rotateRight v.a 2 ^^^ rotateRight v.a 13 ^^^ rotateRight v.a 22
  let mj := (v.a &&& v.b) ^^^ (v.a &&& v.c) ^^^ (v.b &&& v.c)
  let t2 := s0 + mj
  { h := v.g, g := v.f, f := v.e, e := v.d + t1, d := v.c, c := v.b, b := v.a, a := t1 + t2 }

def sha256Block (h : Sha256State) (block : List UInt8) : Sha256State :=
  let v := (List.range 64).foldl (sha256Round (messageSchedule block)) h
  ⟨h.a + v.a, h.b + v.b, h.c + v.c, h.d + v.d, h.e + v.e, h.f + v.f, h.g + v.g, h.h + v.h⟩

def hex08 (word : UInt32) : String :=
  let digits := Nat.toDigits 16 word.toNat
  String.ofList (List.replicate (8 - digits.length) '0' ++ digits)

def sha256Inline (input : List UInt8) : String :=
  let h := (chunks 64 (paddedMessage input)).foldl sha256Block sha256Init
  [h.a, h.b, h.c, h.d, h.e, h.f, h.g, h.h].foldl (fun out word => out ++ hex08 word) ""

/-!
## The SHA-256 of the update agent, against the standard

Stage by stage: the constants, the padding, the schedule, the compression of a block and the printed
digest.
-/

open List Sha256

def Sha256State.toSpec (v : Sha256State) : Sha256.State :=
  ⟨v.a.toBitVec, v.b.toBitVec, v.c.toBitVec, v.d.toBitVec, v.e.toBitVec, v.f.toBitVec,
    v.g.toBitVec, v.h.toBitVec⟩

lemma sha256K_isRootFraction :
    ∀ t < 64, IsRootFraction 3 (firstPrimes.getD t 0) (sha256K.getD t 0).toBitVec := by
  decide +kernel

variable {t : ℕ} {w : List UInt32} {msg block : List UInt8} {m : ℕ → Sha256.Word}

lemma toBitVec_sha256K (ht : t < 64) : (sha256K.getD t 0).toBitVec = Sha256.roundConstant t := by
  rw [roundConstant, nth_prime_eq ht]
  exact (sha256K_isRootFraction t ht).eq_rootFraction (by decide)

lemma toSpec_sha256Init : sha256Init.toSpec = Sha256.initialHash := by
  have hroot {t : ℕ} {x : UInt32} (ht : t < 64)
      (h : IsRootFraction 2 (firstPrimes.getD t 0) x.toBitVec) :
      x.toBitVec = rootFraction 2 (Nat.nth Nat.Prime t) := by
    rw [nth_prime_eq ht]
    exact h.eq_rootFraction (by decide)
  rw [Sha256State.toSpec, initialHash, Sha256.State.mk.injEq]
  refine ⟨hroot ?_ ?_, hroot ?_ ?_, hroot ?_ ?_, hroot ?_ ?_, hroot ?_ ?_, hroot ?_ ?_,
    hroot ?_ ?_, hroot ?_ ?_⟩ <;> decide +kernel

lemma toBitVec_rotateRight {x n : UInt32} (hpos : 0 < n.toNat) (hn : n.toNat < 32) :
    (rotateRight x n).toBitVec = x.toBitVec.rotateRight n.toNat := by
  have hle : n ≤ 32 := UInt32.le_iff_toNat_le.mpr hn.le
  have hri : (n.toBitVec % 32).toNat = n.toNat := Nat.mod_eq_of_lt hn
  have hleft : ((32 - n).toBitVec % 32).toNat = 32 - n.toNat := by
    have hsub : (32 - n).toNat = 32 - n.toNat := UInt32.toNat_sub_of_le _ _ hle
    show (32 - n).toNat % 32 = _
    rw [hsub]
    omega
  rw [rotateRight, UInt32.toBitVec_or, UInt32.toBitVec_shiftRight, UInt32.toBitVec_shiftLeft,
    BitVec.ushiftRight_eq', BitVec.shiftLeft_eq', hri, hleft, BitVec.rotateRight_def,
    Nat.mod_eq_of_lt hn]

lemma toSpec_sha256Round {v : Sha256State} (ht : t < 64) :
    (sha256Round w v t).toSpec =
      Sha256.round (Sha256.roundConstant t) (w.getD t 0).toBitVec v.toSpec := by
  rw [← toBitVec_sha256K ht]
  simp (disch := decide) only [Sha256State.toSpec, sha256Round, Sha256.round, UInt32.toBitVec_add,
    UInt32.toBitVec_xor, toBitVec_rotateRight]
  rfl

lemma padLoop_eq {fuel z : ℕ} (hz : z ≤ fuel) (hend : (msg.length + z) % 64 = 56)
    (hmin : ∀ y < z, (msg.length + y) % 64 ≠ 56) :
    padLoop fuel msg = msg ++ List.replicate z 0 := by
  induction fuel generalizing msg z with
  | zero =>
    obtain rfl := Nat.le_zero.mp hz
    simp [padLoop]
  | succ fuel ih =>
    rw [padLoop]
    cases z with
    | zero =>
      rw [Nat.add_zero] at hend
      rw [if_neg (not_not.mpr hend), replicate_zero, append_nil]
    | succ z =>
      have hne : msg.length % 64 ≠ 56 := hmin 0 (Nat.succ_pos z)
      have hlen : (msg ++ [0]).length = msg.length + 1 := length_append
      have hrest : padLoop fuel (msg ++ [0]) = msg ++ [0] ++ replicate z 0 := by
        apply ih (Nat.le_of_succ_le_succ hz)
        · rw [hlen, Nat.add_assoc, Nat.add_comm 1 z]
          exact hend
        · intro y hy
          rw [hlen, Nat.add_assoc, Nat.add_comm 1 y]
          exact hmin (y + 1) (Nat.succ_lt_succ hy)
      rw [if_pos hne, hrest, replicate_succ, append_assoc]
      rfl

def zeroBytes (len : ℕ) : ℕ := (119 - len % 64) % 64

variable (input : List UInt8)

lemma paddedMessage_eq :
    paddedMessage input =
      input ++ [0x80] ++ List.replicate (zeroBytes input.length) 0 ++
        toBeBytes (UInt64.ofNat input.length * 8) := by
  have hlen : (input ++ [0x80]).length = input.length + 1 := length_append
  have hloop : padLoop 64 (input ++ [0x80]) =
      input ++ [0x80] ++ replicate (zeroBytes input.length) 0 := by
    apply padLoop_eq
    · rw [zeroBytes]
      omega
    · rw [hlen, zeroBytes]
      omega
    · intro y hy
      rw [hlen]
      rw [zeroBytes] at hy
      omega
  rw [paddedMessage, hloop]

lemma length_paddedMessage :
    (paddedMessage input).length = input.length + 1 + zeroBytes input.length + 8 := by
  rw [paddedMessage_eq, length_append, length_append, length_append,
    length_replicate, Security.length_toBeBytes]
  rfl

lemma ofBytes_toBeBytes (n : UInt64) : ofBytes (toBeBytes n) = bits 64 n.toNat := by
  apply eq_of_value_eq
  · rw [length_ofBytes, Security.length_toBeBytes, length_bits]
  · have hshi (k : UInt64) (hk : k.toNat < 64) := Security.toNat_toUInt8_shiftRight n k hk
    have hlt : n.toNat < 2 ^ 64 := n.toNat_lt
    rw [value_ofBytes, value_bits, Nat.mod_eq_of_lt hlt, toBeBytes]
    simp only [foldl_cons, foldl_nil]
    rw [hshi 56 (by decide), hshi 48 (by decide), hshi 40 (by decide), hshi 32 (by decide),
      hshi 24 (by decide), hshi 16 (by decide), hshi 8 (by decide), UInt64.toNat_toUInt8]
    simp only [UInt64.reduceToNat, Nat.zero_mul, Nat.zero_add]
    omega

lemma ofBytes_paddedMessage : ofBytes (paddedMessage input) = Sha256.pad (ofBytes input) := by
  have hmark : ofBytes [0x80] = [true] ++ replicate 7 false := by decide
  have hlen : (UInt64.ofNat input.length * 8).toNat = 8 * input.length % 2 ^ 64 := by
    rw [UInt64.toNat_mul, UInt64.toNat_ofNat', Nat.mul_comm 8, Nat.mod_mul_mod]
    rfl
  rw [pad, length_ofBytes, zeros_eq, paddedMessage_eq, ofBytes_append,
    ofBytes_append, ofBytes_append, hmark, ofBytes_replicate_zero,
    ofBytes_toBeBytes, hlen, bits_mod, ← replicate_append_replicate, zeroBytes]
  simp only [append_assoc]

lemma toNat_byte_shiftLeft_or (b : UInt8) {y k : UInt32} (hk : k.toNat ≤ 24)
    (hy : y.toNat < 2 ^ k.toNat) :
    ((b.toUInt32 <<< k) ||| y).toNat = b.toNat * 2 ^ k.toNat + y.toNat := by
  have hlt : b.toNat * 2 ^ k.toNat < 2 ^ 32 := calc
    b.toNat * 2 ^ k.toNat < 2 ^ 8 * 2 ^ k.toNat :=
      Nat.mul_lt_mul_of_pos_right b.toNat_lt (Nat.two_pow_pos _)
    _ = 2 ^ (8 + k.toNat) := (Nat.pow_add ..).symm
    _ ≤ 2 ^ 32 := Nat.pow_le_pow_right Nat.two_pos (by omega)
  have hmod : k.toNat < 32 := by omega
  rw [UInt32.toNat_or, UInt32.toNat_shiftLeft, UInt8.toNat_toUInt32, Nat.mod_eq_of_lt hmod,
    Bits.shiftLeft_mod_or hmod.le hy, Nat.mod_eq_of_lt hlt]

lemma toNat_fromBeBytes (b₀ b₁ b₂ b₃ : UInt8) :
    (fromBeBytes [b₀, b₁, b₂, b₃]).toNat =
      ((b₀.toNat * 2 ^ 8 + b₁.toNat) * 2 ^ 8 + b₂.toNat) * 2 ^ 8 + b₃.toNat := by
  have h₀ := b₀.toNat_lt
  have h₁ := b₁.toNat_lt
  have h₂ := b₂.toNat_lt
  have h₃ := b₃.toNat_lt
  show ((b₀.toUInt32 <<< 24) ||| (b₁.toUInt32 <<< 16) ||| (b₂.toUInt32 <<< 8) |||
    b₃.toUInt32).toNat = _
  -- from the last byte up
  have hlow : ((b₂.toUInt32 <<< 8) ||| b₃.toUInt32).toNat = b₂.toNat * 2 ^ 8 + b₃.toNat :=
    toNat_byte_shiftLeft_or b₂ (by decide) h₃
  have hmid : ((b₁.toUInt32 <<< 16) ||| ((b₂.toUInt32 <<< 8) ||| b₃.toUInt32)).toNat =
      b₁.toNat * 2 ^ 16 + (b₂.toNat * 2 ^ 8 + b₃.toNat) := by
    rw [toNat_byte_shiftLeft_or b₁ (by decide), hlow]
    · rfl
    · rw [hlow]
      show _ < 2 ^ 16
      omega
  rw [UInt32.or_assoc, UInt32.or_assoc, toNat_byte_shiftLeft_or b₀ (by decide), hmid]
  · show _ * 2 ^ 24 + _ = _
    omega
  · rw [hmid]
    show _ < 2 ^ 24
    omega

lemma toBitVec_fromBeBytes {chunk : List UInt8} (hlen : chunk.length = 4) :
    (fromBeBytes chunk).toBitVec = wordOf (ofBytes chunk) := by
  obtain ⟨b₀, b₁, b₂, b₃, rfl⟩ := length_eq_four.mp hlen
  apply BitVec.eq_of_toNat_eq
  have hlt : (fromBeBytes [b₀, b₁, b₂, b₃]).toNat < 2 ^ 32 := UInt32.toNat_lt _
  have hval : value (ofBytes [b₀, b₁, b₂, b₃]) = (fromBeBytes [b₀, b₁, b₂, b₃]).toNat := by
    rw [value_ofBytes, toNat_fromBeBytes]
    simp only [foldl_cons, foldl_nil, Nat.zero_mul, Nat.zero_add]
  rw [UInt32.toNat_toBitVec, wordOf, BitVec.toNat_ofNat, hval, Nat.mod_eq_of_lt hlt]

lemma toBitVec_smallSigma0 (x : UInt32) :
    (rotateRight x 7 ^^^ rotateRight x 18 ^^^ (x >>> 3)).toBitVec =
      Sha256.smallSigma0 x.toBitVec := by
  simp (disch := decide) only [UInt32.toBitVec_xor, toBitVec_rotateRight]
  rfl

lemma toBitVec_smallSigma1 (x : UInt32) :
    (rotateRight x 17 ^^^ rotateRight x 19 ^^^ (x >>> 10)).toBitVec =
      Sha256.smallSigma1 x.toBitVec := by
  simp (disch := decide) only [UInt32.toBitVec_xor, toBitVec_rotateRight]
  rfl

structure IsSchedule (m : ℕ → Sha256.Word) (n : ℕ) (w : List UInt32) : Prop where
  length : w.length = 64
  word : ∀ t < n, (w.getD t 0).toBitVec = Sha256.schedule m t

lemma IsSchedule.step {i : ℕ} (h : IsSchedule m i w) (hi : 16 ≤ i) (hlt : i < 64) :
    IsSchedule m (i + 1) (w.set i (scheduleWord w i)) := by
  constructor
  · rw [length_set, h.length]
  · intro t ht
    rcases Nat.lt_succ_iff_lt_or_eq.mp ht with hlow | rfl
    · rw [getD_eq_getElem?_getD, getElem?_set_ne (by omega), ← getD_eq_getElem?_getD]
      exact h.word t hlow
    · rw [getD_eq_getElem?_getD, getElem?_set_self (by rw [h.length]; exact hlt),
        Option.getD_some, scheduleWord, UInt32.toBitVec_add, UInt32.toBitVec_add,
        UInt32.toBitVec_add, toBitVec_smallSigma0, toBitVec_smallSigma1,
        h.word (t - 16) (by omega), h.word (t - 15) (by omega), h.word (t - 7) (by omega),
        h.word (t - 2) (by omega), schedule_of_ge hi]
      ac_rfl

lemma IsSchedule.foldl (h : IsSchedule m 16 w) (n : ℕ) (hn : n ≤ 48) :
    IsSchedule m (16 + n) ((List.range' 16 n).foldl (fun w i => w.set i (scheduleWord w i)) w) := by
  induction n with
  | zero => exact h
  | succ n ih =>
    rw [range'_concat, foldl_append, Nat.one_mul]
    exact (ih (by omega)).step (by omega) (by omega)

lemma chunks_eq {α : Type*} {l : List α} {n k : ℕ} (hn : 0 < n) (hlen : l.length = n * k) :
    chunks n l = (List.range k).map fun i => (l.drop (n * i)).take n := by
  have hcnt : (l.length + n - 1) / n = k := by
    rw [hlen, Nat.add_sub_assoc hn, Nat.mul_add_div hn, Nat.div_eq_of_lt (by omega), Nat.add_zero]
  rw [chunks, hcnt]

lemma isSchedule_messageSchedule (hlen : block.length = 64)
    (hm : ∀ t < 16, m t = wordOf (ofBytes ((block.drop (4 * t)).take 4))) :
    IsSchedule m 64 (messageSchedule block) := by
  have hchu := chunks_eq (n := 4) (k := 16) (by decide) hlen
  have hwor : ((chunks 4 block).map fromBeBytes).length = 16 := by
    rw [hchu, length_map, length_map, length_range]
  rw [messageSchedule]
  refine IsSchedule.foldl ⟨?_, fun t ht => ?_⟩ 48 le_rfl
  · rw [length_append, length_replicate, hwor]
  · have hchunk : ((block.drop (4 * t)).take 4).length = 4 := by
      rw [length_take, length_drop]
      omega
    rw [schedule_of_lt ht, hm t ht, ← toBitVec_fromBeBytes hchunk,
      getD_append _ _ _ _ (by rw [hwor]; exact ht), getD_eq_getElem?_getD,
      getElem?_map, hchu, getElem?_map, getElem?_range ht]
    rfl

lemma toSpec_sha256Block {h : Sha256State} (hlen : block.length = 64)
    (hm : ∀ t < 16, m t = wordOf (ofBytes ((block.drop (4 * t)).take 4))) :
    (sha256Block h block).toSpec = Sha256.compress m h.toSpec := by
  have hsch := isSchedule_messageSchedule hlen hm
  have hrou : ((range 64).foldl (sha256Round (messageSchedule block)) h).toSpec =
      (range 64).foldl
        (fun s t => Sha256.round (roundConstant t) (schedule m t) s) h.toSpec := by
    refine foldl_rel (r := fun (v : Sha256State) s => v.toSpec = s) rfl ?_
    rintro t ht v _ rfl
    have hlt : t < 64 := mem_range.mp ht
    rw [toSpec_sha256Round hlt, hsch.word t hlt]
  rw [compress, ← hrou, sha256Block]
  simp only [Sha256State.toSpec, add, UInt32.toBitVec_add, BitVec.add_comm]

def blockCount (len : ℕ) : ℕ := (len + 72) / 64

lemma length_paddedMessage_eq_mul :
    (paddedMessage input).length = 64 * blockCount input.length := by
  rw [length_paddedMessage, zeroBytes, blockCount]
  omega

lemma blockWord_ofBytes {i : ℕ} (ht : t < 16) :
    Sha256.blockWord (ofBytes msg) i t =
      wordOf (ofBytes ((((msg.drop (64 * i)).take 64).drop (4 * t)).take 4)) := by
  have hpla : 512 * i + 32 * t = 8 * (64 * i + 4 * t) := by omega
  have hmin : min 4 (64 - 4 * t) = 4 := by omega
  rw [blockWord, hpla, drop_ofBytes, show 32 = 8 * 4 from rfl,
    take_ofBytes, drop_take, take_take, hmin, drop_drop]

lemma toSpec_foldl_chunks :
    ((chunks 64 (paddedMessage input)).foldl sha256Block sha256Init).toSpec =
      Sha256.hash (ofBytes input) := by
  have hlen := length_paddedMessage_eq_mul input
  have hcnt : (ofBytes (paddedMessage input)).length / 512 = blockCount input.length := by
    rw [Sha256.length_ofBytes, hlen]
    omega
  rw [Sha256.hash, ← ofBytes_paddedMessage, hcnt, ← toSpec_sha256Init,
    chunks_eq (by decide) hlen, foldl_map]
  refine foldl_rel (r := fun (h : Sha256State) s => h.toSpec = s) rfl ?_
  rintro i hi h _ rfl
  have hblo : (((paddedMessage input).drop (64 * i)).take 64).length = 64 := by
    have hlt : i < blockCount input.length := mem_range.mp hi
    rw [length_take, length_drop, hlen]
    omega
  exact toSpec_sha256Block hblo fun t ht => blockWord_ofBytes ht

lemma hex08_eq (word : UInt32) : hex08 word = String.ofList (hexDigits 8 word.toNat) := by
  rw [hex08, replicate_append_toDigits (k := 7) word.toNat_lt]

/-- The function of the source computes the SHA-256 of the standard, for every string of bytes.
The standard defines it below `2 ^ 61` bytes; above, both take the length modulo `2 ^ 64`. -/
theorem sha256Inline_eq (input : List UInt8) :
    sha256Inline input = String.ofList (Sha256.digest (ofBytes input)) := by
  rw [digest, ← toSpec_foldl_chunks, sha256Inline]
  generalize (chunks 64 (paddedMessage input)).foldl sha256Block sha256Init = h
  simp only [foldl_cons, foldl_nil, hex08_eq, flatMap_cons, flatMap_nil, append_nil,
    String.ofList_append, String.append_assoc, String.empty_append, Sha256State.toSpec,
    UInt32.toNat_toBitVec]

example : sha256Inline [0x61, 0x62, 0x63] =
    "ba7816bf8f01cfea414140de5dae2223b00361a396177a9cb410ff61f20015ad" := by decide +kernel

end Aether.Update
