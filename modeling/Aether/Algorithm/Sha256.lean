import Mathlib.Data.Nat.Nth
import Mathlib.Data.Nat.Prime.Infinite
import Mathlib.Tactic.Ring

/-!
# SHA-256

From the text of the Secure Hash Standard (FIPS 180-4): sections 4.1.2, 4.2.2 and 5.3.3 (functions
and constants), 5.1.1 and 5.2.1 (padding and parsing), 6.2.2 (the computation).  A message is any
list of bits, the most significant bit first.
-/

namespace Aether.Sha256

open List

abbrev Word := BitVec 32

abbrev Bits := List Bool

def bits : ℕ → ℕ → Bits
  | 0, _ => []
  | n + 1, x => bits n (x / 2) ++ [decide (x % 2 = 1)]

def value (s : Bits) : ℕ := s.foldl (fun n b => 2 * n + b.toNat) 0

def wordOf (s : Bits) : Word := BitVec.ofNat 32 (value s)

def ofBytes (bytes : List UInt8) : Bits := bytes.flatMap fun b => bits 8 b.toNat

def hexDigits : ℕ → ℕ → List Char
  | 0, _ => []
  | n + 1, x => hexDigits n (x / 16) ++ [Nat.digitChar (x % 16)]

def ch (x y z : Word) : Word := (x &&& y) ^^^ (~~~x &&& z)

def maj (x y z : Word) : Word := (x &&& y) ^^^ (x &&& z) ^^^ (y &&& z)

def bigSigma0 (x : Word) : Word := x.rotateRight 2 ^^^ x.rotateRight 13 ^^^ x.rotateRight 22

def bigSigma1 (x : Word) : Word := x.rotateRight 6 ^^^ x.rotateRight 11 ^^^ x.rotateRight 25

def smallSigma0 (x : Word) : Word := x.rotateRight 7 ^^^ x.rotateRight 18 ^^^ x >>> 3

def smallSigma1 (x : Word) : Word := x.rotateRight 17 ^^^ x.rotateRight 19 ^^^ x >>> 10

def rootFraction (n p : ℕ) : Word :=
  BitVec.ofNat 32 (Nat.findGreatest (fun x => x ^ n ≤ p * 2 ^ (32 * n)) (p * 2 ^ 32))

noncomputable def roundConstant (t : ℕ) : Word := rootFraction 3 (Nat.nth Nat.Prime t)

structure State where
  a : Word
  b : Word
  c : Word
  d : Word
  e : Word
  f : Word
  g : Word
  h : Word

noncomputable def initialHash : State where
  a := rootFraction 2 (Nat.nth Nat.Prime 0)
  b := rootFraction 2 (Nat.nth Nat.Prime 1)
  c := rootFraction 2 (Nat.nth Nat.Prime 2)
  d := rootFraction 2 (Nat.nth Nat.Prime 3)
  e := rootFraction 2 (Nat.nth Nat.Prime 4)
  f := rootFraction 2 (Nat.nth Nat.Prime 5)
  g := rootFraction 2 (Nat.nth Nat.Prime 6)
  h := rootFraction 2 (Nat.nth Nat.Prime 7)

lemma exists_zeros (l : ℕ) : ∃ k, (l + 1 + k) % 512 = 448 := ⟨959 - l % 512, by omega⟩

def zeros (l : ℕ) : ℕ := Nat.find (exists_zeros l)

def pad (m : Bits) : Bits :=
  m ++ [true] ++ List.replicate (zeros m.length) false ++ bits 64 m.length

def blockWord (m : Bits) (i t : ℕ) : Word := wordOf ((m.drop (512 * i + 32 * t)).take 32)

def schedule (m : ℕ → Word) (t : ℕ) : Word :=
  if t < 16 then m t
  else
    smallSigma1 (schedule m (t - 2)) + schedule m (t - 7) + smallSigma0 (schedule m (t - 15)) +
      schedule m (t - 16)
termination_by t

def round (k w : Word) (s : State) : State :=
  let t₁ := s.h + bigSigma1 s.e + ch s.e s.f s.g + k + w
  let t₂ := bigSigma0 s.a + maj s.a s.b s.c
  ⟨t₁ + t₂, s.a, s.b, s.c, s.d + t₁, s.e, s.f, s.g⟩

def add (s s' : State) : State :=
  ⟨s'.a + s.a, s'.b + s.b, s'.c + s.c, s'.d + s.d, s'.e + s.e, s'.f + s.f, s'.g + s.g, s'.h + s.h⟩

noncomputable def compress (m : ℕ → Word) (hash : State) : State :=
  add hash ((List.range 64).foldl (fun s t => round (roundConstant t) (schedule m t) s) hash)

noncomputable def hash (m : Bits) : State :=
  (List.range ((pad m).length / 512)).foldl (fun s i => compress (blockWord (pad m) i) s)
    initialHash

noncomputable def digest (m : Bits) : List Char :=
  let h := hash m
  [h.a, h.b, h.c, h.d, h.e, h.f, h.g, h.h].flatMap fun word => hexDigits 8 word.toNat

section Bits

variable {s s' : Bits}
variable (n : ℕ) (l : List UInt8)

@[simp] lemma length_bits (x : ℕ) : (bits n x).length = n := by
  induction n generalizing x with
  | zero => rfl
  | succ n ih => rw [bits, length_append, ih, length_singleton]

lemma value_concat (s : Bits) (b : Bool) : value (s ++ [b]) = 2 * value s + b.toNat := by
  rw [value, foldl_append]
  rfl

lemma value_append (s s' : Bits) : value (s ++ s') = value s * 2 ^ s'.length + value s' := by
  induction s' using reverseRecOn with
  | nil => simp [value]
  | append_singleton s' b ih =>
    rw [← append_assoc, value_concat, ih, value_concat, length_append,
      length_singleton, Nat.pow_succ]
    ring

@[simp] lemma value_bits (x : ℕ) : value (bits n x) = x % 2 ^ n := by
  induction n generalizing x with
  | zero => exact (Nat.mod_one x).symm
  | succ n ih =>
    have hbit : (decide (x % 2 = 1)).toNat = x % 2 := by
      rcases Nat.mod_two_eq_zero_or_one x with h | h <;> rw [h] <;> rfl
    rw [bits, value_concat, ih, hbit, Nat.pow_succ', Nat.mod_mul, Nat.add_comm]

lemma eq_of_value_eq (hlen : s.length = s'.length) (h : value s = value s') : s = s' := by
  induction s using reverseRecOn generalizing s' with
  | nil => exact (length_eq_zero_iff.mp hlen.symm).symm
  | append_singleton s b ih =>
    rcases eq_nil_or_concat s' with rfl | ⟨s', b', rfl⟩
    · simp at hlen
    rw [concat_eq_append] at *
    rw [value_concat, value_concat] at h
    have hb := Bool.toNat_le b
    have hb' := Bool.toNat_le b'
    have hbit : b = b' := by
      cases b <;> cases b' <;> simp only [Bool.toNat_false, Bool.toNat_true] at h <;>
        first | rfl | omega
    rw [ih (by simpa using hlen) (by omega), hbit]

lemma bits_mod (x : ℕ) : bits n (x % 2 ^ n) = bits n x :=
  eq_of_value_eq (by simp) (by simp)

lemma ofBytes_append (l' : List UInt8) : ofBytes (l ++ l') = ofBytes l ++ ofBytes l' :=
  flatMap_append

@[simp] lemma length_ofBytes : (ofBytes l).length = 8 * l.length := by
  induction l with
  | nil => rfl
  | cons b l ih =>
    show (bits 8 b.toNat ++ ofBytes l).length = _
    rw [length_append, length_bits, ih, length_cons]
    omega

lemma value_ofBytes : value (ofBytes l) = l.foldl (fun v b => v * 2 ^ 8 + b.toNat) 0 := by
  induction l using reverseRecOn with
  | nil => rfl
  | append_singleton l b ih =>
    have hb : ofBytes [b] = bits 8 b.toNat := flatMap_singleton ..
    rw [ofBytes_append, value_append, hb, length_bits, value_bits, ih, foldl_append,
      Nat.mod_eq_of_lt b.toNat_lt]
    rfl

lemma drop_ofBytes : (ofBytes l).drop (8 * n) = ofBytes (l.drop n) := by
  rcases Nat.lt_or_ge n l.length with hn | hn
  · have hlen : (ofBytes (l.take n)).length = 8 * n := by
      rw [length_ofBytes, length_take, Nat.min_eq_left hn.le]
    have hspl : ofBytes l = ofBytes (l.take n) ++ ofBytes (l.drop n) := by
      rw [← ofBytes_append, take_append_drop]
    rw [hspl, ← hlen, drop_left]
  · have hlen : (ofBytes l).length ≤ 8 * n := by
      rw [length_ofBytes]
      omega
    rw [drop_of_length_le hlen, drop_of_length_le hn]
    rfl

lemma take_ofBytes : (ofBytes l).take (8 * n) = ofBytes (l.take n) := by
  have hspl := take_append_drop (8 * n) (ofBytes l)
  rw [drop_ofBytes] at hspl
  have hbs : ofBytes (l.take n) ++ ofBytes (l.drop n) = ofBytes l := by
    rw [← ofBytes_append, take_append_drop]
  exact append_cancel_right (hspl.trans hbs.symm)

lemma ofBytes_replicate_zero : ofBytes (List.replicate n 0) = List.replicate (8 * n) false := by
  induction n with
  | zero => rfl
  | succ n ih =>
    have hzero : bits 8 (0 : UInt8).toNat = replicate 8 false := by decide
    show bits 8 (0 : UInt8).toNat ++ ofBytes (replicate n 0) = _
    rw [ih, hzero, replicate_append_replicate]
    congr 1
    omega

lemma replicate_append_toDigits {k x : ℕ} (hx : x < 16 ^ (k + 1)) :
    List.replicate (k + 1 - (Nat.toDigits 16 x).length) '0' ++ Nat.toDigits 16 x =
      hexDigits (k + 1) x := by
  induction k generalizing x with
  | zero =>
    have hlt : x < 16 := hx
    rw [Nat.toDigits_of_lt_base hlt, hexDigits, Nat.mod_eq_of_lt hlt]
    rfl
  | succ k ih =>
    by_cases hlt : x < 16
    · have hzero := ih (x := 0) (Nat.pow_pos (by decide))
      rw [Nat.toDigits_zero] at hzero
      rw [Nat.toDigits_of_lt_base hlt, hexDigits, Nat.div_eq_of_lt hlt, Nat.mod_eq_of_lt hlt,
        ← hzero]
      simp [replicate_succ']
    · have hbase : 16 ≤ x := not_lt.mp hlt
      have hdiv : x / 16 < 16 ^ (k + 1) := by
        rw [Nat.pow_succ] at hx
        omega
      rw [Nat.toDigits_of_base_le (by decide) hbase, hexDigits, ← ih hdiv, length_append,
        length_singleton, append_assoc, Nat.add_sub_add_right]

end Bits

def IsRootFraction (n p : ℕ) (x : Word) : Prop :=
  (Nat.findGreatest (· ^ n ≤ p) p * 2 ^ 32 + x.toNat) ^ n ≤ p * 2 ^ (32 * n) ∧
    p * 2 ^ (32 * n) < (Nat.findGreatest (· ^ n ≤ p) p * 2 ^ 32 + x.toNat + 1) ^ n

instance (n p : ℕ) (x : Word) : Decidable (IsRootFraction n p x) :=
  inferInstanceAs (Decidable (_ ∧ _))

variable {n t : ℕ} {m : ℕ → Word}

lemma rootFraction_eq {p x : ℕ} (hn : n ≠ 0) (hle : x ^ n ≤ p * 2 ^ (32 * n))
    (hlt : p * 2 ^ (32 * n) < (x + 1) ^ n) : rootFraction n p = BitVec.ofNat 32 x := by
  have hbou : x ≤ p * 2 ^ 32 := by
    rw [← Nat.pow_le_pow_iff_left hn]
    calc x ^ n ≤ p * 2 ^ (32 * n) := hle
      _ ≤ p ^ n * 2 ^ (32 * n) := Nat.mul_le_mul_right _ (Nat.le_self_pow hn p)
      _ = (p * 2 ^ 32) ^ n := by rw [Nat.mul_pow, ← Nat.pow_mul]
  rw [rootFraction, Nat.findGreatest_eq_iff.mpr ⟨hbou, fun _ => hle, fun y hy _ h => ?_⟩]
  have hpow : (x + 1) ^ n ≤ y ^ n := Nat.pow_le_pow_left hy n
  omega

lemma IsRootFraction.eq_rootFraction {p : ℕ} {x : Word} (h : IsRootFraction n p x) (hn : n ≠ 0) :
    x = rootFraction n p := by
  rw [rootFraction_eq hn h.1 h.2]
  apply BitVec.eq_of_toNat_eq
  rw [BitVec.toNat_ofNat, Nat.mul_add_mod_self_right, Nat.mod_eq_of_lt x.isLt]

lemma nth_of_filter_range {p : ℕ → Prop} [DecidablePred p] {x : ℕ}
    (h : ((List.range n).filter p)[t]? = some x) : Nat.nth p t = x := by
  have hcnt (n : ℕ) : ((range n).filter p).length = Nat.count p n := by
    rw [Nat.count_eq_card_filter_range]
    rfl
  induction n with
  | zero => simp at h
  | succ n ih =>
    rw [range_succ, filter_append] at h
    rcases Nat.lt_or_ge t ((range n).filter p).length with hlt | hge
    · rw [getElem?_append_left hlt] at h
      exact ih h
    · -- only `n` itself comes after those below `n`
      rw [getElem?_append_right hge] at h
      have hn : p n := by
        by_contra hn
        simp [hn] at h
      rw [filter_singleton, decide_eq_true hn, cond_true, getElem?_singleton] at h
      obtain ⟨hzero, hx⟩ := Option.ite_none_right_eq_some.mp h
      have ht : t = Nat.count p n := by
        rw [← hcnt]
        omega
      rw [ht, Nat.nth_count hn, Option.some.inj hx]

def firstPrimes : List ℕ :=
  [2, 3, 5, 7, 11, 13, 17, 19, 23, 29, 31, 37, 41, 43, 47, 53, 59, 61, 67, 71, 73, 79, 83, 89, 97,
    101, 103, 107, 109, 113, 127, 131, 137, 139, 149, 151, 157, 163, 167, 173, 179, 181, 191, 193,
    197, 199, 211, 223, 227, 229, 233, 239, 241, 251, 257, 263, 269, 271, 277, 281, 283, 293, 307,
    311]

set_option maxRecDepth 4000 in
lemma filter_prime_range : (List.range 312).filter Nat.Prime = firstPrimes := by decide +kernel

lemma nth_prime_eq (ht : t < 64) : Nat.nth Nat.Prime t = firstPrimes.getD t 0 := by
  have hlen : t < firstPrimes.length := ht
  apply nth_of_filter_range (n := 312)
  rw [filter_prime_range, getElem?_eq_getElem hlen, getD_eq_getElem _ _ hlen]

lemma zeros_eq (l : ℕ) : zeros (8 * l) = 7 + 8 * ((119 - l % 64) % 64) := by
  rw [zeros, Nat.find_eq_iff]
  constructor
  · omega
  · intro k hk h
    omega

lemma schedule_of_lt (ht : t < 16) : schedule m t = m t := by
  rw [schedule, if_pos ht]

lemma schedule_of_ge (ht : 16 ≤ t) :
    schedule m t =
      smallSigma1 (schedule m (t - 2)) + schedule m (t - 7) + smallSigma0 (schedule m (t - 15)) +
        schedule m (t - 16) := by
  rw [schedule, if_neg (not_lt.mpr ht)]

end Aether.Sha256
