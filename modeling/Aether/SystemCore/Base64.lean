import Aether.Core.Str
import Aether.Security.Equiv.AppSigning

/-!
# Base64 at the control plane (`aether-system-core/src/main.rs`)

The decoder for payloads of requests.  It accepts both alphabets, with or without padding, and works
bit by bit.
-/

namespace Aether.SystemCore

open Aether.Core (Str)
open Security (asBytes)

def normalise (s : Str) : Str :=
  s.filterMap fun c =>
    if c = '-' then some '+' else if c = '_' then some '/' else if c = '=' then none else some c

def sextet (b : UInt8) : Option UInt32 :=
  if 65 ≤ b ∧ b ≤ 90 then some (b - 65).toUInt32
  else if 97 ≤ b ∧ b ≤ 122 then some ((b - 97).toUInt32 + 26)
  else if 48 ≤ b ∧ b ≤ 57 then some ((b - 48).toUInt32 + 52)
  else if b = 43 then some 62
  else if b = 47 then some 63
  else none

def base64Loop (buf bits : UInt32) (out : List UInt8) : List UInt8 → Option (List UInt8)
  | [] => some out
  | b :: rest =>
    if b = 61 then some out
    else do
      let v ← sextet b
      let buf := (buf <<< 6) ||| v
      let bits := bits + 6
      if bits ≥ 8 then
        base64Loop buf (bits - 8) (out ++ [((buf >>> (bits - 8)) &&& 0xFF).toUInt8]) rest
      else base64Loop buf bits out rest

def base64Decode (s : String) : Option (List UInt8) :=
  let normalised := normalise s.toList
  let remainder := normalised.len % 4
  if remainder = 1 then none
  else
    let pad := if remainder = 0 then 0 else 4 - remainder
    base64Loop 0 0 [] (asBytes (String.ofList (normalised ++ List.replicate pad '=')))

/-!
## Base64 between the signer and the control plane

Whatever the alphabet and the padding, the text of the encoder is restored; the loop then writes the
bytes of a group, whatever older bits are in its buffer.
-/

open List

open Security (Sextet base64Char base64Chars base64Bytes base64Encode sextet0 sextet1 sextet2
  sextet3 asBytes_base64Encode)

@[simp]
lemma sextet_alpha : ∀ i : Sextet, sextet i.alpha = some i.byte.toUInt32 := by decide +kernel

def push (buf : UInt32) (i : Sextet) : UInt32 := (buf <<< 6) ||| i.byte.toUInt32

variable (buf : UInt32) (bytes out : List UInt8)

lemma base64Loop_alpha (bits : UInt32) (out : List UInt8) (i : Sextet) (rest : List UInt8) :
    base64Loop buf bits out (i.alpha :: rest) =
      if bits + 6 ≥ 8 then
        base64Loop (push buf i) (bits + 6 - 8)
          (out ++ [((push buf i >>> (bits + 6 - 8)) &&& 0xFF).toUInt8]) rest
      else base64Loop (push buf i) (bits + 6) out rest := by
  rw [base64Loop, if_neg i.alpha_ne_pad, sextet_alpha]
  rfl

lemma written_first (b0 b1 : UInt8) :
    ((push (push buf (sextet0 b0)) (sextet1 b0 b1) >>> 4) &&& 0xFF).toUInt8 = b0 := by
  apply UInt8.eq_of_toBitVec_eq
  ext i hi
  interval_cases i <;> simp [push, Sextet.byte, sextet0, sextet1]

lemma written_second (b0 b1 b2 : UInt8) :
    ((push (push buf (sextet1 b0 b1)) (sextet2 b1 b2) >>> 2) &&& 0xFF).toUInt8 = b1 := by
  apply UInt8.eq_of_toBitVec_eq
  ext i hi
  interval_cases i <;> simp [push, Sextet.byte, sextet1, sextet2]

lemma written_third (b1 b2 : UInt8) :
    ((push (push buf (sextet2 b1 b2)) (sextet3 b2) >>> 0) &&& 0xFF).toUInt8 = b2 := by
  apply UInt8.eq_of_toBitVec_eq
  ext i hi
  interval_cases i <;> simp [push, Sextet.byte, sextet2, sextet3]

lemma base64Loop_first (b0 b1 : UInt8) (rest : List UInt8) :
    base64Loop buf 0 out ((sextet0 b0).alpha :: (sextet1 b0 b1).alpha :: rest) =
      base64Loop (push (push buf (sextet0 b0)) (sextet1 b0 b1)) 4 (out ++ [b0]) rest := by
  rw [base64Loop_alpha, if_neg (by decide), base64Loop_alpha, if_pos (by decide)]
  exact congrArg (fun b => base64Loop _ 4 (out ++ [b]) rest) (written_first buf b0 b1)

lemma base64Loop_second (b0 b1 b2 : UInt8) (rest : List UInt8) :
    base64Loop (push buf (sextet1 b0 b1)) 4 out ((sextet2 b1 b2).alpha :: rest) =
      base64Loop (push (push buf (sextet1 b0 b1)) (sextet2 b1 b2)) 2 (out ++ [b1]) rest := by
  rw [base64Loop_alpha, if_pos (by decide)]
  exact congrArg (fun b => base64Loop _ 2 (out ++ [b]) rest) (written_second buf b0 b1 b2)

lemma base64Loop_third (b1 b2 : UInt8) (rest : List UInt8) :
    base64Loop (push buf (sextet2 b1 b2)) 2 out ((sextet3 b2).alpha :: rest) =
      base64Loop (push (push buf (sextet2 b1 b2)) (sextet3 b2)) 0 (out ++ [b2]) rest := by
  rw [base64Loop_alpha, if_pos (by decide)]
  exact congrArg (fun b => base64Loop _ 0 (out ++ [b]) rest) (written_third buf b1 b2)

lemma base64Loop_pad (bits : UInt32) (out rest : List UInt8) :
    base64Loop buf bits out (61 :: rest) = some out := by
  rw [base64Loop, if_pos rfl]

/-- **The loop writes what was encoded**, with any bits before it in the buffer. -/
theorem base64Loop_base64Bytes (buf : UInt32) (out : List UInt8) :
    base64Loop buf 0 out (base64Bytes bytes) = some (out ++ bytes) := by
  fun_induction base64Bytes bytes generalizing buf out with
  | case1 b0 b1 b2 rest ih =>
    rw [base64Loop_first, base64Loop_second, base64Loop_third, ih]
    simp
  | case2 b0 b1 =>
    rw [base64Loop_first, base64Loop_second, base64Loop_pad]
    simp
  | case3 b0 => rw [base64Loop_first, base64Loop_pad]
  | case4 => rw [base64Loop, append_nil]

def unpadded (s : String) : String := String.ofList (s.toList.filter (· ≠ '='))

def urlSafeChar (c : Char) : Char := if c = '+' then '-' else if c = '/' then '_' else c

def urlSafe (s : String) : String := String.ofList (s.toList.map urlSafeChar)

def normaliseChar (c : Char) : Option Char :=
  if c = '-' then some '+' else if c = '_' then some '/' else if c = '=' then none else some c

@[simp] lemma char_ne_pad : ∀ i : Sextet, i.char ≠ '=' := by decide +kernel

@[simp]
lemma normaliseChar_char : ∀ i : Sextet, normaliseChar i.char = some i.char := by decide +kernel

@[simp]
lemma normaliseChar_urlSafeChar :
    ∀ i : Sextet, normaliseChar (urlSafeChar i.char) = some i.char := by decide +kernel

@[simp] lemma utf8Size_char : ∀ i : Sextet, i.char.utf8Size = 1 := by decide +kernel

/-- The characters of an encoding. -/
def IsBase64Char (c : Char) : Prop := c = '=' ∨ ∃ i : Sextet, c = i.char

lemma isBase64Char_of_mem : ∀ c ∈ base64Chars bytes, IsBase64Char c := by
  fun_induction base64Bytes bytes with
  | case1 b0 b1 b2 rest ih =>
    rw [Security.base64Chars_group]
    simp only [forall_mem_cons]
    exact ⟨.inr ⟨_, rfl⟩, .inr ⟨_, rfl⟩, .inr ⟨_, rfl⟩, .inr ⟨_, rfl⟩, ih⟩
  | case2 b0 b1 =>
    rw [Security.base64Chars_two]
    simp only [forall_mem_cons]
    exact ⟨.inr ⟨_, rfl⟩, .inr ⟨_, rfl⟩, .inr ⟨_, rfl⟩, .inl rfl, forall_mem_nil _⟩
  | case3 b0 =>
    rw [Security.base64Chars_one]
    simp only [forall_mem_cons]
    exact ⟨.inr ⟨_, rfl⟩, .inr ⟨_, rfl⟩, .inl rfl, .inl rfl, forall_mem_nil _⟩
  | case4 => exact forall_mem_nil _

def unpaddedChars (bytes : List UInt8) : Str := (base64Chars bytes).filter (· ≠ '=')

lemma filterMap_eq_filter_pad {s : Str} {f : Char → Option Char}
    (hf : ∀ c ∈ s, f c = if c = '=' then none else some c) :
    s.filterMap f = s.filter (· ≠ '=') := by
  induction s with
  | nil => rfl
  | cons c s ih =>
    have hrest := ih fun d hd => hf d (mem_cons_of_mem c hd)
    have hc := hf c mem_cons_self
    by_cases hpad : c = '='
    · rw [if_pos hpad] at hc
      rw [filterMap_cons_none hc, filter_cons_of_neg (by simp [hpad]), hrest]
    · rw [if_neg hpad] at hc
      rw [filterMap_cons_some hc, filter_cons_of_pos (by simp [hpad]), hrest]

lemma normalise_of_isBase64Char {s : Str} (hs : ∀ c ∈ s, IsBase64Char c) :
    normalise s = s.filter (· ≠ '=') ∧ normalise (s.map urlSafeChar) = s.filter (· ≠ '=') := by
  have hchar : ∀ c ∈ s, normaliseChar c = (if c = '=' then none else some c) ∧
      normaliseChar (urlSafeChar c) = if c = '=' then none else some c := by
    intro c hc
    rcases hs c hc with rfl | ⟨i, rfl⟩
    · decide
    · simp
  constructor
  · exact filterMap_eq_filter_pad fun c hc => (hchar c hc).1
  · exact filterMap_map.trans (filterMap_eq_filter_pad fun c hc => (hchar c hc).2)

def padding (remainder : ℕ) : Str :=
  List.replicate (if remainder = 0 then 0 else 4 - remainder) '='

lemma len_cons_char (i : Sextet) (s : Str) : Str.len (i.char :: s) = Str.len s + 1 := by
  rw [Str.len, ByteText.byteLen_cons, utf8Size_char, Nat.add_comm]
  rfl

lemma unpaddedChars_append_padding :
    (unpaddedChars bytes).len % 4 ≠ 1 ∧
      unpaddedChars bytes ++ padding ((unpaddedChars bytes).len % 4) = base64Chars bytes := by
  fun_induction base64Bytes bytes with
  | case1 b0 b1 b2 rest ih =>
    have hcs : unpaddedChars (b0 :: b1 :: b2 :: rest) = (sextet0 b0).char ::
        (sextet1 b0 b1).char :: (sextet2 b1 b2).char :: (sextet3 b2).char ::
          unpaddedChars rest := by
      simp [unpaddedChars, Security.base64Chars_group]
    have hlen : (unpaddedChars (b0 :: b1 :: b2 :: rest)).len % 4 =
        (unpaddedChars rest).len % 4 := by
      rw [hcs]
      simp only [len_cons_char]
      omega
    rw [hlen, hcs, Security.base64Chars_group, ← ih.2]
    exact ⟨ih.1, rfl⟩
  | case2 b0 b1 =>
    have hcs : unpaddedChars [b0, b1] =
        [(sextet0 b0).char, (sextet1 b0 b1).char, (sextet2 b1 0).char] := by
      simp [unpaddedChars, Security.base64Chars_two]
    have hlen : (unpaddedChars [b0, b1]).len = 3 := by
      rw [hcs]
      simp only [len_cons_char]
      rfl
    rw [hlen, hcs, Security.base64Chars_two]
    exact ⟨by decide, rfl⟩
  | case3 b0 =>
    have hcs : unpaddedChars [b0] = [(sextet0 b0).char, (sextet1 b0 0).char] := by
      simp [unpaddedChars, Security.base64Chars_one]
    have hlen : (unpaddedChars [b0]).len = 2 := by
      rw [hcs]
      simp only [len_cons_char]
      rfl
    rw [hlen, hcs, Security.base64Chars_one]
    exact ⟨by decide, rfl⟩
  | case4 => decide

lemma base64Decode_of_normalise {s : String} {bytes : List UInt8}
    (h : normalise s.toList = unpaddedChars bytes) : base64Decode s = some bytes := by
  obtain ⟨hrem, hpad⟩ := unpaddedChars_append_padding bytes
  rw [base64Decode, h]
  simp only [if_neg hrem]
  rw [padding] at hpad
  rw [hpad, ← base64Encode, asBytes_base64Encode, base64Loop_base64Bytes, nil_append]

/-- **Base64 round trip**: both decoders return what was encoded, the control plane's also without
the padding and in the URL-safe alphabet. -/
theorem base64_round_trip (bytes : List UInt8) :
    Security.base64Decode (base64Encode bytes) = .ok bytes ∧
      base64Decode (base64Encode bytes) = some bytes ∧
      base64Decode (unpadded (base64Encode bytes)) = some bytes ∧
      base64Decode (urlSafe (base64Encode bytes)) = some bytes ∧
      base64Decode (urlSafe (unpadded (base64Encode bytes))) = some bytes := by
  have hcs := isBase64Char_of_mem bytes
  have hunp : ∀ c ∈ unpaddedChars bytes, IsBase64Char c := fun c hc =>
    hcs c (mem_filter.mp hc).1
  have htwi : (unpaddedChars bytes).filter (· ≠ '=') = unpaddedChars bytes := by
    rw [unpaddedChars, filter_filter]
    simp
  have htext : (base64Encode bytes).toList = base64Chars bytes := String.toList_ofList
  refine ⟨Security.base64Decode_base64Encode bytes, ?_, ?_, ?_, ?_⟩
  · refine base64Decode_of_normalise ?_
    rw [htext]
    exact (normalise_of_isBase64Char hcs).1
  · refine base64Decode_of_normalise ?_
    rw [unpadded, String.toList_ofList, htext]
    exact (normalise_of_isBase64Char hunp).1.trans htwi
  · refine base64Decode_of_normalise ?_
    rw [urlSafe, String.toList_ofList, htext]
    exact (normalise_of_isBase64Char hcs).2
  · refine base64Decode_of_normalise ?_
    rw [urlSafe, unpadded, String.toList_ofList, String.toList_ofList, htext]
    exact (normalise_of_isBase64Char hunp).2.trans htwi

end Aether.SystemCore
