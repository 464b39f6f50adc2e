import Aether.Algorithm.ByteText
import Mathlib.Data.List.DropRight
import Mathlib.Tactic.NormNum

/-!
# UTF-8

How the standard library reads bytes as a text: the sequences of bytes that are a character, the
replacement of the others, and the error that names the first of them.
-/

namespace Aether.Core.Utf8

def continuationRanges (b : UInt8) : Option (List (UInt8 × UInt8)) :=
  if b < 0x80 then some []
  else if 0xc2 ≤ b ∧ b ≤ 0xdf then some [(0x80, 0xbf)]
  else if b = 0xe0 then some [(0xa0, 0xbf), (0x80, 0xbf)]
  else if b = 0xed then some [(0x80, 0x9f), (0x80, 0xbf)]
  else if 0xe1 ≤ b ∧ b ≤ 0xef then some [(0x80, 0xbf), (0x80, 0xbf)]
  else if b = 0xf0 then some [(0x90, 0xbf), (0x80, 0xbf), (0x80, 0xbf)]
  else if 0xf1 ≤ b ∧ b ≤ 0xf3 then some [(0x80, 0xbf), (0x80, 0xbf), (0x80, 0xbf)]
  else if b = 0xf4 then some [(0x80, 0x8f), (0x80, 0xbf), (0x80, 0xbf)]
  else none

def countInRanges : List (UInt8 × UInt8) → List UInt8 → ℕ
  | (low, high) :: ranges, b :: rest =>
    if low ≤ b ∧ b ≤ high then countInRanges ranges rest + 1 else 0
  | _, _ => 0

def sequenceAfter (b : UInt8) (rest : List UInt8) : ℕ × Bool :=
  match continuationRanges b with
  | none => (0, false)
  | some ranges => (countInRanges ranges rest, countInRanges ranges rest = ranges.length)

def decodeChar (b : UInt8) (continuation : List UInt8) : Char :=
  let lead := if continuation = [] then b.toNat else b.toNat % (64 >>> continuation.length)
  Char.ofNat (continuation.foldl (fun n c => n * 64 + c.toNat % 64) lead)

def lossyChars : ℕ → List UInt8 → List Char
  | _, [] => []
  | skip + 1, _ :: rest => lossyChars skip rest
  | 0, b :: rest =>
    match sequenceAfter b rest with
    | (k, true) => decodeChar b (rest.take k) :: lossyChars k rest
    | (k, false) => '\uFFFD' :: lossyChars k rest

def errorFrom : ℕ → ℕ → List UInt8 → String
  | _, _, [] => ""
  | index, skip + 1, _ :: rest => errorFrom (index + 1) skip rest
  | index, 0, b :: rest =>
    match sequenceAfter b rest with
    | (k, true) => errorFrom (index + 1) k rest
    | (k, false) =>
      if (continuationRanges b).isSome && k = rest.length then
        s!"incomplete utf-8 byte sequence from index {index}"
      else s!"invalid utf-8 sequence of {k + 1} bytes from index {index}"

def fromUtf8 (bytes : List UInt8) : Except String String :=
  match String.fromUTF8? ⟨bytes.toArray⟩ with
  | some s => .ok s
  | none => .error (errorFrom 0 0 bytes)

/-!
## Texts that end in ASCII bytes

Whatever stands before them, ASCII bytes at the end of a text end what is read.
-/

open List

variable {ranges : List (UInt8 × UInt8)} {tail : List UInt8}

lemma le_of_mem_continuationRanges {b : UInt8} (h : continuationRanges b = some ranges) :
    ∀ r ∈ ranges, 0x80 ≤ r.1 := by
  unfold continuationRanges at h
  split_ifs at h <;> cases h <;>
    simp only [forall_mem_cons, not_mem_nil, IsEmpty.forall_iff, implies_true,
      and_true] <;>
    decide

lemma countInRanges_le (hran : ∀ r ∈ ranges, 0x80 ≤ r.1) (bytes : List UInt8)
    (htail : ∀ b ∈ tail, b < 0x80) : countInRanges ranges (bytes ++ tail) ≤ bytes.length := by
  induction bytes generalizing ranges with
  | nil =>
    -- The first byte of the tail is in no range.
    cases ranges with
    | nil => simp [countInRanges]
    | cons r ranges =>
      cases tail with
      | nil => simp [countInRanges]
      | cons b tail =>
        have hlow : 0x80 ≤ r.1 := hran r (mem_cons_self ..)
        have hb : b < 0x80 := htail b (mem_cons_self ..)
        have hout : ¬r.1 ≤ b := fun h => UInt8.not_le.mpr hb (UInt8.le_trans hlow h)
        simp [countInRanges, hout]
  | cons b bytes ih =>
    cases ranges with
    | nil => simp [countInRanges]
    | cons r ranges =>
      have hrest := ih (fun r hr => hran r (mem_cons_of_mem _ hr))
      rw [cons_append, countInRanges, length_cons]
      split_ifs
      · exact Nat.succ_le_succ hrest
      · exact Nat.zero_le _

lemma sequenceAfter_le (b : UInt8) (bytes : List UInt8) (htail : ∀ c ∈ tail, c < 0x80) :
    (sequenceAfter b (bytes ++ tail)).1 ≤ bytes.length := by
  cases hran : continuationRanges b with
  | none => simp [sequenceAfter, hran]
  | some ranges =>
    simpa [sequenceAfter, hran] using
      countInRanges_le (le_of_mem_continuationRanges hran) bytes htail

def asciiChars (bytes : List UInt8) : List Char := bytes.map fun b => Char.ofNat b.toNat

lemma lossyChars_ascii (htail : ∀ b ∈ tail, b < 0x80) : lossyChars 0 tail = asciiChars tail := by
  induction tail with
  | nil => rfl
  | cons b tail ih =>
    have hb : b < 0x80 := htail b (mem_cons_self ..)
    have hseq : sequenceAfter b tail = (0, true) := by
      simp [sequenceAfter, continuationRanges, hb, countInRanges]
    rw [lossyChars, hseq, asciiChars, map_cons, ← asciiChars,
      ← ih (fun c hc => htail c (mem_cons_of_mem _ hc))]
    rfl

lemma lossyChars_append_ascii (bytes : List UInt8) (htail : ∀ b ∈ tail, b < 0x80) {skip : ℕ}
    (hskip : skip ≤ bytes.length) : asciiChars tail <:+ lossyChars skip (bytes ++ tail) := by
  induction bytes generalizing skip with
  | nil =>
    obtain rfl : skip = 0 := Nat.le_zero.mp hskip
    rw [nil_append, lossyChars_ascii htail]
  | cons b bytes ih =>
    cases skip with
    | succ skip => exact ih (Nat.le_of_succ_le_succ hskip)
    | zero =>
      have hseq := ih (sequenceAfter_le b bytes htail)
      rw [cons_append, lossyChars]
      generalize sequenceAfter b (bytes ++ tail) = taken at hseq
      obtain ⟨k, whole⟩ := taken
      cases whole <;> exact hseq.trans (suffix_cons ..)

end Aether.Core.Utf8

/-!
## Text

`str::trim` and `str::contains`.
-/

namespace Aether.Core

def isWhitespace (c : Char) : Bool :=
  let n := c.toNat
  (0x9 ≤ n && n ≤ 0xd) || n == 0x20 || n == 0x85 || n == 0xa0 || n == 0x1680 ||
    (0x2000 ≤ n && n ≤ 0x200a) || n == 0x2028 || n == 0x2029 || n == 0x202f || n == 0x205f ||
    n == 0x3000

def trim (s : String) : String :=
  String.ofList (((s.toList.dropWhile isWhitespace).reverse.dropWhile isWhitespace).reverse)

def containsText (s pattern : String) : Bool := pattern.toList <:+: s.toList

/-!
## Functions of `str`

On the characters of a text.  Offsets are those of its UTF-8 encoding, and a slice that panics is
`none`.
-/

abbrev Str := List Char

structure UpperTable where
  upper : Char → List Char
  upper_ascii : ∀ c, c.toNat < 128 → upper c = [c.toUpper]

namespace Str

def len (s : Str) : ℕ := ByteText.byteLen Char.utf8Size s

def find (s : Str) (p : String) : Option ℕ := ByteText.find Char.utf8Size p.toList s

def rfind (s : Str) (p : String) : Option ℕ := ByteText.rfind Char.utf8Size p.toList s

def findP (s : Str) (p : Char → Bool) : Option ℕ := ByteText.findP Char.utf8Size p s

def sliceFrom (s : Str) (i : ℕ) : Option Str := ByteText.dropBytes Char.utf8Size s i

def slice (s : Str) (i j : ℕ) : Option Str := ByteText.slice Char.utf8Size s i j

def replaceRange (s : Str) (i j : ℕ) (new : Str) : Option Str := do
  let _ ← s.slice i j
  let before ← s.slice 0 i
  let after ← s.sliceFrom j
  return before ++ new ++ after

/-- `is_char_boundary`: no character goes across the index. -/
def IsBoundary (s : Str) (i : ℕ) : Prop := ByteText.IsBoundary Char.utf8Size s i

def contains (s : Str) (p : String) : Bool := p.toList <:+: s

def endsWith (s : Str) (p : String) : Bool := p.toList <:+ s

def isOneOf (s : Str) (texts : List String) : Bool := texts.any fun t => s = t.toList

def anyOf (chars : String) (c : Char) : Bool := c ∈ chars.toList

def toAsciiLowercase (s : Str) : Str := s.map Char.toLower

def toUppercase (table : UpperTable) (s : Str) : Str := s.flatMap table.upper

def eqIgnoreAsciiCase (s : Str) (t : String) : Bool :=
  toAsciiLowercase s = toAsciiLowercase t.toList

def splitWhitespace (s : Str) : List Str := (s.splitOnP isWhitespace).filter (· ≠ [])

def splitOnce (s : Str) (delimiter : Char) : Option (Str × Str) :=
  match s.dropWhile (· ≠ delimiter) with
  | [] => none
  | _ :: rest => some (s.takeWhile (· ≠ delimiter), rest)

def stripPrefix (s : Str) (p : String) : Option Str := p.toList.isPrefixOf? s

def startsWith (s : Str) (p : String) : Bool := p.toList.isPrefixOf s

def lines (s : Str) : List Str :=
  let pieces := s.splitOn '\n'
  let ended := pieces.dropLast.map fun line =>
    if line.getLast? = some '\r' then line.dropLast else line
  let rest := pieces.getLastD []
  if rest = [] then ended else ended ++ [rest]

def trimStartMatches (p : Char → Bool) (s : Str) : Str := s.dropWhile p

def trimEndMatches (p : Char → Bool) (s : Str) : Str := s.rdropWhile p

def trimMatches (p : Char → Bool) (s : Str) : Str := trimEndMatches p (trimStartMatches p s)

def trim (s : Str) : Str := trimMatches isWhitespace s

def isAsciiWhitespace (c : Char) : Bool :=
  c = ' ' || c = '\t' || c = '\n' || c = '\x0c' || c = '\r'

def replaceDoubleBlanks : Str → Str
  | ' ' :: ' ' :: s => ' ' :: replaceDoubleBlanks s
  | c :: s => c :: replaceDoubleBlanks s
  | [] => []

end Str

end Aether.Core

/-!
## Parsing unsigned integers

`from_str_radix` and `FromStr` of the unsigned integer types, as far as success goes: the source
drops the kind of a `ParseIntError` everywhere.
-/

namespace Aether.Core.Str

def toDigit (radix : ℕ) (c : Char) : Option ℕ :=
  let value :=
    if '0' ≤ c && c ≤ '9' then some (c.toNat - 48)
    else if 'a' ≤ c && c ≤ 'z' then some (c.toNat - 87)
    else if 'A' ≤ c && c ≤ 'Z' then some (c.toNat - 55)
    else none
  value.filter (· < radix)

def pushDigit (radix bound n : ℕ) (c : Char) : Option ℕ := do
  let digit ← toDigit radix c
  if n * radix + digit < bound then some (n * radix + digit) else none

def fromStrRadix (radix bound : ℕ) (s : Str) : Option ℕ :=
  match s with
  | [] => none
  | ['+'] => none
  | '+' :: digits => digits.foldlM (pushDigit radix bound) 0
  | digits => digits.foldlM (pushDigit radix bound) 0

def parseU8 (s : Str) : Option UInt8 := (fromStrRadix 10 256 s).map UInt8.ofNat

def parseU32 (s : Str) : Option UInt32 := (fromStrRadix 10 4294967296 s).map UInt32.ofNat

def parseU64 (s : Str) : Option UInt64 :=
  (fromStrRadix 10 18446744073709551616 s).map UInt64.ofNat

/-!
## Slices of texts

When a slice panics, and that one at an offset found in the text in lower case does not: lower case
only replaces ASCII letters by ASCII letters, so that all offsets stay what they are.
-/

open ByteText

variable {s rest : Str} {p q : String} {i j n : ℕ}

lemma sliceFrom_eq_none_iff : sliceFrom s i = none ↔ ¬ IsBoundary s i := by
  rw [IsBoundary, ← dropBytes_isSome_iff, Option.not_isSome_iff_eq_none, sliceFrom]

lemma slice_eq_none_iff :
    slice s i j = none ↔ ¬ (i ≤ j ∧ IsBoundary s i ∧ IsBoundary s j) := by
  rw [IsBoundary, IsBoundary, ← slice_isSome_iff, Option.not_isSome_iff_eq_none, slice]

lemma isBoundary_add (h : sliceFrom s i = some rest) (hj : IsBoundary rest j) :
    IsBoundary s (i + j) := by
  refine (isBoundary_of_dropBytes h (Nat.le_add_right i j)).mp ?_
  rw [Nat.add_sub_cancel_left]
  exact hj

lemma contains_of_find (h : find s p = some i) : contains s p = true := by
  obtain ⟨pre, post, hs, -⟩ := exists_of_find h
  exact decide_eq_true ⟨pre, post, hs.symm⟩

@[simp] lemma len_append (s t : Str) : len (s ++ t) = len s + len t := ByteText.byteLen_append s t

lemma sliceFrom_append (pre t : Str) : sliceFrom (pre ++ t) (len pre) = some t :=
  dropBytes_append Char.utf8Size_pos pre t

lemma slice_append (pre mid post : Str) :
    slice (pre ++ mid ++ post) (len pre) (len pre + len mid) = some mid := by
  have hle : len pre ≤ len pre + len mid := Nat.le_add_right ..
  have hdrop : dropBytes Char.utf8Size (pre ++ mid ++ post) (len pre) = some (mid ++ post) := by
    rw [List.append_assoc]
    exact sliceFrom_append pre (mid ++ post)
  rw [slice, ByteText.slice, if_pos hle, hdrop, Option.bind_some, Nat.add_sub_cancel_left]
  exact takeBytes_append Char.utf8Size_pos mid post

lemma replaceRange_append (pre mid post new : Str) :
    replaceRange (pre ++ mid ++ post) (len pre) (len pre + len mid) new =
      some (pre ++ new ++ post) := by
  have hbef : slice (pre ++ mid ++ post) 0 (len pre) = some pre := by
    have h := slice_append [] pre (mid ++ post)
    rw [List.nil_append, ← List.append_assoc] at h
    simpa [len, byteLen] using h
  have haft : sliceFrom (pre ++ mid ++ post) (len pre + len mid) = some post := by
    rw [← len_append]
    exact sliceFrom_append (pre ++ mid) post
  rw [replaceRange, slice_append, hbef, haft]
  rfl

variable {delimiter : Char}

lemma splitOnce_of_not_mem (h : delimiter ∉ s) : splitOnce s delimiter = none := by
  have hdrop : s.dropWhile (· ≠ delimiter) = [] :=
    List.dropWhile_eq_nil_iff.mpr fun c hc => decide_eq_true fun heq => h (heq ▸ hc)
  rw [splitOnce, hdrop]

lemma splitOnce_append_cons (h : delimiter ∉ s) :
    splitOnce (s ++ delimiter :: t) delimiter = some (s, t) := by
  have hs : ∀ c ∈ s, decide (c ≠ delimiter) = true := fun c hc =>
    decide_eq_true fun heq => h (heq ▸ hc)
  rw [splitOnce, List.dropWhile_append_of_pos hs, List.takeWhile_append_of_pos hs]
  simp

lemma utf8Size_toLower (c : Char) : c.toLower.utf8Size = c.utf8Size := by
  unfold Char.toLower
  split
  · next h =>
    -- Both letters are ASCII.
    obtain ⟨-, hle⟩ := h
    have hc : c.val.toNat ≤ 90 := UInt32.le_iff_toNat_le.mp hle
    have hadd : (c.val + 32).toNat = c.val.toNat + 32 := by
      rw [UInt32.toNat_add]
      exact Nat.mod_eq_of_lt (by change c.val.toNat + 32 < _; omega)
    have hsma : c.val ≤ 0x7F := UInt32.le_iff_toNat_le.mpr (by change _ ≤ 127; omega)
    have hsma' : c.val + 32 ≤ 0x7F :=
      UInt32.le_iff_toNat_le.mpr (by rw [hadd]; change _ ≤ 127; omega)
    simp [Char.utf8Size, hsma, hsma']
  · rfl

lemma isBoundary_toAsciiLowercase : IsBoundary (toAsciiLowercase s) i ↔ IsBoundary s i :=
  isBoundary_map_iff utf8Size_toLower

lemma isBoundary_of_find_lowercase (h : find (toAsciiLowercase s) p = some i)
    (hn : len p.toList = n) : IsBoundary s i ∧ IsBoundary s (i + n) := by
  obtain ⟨hsta, hend⟩ := isBoundary_of_find h
  rw [← hn]
  exact ⟨isBoundary_toAsciiLowercase.mp hsta, isBoundary_toAsciiLowercase.mp hend⟩

lemma sliceFrom_find_ne_none (h : find (toAsciiLowercase s) p = some i)
    (hn : len p.toList = n) : sliceFrom s (i + n) ≠ none := by
  rw [Ne, sliceFrom_eq_none_iff, not_not]
  exact (isBoundary_of_find_lowercase h hn).2

lemma sliceFrom_rfind_ne_none (h : rfind (toAsciiLowercase s) p = some i)
    (hn : len p.toList = n) : sliceFrom s (i + n) ≠ none := by
  obtain ⟨-, hend⟩ := isBoundary_of_rfind h
  rw [Ne, sliceFrom_eq_none_iff, not_not, ← hn]
  exact isBoundary_toAsciiLowercase.mp hend

lemma slice_between_eq_none_iff (hp : find (toAsciiLowercase s) p = some i)
    (hq : find (toAsciiLowercase s) q = some j) (hn : len p.toList = n) :
    slice s (i + n) j = none ↔ j < i + n := by
  have hfrom : IsBoundary s (i + n) := (isBoundary_of_find_lowercase hp hn).2
  have hto : IsBoundary s j := (isBoundary_of_find_lowercase hq rfl).1
  rw [slice_eq_none_iff]
  simp only [hfrom, hto, and_true, not_le]

lemma toUppercase_of_ascii (table : UpperTable) (h : s.all (·.toNat < 128) = true) :
    toUppercase table s = s.map Char.toUpper := by
  induction s with
  | nil => rfl
  | cons c s ih =>
    simp only [List.all_cons, Bool.and_eq_true, decide_eq_true_eq] at h
    have hrest : toUppercase table s = s.map Char.toUpper := ih h.2
    rw [toUppercase, List.flatMap_cons, table.upper_ascii c h.1, ← toUppercase, hrest]
    rfl

/-!
## Reading what was printed
-/

variable {c : Char} {digits : Str} {bound : ℕ}

lemma toDigit_of_isDigit (h : c.isDigit = true) : toDigit 10 c = some (c.toNat - 48) := by
  rw [Char.isDigit, Bool.and_eq_true, decide_eq_true_eq, decide_eq_true_eq] at h
  obtain ⟨hge, hle⟩ : '0' ≤ c ∧ c ≤ '9' := h
  have hlt : c.toNat - 48 < 10 := by
    have hle' : c.toNat ≤ 57 := hle
    omega
  simp [toDigit, hge, hle, hlt]

lemma le_ofDigitChars (digits : Str) (n : ℕ) : n ≤ Nat.ofDigitChars 10 digits n := by
  induction digits generalizing n with
  | nil => simp
  | cons c digits ih =>
    rw [Nat.ofDigitChars_cons]
    have := ih (10 * n + (c.toNat - '0'.toNat))
    omega

lemma foldlM_pushDigit (hdig : ∀ c ∈ digits, c.isDigit = true)
    (hbou : Nat.ofDigitChars 10 digits n < bound) :
    digits.foldlM (pushDigit 10 bound) n = some (Nat.ofDigitChars 10 digits n) := by
  induction digits generalizing n with
  | nil => simp
  | cons c digits ih =>
    rw [Nat.ofDigitChars_cons] at hbou ⊢
    have hle := le_ofDigitChars digits (10 * n + (c.toNat - '0'.toNat))
    have hc := toDigit_of_isDigit (hdig c List.mem_cons_self)
    have hpush : pushDigit 10 bound n c = some (10 * n + (c.toNat - '0'.toNat)) := by
      have hzero : '0'.toNat = 48 := rfl
      have hlt : 10 * n + (c.toNat - 48) < bound := by omega
      simp [pushDigit, hc, hlt, Nat.mul_comm n 10]
    rw [List.foldlM_cons, hpush]
    exact ih (fun c' hc' => hdig c' (List.mem_cons_of_mem c hc')) hbou

lemma fromStrRadix_toDigits (h : n < bound) :
    fromStrRadix 10 bound (Nat.toDigits 10 n) = some n := by
  have hdig : ∀ c ∈ Nat.toDigits 10 n, c.isDigit = true := fun c hc =>
    Nat.isDigit_of_mem_toDigits (by decide) (by decide) hc
  have hfold := foldlM_pushDigit (n := 0) hdig (by rwa [Nat.ofDigitChars_ten_toDigits])
  rw [Nat.ofDigitChars_ten_toDigits] at hfold
  obtain ⟨c, rest, hcons⟩ := List.exists_cons_of_ne_nil (Nat.toDigits_ne_nil (n := n) (b := 10))
  have hc : c ≠ '+' := by
    rintro rfl
    have hplus := hdig '+' (hcons ▸ List.mem_cons_self)
    revert hplus
    decide
  rw [hcons] at hfold ⊢
  unfold fromStrRadix
  split
  · next heq => cases heq
  · next heq => exact absurd (List.cons.inj heq).1 hc
  · next heq => exact absurd (List.cons.inj heq).1 hc
  · exact hfold

lemma parseU32_toDigits (n : UInt32) : parseU32 (Nat.toDigits 10 n.toNat) = some n := by
  rw [parseU32, fromStrRadix_toDigits n.toNat_lt, Option.map_some, UInt32.ofNat_toNat]

end Aether.Core.Str
