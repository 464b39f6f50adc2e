import Aether.Core.Str
import Aether.Defense.Equiv.Sanitize

/-!
# Where the sanitizer cuts a text

UTF-8 is self-synchronizing (`selfSync_utf8`), so that `find_ci` finds a pattern only between
characters.  The length cap is a number of bytes.
-/

namespace Aether.Defense

open Aether.Core (Str)
open Encoded Security List

variable {n maxLength : Nat}

lemma isContinuation_ofNat (hn : n < 256) :
    isContinuation (UInt8.ofNat n) = true ↔ 128 ≤ n ∧ n < 192 := by
  have hval : (UInt8.ofNat n).toNat = n := by rw [UInt8.toNat_ofNat', Nat.mod_eq_of_lt hn]
  rw [isContinuation, Bool.and_eq_true, decide_eq_true_eq, decide_eq_true_eq,
    UInt8.le_iff_toNat_le, UInt8.lt_iff_toNat_lt, hval]
  rfl

lemma lead_ofNat (hn : n < 256) (hlead : n < 128 ∨ 192 ≤ n) :
    (!isContinuation (UInt8.ofNat n)) = true := by
  rw [Bool.not_eq_true', Bool.eq_false_iff, Ne, isContinuation_ofNat hn]
  omega

lemma not_lead_ofNat (hlow : 128 ≤ n) (hhigh : n < 192) :
    (!isContinuation (UInt8.ofNat n)) = false := by
  rw [Bool.not_eq_false', isContinuation_ofNat (by omega)]
  exact ⟨hlow, hhigh⟩

lemma selfSync_utf8 : SelfSync String.utf8EncodeChar fun b => !isContinuation b where
  exists_cons c := by
    have hlt := c.val.toNat_lt
    unfold String.utf8EncodeChar
    dsimp only
    split_ifs with h1 h2 h3
    · exact ⟨_, _, rfl, lead_ofNat (by omega) (by omega), by simp⟩
    all_goals
      refine ⟨_, _, rfl, lead_ofNat (by omega) (by omega), fun x hx => ?_⟩
      simp only [mem_cons, not_mem_nil, or_false] at hx
    · rw [hx]
      exact not_lead_ofNat (by omega) (by omega)
    · rcases hx with rfl | rfl <;> exact not_lead_ofNat (by omega) (by omega)
    · rcases hx with rfl | rfl | rfl <;> exact not_lead_ofNat (by omega) (by omega)
  eq_of_append_eq {c d x y} heq := by
    -- both characters are what is decoded from the same bytes
    have hc := ByteArray.utf8DecodeChar?_utf8EncodeChar_append (b := x.toByteArray) (c := c)
    have hd := ByteArray.utf8DecodeChar?_utf8EncodeChar_append (b := y.toByteArray) (c := d)
    rw [← toByteArray_append] at hc hd
    rw [heq, hd] at hc
    exact (Option.some.inj hc).symm

abbrev encode (s : Str) : Text := s.flatMap String.utf8EncodeChar

lemma isBoundary_utf8_iff {s : Str} {i : Nat} :
    ByteText.IsBoundary (fun c => (String.utf8EncodeChar c).length) s i ↔ Str.IsBoundary s i := by
  rw [show (fun c => (String.utf8EncodeChar c).length) = Char.utf8Size from
    funext String.length_utf8EncodeChar]
  rfl

lemma isCharBoundary_encode_iff {s : Str} {i : Nat} :
    isCharBoundary (encode s) i = true ↔ Str.IsBoundary s i := by
  rw [← isBoundary_utf8_iff]
  constructor
  · intro h
    rw [isCharBoundary, Bool.or_eq_true, Bool.or_eq_true, beq_iff_eq, beq_iff_eq] at h
    rcases h with (rfl | hend) | hlead
    · exact ByteText.isBoundary_zero s
    · exact selfSync_utf8.isBoundary_iff.mpr (.inl hend)
    · cases hb : (encode s)[i]? with
      | none =>
        rw [hb] at hlead
        cases hlead
      | some b =>
        rw [hb] at hlead
        exact selfSync_utf8.isBoundary_of_lead hb hlead
  · intro h
    rw [isCharBoundary, Bool.or_eq_true, Bool.or_eq_true, beq_iff_eq, beq_iff_eq]
    rcases selfSync_utf8.isBoundary_iff.mp h with hend | ⟨b, hb, hlead⟩
    · exact .inl (.inr hend)
    · right
      rw [hb]
      exact hlead

lemma toAsciiLowercase_of_le {b : UInt8} (h : 0x80 ≤ b) : toAsciiLowercase b = b := by
  have hb : ¬ b ≤ 90 := by
    intro hle
    have h1 : 128 ≤ b.toNat := UInt8.le_iff_toNat_le.mp h
    have h2 : b.toNat ≤ 90 := UInt8.le_iff_toNat_le.mp hle
    omega
  simp [toAsciiLowercase, hb]

lemma toAsciiLowercase_toUInt8 {c : Char} (hc : c.val ≤ 127) :
    toAsciiLowercase c.val.toUInt8 = c.toLower.val.toUInt8 := by
  have hle : c.val.toNat ≤ 127 := UInt32.le_iff_toNat_le.mp hc
  have hval : c.val.toUInt8.toNat = c.val.toNat := by
    rw [UInt32.toNat_toUInt8, Nat.mod_eq_of_lt (by omega)]
  have hiff : (65 ≤ c.val.toUInt8 ∧ c.val.toUInt8 ≤ 90) ↔ (c.val ≥ 'A'.val ∧ c.val ≤ 'Z'.val) := by
    rw [UInt8.le_iff_toNat_le, UInt8.le_iff_toNat_le, hval, ge_iff_le, UInt32.le_iff_toNat_le,
      UInt32.le_iff_toNat_le]
    rfl
  unfold toAsciiLowercase Char.toLower
  simp only [Bool.and_eq_true, decide_eq_true_eq]
  split_ifs with hbyte hchar hchar
  · show c.val.toUInt8 + 32 = (c.val + 32).toUInt8
    rw [UInt32.toUInt8_add]
    rfl
  · exact absurd (hiff.mp hbyte) hchar
  · exact absurd (hiff.mpr hchar) hbyte
  · rfl

lemma map_utf8EncodeChar (c : Char) :
    (String.utf8EncodeChar c).map toAsciiLowercase = String.utf8EncodeChar c.toLower := by
  by_cases hc : c.val ≤ 127
  · have h1 := Char.utf8Size_eq_one_iff.mpr hc
    rw [String.utf8EncodeChar_eq_singleton h1,
      String.utf8EncodeChar_eq_singleton ((Str.utf8Size_toLower c).trans h1), map_singleton,
      toAsciiLowercase_toUInt8 hc]
  · have hlt : 127 < c.toNat := UInt32.lt_iff_toNat_lt.mp (UInt32.not_le.mp hc)
    -- neither the character nor a byte of it is a letter
    have hlow : c.toLower = c := by
      unfold Char.toLower
      rw [dif_neg]
      rintro ⟨-, hle⟩
      have : c.toNat ≤ 90 := UInt32.le_iff_toNat_le.mp hle
      omega
    rw [hlow]
    conv_rhs => rw [← map_id (String.utf8EncodeChar c)]
    refine map_congr_left fun b hb => toAsciiLowercase_of_le ?_
    by_contra hsma
    have hsma' := UInt8.not_le.mp hsma
    have hnat : b.toNat < 128 := UInt8.lt_iff_toNat_lt.mp hsma'
    have := eq_of_mem_utf8EncodeChar hsma' hb
    omega

lemma map_encode (s : Str) :
    (encode s).map toAsciiLowercase = encode (Str.toAsciiLowercase s) := by
  rw [encode, encode, Str.toAsciiLowercase, map_flatMap, flatMap_map]
  exact flatMap_congr fun c _ => map_utf8EncodeChar c

variable {s p : Str} {i : Nat}

lemma truncate_encode (hi : Str.IsBoundary s i) :
    ∃ s', truncate (encode s) i = some (encode s') := by
  rw [truncate, if_pos (isCharBoundary_encode_iff.mpr hi)]
  split_ifs
  · obtain ⟨pre, post, -, htake, -⟩ := exists_of_isBoundary (isBoundary_utf8_iff.mpr hi)
    exact ⟨pre, congrArg some htake⟩
  · exact ⟨s, rfl⟩

lemma replaceRange_encode {j : Nat} (hi : Str.IsBoundary s i) (hj : Str.IsBoundary s j)
    (new : Str) : ∃ s', replaceRange (encode s) i j (encode new) = some (encode s') := by
  rw [replaceRange, isCharBoundary_encode_iff.mpr hi, isCharBoundary_encode_iff.mpr hj]
  obtain ⟨pre, -, -, htake, -⟩ := exists_of_isBoundary (isBoundary_utf8_iff.mpr hi)
  obtain ⟨-, post, -, -, hdrop⟩ := exists_of_isBoundary (isBoundary_utf8_iff.mpr hj)
  refine ⟨pre ++ new ++ post, ?_⟩
  have henc : encode (pre ++ new ++ post) = encode pre ++ encode new ++ encode post := by
    rw [encode, flatMap_append, flatMap_append]
  rw [Bool.and_self, if_pos rfl, htake, hdrop, henc]

lemma isBoundary_of_ciAt (hp : p ≠ []) (hat : CiAt (encode p) (encode s) i) :
    Str.IsBoundary s i ∧ Str.IsBoundary s (i + (encode p).length) := by
  rw [CiAt, Redaction.OccursAt, map_encode, map_drop, map_encode] at hat
  have hlow : Str.toAsciiLowercase p ≠ [] := by simpa [Str.toAsciiLowercase] using hp
  obtain ⟨hsta, hend⟩ := selfSync_utf8.isBoundary_of_occurrence hlow hat
  rw [← encode, ← map_encode, length_map] at hend
  exact ⟨Str.isBoundary_toAsciiLowercase.mp (isBoundary_utf8_iff.mp hsta),
    Str.isBoundary_toAsciiLowercase.mp (isBoundary_utf8_iff.mp hend)⟩

def IsUtf8 (t : Text) : Prop := ∃ s : Str, t = encode s

lemma exists_capLength (h : (encode s).length ≤ maxLength ∨ Str.IsBoundary s maxLength) :
    ∃ draft, capLength maxLength (encode s) = some draft ∧ IsUtf8 draft.1 := by
  rw [capLength]
  split_ifs with hlong
  · have hcut : Str.IsBoundary s maxLength := h.resolve_left (Nat.not_le_of_gt hlong)
    obtain ⟨s', hs'⟩ := truncate_encode hcut
    exact ⟨(encode s', [.truncated]), by rw [hs']; rfl, s', rfl⟩
  · exact ⟨_, rfl, s, rfl⟩

lemma capLength_eq_none (h : ¬ ((encode s).length ≤ maxLength ∨ Str.IsBoundary s maxLength)) :
    capLength maxLength (encode s) = none := by
  obtain ⟨hlong, hcut⟩ := not_or.mp h
  have hlt : maxLength < (encode s).length := Nat.lt_of_not_le hlong
  rw [← isCharBoundary_encode_iff] at hcut
  rw [capLength, if_pos hlt, truncate, if_pos (Nat.le_of_lt hlt), if_neg hcut]
  rfl

lemma exists_stripPattern (pat : String) {draft : Draft} (h : IsUtf8 draft.1) :
    ∃ draft', stripPattern draft pat = some draft' ∧ IsUtf8 draft'.1 := by
  obtain ⟨s, hs⟩ := h
  rw [stripPattern, hs]
  cases hfind : findCi (encode s) (asBytes pat) with
  | none => exact ⟨draft, rfl, s, hs⟩
  | some pos =>
    rw [asBytes_eq] at hfind ⊢
    have hat := (findCi_eq_some hfind).1
    -- the empty pattern is never found
    have hpat : pat.toList ≠ [] := by
      intro hnil
      rw [hnil] at hfind
      cases hfind
    obtain ⟨hsta, hend⟩ := isBoundary_of_ciAt hpat hat
    obtain ⟨s', hs'⟩ := replaceRange_encode hsta hend "[REDACTED]".toList
    refine ⟨(encode s', draft.2 ++ [.injectionPattern]), ?_, s', rfl⟩
    dsimp only
    rw [asBytes_eq "[REDACTED]", hs']
    rfl

lemma exists_foldlM_stripPattern (pats : List String) {draft : Draft} (h : IsUtf8 draft.1) :
    ∃ draft', pats.foldlM stripPattern draft = some draft' := by
  induction pats generalizing draft with
  | nil => exact ⟨draft, rfl⟩
  | cons pat pats ih =>
    obtain ⟨draft', hstep, h'⟩ := exists_stripPattern pat h
    rw [foldlM_cons, hstep]
    exact ih h'

namespace SanitizationPolicy

lemma sanitize_eq_none {policy : SanitizationPolicy} {content : Content}
    (h : ¬ ((asBytes content.body).length ≤ policy.maxLength ∨
      Str.IsBoundary content.body.toList policy.maxLength)) : policy.sanitize content = none := by
  rw [asBytes_eq] at h
  rw [sanitize, asBytes_eq, capLength_eq_none h]
  rfl

/-- The sanitizer returns unless the length cap falls inside a character of the body. -/
theorem sanitize_isSome_iff (policy : SanitizationPolicy) (content : Content) :
    (policy.sanitize content).isSome = true ↔
      (asBytes content.body).length ≤ policy.maxLength ∨
        Str.IsBoundary content.body.toList policy.maxLength := by
  constructor
  · intro hsome
    by_contra hcut
    rw [sanitize_eq_none hcut] at hsome
    cases hsome
  · intro hcut
    rw [asBytes_eq] at hcut
    obtain ⟨draft, hcap, hutf8⟩ := exists_capLength hcut
    obtain ⟨draft', hstr⟩ := exists_foldlM_stripPattern policy.injectionPatterns hutf8
    rw [sanitize, asBytes_eq, hcap, Option.bind_eq_bind, Option.bind_some, hstr, Option.bind_some]
    dsimp only
    split <;> rfl

lemma not_isBoundary_replicate (n : Nat) :
    ¬ Str.IsBoundary (List.replicate n 'a' ++ ['é']) (n + 1) := by
  rw [Str.IsBoundary]
  induction n with
  | zero =>
    rw [replicate_zero, nil_append, ByteText.isBoundary_cons_iff]
    rintro (hzero | ⟨hle, -⟩)
    · cases hzero
    · exact absurd hle (by decide)
  | succ n ih =>
    rw [replicate_succ, cons_append, ByteText.isBoundary_cons_iff]
    rintro (hzero | ⟨-, hrest⟩)
    · cases hzero
    · exact ih hrest

lemma lt_length_encode_replicate (n : Nat) :
    n + 1 < (encode (List.replicate n 'a' ++ ['é'])).length := by
  induction n with
  | zero => decide
  | succ n ih =>
    rw [replicate_succ, cons_append, encode, flatMap_cons, length_append,
      String.length_utf8EncodeChar, Nat.add_comm]
    exact Nat.add_lt_add_left ih 1

theorem sanitize_default_panics :
    default.sanitize ⟨.webFetch, String.ofList (List.replicate 16383 'a' ++ ['é'])⟩ = none := by
  apply sanitize_eq_none
  rw [asBytes_eq, String.toList_ofList]
  rintro (hle | hcut)
  · exact absurd hle (Nat.not_le_of_gt (lt_length_encode_replicate 16383))
  · exact not_isBoundary_replicate 16383 hcut

end SanitizationPolicy

end Aether.Defense
