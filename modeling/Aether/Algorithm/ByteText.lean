import Mathlib.Data.List.Infix

/-!
# Texts with byte offsets

A text is a list of characters, each of which takes some bytes.  Searching a text gives a byte
offset, and cutting it at one fails unless a character begins there or the text ends.
-/

namespace Aether.ByteText

open List Option

universe u

variable {α : Type u} (size : α → ℕ)

def byteLen : List α → ℕ
  | [] => 0
  | c :: s => size c + byteLen s

def dropBytes : List α → ℕ → Option (List α)
  | s, 0 => some s
  | [], _ + 1 => none
  | c :: s, i + 1 => if size c ≤ i + 1 then dropBytes s (i + 1 - size c) else none

def takeBytes : List α → ℕ → Option (List α)
  | _, 0 => some []
  | [], _ + 1 => none
  | c :: s, n + 1 => if size c ≤ n + 1 then (takeBytes s (n + 1 - size c)).map (c :: ·) else none

def slice (s : List α) (i j : ℕ) : Option (List α) :=
  if i ≤ j then (dropBytes size s i).bind fun s => takeBytes size s (j - i) else none

def find [DecidableEq α] (p : List α) : List α → Option ℕ
  | [] => if p = [] then some 0 else none
  | c :: s => if p <+: c :: s then some 0 else (find p s).map (· + size c)

def rfind [DecidableEq α] (p : List α) : List α → Option ℕ
  | [] => if p = [] then some 0 else none
  | c :: s =>
    match rfind p s with
    | some i => some (i + size c)
    | none => if p <+: c :: s then some 0 else none

def findP (p : α → Bool) : List α → Option ℕ
  | [] => none
  | c :: s => if p c then some 0 else (findP p s).map (· + size c)

def IsBoundary (s : List α) (i : ℕ) : Prop := ∃ pre, pre <+: s ∧ byteLen size pre = i

variable {size} {s : List α} {i j : ℕ}

@[simp] lemma byteLen_nil : byteLen size ([] : List α) = 0 := rfl

@[simp] lemma byteLen_cons (c : α) (s : List α) :
    byteLen size (c :: s) = size c + byteLen size s := rfl

@[simp] lemma byteLen_append (s t : List α) :
    byteLen size (s ++ t) = byteLen size s + byteLen size t := by
  induction s with
  | nil => rw [nil_append, byteLen_nil, Nat.zero_add]
  | cons c s ih => rw [cons_append, byteLen_cons, byteLen_cons, ih, Nat.add_assoc]

lemma isBoundary_zero (s : List α) : IsBoundary size s 0 := ⟨[], nil_prefix, rfl⟩

lemma isBoundary_nil_iff : IsBoundary size ([] : List α) i ↔ i = 0 := by
  constructor
  · rintro ⟨pre, hpre, rfl⟩
    rw [prefix_nil.mp hpre, byteLen_nil]
  · rintro rfl
    exact isBoundary_zero []

lemma isBoundary_cons_iff {c : α} :
    IsBoundary size (c :: s) i ↔ i = 0 ∨ size c ≤ i ∧ IsBoundary size s (i - size c) := by
  constructor
  · rintro ⟨pre, hpre, rfl⟩
    cases pre with
    | nil => exact .inl rfl
    | cons c' pre =>
      obtain ⟨rfl, hpre'⟩ := cons_prefix_cons.mp hpre
      refine .inr ⟨Nat.le_add_right .., pre, hpre', ?_⟩
      rw [byteLen_cons, Nat.add_sub_cancel_left]
  · rintro (rfl | ⟨hle, pre, hpre, hlen⟩)
    · exact isBoundary_zero _
    · refine ⟨c :: pre, cons_prefix_cons.mpr ⟨rfl, hpre⟩, ?_⟩
      rw [byteLen_cons, hlen, Nat.add_sub_cancel' hle]

lemma isBoundary_map_iff {β : Type u} {size' : β → ℕ} {f : α → β}
    (hf : ∀ c, size' (f c) = size c) :
    IsBoundary size' (s.map f) i ↔ IsBoundary size s i := by
  induction s generalizing i with
  | nil => rw [map_nil, isBoundary_nil_iff, isBoundary_nil_iff]
  | cons c s ih => rw [map_cons, isBoundary_cons_iff, isBoundary_cons_iff, hf, ih]

lemma dropBytes_isSome_iff : (dropBytes size s i).isSome ↔ IsBoundary size s i := by
  induction s generalizing i with
  | nil =>
    rw [isBoundary_nil_iff]
    cases i <;> simp [dropBytes]
  | cons c s ih =>
    rw [isBoundary_cons_iff]
    cases i with
    | zero => simp [dropBytes]
    | succ i =>
      rw [dropBytes]
      split_ifs with hle
      · rw [ih]
        simp [hle]
      · simp [hle]

lemma takeBytes_isSome_iff : (takeBytes size s i).isSome ↔ IsBoundary size s i := by
  induction s generalizing i with
  | nil =>
    rw [isBoundary_nil_iff]
    cases i <;> simp [takeBytes]
  | cons c s ih =>
    rw [isBoundary_cons_iff]
    cases i with
    | zero => simp [takeBytes]
    | succ i =>
      rw [takeBytes]
      split_ifs with hle
      · rw [isSome_map, ih]
        simp [hle]
      · simp [hle]

lemma exists_of_dropBytes {t : List α} (h : dropBytes size s i = some t) :
    ∃ pre, s = pre ++ t ∧ byteLen size pre = i := by
  induction s generalizing i with
  | nil =>
    cases i with
    | zero => exact ⟨[], some.inj h, rfl⟩
    | succ i => cases h
  | cons c s ih =>
    cases i with
    | zero => exact ⟨[], some.inj h, rfl⟩
    | succ i =>
      rw [dropBytes] at h
      split_ifs at h with hle
      obtain ⟨pre, rfl, hlen⟩ := ih h
      exact ⟨c :: pre, rfl, by rw [byteLen_cons, hlen, Nat.add_sub_cancel' hle]⟩

lemma isBoundary_of_dropBytes {t : List α} (h : dropBytes size s i = some t) (hij : i ≤ j) :
    IsBoundary size t (j - i) ↔ IsBoundary size s j := by
  obtain ⟨pre, rfl, rfl⟩ := exists_of_dropBytes h
  constructor
  · rintro ⟨pre', hpre', hlen⟩
    refine ⟨pre ++ pre', (prefix_append_right_inj _).mpr hpre', ?_⟩
    rw [byteLen_append, hlen, Nat.add_sub_cancel' hij]
  · rintro ⟨pre', hpre', hlen⟩
    rcases prefix_or_prefix_of_prefix hpre' (prefix_append pre t) with hsh | hlong
    · -- Both cuts are at the same place.
      obtain ⟨rest, rfl⟩ := hsh
      have hzero : j - byteLen size (pre' ++ rest) = 0 := by
        rw [byteLen_append, hlen]
        omega
      rw [hzero]
      exact isBoundary_zero t
    · obtain ⟨rest, rfl⟩ := hlong
      refine ⟨rest, (prefix_append_right_inj _).mp hpre', ?_⟩
      rw [byteLen_append] at hlen
      omega

lemma slice_isSome_iff :
    (slice size s i j).isSome ↔ i ≤ j ∧ IsBoundary size s i ∧ IsBoundary size s j := by
  unfold slice
  split_ifs with hij
  · cases hdrop : dropBytes size s i with
    | none =>
      have hnot : ¬ IsBoundary size s i := by
        rw [← dropBytes_isSome_iff, hdrop]
        simp
      simp [hnot]
    | some t =>
      have hi : IsBoundary size s i := by
        rw [← dropBytes_isSome_iff, hdrop]
        rfl
      rw [bind_some, takeBytes_isSome_iff, isBoundary_of_dropBytes hdrop hij]
      simp [hij, hi]
  · simp [hij]

section Parts

variable (hsize : ∀ c, 0 < size c)

include hsize

lemma dropBytes_append (pre t : List α) :
    dropBytes size (pre ++ t) (byteLen size pre) = some t := by
  induction pre with
  | nil => simp [dropBytes]
  | cons c pre ih =>
    have hpos := hsize c
    obtain ⟨n, hn⟩ := Nat.exists_eq_succ_of_ne_zero (show size c + byteLen size pre ≠ 0 by omega)
    have hle : size c ≤ n + 1 := by omega
    have hrest : n + 1 - size c = byteLen size pre := by omega
    rw [cons_append, byteLen_cons, hn, Nat.succ_eq_add_one, dropBytes, if_pos hle, hrest, ih]

lemma takeBytes_append (pre t : List α) :
    takeBytes size (pre ++ t) (byteLen size pre) = some pre := by
  induction pre with
  | nil => simp [takeBytes]
  | cons c pre ih =>
    have hpos := hsize c
    obtain ⟨n, hn⟩ := Nat.exists_eq_succ_of_ne_zero (show size c + byteLen size pre ≠ 0 by omega)
    have hle : size c ≤ n + 1 := by omega
    have hrest : n + 1 - size c = byteLen size pre := by omega
    rw [cons_append, byteLen_cons, hn, Nat.succ_eq_add_one, takeBytes, if_pos hle, hrest, ih,
      map_some]

end Parts

lemma findP_eq (p : α → Bool) (s : List α) :
    findP size p s =
      if s.any p then some (byteLen size (s.takeWhile fun c => !p c)) else none := by
  induction s with
  | nil => rfl
  | cons c s ih =>
    unfold findP
    by_cases hc : p c = true
    · simp [hc]
    · rw [if_neg hc, ih, any_cons, takeWhile_cons]
      cases hany : s.any p with
      | true => simp [hc, Nat.add_comm]
      | false => simp [hc]

variable {p : List α}

lemma isBoundary_of_occurrence {pre post : List α} (h : s = pre ++ p ++ post) :
    IsBoundary size s (byteLen size pre) ∧
      IsBoundary size s (byteLen size pre + byteLen size p) := by
  rw [h]
  constructor
  · exact ⟨pre, by rw [append_assoc]; exact prefix_append .., rfl⟩
  · exact ⟨pre ++ p, prefix_append .., byteLen_append ..⟩

variable [DecidableEq α]

lemma exists_of_find (h : find size p s = some i) :
    ∃ pre post, s = pre ++ p ++ post ∧ byteLen size pre = i := by
  induction s generalizing i with
  | nil =>
    unfold find at h
    split_ifs at h with hp
    cases h
    exact ⟨[], [], by simp [hp], rfl⟩
  | cons c s ih =>
    unfold find at h
    split_ifs at h with hp
    · cases h
      obtain ⟨post, hpost⟩ := hp
      exact ⟨[], post, hpost.symm, rfl⟩
    · obtain ⟨k, hk, rfl⟩ := map_eq_some_iff.mp h
      obtain ⟨pre, post, rfl, rfl⟩ := ih hk
      exact ⟨c :: pre, post, rfl, Nat.add_comm ..⟩

lemma exists_of_rfind (h : rfind size p s = some i) :
    ∃ pre post, s = pre ++ p ++ post ∧ byteLen size pre = i := by
  induction s generalizing i with
  | nil =>
    unfold rfind at h
    split_ifs at h with hp
    cases h
    exact ⟨[], [], by simp [hp], rfl⟩
  | cons c s ih =>
    unfold rfind at h
    split at h
    · next k hk =>
      cases h
      obtain ⟨pre, post, rfl, rfl⟩ := ih hk
      exact ⟨c :: pre, post, rfl, Nat.add_comm ..⟩
    · split_ifs at h with hp
      cases h
      obtain ⟨post, hpost⟩ := hp
      exact ⟨[], post, hpost.symm, rfl⟩

lemma isBoundary_of_find (h : find size p s = some i) :
    IsBoundary size s i ∧ IsBoundary size s (i + byteLen size p) := by
  obtain ⟨pre, post, hs, rfl⟩ := exists_of_find h
  exact isBoundary_of_occurrence hs

lemma isBoundary_of_rfind (h : rfind size p s = some i) :
    IsBoundary size s i ∧ IsBoundary size s (i + byteLen size p) := by
  obtain ⟨pre, post, hs, rfl⟩ := exists_of_rfind h
  exact isBoundary_of_occurrence hs

end Aether.ByteText

/-!
## Encoded texts

In a self-synchronizing code the first unit of a code word is told from the others, so that a stored
text is found in another only where its characters are.
-/

namespace Aether.Encoded

open ByteText List

universe u v

variable {α : Type u} {β : Type v}

structure SelfSync (enc : α → List β) (lead : β → Bool) : Prop where
  exists_cons : ∀ c, ∃ b rest, enc c = b :: rest ∧ lead b = true ∧ ∀ x ∈ rest, lead x = false
  eq_of_append_eq : ∀ {c d : α} {x y : List β}, enc c ++ x = enc d ++ y → c = d

variable {enc : α → List β} {lead : β → Bool} {s p : List α} {i : ℕ}

lemma length_flatMap_eq (enc : α → List β) (s : List α) :
    (s.flatMap enc).length = byteLen (fun c => (enc c).length) s := by
  induction s with
  | nil => rfl
  | cons c s ih => rw [flatMap_cons, length_append, ih, byteLen_cons]

lemma exists_of_isBoundary (h : IsBoundary (fun c => (enc c).length) s i) :
    ∃ pre post, s = pre ++ post ∧ (s.flatMap enc).take i = pre.flatMap enc ∧
      (s.flatMap enc).drop i = post.flatMap enc := by
  obtain ⟨pre, ⟨post, rfl⟩, rfl⟩ := h
  refine ⟨pre, post, rfl, ?_, ?_⟩
  · rw [flatMap_append, ← length_flatMap_eq, take_left]
  · rw [flatMap_append, ← length_flatMap_eq, drop_left]

namespace SelfSync

variable (h : SelfSync enc lead)
include h

lemma isPrefix_iff : p.flatMap enc <+: s.flatMap enc ↔ p <+: s := by
  constructor
  · intro hpre
    induction p generalizing s with
    | nil => exact nil_prefix
    | cons c p ih =>
      obtain ⟨rest, hrest⟩ := hpre
      rw [flatMap_cons, append_assoc] at hrest
      cases s with
      | nil =>
        obtain ⟨b, tail, henc, -, -⟩ := h.exists_cons c
        rw [henc] at hrest
        cases hrest
      | cons d s =>
        rw [flatMap_cons] at hrest
        obtain rfl := h.eq_of_append_eq hrest
        exact cons_prefix_cons.mpr ⟨rfl, ih ⟨rest, append_cancel_left hrest⟩⟩
  · rintro ⟨rest, rfl⟩
    rw [flatMap_append]
    exact prefix_append ..

lemma isBoundary_of_lead {b : β} (hb : (s.flatMap enc)[i]? = some b) (hlead : lead b = true) :
    IsBoundary (fun c => (enc c).length) s i := by
  induction s generalizing i with
  | nil => cases hb
  | cons c s ih =>
    rw [isBoundary_cons_iff]
    by_cases hlt : i < (enc c).length
    · -- of the units of `c`, only the first one leads
      left
      obtain ⟨b₀, rest, henc, -, hrest⟩ := h.exists_cons c
      rw [flatMap_cons, getElem?_append_left hlt, henc] at hb
      cases i with
      | zero => rfl
      | succ i =>
        rw [getElem?_cons_succ] at hb
        rw [hrest b (mem_of_getElem? hb)] at hlead
        cases hlead
    · right
      have hle : (enc c).length ≤ i := Nat.le_of_not_lt hlt
      rw [flatMap_cons, getElem?_append_right hle] at hb
      exact ⟨hle, ih hb⟩

lemma isBoundary_iff :
    IsBoundary (fun c => (enc c).length) s i ↔
      i = (s.flatMap enc).length ∨ ∃ b, (s.flatMap enc)[i]? = some b ∧ lead b = true := by
  constructor
  · rintro ⟨pre, ⟨post, rfl⟩, rfl⟩
    rw [← length_flatMap_eq]
    cases post with
    | nil =>
      left
      rw [append_nil]
    | cons c post =>
      right
      obtain ⟨b, rest, henc, hlead, -⟩ := h.exists_cons c
      refine ⟨b, ?_, hlead⟩
      rw [flatMap_append, getElem?_append_right (Nat.le_refl _), Nat.sub_self,
        flatMap_cons, henc]
      rfl
  · rintro (rfl | ⟨b, hb, hlead⟩)
    · exact ⟨s, prefix_rfl, (length_flatMap_eq enc s).symm⟩
    · exact h.isBoundary_of_lead hb hlead

lemma exists_of_occurrence (hp : p ≠ []) (hat : p.flatMap enc <+: (s.flatMap enc).drop i) :
    ∃ pre post, s = pre ++ p ++ post ∧ byteLen (fun c => (enc c).length) pre = i := by
  -- the first unit of `p` leads, so that a character of `s` begins at `i`
  have hi : IsBoundary (fun c => (enc c).length) s i := by
    obtain ⟨c, p, rfl⟩ := exists_cons_of_ne_nil hp
    obtain ⟨b, rest, henc, hlead, -⟩ := h.exists_cons c
    obtain ⟨tail, htail⟩ := hat
    refine h.isBoundary_of_lead (b := b) ?_ hlead
    have hhead : ((s.flatMap enc).drop i)[0]? = some b := by
      rw [← htail, flatMap_cons, henc]
      rfl
    rwa [getElem?_drop, Nat.add_zero] at hhead
  obtain ⟨pre, ⟨post, rfl⟩, rfl⟩ := hi
  rw [flatMap_append, ← length_flatMap_eq, drop_left, h.isPrefix_iff] at hat
  obtain ⟨rest, rfl⟩ := hat
  exact ⟨pre, rest, (append_assoc ..).symm, rfl⟩

lemma isBoundary_of_occurrence (hp : p ≠ []) (hat : p.flatMap enc <+: (s.flatMap enc).drop i) :
    IsBoundary (fun c => (enc c).length) s i ∧
      IsBoundary (fun c => (enc c).length) s (i + (p.flatMap enc).length) := by
  obtain ⟨pre, post, hs, rfl⟩ := h.exists_of_occurrence hp hat
  rw [length_flatMap_eq]
  exact ByteText.isBoundary_of_occurrence hs

end SelfSync

end Aether.Encoded
