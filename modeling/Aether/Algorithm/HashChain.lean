import Mathlib.Algebra.Ring.Nat
import Mathlib.Data.List.Basic
import Mathlib.Data.List.Count

/-!
# Hash chains

The entries of a chain are numbered from some place on; each carries the hash of the entry before it
and a hash of its own fields.  `Verified` says that a list of entries is a chain at a place.
-/

namespace Aether.HashChain

structure Format (α δ : Type*) where
  index : α → UInt64
  prev : α → δ
  hash : α → δ
  /-- The hash of the other fields. -/
  recompute : α → δ
  /-- The entry with a number, a hash of the entry before it, and the hash of these fields. -/
  stamp : UInt64 → δ → α → α
  index_stamp : ∀ i p e, index (stamp i p e) = i
  prev_stamp : ∀ i p e, prev (stamp i p e) = p
  recompute_stamp : ∀ i p e, recompute (stamp i p e) = hash (stamp i p e)

variable {α δ : Type*} (F : Format α δ)

def Verified : UInt64 → δ → List α → Prop
  | _, _, [] => True
  | i, p, e :: es =>
    F.index e = i ∧ F.prev e = p ∧ F.recompute e = F.hash e ∧ Verified (i + 1) (F.hash e) es

def lastHash (p : δ) (es : List α) : δ := (es.getLast?.map F.hash).getD p

def restamp : UInt64 → δ → List α → List α
  | _, _, [] => []
  | i, p, e :: es => F.stamp i p e :: restamp (i + 1) (F.hash (F.stamp i p e)) es

variable {F} {i : UInt64} {p p' : δ} {e : α} {es : List α}

lemma lastHash_cons : lastHash F p (e :: es) = lastHash F (F.hash e) es := by
  cases es with
  | nil => rfl
  | cons e' es =>
    rw [lastHash, lastHash, List.getLast?_cons_cons, List.getLast?_cons]
    rfl

lemma add_one_add_ofNat (i : UInt64) (n : ℕ) :
    i + 1 + UInt64.ofNat n = i + UInt64.ofNat (n + 1) := by
  rw [UInt64.ofNat_add, UInt64.add_assoc, UInt64.add_comm 1]
  rfl

lemma verified_concat : Verified F i p (es ++ [e]) ↔
    Verified F i p es ∧ F.index e = i + UInt64.ofNat es.length ∧ F.prev e = lastHash F p es ∧
      F.recompute e = F.hash e := by
  induction es generalizing i p with
  | nil => simp [Verified, lastHash]
  | cons e' es ih =>
    rw [List.cons_append, Verified, Verified, ih, lastHash_cons, List.length_cons,
      add_one_add_ofNat]
    tauto

lemma verified_restamp : Verified F i p (restamp F i p es) := by
  induction es generalizing i p with
  | nil => trivial
  | cons e es ih => exact ⟨F.index_stamp .., F.prev_stamp .., F.recompute_stamp .., ih⟩

lemma verified_drop (n : ℕ) (h : Verified F i p es) :
    ∃ p', Verified F (i + UInt64.ofNat n) p' (es.drop n) := by
  induction n generalizing i p es with
  | zero => exact ⟨p, by simpa using h⟩
  | succ n ih =>
    cases es with
    | nil => exact ⟨p, trivial⟩
    | cons e es =>
      obtain ⟨p', hp'⟩ := ih h.2.2.2
      rw [add_one_add_ofNat] at hp'
      exact ⟨p', hp'⟩

lemma not_verified_drop {n : ℕ} (hn : 0 < n) (hlt : n < es.length) (hlen : n < 2 ^ 64)
    (h : Verified F 0 p es) : ¬ Verified F 0 p' (es.drop n) := by
  obtain ⟨q, hq⟩ := verified_drop n h
  cases hd : es.drop n with
  | nil =>
    have := List.drop_eq_nil_iff.mp hd
    omega
  | cons e rest =>
    rw [hd] at hq
    intro h'
    have hix : UInt64.ofNat n = 0 := (UInt64.zero_add _).symm.trans (hq.1.symm.trans h'.1)
    have hnat := congrArg UInt64.toNat hix
    rw [UInt64.toNat_ofNat', Nat.mod_eq_of_lt hlen, UInt64.toNat_zero] at hnat
    omega

lemma verified_tail_iff (h : Verified F 0 p (e :: es)) : Verified F 0 p' es ↔ es = [] := by
  constructor
  · intro h'
    by_contra hne
    have hpos := List.length_pos_iff.mpr hne
    refine not_verified_drop (n := 1) Nat.one_pos ?_ (by decide) h h'
    rw [List.length_cons]
    omega
  · rintro rfl
    trivial

end Aether.HashChain

/-!
## Parts terminated by a separator

The parts can be read back from the framed text exactly when none of them contains the separator
(`frame_inj`, `exists_frame_eq_of_mem`).
-/

namespace Aether.Framing

open List

variable {α : Type*}

def frame (sep : α) (parts : List (List α)) : List α := parts.flatMap fun p => p ++ [sep]

@[simp] lemma frame_nil (sep : α) : frame sep [] = [] := rfl

@[simp] lemma frame_cons (sep : α) (p : List α) (parts : List (List α)) :
    frame sep (p :: parts) = p ++ sep :: frame sep parts := by
  simp [frame]

@[simp] lemma frame_append (sep : α) (ps qs : List (List α)) :
    frame sep (ps ++ qs) = frame sep ps ++ frame sep qs := by
  simp [frame]

variable {sep : α} {xs ys : List (List α)}

lemma append_cons_inj {x y : List α} (hx : sep ∉ x) (hy : sep ∉ y) {s t : List α}
    (h : x ++ sep :: s = y ++ sep :: t) : x = y ∧ s = t := by
  induction x generalizing y with
  | nil =>
    cases y with
    | nil => exact ⟨rfl, (cons.inj h).2⟩
    | cons b y =>
      cases h
      exact absurd mem_cons_self hy
  | cons a x ih =>
    cases y with
    | nil =>
      cases h
      exact absurd mem_cons_self hx
    | cons b y =>
      obtain ⟨rfl, htl⟩ := cons.inj h
      obtain ⟨rfl, hst⟩ := ih (fun hm => hx (mem_cons_of_mem _ hm))
        (fun hm => hy (mem_cons_of_mem _ hm)) htl
      exact ⟨rfl, hst⟩

/-- **Ambiguity**: a separator inside one of several parts can be moved to a boundary, which gives
other parts with the same text. -/
theorem exists_frame_eq_of_mem {x : List α} (hx : x ∈ xs) (hsep : sep ∈ x) (hlen : 2 ≤ xs.length) :
    ∃ ys, ys.length = xs.length ∧ frame sep ys = frame sep xs ∧ ys ≠ xs := by
  obtain ⟨pre, post, rfl⟩ := append_of_mem hx
  obtain ⟨u, v, rfl⟩ := append_of_mem hsep
  cases post with
  | cons y post =>
    refine ⟨pre ++ u :: (v ++ sep :: y) :: post, by simp, by simp, fun h => ?_⟩
    have hu := (cons.inj (append_cancel_left h)).1
    simpa using congrArg length hu
  | nil =>
    rcases eq_nil_or_concat pre with rfl | ⟨pre, w, rfl⟩
    · simp at hlen
    · refine ⟨pre ++ [w ++ sep :: u, v], by simp, by simp, fun h => ?_⟩
      rw [concat_eq_append, append_assoc] at h
      have hw := (cons.inj (append_cancel_left h)).1
      simpa using congrArg length hw

variable [DecidableEq α]

lemma count_frame (sep : α) (parts : List (List α)) :
    (frame sep parts).count sep = parts.length + (parts.map (List.count sep)).sum := by
  induction parts with
  | nil => rfl
  | cons p parts ih =>
    rw [frame_cons, count_append, count_cons_self, ih, map_cons, sum_cons,
      length_cons]
    omega

lemma count_frame_eq_length : (frame sep xs).count sep = xs.length ↔ ∀ x ∈ xs, sep ∉ x := by
  rw [count_frame, Nat.add_eq_left, List.sum_eq_zero_iff_forall_eq_nat]
  simp only [forall_mem_map, count_eq_zero]

lemma not_mem_of_frame_eq (hxs : ∀ x ∈ xs, sep ∉ x) (hlen : xs.length = ys.length)
    (h : frame sep xs = frame sep ys) : ∀ y ∈ ys, sep ∉ y := by
  rw [← count_frame_eq_length] at hxs ⊢
  rw [← h, hxs, hlen]

/-- **Unique reading**: separator-free parts are determined by their text and their number. -/
theorem frame_inj (hxs : ∀ x ∈ xs, sep ∉ x) (hlen : xs.length = ys.length)
    (h : frame sep xs = frame sep ys) : xs = ys := by
  have hys := not_mem_of_frame_eq hxs hlen h
  induction xs generalizing ys with
  | nil => exact (length_eq_zero_iff.mp hlen.symm).symm
  | cons x xs ih =>
    cases ys with
    | nil => simp at hlen
    | cons y ys =>
      rw [frame_cons, frame_cons] at h
      obtain ⟨rfl, htl⟩ := append_cons_inj (hxs x mem_cons_self) (hys y mem_cons_self) h
      rw [ih (fun z hz => hxs z (mem_cons_of_mem _ hz)) (by simpa using hlen) htl
        (fun z hz => hys z (mem_cons_of_mem _ hz))]

lemma frame_inj_of_not_mem (hxs : ∀ x ∈ xs, sep ∉ x) (hys : ∀ y ∈ ys, sep ∉ y)
    (h : frame sep xs = frame sep ys) : xs = ys := by
  refine frame_inj hxs ?_ h
  rw [← count_frame_eq_length.mpr hxs, h, count_frame_eq_length.mpr hys]

end Aether.Framing

/-!
## Texts of JSON objects

Outside of strings the brackets of a text are balanced, so an object shows where it ends.
-/

namespace Aether.ObjectText

inductive Chars : List UInt8 → Prop
  | nil : Chars []
  | char {c : UInt8} {cs : List UInt8} : c ≠ 34 → c ≠ 92 → Chars cs → Chars (c :: cs)
  | escape {c : UInt8} {cs : List UInt8} : Chars cs → Chars (92 :: c :: cs)

inductive Body : List UInt8 → Prop
  | nil : Body []
  | other {b : UInt8} {t : List UInt8} : b ∉ [34, 91, 93, 123, 125] → Body t → Body (b :: t)
  | string {cs t : List UInt8} : Chars cs → Body t → Body (34 :: (cs ++ 34 :: t))
  | array {u t : List UInt8} : Body u → Body t → Body (91 :: (u ++ 93 :: t))
  | object {u t : List UInt8} : Body u → Body t → Body (123 :: (u ++ 125 :: t))

def IsObject (text : List UInt8) : Prop := ∃ u, Body u ∧ text = 123 :: (u ++ [125])

inductive Mode where
  | text
  | string
  | escape

def afterClose : ℕ → Mode → List UInt8 → List UInt8
  | _, _, [] => []
  | depth, .escape, _ :: t => afterClose depth .string t
  | depth, .string, b :: t =>
    if b = 34 then afterClose depth .text t
    else if b = 92 then afterClose depth .escape t else afterClose depth .string t
  | depth, .text, b :: t =>
    if b = 34 then afterClose depth .string t
    else if b = 91 ∨ b = 123 then afterClose (depth + 1) .text t
    else if b = 93 ∨ b = 125 then if depth = 0 then t else afterClose (depth - 1) .text t
    else afterClose depth .text t

lemma Chars.afterClose_append {cs : List UInt8} (h : Chars cs) (depth : ℕ) (t : List UInt8) :
    afterClose depth .string (cs ++ 34 :: t) = afterClose depth .text t := by
  induction h with
  | nil => simp [afterClose]
  | char hquo hsla _ ih => simp [afterClose, hquo, hsla, ih]
  | escape _ ih => simp [afterClose, ih]

lemma Body.afterClose_append {u : List UInt8} (h : Body u) (depth : ℕ) (t : List UInt8) :
    afterClose depth .text (u ++ t) = afterClose depth .text t := by
  induction h generalizing depth t with
  | nil => rfl
  | other hb _ ih =>
    simp only [List.mem_cons, List.not_mem_nil, or_false, not_or] at hb
    simp [afterClose, hb, ih]
  | string hcs _ ih => simp [afterClose, hcs.afterClose_append, ih]
  | array _ _ ihu iht => simp [afterClose, ihu, iht]
  | object _ _ ihu iht => simp [afterClose, ihu, iht]

/-- **Texts of objects are free of prefixes**: whatever follows them, they can be told apart. -/
theorem IsObject.append_inj {text text' t t' : List UInt8} (h : IsObject text)
    (h' : IsObject text') (heq : text ++ t = text' ++ t') : text = text' ∧ t = t' := by
  obtain ⟨u, hu, rfl⟩ := h
  obtain ⟨u', hu', rfl⟩ := h'
  have htail : u ++ 125 :: t = u' ++ 125 :: t' := by simpa using heq
  have hrest := congrArg (afterClose 0 .text) htail
  rw [hu.afterClose_append, hu'.afterClose_append] at hrest
  obtain rfl : t = t' := by simpa [afterClose] using hrest
  exact ⟨List.append_cancel_right heq, rfl⟩

end Aether.ObjectText
