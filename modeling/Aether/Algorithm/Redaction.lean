import Mathlib.Data.List.Infix
import Mathlib.Order.Bounds.Basic

/-!
# Redaction

A text of cells: a kept letter, or a hole that remembers what was cut and is rendered as a
replacement.  A replacement is inert for a word when the word can neither begin inside it nor run
into it; then a word occurs in the rendered text only where it occurred in the source and no hole
touches it (`Redacts.infix_iff`).  Words are compared through a key `f`.
-/

namespace Aether.Redaction

variable {α β κ : Type*}

inductive Cell (α κ : Type*) where
  | keep (a : α)
  | hole (k : κ) (a : α) (cut : List α)
  deriving DecidableEq

open Cell List

def source : List (Cell α κ) → List α
  | [] => []
  | keep a :: cs => a :: source cs
  | hole _ a cut :: cs => a :: cut ++ source cs

def render (r : κ → List α) : List (Cell α κ) → List α
  | [] => []
  | keep a :: cs => a :: render r cs
  | hole k _ _ :: cs => r k ++ render r cs

def Masked : List (Cell α κ) → Nat → Prop
  | [], _ => False
  | keep _ :: _, 0 => False
  | keep _ :: cs, i + 1 => Masked cs i
  | hole _ _ cut :: cs, i => i ≤ cut.length ∨ cut.length < i ∧ Masked cs (i - (cut.length + 1))

section Cells

@[simp] lemma source_append (cs ds : List (Cell α κ)) :
    source (cs ++ ds) = source cs ++ source ds := by
  induction cs with
  | nil => rfl
  | cons c cs ih => cases c <;> simp [source, ih]

@[simp] lemma source_map_keep (t : List α) : source (t.map (keep : α → Cell α κ)) = t := by
  induction t with
  | nil => rfl
  | cons a t ih => simp [source, ih]

@[simp] lemma render_append (r : κ → List α) (cs ds : List (Cell α κ)) :
    render r (cs ++ ds) = render r cs ++ render r ds := by
  induction cs with
  | nil => rfl
  | cons c cs ih => cases c <;> simp [render, ih]

@[simp] lemma render_map_keep (r : κ → List α) (t : List α) : render r (t.map keep) = t := by
  induction t with
  | nil => rfl
  | cons a t ih => simp [render, ih]

lemma masked_append (cs ds : List (Cell α κ)) (i : Nat) :
    Masked (cs ++ ds) i ↔
      Masked cs i ∨ (source cs).length ≤ i ∧ Masked ds (i - (source cs).length) := by
  induction cs generalizing i with
  | nil => simp [Masked, source]
  | cons c cs ih =>
    cases c with
    | keep a =>
      cases i with
      | zero => simp [Masked, source]
      | succ i => simp [Masked, source, ih]
    | hole k a cut =>
      have hsub : i - (cut.length + 1) - (source cs).length =
          i - (cut.length + (source cs).length + 1) := by
        omega
      simp only [cons_append, Masked, source, length_cons, length_append, ih, hsub]
      constructor
      · rintro (h | ⟨h, h' | ⟨h', hm⟩⟩)
        · exact Or.inl (Or.inl h)
        · exact Or.inl (Or.inr ⟨h, h'⟩)
        · exact Or.inr ⟨by omega, hm⟩
      · rintro ((h | ⟨h, h'⟩) | ⟨h, hm⟩)
        · exact Or.inl h
        · exact Or.inr ⟨h, Or.inl h'⟩
        · exact Or.inr ⟨by omega, Or.inr ⟨by omega, hm⟩⟩

@[simp] lemma not_masked_map_keep (t : List α) (i : Nat) :
    ¬ Masked (t.map (keep : α → Cell α κ)) i := by
  induction t generalizing i with
  | nil => exact id
  | cons a t ih =>
    cases i with
    | zero => exact id
    | succ i => exact ih i

lemma masked_hole_add (k : κ) (a : α) (cut : List α) (cs : List (Cell α κ)) (i : Nat) :
    Masked (hole k a cut :: cs) ((a :: cut).length + i) ↔ Masked cs i := by
  rw [Masked, length_cons, Nat.add_sub_cancel_left]
  constructor
  · rintro (h | ⟨-, h⟩)
    · omega
    · exact h
  · intro h
    exact Or.inr ⟨by omega, h⟩

lemma masked_cut (c₁ c₂ : List (Cell α κ)) (k : κ) (a : α) (u : List α) (i : Nat) :
    Masked (c₁ ++ hole k a u :: c₂) i ↔
      Masked (c₁ ++ ((a :: u).map keep ++ c₂)) i ∨
        (source c₁).length ≤ i ∧ i < (source c₁).length + (a :: u).length := by
  simp only [masked_append, Masked, source_map_keep, not_masked_map_keep, false_or,
    length_cons]
  constructor
  · rintro (h | ⟨h, h' | ⟨h', hm⟩⟩)
    · exact Or.inl (Or.inl h)
    · exact Or.inr ⟨h, by omega⟩
    · exact Or.inl (Or.inr ⟨h, h', hm⟩)
  · rintro ((h | ⟨h, h', hm⟩) | ⟨h, h'⟩)
    · exact Or.inl h
    · exact Or.inr ⟨h, Or.inr ⟨h', hm⟩⟩
    · exact Or.inr ⟨h, Or.inl (by omega)⟩

end Cells

section Kept

variable (f : α → β) (w : List β)

def Spells (cs : List (Cell α κ)) : Prop :=
  ∃ (u : List α) (rest : List (Cell α κ)), cs = u.map keep ++ rest ∧ u.map f = w

def Kept (cs : List (Cell α κ)) (p : Nat) : Prop :=
  ∃ c₁ c₂, cs = c₁ ++ c₂ ∧ Spells f w c₂ ∧ (source c₁).length = p

variable {f w}

lemma spells_nil (cs : List (Cell α κ)) : Spells f [] cs := ⟨[], cs, rfl, rfl⟩

variable {a : α} {cs : List (Cell α κ)} {p : Nat}

lemma spells_cons_keep {b : β} : Spells f (b :: w) (keep a :: cs) ↔ f a = b ∧ Spells f w cs := by
  constructor
  · rintro ⟨_ | ⟨a', u⟩, rest, hcs, hu⟩
    · exact nomatch hu
    · simp only [map_cons, cons_append, cons.injEq, keep.injEq] at hcs hu
      obtain ⟨rfl, rfl⟩ := hcs
      exact ⟨hu.1, u, rest, rfl, hu.2⟩
  · rintro ⟨rfl, u, rest, rfl, rfl⟩
    exact ⟨a :: u, rest, rfl, rfl⟩

lemma not_spells_hole (hw : w ≠ []) {k : κ} {cut : List α} :
    ¬ Spells f w (hole k a cut :: cs) := by
  rintro ⟨_ | ⟨a, u⟩, rest, hcs, hu⟩
  · exact hw hu.symm
  · exact nomatch hcs

lemma not_kept_nil (hw : w ≠ []) (p : Nat) :
    ¬ Kept f w ([] : List (Cell α κ)) p := by
  rintro ⟨c₁, c₂, hcs, ⟨u, rest, rfl, rfl⟩, -⟩
  simp_all

lemma kept_keep_zero : Kept f w (keep a :: cs) 0 ↔ Spells f w (keep a :: cs) := by
  constructor
  · rintro ⟨_ | ⟨c, c₁⟩, c₂, hcs, hs, hlen⟩
    · exact hcs ▸ hs
    · cases hcs
      exact absurd hlen (by simp [source])
  · intro hs
    exact ⟨[], _, rfl, hs, rfl⟩

lemma kept_keep_succ : Kept f w (keep a :: cs) (p + 1) ↔ Kept f w cs p := by
  constructor
  · rintro ⟨_ | ⟨c, c₁⟩, c₂, hcs, hs, hlen⟩
    · exact absurd hlen (by simp [source])
    · cases hcs
      exact ⟨c₁, c₂, rfl, hs, by simpa [source] using hlen⟩
  · rintro ⟨c₁, c₂, rfl, hs, rfl⟩
    exact ⟨keep a :: c₁, c₂, rfl, hs, by simp [source]⟩

lemma kept_map_keep_append (u : List α) (cs : List (Cell α κ))
    (p : Nat) : Kept f w (u.map keep ++ cs) (u.length + p) ↔ Kept f w cs p := by
  induction u with
  | nil => simp
  | cons a u ih =>
    rw [length_cons, Nat.add_right_comm]
    exact kept_keep_succ.trans ih

lemma kept_hole (hw : w ≠ []) {k : κ} {cut : List α} :
    Kept f w (hole k a cut :: cs) p ↔ cut.length < p ∧ Kept f w cs (p - (cut.length + 1)) := by
  constructor
  · rintro ⟨_ | ⟨c, c₁⟩, c₂, hcs, hs, rfl⟩
    · rw [nil_append] at hcs
      exact absurd (hcs ▸ hs) (not_spells_hole hw)
    · cases hcs
      refine ⟨?_, c₁, c₂, rfl, hs, ?_⟩ <;> simp only [source, length_append, length_cons]
      all_goals omega
  · rintro ⟨hlt, c₁, c₂, rfl, hs, hlen⟩
    refine ⟨hole k a cut :: c₁, c₂, rfl, hs, ?_⟩
    simp only [source, length_append, length_cons]
    omega

def OccursAt (f : α → β) (w : List β) (t : List α) (p : Nat) : Prop := w <+: (t.drop p).map f

def Free (f : α → β) (w : List β) (s : List α) (M : Nat → Prop) (p : Nat) : Prop :=
  OccursAt f w s p ∧ ∀ i, p ≤ i → i < p + w.length → ¬ M i

lemma spells_iff : Spells f w cs ↔ Free f w (source cs) (Masked cs) 0 := by
  simp only [Free, OccursAt, drop_zero, Nat.zero_le, Nat.zero_add, forall_const]
  induction cs generalizing w with
  | nil =>
    cases w with
    | nil => simp [spells_nil]
    | cons b w => simp [Spells, source]
  | cons c cs ih =>
    cases w with
    | nil => simp [spells_nil]
    | cons b w =>
      cases c with
      | keep a =>
        rw [spells_cons_keep, ih]
        simp only [source, map_cons, cons_prefix_cons, length_cons]
        constructor
        · rintro ⟨rfl, hpre, hfree⟩
          refine ⟨⟨rfl, hpre⟩, ?_⟩
          rintro (_ | i) hi
          · exact id
          · exact hfree i (by omega)
        · rintro ⟨⟨rfl, hpre⟩, hfree⟩
          exact ⟨rfl, hpre, fun i hi => hfree (i + 1) (by omega)⟩
      | hole k a cut =>
        refine iff_of_false (not_spells_hole (by simp)) ?_
        rintro ⟨-, hfree⟩
        exact hfree 0 (by simp) (Or.inl (Nat.zero_le _))

lemma free_append (u s : List α) (M : Nat → Prop) (q : Nat) :
    Free f w (u ++ s) M (u.length + q) ↔ Free f w s (fun i => M (u.length + i)) q := by
  simp only [Free, OccursAt, drop_append, drop_eq_nil_of_le (Nat.le_add_right _ _),
    nil_append, Nat.add_sub_cancel_left]
  refine and_congr_right fun _ => ⟨fun h i hi hlt => ?_, fun h i hi hlt => ?_⟩
  · exact h (u.length + i) (by omega) (by omega)
  · obtain ⟨i, rfl⟩ : ∃ j, i = u.length + j := ⟨i - u.length, by omega⟩
    exact h i (by omega) (by omega)

lemma kept_iff (hw : w ≠ []) : Kept f w cs p ↔ Free f w (source cs) (Masked cs) p := by
  have hpos : 0 < w.length := length_pos_iff.mpr hw
  induction cs generalizing p with
  | nil =>
    refine iff_of_false (not_kept_nil hw p) ?_
    rintro ⟨hocc, -⟩
    exact hw (by simpa [OccursAt, source] using hocc)
  | cons c cs ih =>
    cases c with
    | keep a =>
      cases p with
      | zero => rw [kept_keep_zero, spells_iff]
      | succ p =>
        refine kept_keep_succ.trans (ih.trans ?_)
        rw [Nat.add_comm p 1]
        refine Iff.trans ?_ (free_append [a] (source cs) _ p).symm
        simp only [length_singleton, Nat.add_comm 1, Masked]
    | hole k a cut =>
      refine (kept_hole hw).trans ?_
      by_cases hlt : cut.length < p
      · obtain ⟨q, rfl⟩ : ∃ q, p = (a :: cut).length + q := ⟨p - (cut.length + 1), by simp; omega⟩
        refine Iff.trans ?_ (free_append (a :: cut) (source cs) _ q).symm
        simp only [masked_hole_add]
        refine (and_iff_right hlt).trans ?_
        rw [length_cons, Nat.add_sub_cancel_left]
        exact ih
      · -- the position lies in the hole
        refine iff_of_false (fun h => hlt h.1) ?_
        rintro ⟨-, hfree⟩
        exact hfree p le_rfl (by omega) (Or.inl (by omega))

end Kept

def Inert (f : α → β) (w : List β) (r : List α) : Prop :=
  (∀ j < r.length, ¬ w <+: (r.map f).drop j ∧ ¬ (r.map f).drop j <+: w) ∧
    ∀ j < w.length, 0 < j → ¬ w.drop j <+: r.map f ∧ ¬ r.map f <+: w.drop j

instance [DecidableEq β] (f : α → β) (w : List β) (r : List α) : Decidable (Inert f w r) :=
  inferInstanceAs (Decidable (_ ∧ _))

section Inert

variable {f : α → β} {w : List β} {r : κ → List α}

variable {u : List α}

lemma Inert.not_begins (h : Inert f w u) {j : Nat} (hj : j < u.length) (t : List β) :
    ¬ w <+: (u.map f).drop j ++ t := by
  intro hpre
  rcases prefix_or_prefix_of_prefix hpre (prefix_append _ t) with h' | h'
  · exact (h.1 j hj).1 h'
  · exact (h.1 j hj).2 h'

lemma Inert.not_reaches (h : Inert f w u) {j : Nat} (hj : 0 < j)
    (hlt : j < w.length) (t : List β) : ¬ w.drop j <+: u.map f ++ t := by
  intro hpre
  rcases prefix_or_prefix_of_prefix hpre (prefix_append _ t) with h' | h'
  · exact (h.2 j hlt hj).1 h'
  · exact (h.2 j hlt hj).2 h'

lemma Inert.of_map {f : α → α} {w : List α} (hw : w.map f = w) (h : Inert f w u) :
    Inert id w u := by
  have hdrop : ∀ j, (w.drop j).map f = w.drop j := fun j => by rw [map_drop, hw]
  simp only [Inert, map_id]
  refine ⟨fun j hj => ⟨fun hpre => (h.1 j hj).1 ?_, fun hpre => (h.1 j hj).2 ?_⟩,
    fun j hj hpos => ⟨fun hpre => (h.2 j hj hpos).1 ?_, fun hpre => (h.2 j hj hpos).2 ?_⟩⟩
  · simpa only [hw, map_drop] using hpre.map f
  · simpa only [hw, map_drop] using hpre.map f
  · simpa only [hdrop] using hpre.map f
  · simpa only [hdrop] using hpre.map f

lemma spells_drop_of_render (h : ∀ k, Inert f w (r k)) (cs : List (Cell α κ)) (j : Nat)
    (hj : 0 < j) (hpre : w.drop j <+: (render r cs).map f) : Spells f (w.drop j) cs := by
  induction cs generalizing j with
  | nil =>
    rw [prefix_nil.mp hpre]
    exact spells_nil _
  | cons c cs ih =>
    by_cases hlt : j < w.length
    · cases c with
      | keep a =>
        rw [drop_eq_getElem_cons hlt] at hpre ⊢
        rw [render, map_cons, cons_prefix_cons] at hpre
        exact spells_cons_keep.mpr ⟨hpre.1.symm, ih (j + 1) (by omega) hpre.2⟩
      | hole k a cut =>
        -- the word would run into the replacement
        rw [render, map_append] at hpre
        exact absurd hpre ((h k).not_reaches hj hlt _)
    · rw [drop_eq_nil_of_le (by omega)]
      exact spells_nil _

lemma spells_keep_iff (h : ∀ k, Inert f w (r k)) (a : α) (cs : List (Cell α κ)) :
    Spells f w (keep a :: cs) ↔ w <+: (render r (keep a :: cs)).map f := by
  constructor
  · rintro ⟨u, rest, hcs, rfl⟩
    rw [hcs, render_append, render_map_keep, map_append]
    exact prefix_append _ _
  · intro hpre
    cases w with
    | nil => exact spells_nil _
    | cons b w =>
      rw [render, map_cons, cons_prefix_cons] at hpre
      exact spells_cons_keep.mpr ⟨hpre.1.symm, spells_drop_of_render h cs 1 (by omega) hpre.2⟩

lemma occursAt_render_iff (hw : w ≠ []) (h : ∀ k, Inert f w (r k)) (cs : List (Cell α κ))
    (q : Nat) :
    OccursAt f w (render r cs) q ↔
      ∃ c₁ c₂, cs = c₁ ++ c₂ ∧ Spells f w c₂ ∧ (render r c₁).length = q := by
  constructor
  · intro hocc
    induction cs generalizing q with
    | nil => exact absurd (by simpa [OccursAt, render] using hocc) hw
    | cons c cs ih =>
      cases c with
      | keep a =>
        cases q with
        | zero => exact ⟨[], _, rfl, (spells_keep_iff h a cs).mpr hocc, rfl⟩
        | succ q =>
          obtain ⟨c₁, c₂, rfl, hs, rfl⟩ := ih q hocc
          exact ⟨keep a :: c₁, c₂, rfl, hs, rfl⟩
      | hole k a cut =>
        rw [OccursAt, render] at hocc
        -- no word begins inside the replacement
        by_cases hq : q < (r k).length
        · rw [drop_append_of_le_length hq.le, map_append, map_drop] at hocc
          exact absurd hocc ((h k).not_begins hq _)
        · obtain ⟨q, rfl⟩ : ∃ q', q = (r k).length + q' := ⟨q - (r k).length, by omega⟩
          rw [drop_length_add_append] at hocc
          obtain ⟨c₁, c₂, rfl, hs, rfl⟩ := ih q hocc
          exact ⟨hole k a cut :: c₁, c₂, rfl, hs, by simp [render]⟩
  · rintro ⟨c₁, c₂, rfl, ⟨u, rest, rfl, rfl⟩, rfl⟩
    rw [OccursAt, render_append, drop_left, render_append, render_map_keep, map_append]
    exact prefix_append _ _

end Inert

section Occurrences

variable {f : α → β}

lemma infix_iff_exists_occursAt {w : List β} {t : List α} :
    w <:+: t.map f ↔ ∃ p, OccursAt f w t p := by
  constructor
  · rintro ⟨u, v, h⟩
    refine ⟨u.length, ?_⟩
    rw [OccursAt, map_drop, ← h, append_assoc, drop_left]
    exact prefix_append _ _
  · rintro ⟨p, h⟩
    rw [OccursAt, map_drop] at h
    exact h.isInfix.trans (drop_suffix _ _).isInfix

lemma OccursAt.overlap {v w : List β} {t : List α} {p d : Nat} (hv : OccursAt f v t p)
    (hw : OccursAt f w t (p + d)) : v.drop d <+: w ∨ w <+: v.drop d := by
  have hv' : v.drop d <+: (t.drop (p + d)).map f := by
    simpa [map_drop, drop_drop] using hv.drop d
  exact prefix_or_prefix_of_prefix hv' hw

end Occurrences

section Spanned

variable {x : List α}

lemma spells_induction (f : α → β) {w : List β} (hw : w ≠ []) {P : List (Cell α κ) → Prop}
    (nil : P [])
    (hole : ∀ k a cut cs, P cs → P (hole k a cut :: cs))
    (skip : ∀ a cs, ¬ Spells f w (keep a :: cs) → P cs → P (keep a :: cs))
    (word : ∀ (u : List α) rest, u.map f = w → P rest → P (u.map keep ++ rest)) :
    ∀ cs, P cs := by
  intro cs
  -- a word is consumed as a whole, so the induction is on the length
  induction hn : cs.length using Nat.strong_induction_on generalizing cs with
  | _ n ih =>
    subst hn
    cases cs with
    | nil => exact nil
    | cons c cs =>
      cases c with
      | hole k a cut => exact hole k a cut cs (ih _ (by simp) _ rfl)
      | keep a =>
        by_cases hs : Spells f w (keep a :: cs)
        · obtain ⟨u, rest, hcs, hu⟩ := hs
          have hpos : 0 < u.length := by
            rw [← length_map f, hu]
            exact length_pos_iff.mpr hw
          have hlen := congrArg length hcs
          rw [hcs]
          refine word u rest hu (ih _ ?_ _ rfl)
          simp only [length_append, length_map] at hlen
          omega
        · exact skip a cs hs (ih _ (by simp) _ rfl)

def Spanned (x : List α) (cs : List (Cell α κ)) (i : Nat) : Prop :=
  ∃ p, Kept id x cs p ∧ p ≤ i ∧ i < p + x.length

variable {cs : List (Cell α κ)} {i : Nat}

lemma spanned_hole (hx : x ≠ []) {k : κ} {a : α} {cut : List α} :
    Spanned x (hole k a cut :: cs) i ↔
      cut.length < i ∧ Spanned x cs (i - (cut.length + 1)) := by
  constructor
  · rintro ⟨p, hk, hle, hlt⟩
    obtain ⟨hp, hk⟩ := (kept_hole hx).mp hk
    exact ⟨by omega, _, hk, by omega, by omega⟩
  · rintro ⟨hi, p, hk, hle, hlt⟩
    refine ⟨p + (cut.length + 1), (kept_hole hx).mpr ⟨by omega, ?_⟩, by omega, by omega⟩
    rwa [Nat.add_sub_cancel]

lemma spanned_keep {a : α} (hs : ¬ Spells id x (keep a :: cs)) :
    Spanned x (keep a :: cs) i ↔ 0 < i ∧ Spanned x cs (i - 1) := by
  constructor
  · rintro ⟨_ | p, hk, hle, hlt⟩
    · exact absurd (kept_keep_zero.mp hk) hs
    · exact ⟨by omega, p, kept_keep_succ.mp hk, by omega, by omega⟩
  · rintro ⟨hi, p, hk, hle, hlt⟩
    exact ⟨p + 1, kept_keep_succ.mpr hk, by omega, by omega⟩

lemma spanned_word (hself : ∀ j < x.length, 0 < j → ¬ x.drop j <+: x) (hx : x ≠ []) :
    Spanned x (x.map keep ++ cs) i ↔ i < x.length ∨ x.length ≤ i ∧ Spanned x cs (i - x.length) := by
  have hfst : Kept id x (x.map keep ++ cs) 0 := ⟨[], _, rfl, ⟨x, cs, rfl, map_id x⟩, rfl⟩
  constructor
  · rintro ⟨p, hk, hle, hlt⟩
    by_cases hp : p < x.length
    · refine Or.inl ?_
      rcases Nat.eq_zero_or_pos p with rfl | hpos
      · omega
      · -- two occurrences that overlap
        have h₀ := ((kept_iff hx).mp hfst).1
        have h₁ := ((kept_iff hx).mp hk).1
        rcases h₀.overlap (d := p) (by rwa [Nat.zero_add]) with h | h
        · exact absurd h (hself p hp hpos)
        · have := h.length_le
          rw [length_drop] at this
          omega
    · obtain ⟨q, rfl⟩ : ∃ q, p = x.length + q := ⟨p - x.length, by omega⟩
      exact Or.inr ⟨by omega, q, (kept_map_keep_append x cs q).mp hk, by omega, by omega⟩
  · rintro (h | ⟨h, q, hk, hle, hlt⟩)
    · exact ⟨0, hfst, by omega, by omega⟩
    · exact ⟨x.length + q, (kept_map_keep_append x cs q).mpr hk, by omega, by omega⟩

end Spanned

section ReplaceAll

variable [DecidableEq α]

def replaceAll (x rep : List α) : Nat → List α → List α
  | _, [] => []
  | 0, a :: t =>
    if x <+: a :: t then rep ++ replaceAll x rep (x.length - 1) t else a :: replaceAll x rep 0 t
  | n + 1, _ :: t => replaceAll x rep n t

variable {x : List α}

lemma replaceAll_skip (rep u t : List α) :
    replaceAll x rep u.length (u ++ t) = replaceAll x rep 0 t := by
  induction u with
  | nil => rfl
  | cons a u ih => exact ih

lemma replaceAll_word (hx : x ≠ []) (rep t : List α) :
    replaceAll x rep 0 (x ++ t) = rep ++ replaceAll x rep 0 t := by
  obtain ⟨a, y, rfl⟩ := exists_cons_of_ne_nil hx
  have hpre : a :: y <+: a :: (y ++ t) := prefix_append (a :: y) t
  rw [cons_append, replaceAll, if_pos hpre, length_cons, Nat.add_sub_cancel,
    replaceAll_skip]

lemma replaceAll_cons_of_not {a : α} {t : List α} (h : ¬ x <+: a :: t) (rep : List α) :
    replaceAll x rep 0 (a :: t) = a :: replaceAll x rep 0 t := by
  rw [replaceAll, if_neg h]

lemma replaceAll_append {u t : List α} (h : ∀ j < u.length, ¬ x <+: u.drop j ++ t)
    (rep : List α) : replaceAll x rep 0 (u ++ t) = u ++ replaceAll x rep 0 t := by
  induction u with
  | nil => rfl
  | cons a u ih =>
    have hfst : ¬ x <+: a :: (u ++ t) := h 0 (by simp)
    rw [cons_append, replaceAll_cons_of_not hfst,
      ih fun j hj => h (j + 1) (by simpa using hj), cons_append]

lemma exists_cells_replaceAll {r : κ → List α} (hx : x ≠ []) (hine : ∀ k, Inert id x (r k))
    (hself : ∀ j < x.length, 0 < j → ¬ x.drop j <+: x) (k : κ) (cs : List (Cell α κ)) :
    ∃ ds, source ds = source cs ∧ render r ds = replaceAll x (r k) 0 (render r cs) ∧
      ∀ i, Masked ds i ↔ Masked cs i ∨ Spanned x cs i := by
  induction cs using spells_induction id hx with
  | nil =>
    refine ⟨[], rfl, rfl, fun i => ?_⟩
    simp [Masked, Spanned, not_kept_nil hx]
  | hole k' a cut cs ih =>
    obtain ⟨ds, hsrc, hren, hmask⟩ := ih
    refine ⟨hole k' a cut :: ds, by simp only [source, hsrc], ?_, fun i => ?_⟩
    · -- the scan passes over the replacement
      rw [render, render, hren, replaceAll_append]
      intro j hj hpre
      exact (hine k').not_begins hj (render r cs) (by simpa using hpre)
    · simp only [Masked, hmask, spanned_hole hx]
      tauto
  | skip a cs hs ih =>
    obtain ⟨ds, hsrc, hren, hmask⟩ := ih
    refine ⟨keep a :: ds, by simp only [source, hsrc], ?_, fun i => ?_⟩
    · rw [render, render, hren, replaceAll_cons_of_not]
      intro hpre
      exact hs ((spells_keep_iff hine a cs).mpr (by simpa [render] using hpre))
    · rw [spanned_keep hs]
      cases i with
      | zero => simp [Masked]
      | succ i => simp [Masked, hmask]
  | word u rest hu ih =>
    obtain rfl : u = x := by simpa using hu
    obtain ⟨ds, hsrc, hren, hmask⟩ := ih
    obtain ⟨a, y, rfl⟩ := exists_cons_of_ne_nil hx
    refine ⟨hole k a y :: ds, ?_, ?_, fun i => ?_⟩
    · simp only [source, source_append, source_map_keep, hsrc]
    · rw [render, render_append, render_map_keep, replaceAll_word hx, hren]
    · rw [spanned_word hself hx, masked_append]
      simp only [Masked, hmask, source_map_keep, not_masked_map_keep, false_or, length_cons,
        Nat.lt_succ_iff, Nat.succ_le_iff]
      tauto

end ReplaceAll

def Redacts (r : κ → List α) (s t : List α) (M : Nat → Prop) : Prop :=
  ∃ cs, source cs = s ∧ render r cs = t ∧ ∀ i, M i ↔ Masked cs i

namespace Redacts

variable {r : κ → List α} {s t : List α} {M : Nat → Prop} {f : α → β} {w : List β}

lemma refl (r : κ → List α) (s : List α) : Redacts r s s fun _ => False :=
  ⟨s.map keep, source_map_keep s, render_map_keep r s, fun i => by simp⟩

lemma congr {N : Nat → Prop} (h : Redacts r s t M) (hMN : ∀ i, M i ↔ N i) : Redacts r s t N := by
  obtain ⟨cs, hsrc, hren, hM⟩ := h
  exact ⟨cs, hsrc, hren, fun i => (hMN i).symm.trans (hM i)⟩

lemma free_iff_kept {cs : List (Cell α κ)} (hw : w ≠ []) (hM : ∀ i, M i ↔ Masked cs i) (p : Nat) :
    Free f w (source cs) M p ↔ Kept f w cs p := by
  rw [kept_iff hw, funext fun i => propext (hM i)]

lemma infix_iff (h : Redacts r s t M) (hw : w ≠ []) (hine : ∀ k, Inert f w (r k)) :
    w <:+: t.map f ↔ ∃ p, Free f w s M p := by
  obtain ⟨cs, rfl, rfl, hM⟩ := h
  simp only [infix_iff_exists_occursAt, occursAt_render_iff hw hine, free_iff_kept hw hM]
  constructor
  · rintro ⟨q, c₁, c₂, hcs, hs, -⟩
    exact ⟨_, c₁, c₂, hcs, hs, rfl⟩
  · rintro ⟨p, c₁, c₂, hcs, hs, -⟩
    exact ⟨_, c₁, c₂, hcs, hs, rfl⟩

lemma render_length_lt (hw : w ≠ []) {c₁ c₂ d₁ d₂ : List (Cell α κ)}
    (hcs : c₁ ++ c₂ = d₁ ++ d₂) (hs : Spells f w d₂)
    (hlt : (source d₁).length < (source c₁).length) :
    (render r d₁).length < (render r c₁).length := by
  rcases append_eq_append_iff.mp hcs with ⟨e, rfl, -⟩ | ⟨e, rfl, rfl⟩
  · simp only [source_append, length_append] at hlt
    omega
  · cases e with
    | nil => simp at hlt
    | cons c e =>
      cases c with
      | keep a => simp [render]
      | hole k a cut => exact absurd hs (not_spells_hole hw)

lemma cutFirst (h : Redacts r s t M) (hw : w ≠ []) (hine : ∀ k, Inert f w (r k)) (k : κ)
    {q : Nat} (hq : IsLeast {q | OccursAt f w t q} q) :
    ∃ p, IsLeast {p | Free f w s M p} p ∧
      Redacts r s (t.take q ++ r k ++ t.drop (q + w.length))
        fun i => M i ∨ p ≤ i ∧ i < p + w.length := by
  obtain ⟨cs, rfl, rfl, hM⟩ := h
  obtain ⟨hq, hlea⟩ := hq
  obtain ⟨c₁, c₂, rfl, hs, rfl⟩ := (occursAt_render_iff hw hine cs q).mp hq
  have hkept : Kept f w (c₁ ++ c₂) (source c₁).length := ⟨c₁, c₂, rfl, hs, rfl⟩
  refine ⟨(source c₁).length, ⟨(free_iff_kept hw hM _).mpr hkept, ?_⟩, ?_⟩
  · intro p' hfree
    obtain ⟨d₁, d₂, hcs, hs', rfl⟩ := (free_iff_kept hw hM p').mp hfree
    by_contra hlt
    -- an earlier one would stand earlier in the rendered text, too
    have hren : (render r d₁).length < (render r c₁).length :=
      render_length_lt hw hcs hs' (Nat.lt_of_not_le hlt)
    have hocc := (occursAt_render_iff hw hine _ _).mpr ⟨d₁, d₂, hcs, hs', rfl⟩
    exact absurd (hlea hocc) (Nat.not_le.mpr hren)
  · obtain ⟨u, rest, rfl, rfl⟩ := hs
    obtain ⟨a, u, rfl⟩ := exists_cons_of_ne_nil (by simpa using hw : u ≠ [])
    refine ⟨c₁ ++ hole k a u :: rest, ?_, ?_, fun i => ?_⟩
    · simp [source]
    · simp [render, drop_append]
    · rw [masked_cut, ← hM, length_map]

lemma cutAll [DecidableEq α] (h : Redacts r s t M) {x : List α} (hx : x ≠ [])
    (hine : ∀ k, Inert id x (r k)) (hself : ∀ j < x.length, 0 < j → ¬ x.drop j <+: x) (k : κ) :
    Redacts r s (replaceAll x (r k) 0 t)
      fun i => M i ∨ ∃ p, Free id x s M p ∧ p ≤ i ∧ i < p + x.length := by
  obtain ⟨cs, rfl, rfl, hM⟩ := h
  obtain ⟨ds, hsrc, hren, hmask⟩ := exists_cells_replaceAll hx hine hself k cs
  refine ⟨ds, hsrc, hren, fun i => ?_⟩
  simp only [hmask, hM, Spanned, free_iff_kept hx hM]

end Redacts

end Aether.Redaction
