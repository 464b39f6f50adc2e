import Mathlib.Tactic.Common

/-!
# Computations that may panic

`Returns`: a computation after another one has to return only for the values that the first one
gives, and a round of a loop only if all rounds before it give a value.
-/

namespace Aether

open List

universe u w

abbrev Fallible (ε : Type u) := ExceptT ε Option

namespace Fallible

variable {ε ε' α β : Type u}

def Returns (x : Fallible ε α) : Prop := x.run.isSome = true

def Gives (x : Fallible ε α) (a : α) : Prop := x.run = some (.ok a)

variable {x : Fallible ε α} {f : α → Fallible ε β}

@[simp] lemma returns_pure (a : α) : Returns (pure a : Fallible ε α) := rfl

@[simp] lemma returns_throw (e : ε) : Returns (throw e : Fallible ε α) := rfl

variable {a : α} {g : ε → ε'}

@[simp] lemma gives_pure_iff {b : α} : Gives (pure a : Fallible ε α) b ↔ a = b := by
  constructor
  · intro h
    exact Except.ok.inj (Option.some.inj h)
  · rintro rfl
    rfl

@[simp] lemma not_gives_throw (e : ε) (a : α) : ¬ Gives (throw e : Fallible ε α) a := by
  intro h
  cases Option.some.inj h

@[simp] lemma returns_lift_iff {x : Option α} :
    Returns (liftM x : Fallible ε α) ↔ x.isSome = true := by
  cases x <;> exact Iff.rfl

@[simp] lemma gives_lift_iff {x : Option α} : Gives (liftM x : Fallible ε α) a ↔ x = some a := by
  cases x with
  | none => exact iff_of_false (fun h => by cases h) (by simp)
  | some b => exact gives_pure_iff.trans (Option.some_inj).symm

lemma run_bind_of_ok (h : Gives x a) : (x >>= f).run = (f a).run := by
  rw [ExceptT.run_bind, h]
  rfl

lemma run_bind_of_error {e : ε} (h : x.run = some (.error e)) :
    (x >>= f).run = some (.error e) := by
  rw [ExceptT.run_bind, h]
  rfl

lemma run_bind_of_none (h : x.run = none) : (x >>= f).run = none := by
  rw [ExceptT.run_bind, h]
  rfl

lemma run_cases (x : Fallible ε α) :
    x.run = none ∨ (∃ e, x.run = some (.error e)) ∨ ∃ a, Gives x a := by
  unfold Gives
  rcases x.run with _ | e | a
  · exact .inl rfl
  · exact .inr (.inl ⟨e, rfl⟩)
  · exact .inr (.inr ⟨a, rfl⟩)

lemma Gives.inj {b : α} (ha : Gives x a) (hb : Gives x b) : a = b :=
  Except.ok.inj (Option.some.inj (ha.symm.trans hb))

lemma returns_bind_iff : Returns (x >>= f) ↔ Returns x ∧ ∀ a, Gives x a → Returns (f a) := by
  unfold Returns
  rcases run_cases x with hx | ⟨e, hx⟩ | ⟨a, hx⟩
  · rw [run_bind_of_none hx, hx]
    simp
  · rw [run_bind_of_error hx, hx]
    refine iff_of_true rfl ⟨rfl, fun a ha => ?_⟩
    cases hx.symm.trans ha
  · rw [run_bind_of_ok hx]
    constructor
    · intro h
      refine ⟨by rw [hx]; rfl, fun b hb => ?_⟩
      rwa [← hx.inj hb]
    · intro h
      exact h.2 a hx

lemma gives_bind_iff {b : β} : Gives (x >>= f) b ↔ ∃ a, Gives x a ∧ Gives (f a) b := by
  constructor
  · intro h
    rcases run_cases x with hx | ⟨e, hx⟩ | ⟨a, hx⟩
    · cases h.symm.trans (run_bind_of_none hx)
    · cases h.symm.trans (run_bind_of_error hx)
    · exact ⟨a, hx, (run_bind_of_ok hx).symm.trans h⟩
  · rintro ⟨a, ha, hb⟩
    exact (run_bind_of_ok ha).trans hb

lemma returns_adapt_iff : Returns (x.adapt g) ↔ Returns x := by
  have hrun : (x.adapt g).run = x.run.map (Except.mapError g) := rfl
  unfold Returns
  rw [hrun, Option.isSome_map]

lemma gives_adapt_iff : Gives (x.adapt g) a ↔ Gives x a := by
  have hrun : (x.adapt g).run = x.run.map (Except.mapError g) := rfl
  unfold Gives
  rw [hrun]
  cases x.run with
  | none => simp
  | some r =>
    cases r with
    | error e => simp [Except.mapError]
    | ok b => simp [Except.mapError]

section Loops

variable {ι : Type w} {f : ι → Fallible ε β} {l : List ι}

def Reached (f : ι → Fallible ε β) (l : List ι) (a : ι) : Prop :=
  ∃ pre post, l = pre ++ a :: post ∧ ∀ b ∈ pre, ∃ c, Gives (f b) c

lemma reached_cons_iff {a b : ι} :
    Reached f (b :: l) a ↔ a = b ∨ (∃ c, Gives (f b) c) ∧ Reached f l a := by
  constructor
  · rintro ⟨pre, post, heq, hpre⟩
    cases pre with
    | nil =>
      left
      exact (cons.inj heq).1.symm
    | cons b' pre =>
      obtain ⟨rfl, htail⟩ := cons.inj heq
      exact .inr ⟨hpre b (mem_cons_self ..), pre, post, htail,
        fun c hc => hpre c (mem_cons_of_mem b hc)⟩
  · rintro (rfl | ⟨hb, pre, post, rfl, hpre⟩)
    · exact ⟨[], l, rfl, fun _ h => (not_mem_nil h).elim⟩
    · refine ⟨b :: pre, post, rfl, fun c hc => ?_⟩
      rcases mem_cons.mp hc with rfl | hc
      · exact hb
      · exact hpre c hc

lemma returns_mapM_iff : Returns (l.mapM f) ↔ ∀ a, Reached f l a → Returns (f a) := by
  induction l with
  | nil =>
    refine iff_of_true rfl ?_
    rintro a ⟨pre, post, heq, -⟩
    cases pre <;> cases heq
  | cons b l ih =>
    rw [mapM_cons, returns_bind_iff]
    simp only [returns_bind_iff, ih, returns_pure, implies_true, and_true, reached_cons_iff]
    constructor
    · rintro ⟨hb, hrest⟩ a (rfl | ⟨⟨c, hc⟩, ha⟩)
      · exact hb
      · exact hrest c hc a ha
    · intro h
      exact ⟨h b (.inl rfl), fun c hc a ha => h a (.inr ⟨⟨c, hc⟩, ha⟩)⟩

lemma reached_range_iff {f : ℕ → Fallible ε β} {n k : ℕ} :
    Reached f (List.range n) k ↔ k < n ∧ ∀ j < k, ∃ c, Gives (f j) c := by
  constructor
  · rintro ⟨pre, post, heq, hpre⟩
    have hget : (List.range n)[pre.length]? = some k := by
      rw [heq, List.getElem?_append_right (Nat.le_refl _), Nat.sub_self]
      rfl
    obtain ⟨hlt, hk⟩ := List.getElem?_eq_some_iff.mp hget
    rw [List.length_range] at hlt
    rw [List.getElem_range] at hk
    have htake : pre = List.range k := by
      have := congrArg (List.take pre.length) heq
      rw [List.take_left, List.take_range, Nat.min_eq_left (Nat.le_of_lt hlt), hk] at this
      exact this.symm
    exact ⟨hk ▸ hlt, fun j hj => hpre j (htake ▸ List.mem_range.mpr hj)⟩
  · rintro ⟨hk, hbef⟩
    refine ⟨List.range k, (List.range n).drop (k + 1), ?_,
      fun j hj => hbef j (List.mem_range.mp hj)⟩
    have hlen : k < (List.range n).length := by rwa [List.length_range]
    have hspl := List.take_append_drop k (List.range n)
    rw [List.take_range, Nat.min_eq_left (Nat.le_of_lt hk), List.drop_eq_getElem_cons hlen,
      List.getElem_range] at hspl
    exact hspl.symm

end Loops

end Fallible

lemma isSome_mapM_iff {ι : Type w} {β : Type u} {f : ι → Option β} {l : List ι} :
    (l.mapM f).isSome = true ↔ ∀ a ∈ l, (f a).isSome = true := by
  induction l with
  | nil => simp
  | cons a l ih =>
    rw [mapM_cons, forall_mem_cons, ← ih]
    cases f a with
    | none => simp
    | some b => cases l.mapM f <;> simp

end Aether
