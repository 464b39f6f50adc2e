import Mathlib.Data.Set.Lattice
import Mathlib.Tactic.Common

/-!
# Writing to cells of a list

`Painted S v data data'` says that `data'` is `data` with the cells in `S` set to `v`, and nothing
else.  Writes compose, and so do the rounds of a loop.
-/

namespace Aether

open List

universe u w

variable {α : Type u} {ι : Type w}

structure Painted (S : Set ℕ) (v : ℕ → α) (data data' : List α) : Prop where
  length_eq : data'.length = data.length
  inside : ∀ i ∈ S, data'[i]? = some (v i)
  outside : ∀ i ∉ S, data'[i]? = data[i]?

namespace Painted

variable {S T : Set ℕ} {v : ℕ → α} {data data' data'' : List α}

lemma refl (v : ℕ → α) (data : List α) : Painted ∅ v data data where
  length_eq := rfl
  inside _ hi := hi.elim
  outside _ _ := rfl

lemma union (h : Painted S v data data') (h' : Painted T v data' data'') :
    Painted (S ∪ T) v data data'' where
  length_eq := h'.length_eq.trans h.length_eq
  inside i hi := by
    by_cases hT : i ∈ T
    · exact h'.inside i hT
    · -- the second write leaves the cell as the first one set it
      rw [h'.outside i hT]
      exact h.inside i (hi.resolve_right hT)
  outside i hi := by
    rw [h'.outside i fun hT => hi (.inr hT), h.outside i fun hS => hi (.inl hS)]

end Painted

variable {v : ℕ → α} {data : List α}

lemma painted_splice {segment : List α} {lo : ℕ} (hlen : lo + segment.length ≤ data.length)
    (hseg : ∀ j < segment.length, segment[j]? = some (v (lo + j))) :
    Painted (Set.Ico lo (lo + segment.length)) v data
      (data.take lo ++ segment ++ data.drop (lo + segment.length)) := by
  have htake : (data.take lo).length = lo := by
    rw [length_take]
    omega
  constructor
  · simp only [length_append, length_take, length_drop]
    omega
  · rintro i ⟨hlo, hhi⟩
    obtain ⟨j, rfl⟩ := Nat.exists_eq_add_of_le hlo
    have hj : j < segment.length := by omega
    rw [append_assoc, getElem?_append_right (by omega), htake, Nat.add_sub_cancel_left,
      getElem?_append_left hj]
    exact hseg j hj
  · intro i hi
    rw [Set.mem_Ico, not_and_or, not_le, not_lt] at hi
    rcases hi with hlt | hle
    · rw [append_assoc, getElem?_append_left (by omega), getElem?_take_of_lt hlt]
    · have hlen' : (data.take lo ++ segment).length = lo + segment.length := by
        rw [length_append, htake]
      rw [getElem?_append_right (by omega), hlen', getElem?_drop,
        Nat.add_sub_cancel' hle]

variable {step : List α → ι → Option (List α)} {S : ι → Set ℕ} {is : List ι}

lemma painted_foldlM {data' : List α} (h : is.foldlM step data = some data')
    (hstep : ∀ i ∈ is, ∀ data data', step data i = some data' → Painted (S i) v data data') :
    Painted (⋃ i ∈ is, S i) v data data' := by
  induction is generalizing data with
  | nil =>
    obtain rfl : data = data' := Option.some.inj h
    have hemp : ⋃ i ∈ ([] : List ι), S i = ∅ := by simp
    rw [hemp]
    exact .refl v data
  | cons i is ih =>
    rw [foldlM_cons] at h
    obtain ⟨data₁, hfst, hrest⟩ := Option.bind_eq_some_iff.mp h
    have huni : ⋃ j ∈ i :: is, S j = S i ∪ ⋃ j ∈ is, S j := by simp
    rw [huni]
    exact (hstep i (mem_cons_self ..) _ _ hfst).union
      (ih hrest fun j hj => hstep j (mem_cons_of_mem i hj))

lemma exists_painted_foldlM {n : ℕ} (hdata : n ≤ data.length)
    (hstep : ∀ i ∈ is, ∀ data : List α, n ≤ data.length →
      ∃ data', step data i = some data' ∧ Painted (S i) v data data') :
    ∃ data', is.foldlM step data = some data' ∧ Painted (⋃ i ∈ is, S i) v data data' := by
  induction is generalizing data with
  | nil =>
    have hemp : ⋃ i ∈ ([] : List ι), S i = ∅ := by simp
    rw [hemp]
    exact ⟨data, rfl, .refl v data⟩
  | cons i is ih =>
    obtain ⟨data₁, hfst, hpai₁⟩ := hstep i (mem_cons_self ..) data hdata
    obtain ⟨data₂, hrest, hpai₂⟩ :=
      ih (hpai₁.length_eq.symm ▸ hdata) fun j hj => hstep j (mem_cons_of_mem i hj)
    have huni : ⋃ j ∈ i :: is, S j = S i ∪ ⋃ j ∈ is, S j := by simp
    rw [foldlM_cons, hfst, huni]
    exact ⟨data₂, hrest, hpai₁.union hpai₂⟩

end Aether
