import Mathlib.Data.Set.Finite.Basic
import Mathlib.Order.WellFounded

/-!
# Lists of items that name what they depend on

A list is `Ordered` if the keys are distinct and no item depends on itself or on a later one.
-/

namespace Aether.Dependency

open List

section AnyM

variable {α : Type*} {p : α → Option Bool} {l : List α}

lemma anyM_eq_some_false : l.anyM p = some false ↔ ∀ x ∈ l, p x = some false := by
  induction l with
  | nil => simp [anyM]
  | cons x l ih =>
    rw [forall_mem_cons, ← ih]
    rcases hx : p x with - | - | - <;> simp [anyM, hx]

lemma anyM_eq_some_any {q : α → Bool} (h : ∀ x ∈ l, p x = some (q x)) :
    l.anyM p = some (l.any q) := by
  induction l with
  | nil => rfl
  | cons x l ih =>
    obtain ⟨hx, hl⟩ := forall_mem_cons.mp h
    rw [any_cons]
    cases hq : q x with
    | true => simp [anyM, hx, hq]
    | false => simpa [anyM, hx, hq] using ih hl

end AnyM

variable {α κ : Type*} (key : α → κ) (deps : α → List κ)

def Depends (l : List α) (a b : κ) : Prop := ∃ t ∈ l, key t = a ∧ b ∈ deps t

structure Ordered (l : List α) : Prop where
  nodup : (l.map key).Nodup
  earlier : l.Pairwise fun t u => key u ∉ deps t
  irrefl : ∀ t ∈ l, key t ∉ deps t

variable {key deps} {l : List α}

lemma Ordered.nil : Ordered key deps [] := ⟨nodup_nil, .nil, by simp⟩

lemma Ordered.sublist (h : Ordered key deps l) {l' : List α} (hl : List.Sublist l' l) :
    Ordered key deps l' where
  nodup := h.nodup.sublist (hl.map key)
  earlier := h.earlier.sublist hl
  irrefl t ht := h.irrefl t (hl.subset ht)

variable {t : α} {b a : κ}

lemma Ordered.concat (h : Ordered key deps l) (hnew : key t ∉ l.map key)
    (hdeps : ∀ u ∈ l, key t ∉ deps u) (ht : key t ∉ deps t) : Ordered key deps (l ++ [t]) where
  nodup := by
    rw [map_append, map_cons, map_nil, ← concat_eq_append]
    exact h.nodup.concat hnew
  earlier := by
    rw [pairwise_append]
    refine ⟨h.earlier, pairwise_singleton _ _, ?_⟩
    intro u hu t' ht'
    obtain rfl := mem_singleton.mp ht'
    exact hdeps u hu
  irrefl u hu := by
    rcases mem_append.mp hu with hu | hu
    · exact h.irrefl u hu
    · obtain rfl := mem_singleton.mp hu
      exact ht

lemma Ordered.eq_of_key_eq (h : Ordered key deps l) {u : α} (ht : t ∈ l) (hu : u ∈ l)
    (heq : key t = key u) : t = u :=
  inj_on_of_nodup_map h.nodup ht hu heq

lemma Ordered.lt_of_mem_deps (h : Ordered key deps l) {i j : ℕ} (hi : i < l.length)
    (hj : j < l.length) (hdep : key l[j] ∈ deps l[i]) : j < i := by
  by_contra hlt
  rcases Nat.lt_or_ge i j with hij | hji
  · exact pairwise_iff_getElem.mp h.earlier i j hi hj hij hdep
  · obtain rfl : i = j := by omega
    exact h.irrefl _ (getElem_mem hi) hdep

/-- **Induction along an order**, with the number of items before the one at hand. -/
theorem Ordered.induction (h : Ordered key deps l) {motive : ℕ → α → Prop}
    (step : ∀ i (hi : i < l.length),
      (∀ j (hj : j < l.length), key l[j] ∈ deps l[i] → j < i ∧ motive j l[j]) → motive i l[i]) :
    ∀ i (hi : i < l.length), motive i l[i] := by
  intro i
  induction i using Nat.strongRecOn with
  | _ i ih =>
    intro hi
    apply step i hi
    intro j hj hdep
    have hlt := h.lt_of_mem_deps hi hj hdep
    exact ⟨hlt, ih j hlt hj⟩

/-- **Progress**: where all that items depend on is present, one that is not done depends only on
done ones. -/
theorem Ordered.exists_ready (h : Ordered key deps l) (done : κ → Prop)
    (hcl : ∀ t ∈ l, ∀ d ∈ deps t, ∃ u ∈ l, key u = d) (ht : t ∈ l) (hnot : ¬ done (key t)) :
    ∃ u ∈ l, ¬ done (key u) ∧ ∀ d ∈ deps u, done d := by
  by_contra hnone
  push Not at hnone
  obtain ⟨i, hi, rfl⟩ := getElem_of_mem ht
  refine hnot (h.induction (motive := fun _ u => done (key u)) ?_ i hi)
  intro i hi ih
  by_contra hi'
  obtain ⟨d, hd, hd'⟩ := hnone l[i] (getElem_mem hi) hi'
  obtain ⟨u, hu, rfl⟩ := hcl l[i] (getElem_mem hi) d hd
  obtain ⟨j, hj, rfl⟩ := getElem_of_mem hu
  exact hd' (ih j hj hd).2

lemma transGen_iff (h : Ordered key deps l) (ht : t ∈ l) :
    Relation.TransGen (Depends key deps l) (key t) b ↔
      ∃ d ∈ deps t, d = b ∨ Relation.TransGen (Depends key deps l) d b := by
  constructor
  · intro hpath
    obtain ⟨d, ⟨u, hu, hkey, hd⟩, hrest⟩ := Relation.TransGen.head'_iff.mp hpath
    obtain rfl := h.eq_of_key_eq hu ht hkey
    refine ⟨d, hd, ?_⟩
    rcases Relation.reflTransGen_iff_eq_or_transGen.mp hrest with heq | hrest
    · exact .inl heq.symm
    · exact .inr hrest
  · rintro ⟨d, hd, rfl | hpath⟩
    · exact .single ⟨t, ht, rfl, hd⟩
    · exact .head ⟨t, ht, rfl, hd⟩ hpath

lemma mem_of_transGen (h : Relation.TransGen (Depends key deps l) a b) : a ∈ l.map key := by
  obtain ⟨_, ⟨t, ht, rfl, _⟩, _⟩ := Relation.TransGen.head'_iff.mp h
  exact mem_map_of_mem ht

lemma Ordered.lt_of_transGen (h : Ordered key deps l) {i j : ℕ} (hi : i < l.length)
    (hj : j < l.length) (hpath : Relation.TransGen (Depends key deps l) (key l[i]) (key l[j])) :
    j < i := by
  -- along the path, from its last edge back to its first
  suffices hall : ∀ a, Relation.TransGen (Depends key deps l) a (key l[j]) →
      ∀ i (hi : i < l.length), key l[i] = a → j < i from hall _ hpath i hi rfl
  intro a hpath
  induction hpath using Relation.TransGen.head_induction_on with
  | single hedge =>
    rintro i hi rfl
    obtain ⟨t, ht, hkey, hdep⟩ := hedge
    obtain rfl := h.eq_of_key_eq ht (getElem_mem hi) hkey
    exact h.lt_of_mem_deps hi hj hdep
  | head hedge hrest ih =>
    rintro i hi rfl
    obtain ⟨t, ht, hkey, hdep⟩ := hedge
    obtain rfl := h.eq_of_key_eq ht (getElem_mem hi) hkey
    obtain ⟨u, hu, rfl⟩ := mem_map.mp (mem_of_transGen hrest)
    obtain ⟨k, hk, rfl⟩ := getElem_of_mem hu
    exact Nat.lt_trans (ih k hk rfl) (h.lt_of_mem_deps hi hk hdep)

lemma Ordered.acyclic (h : Ordered key deps l) (a : κ) :
    ¬ Relation.TransGen (Depends key deps l) a a := by
  intro hcyc
  obtain ⟨t, ht, rfl⟩ := mem_map.mp (mem_of_transGen hcyc)
  obtain ⟨i, hi, rfl⟩ := getElem_of_mem ht
  exact Nat.lt_irrefl i (h.lt_of_transGen hi hi hcyc)

lemma depends_concat_iff :
    Depends key deps (l ++ [t]) a b ↔ Depends key deps l a b ∨ (a = key t ∧ b ∈ deps t) := by
  constructor
  · rintro ⟨u, hu, rfl, hb⟩
    rcases mem_append.mp hu with hu | hu
    · exact .inl ⟨u, hu, rfl, hb⟩
    · obtain rfl := mem_singleton.mp hu
      exact .inr ⟨rfl, hb⟩
  · rintro (⟨u, hu, rfl, hb⟩ | ⟨rfl, hb⟩)
    · exact ⟨u, mem_append_left _ hu, rfl, hb⟩
    · exact ⟨t, mem_append_right _ (mem_singleton_self t), rfl, hb⟩

lemma transGen_concat (h : Relation.TransGen (Depends key deps (l ++ [t])) a b) :
    Relation.TransGen (Depends key deps l) a b ∨
      (Relation.ReflTransGen (Depends key deps l) a (key t) ∧
        ∃ d ∈ deps t, Relation.ReflTransGen (Depends key deps l) d b) := by
  induction h using Relation.TransGen.head_induction_on with
  | single hedge =>
    rcases depends_concat_iff.mp hedge with hedge | ⟨rfl, hdep⟩
    · exact .inl (.single hedge)
    · exact .inr ⟨.refl, _, hdep, .refl⟩
  | head hedge hrest ih =>
    rcases depends_concat_iff.mp hedge with hedge | ⟨rfl, hdep⟩
    · rcases ih with hpath | ⟨hto, hfrom⟩
      · exact .inl (.head hedge hpath)
      · exact .inr ⟨.head hedge hto, hfrom⟩
    · rcases ih with hpath | ⟨-, hfrom⟩
      · exact .inr ⟨.refl, _, hdep, hpath.to_reflTransGen⟩
      · exact .inr ⟨.refl, hfrom⟩

lemma Ordered.exists_cycle_concat_iff (h : Ordered key deps l) :
    (∃ a, Relation.TransGen (Depends key deps (l ++ [t])) a a) ↔
      ∃ d ∈ deps t, Relation.ReflTransGen (Depends key deps l) d (key t) := by
  constructor
  · rintro ⟨a, hcyc⟩
    rcases transGen_concat hcyc with hpath | ⟨hto, d, hd, hfrom⟩
    · exact absurd hpath (h.acyclic a)
    · exact ⟨d, hd, hfrom.trans hto⟩
  · rintro ⟨d, hd, hpath⟩
    have hle : Depends key deps l ≤ Depends key deps (l ++ [t]) :=
      fun _ _ hedge => depends_concat_iff.mpr (.inl hedge)
    have hlon := Relation.ReflTransGen.mono hle d (key t) hpath
    exact ⟨key t, .head' (depends_concat_iff.mpr (.inr ⟨rfl, hd⟩)) hlon⟩

end Aether.Dependency

/-!
## Kahn's topological sort

A dependency that is listed twice counts twice.  The scheduler keeps a counter of open entries per
vertex, a queue of vertices whose counter is zero, and the order so far; the vertices that a step
unlocks join the queue in any arrangement.
-/

namespace Aether.Kahn

open List

variable {V : Type*}

def Edge (deps : V → List V) (a b : V) : Prop := b ∈ deps a

def Acyclic (deps : V → List V) : Prop := ∀ v, ¬ Relation.TransGen (Edge deps) v v

def ReachesCycle (r : V → V → Prop) (v : V) : Prop :=
  ∃ c, Relation.ReflTransGen r v c ∧ Relation.TransGen r c c

def Topological (deps : V → List V) (l : List V) : Prop :=
  ∀ l₁ v l₂, l = l₁ ++ v :: l₂ → ∀ d ∈ deps v, d ∈ l₁

variable {nodes l : List V} {deps dependents : V → List V} {v : V}

lemma Topological.append {b : List V} (hl : Topological deps l)
    (hb : ∀ v ∈ b, ∀ d ∈ deps v, d ∈ l) : Topological deps (l ++ b) := by
  intro l₁ v l₂ heq d hd
  rcases append_eq_append_iff.mp heq with ⟨t, ht, hbt⟩ | ⟨t, ht, hvt⟩
  · -- `v` is one of the appended vertices
    rw [ht]
    exact mem_append_left _ (hb v (by rw [hbt]; simp) d hd)
  · cases t with
    | nil =>
      simp only [nil_append] at hvt
      simp only [append_nil] at ht
      rw [← ht]
      exact hb v (by rw [← hvt]; simp) d hd
    | cons t₀ t =>
      simp only [cons_append, cons.injEq] at hvt
      obtain ⟨rfl, rfl⟩ := hvt
      exact hl l₁ v t ht d hd

lemma length_le_of_nodup_of_subset (hl : l.Nodup) (hsub : l ⊆ nodes) : l.length ≤ nodes.length :=
  (subperm_of_subset hl hsub).length_le

lemma Topological.idxOf_lt [BEq V] [LawfulBEq V] (hl : Topological deps l) (hnd : l.Nodup)
    {d : V} (hv : v ∈ l) (hd : d ∈ deps v) : l.idxOf d < l.idxOf v := by
  obtain ⟨l₁, l₂, rfl⟩ := append_of_mem hv
  have hd₁ : d ∈ l₁ := hl l₁ v l₂ rfl d hd
  have hv₁ : v ∉ l₁ := fun h => disjoint_of_nodup_append hnd h mem_cons_self
  rw [idxOf_append_of_mem hd₁, idxOf_append_of_notMem hv₁, idxOf_cons_self]
  have := idxOf_lt_length_of_mem hd₁
  omega

lemma wellFounded_of_not_reachesCycle (nodes : List V) :
    WellFounded fun d v : {u // u ∈ nodes ∧ ¬ ReachesCycle (Edge deps) u} =>
      Edge deps v.1 d.1 := by
  set r := fun d v : {u // u ∈ nodes ∧ ¬ ReachesCycle (Edge deps) u} =>
    Relation.TransGen (Edge deps) v.1 d.1
  have hfin : Finite {u // u ∈ nodes ∧ ¬ ReachesCycle (Edge deps) u} :=
    ((finite_toSet nodes).subset fun _ hu => hu.1).to_subtype
  have htr : IsTrans _ r := ⟨fun _ _ _ hab hbc => Relation.TransGen.trans hbc hab⟩
  have hirr : Std.Irrefl r := ⟨fun v hv => v.2.2 ⟨v.1, .refl, hv⟩⟩
  have hwf : WellFounded r := Finite.wellFounded_of_trans_of_irrefl r
  exact Subrelation.wf (fun h => Relation.TransGen.single h) hwf

variable [DecidableEq V]

structure Wiring (nodes : List V) (deps dependents : V → List V) : Prop where
  nodup : nodes.Nodup
  mem_of_dep : ∀ v, ∀ d ∈ deps v, v ∈ nodes ∧ d ∈ nodes
  count_dependents : ∀ d v, (dependents d).count v = (deps v).count d

def release (f : V → ℕ) : List V → (V → ℕ) × List V
  | [] => (f, [])
  | c :: cs =>
    let f' := Function.update f c (f c - 1)
    let r := release f' cs
    (r.1, if f' c = 0 then c :: r.2 else r.2)

structure State (V : Type*) where
  indegree : V → ℕ
  queue : List V
  order : List V

inductive Step (dependents : V → List V) : State V → State V → Prop
  | list (f : V → ℕ) (v : V) (q o batch : List V)
      (hbatch : batch.Perm (release f (dependents v)).2) :
      Step dependents ⟨f, v :: q, o⟩ ⟨(release f (dependents v)).1, q ++ batch, o ++ [v]⟩

structure Initial (nodes : List V) (deps : V → List V) (s : State V) : Prop where
  indegree : ∀ v, s.indegree v = (deps v).length
  queue : s.queue.Perm (nodes.filter fun v => (deps v).length = 0)
  order : s.order = []

lemma release_spec (f : V → ℕ) (cs : List V) (h : ∀ v, cs.count v ≤ f v) :
    (∀ v, (release f cs).1 v = f v - cs.count v) ∧ (release f cs).2.Nodup ∧
      ∀ v, v ∈ (release f cs).2 ↔ v ∈ cs ∧ f v = cs.count v := by
  induction cs generalizing f with
  | nil => simp [release]
  | cons c cs ih =>
    have hc : (cs.count c) + 1 ≤ f c := by simpa using h c
    have h' : ∀ v, cs.count v ≤ Function.update f c (f c - 1) v := by
      intro v
      by_cases hv : v = c
      · subst hv; rw [Function.update_self]; omega
      · rw [Function.update_of_ne hv]
        simpa [count_cons_of_ne (Ne.symm hv)] using h v
    obtain ⟨hcnt, hnd, hmem⟩ := ih _ h'
    simp only [release, Function.update_self]
    refine ⟨fun v => ?_, ?_, fun v => ?_⟩
    · rw [hcnt]
      by_cases hv : v = c
      · subst hv; rw [Function.update_self, count_cons_self]; omega
      · rw [Function.update_of_ne hv, count_cons_of_ne (Ne.symm hv)]
    · split_ifs with h0
      · refine nodup_cons.mpr ⟨fun hcr => ?_, hnd⟩
        -- a second unlocking would need another occurrence of `c`, which the counter excludes
        have hcs := ((hmem c).mp hcr).1
        have := count_pos_iff.mpr hcs
        omega
      · exact hnd
    · by_cases hv : v = c
      · subst hv
        have hcv := count_cons_self (a := v) (l := cs)
        split_ifs with h0
        · simp only [mem_cons, true_or, true_and, true_iff]; omega
        · rw [hmem, Function.update_self]
          have hpos : v ∈ cs ↔ 0 < cs.count v := count_pos_iff.symm
          simp only [mem_cons, true_or, true_and, hpos]
          omega
      · have hne := count_cons_of_ne (Ne.symm hv) (l := cs)
        split_ifs with h0 <;> simp [hmem, hv, hne]

structure Inv (nodes : List V) (deps : V → List V) (s : State V) : Prop where
  indegree : ∀ v, s.indegree v = ((deps v).filter fun d => d ∉ s.order).length
  nodup : (s.order ++ s.queue).Nodup
  mem : ∀ v, v ∈ s.order ++ s.queue ↔ v ∈ nodes ∧ s.indegree v = 0
  topological : Topological deps (s.order ++ s.queue)

variable {o : List V} {s : State V} {f : V → ℕ}

lemma Initial.inv (hw : Wiring nodes deps dependents) (hs : Initial nodes deps s) :
    Inv nodes deps s := by
  obtain ⟨hind, hq, hord⟩ := hs
  refine ⟨fun v => ?_, ?_, fun v => ?_, ?_⟩
  · rw [hind, hord]; simp
  · rw [hord, nil_append, hq.nodup_iff]
    exact hw.nodup.filter _
  · rw [hord, nil_append, hq.mem_iff, hind]; simp
  · rw [hord, nil_append]
    intro l₁ v l₂ heq d hd
    have hv : v ∈ s.queue := by rw [heq]; simp
    have h0 := (mem_filter.mp (hq.mem_iff.mp hv)).2
    simp only [decide_eq_true_eq, length_eq_zero_iff] at h0
    rw [h0] at hd
    exact absurd hd (not_mem_nil)

lemma length_filter_not_mem_snoc (hv : v ∉ o) (l : List V) :
    (l.filter fun d => d ∉ o ++ [v]).length = (l.filter fun d => d ∉ o).length - l.count v := by
  induction l with
  | nil => simp
  | cons d l ih =>
    have hle : l.count v ≤ (l.filter fun d => d ∉ o).length := by
      rw [← count_filter (p := fun d => d ∉ o) (by simpa using hv)]
      exact count_le_length
    by_cases hdv : d = v
    · subst hdv
      rw [filter_cons_of_neg (by simp), filter_cons_of_pos (by simpa using hv), ih,
        count_cons_self, length_cons]
      omega
    · rw [count_cons_of_ne hdv]
      by_cases hdo : d ∈ o
      · rw [filter_cons_of_neg (by simp [hdo]), filter_cons_of_neg (by simp [hdo]), ih]
      · rw [filter_cons_of_pos (by simp [hdo, hdv]), filter_cons_of_pos (by simp [hdo]),
          length_cons, length_cons, ih]
        omega

lemma Inv.count_le (hw : Wiring nodes deps dependents) {q : List V}
    (hs : Inv nodes deps ⟨f, v :: q, o⟩) (u : V) : (dependents v).count u ≤ f u := by
  have hvo : v ∉ o := by
    have := disjoint_of_nodup_append hs.nodup
    exact fun h => this h mem_cons_self
  have hind : f u = ((deps u).filter fun d => d ∉ o).length := hs.indegree u
  rw [hw.count_dependents, hind, ← count_filter (p := fun d => d ∉ o) (by simpa using hvo)]
  exact count_le_length

lemma Inv.fresh (hw : Wiring nodes deps dependents) {q batch : List V}
    (hs : Inv nodes deps ⟨f, v :: q, o⟩) (hbat : batch.Perm (release f (dependents v)).2)
    (u : V) (hu : u ∈ batch) : 0 < f u ∧ u ∈ nodes := by
  have hunl := (release_spec f (dependents v) (hs.count_le hw)).2.2
  obtain ⟨hdep, hfu⟩ := (hunl u).mp (hbat.mem_iff.mp hu)
  have hpos := count_pos_iff.mpr hdep
  refine ⟨by omega, (hw.mem_of_dep u v ?_).1⟩
  rwa [← count_pos_iff, ← hw.count_dependents]

/-- **Step lemma**: one step keeps the invariant. -/
theorem Inv.step (hw : Wiring nodes deps dependents) {s' : State V} (hs : Inv nodes deps s)
    (hstep : Step dependents s s') : Inv nodes deps s' := by
  obtain ⟨f, v, q, o, batch, hbat⟩ := hstep
  have hle := hs.count_le hw
  obtain ⟨hf', hnd, hunl⟩ := release_spec f (dependents v) hle
  have hvo : v ∉ o := by
    have := disjoint_of_nodup_append hs.nodup
    exact fun h => this h mem_cons_self
  have hind : ∀ u, (release f (dependents v)).1 u =
      ((deps u).filter fun d => d ∉ o ++ [v]).length := by
    intro u
    have hold : f u = ((deps u).filter fun d => d ∉ o).length := hs.indegree u
    rw [hf', hw.count_dependents, length_filter_not_mem_snoc hvo, hold]
  have hseq : (o ++ [v]) ++ (q ++ batch) = (o ++ v :: q) ++ batch := by simp
  have hfr := hs.fresh hw hbat
  refine ⟨hind, ?_, fun u => ?_, ?_⟩
  · rw [hseq, nodup_append]
    refine ⟨hs.nodup, hbat.nodup_iff.mpr hnd, ?_⟩
    rintro a ha b hb rfl
    have h0 := ((hs.mem a).mp ha).2
    have := (hfr a hb).1
    simp only at h0
    omega
  · have hmem := hs.mem u
    have hleu := hle u
    simp only at hmem ⊢
    rw [hseq, mem_append, hmem, hbat.mem_iff, hunl u, hf' u]
    constructor
    · rintro (⟨hn, h0⟩ | ⟨hdep, hfu⟩)
      · exact ⟨hn, by omega⟩
      · refine ⟨(hfr u ?_).2, by omega⟩
        exact hbat.mem_iff.mpr ((hunl u).mpr ⟨hdep, hfu⟩)
    · rintro ⟨hn, h0⟩
      by_cases hzero : f u = 0
      · exact Or.inl ⟨hn, hzero⟩
      · refine Or.inr ⟨?_, by omega⟩
        rw [← count_pos_iff]
        omega
  · rw [hseq]
    refine hs.topological.append fun u hu d hd => ?_
    have h0 : (release f (dependents v)).1 u = 0 := by
      rw [hf' u, ((hunl u).mp (hbat.mem_iff.mp hu)).2, Nat.sub_self]
    rw [hind u, length_eq_zero_iff, filter_eq_nil_iff] at h0
    have hdo := h0 d hd
    simp only [decide_eq_true_eq, not_not, mem_append, mem_singleton] at hdo
    rcases hdo with hdo | rfl
    · exact mem_append_left _ hdo
    · exact mem_append_right _ mem_cons_self

lemma Inv.mem_order_of_deps (hs : Inv nodes deps ⟨f, [], o⟩) (hv : v ∈ nodes)
    (hdeps : ∀ d ∈ deps v, d ∈ o) : v ∈ o := by
  have h0 : f v = 0 := by
    have hind := hs.indegree v
    simp only at hind
    rw [hind, length_eq_zero_iff, filter_eq_nil_iff]
    intro d hd
    simpa using hdeps d hd
  simpa using (hs.mem v).mpr ⟨hv, h0⟩

lemma Topological.mem_of_transGen (hl : Topological deps l) (hnd : l.Nodup) {c : V}
    (hv : v ∈ l) (hpath : Relation.TransGen (Edge deps) v c) :
    c ∈ l ∧ l.idxOf c < l.idxOf v := by
  have hmem : ∀ {a b}, a ∈ l → Edge deps a b → b ∈ l := by
    intro a b ha hab
    obtain ⟨l₁, l₂, rfl⟩ := append_of_mem ha
    exact mem_append_left _ (hl l₁ a l₂ rfl b hab)
  induction hpath with
  | single hedge => exact ⟨hmem hv hedge, hl.idxOf_lt hnd hv hedge⟩
  | tail _ hedge ih =>
    exact ⟨hmem ih.1 hedge, (hl.idxOf_lt hnd ih.1 hedge).trans ih.2⟩

/-- **What the sort leaves over**: once the queue is empty, the vertices that are not in the order
are those from which a cycle is reached. -/
theorem Inv.notMem_order_iff (hw : Wiring nodes deps dependents)
    (hs : Inv nodes deps ⟨f, [], o⟩) (hv : v ∈ nodes) :
    v ∉ o ↔ ReachesCycle (Edge deps) v := by
  have htop : Topological deps o := by simpa using hs.topological
  have hnd : o.Nodup := by simpa using hs.nodup
  constructor
  · intro hvo
    by_contra hno
    have hall : ∀ u : {u // u ∈ nodes ∧ ¬ ReachesCycle (Edge deps) u}, u.1 ∈ o := by
      intro u
      induction u using (wellFounded_of_not_reachesCycle nodes).induction with
      | _ u ih =>
        refine hs.mem_order_of_deps u.2.1 fun d hd => ?_
        refine ih ⟨d, (hw.mem_of_dep u.1 d hd).2, ?_⟩ hd
        rintro ⟨c, hdc, hcc⟩
        exact u.2.2 ⟨c, hdc.head hd, hcc⟩
    exact hvo (hall ⟨v, hv, hno⟩)
  · rintro ⟨c, hvc, hcc⟩ hvo
    have hc : c ∈ o := by
      rcases Relation.reflTransGen_iff_eq_or_transGen.mp hvc with rfl | hvc
      · exact hvo
      · exact (htop.mem_of_transGen hnd hvo hvc).1
    exact lt_irrefl _ (htop.mem_of_transGen hnd hc hcc).2

/-- **Completeness and soundness of the schedule**: once the queue is empty, every vertex is in
the order iff the graph has no cycle. -/
theorem complete_iff_acyclic (hw : Wiring nodes deps dependents) (hs : Inv nodes deps ⟨f, [], o⟩) :
    o.length = nodes.length ↔ Acyclic deps := by
  have hsub : o ⊆ nodes := fun u hu => ((hs.mem u).mp (by simpa using hu)).1
  have hnd : o.Nodup := by simpa using hs.nodup
  constructor
  · intro hlen v hcyc
    have hperm : o.Perm nodes :=
      (subperm_of_subset hnd hsub).perm_of_length_le hlen.ge
    obtain ⟨d, hd, -⟩ := Relation.TransGen.head'_iff.mp hcyc
    have hv := (hw.mem_of_dep v d hd).1
    exact (hs.notMem_order_iff hw hv).mpr ⟨v, .refl, hcyc⟩ (hperm.mem_iff.mpr hv)
  · intro hac
    refine le_antisymm (length_le_of_nodup_of_subset hnd hsub) ?_
    refine length_le_of_nodup_of_subset hw.nodup fun v hv => ?_
    by_contra hvo
    obtain ⟨c, -, hcyc⟩ := (hs.notMem_order_iff hw hv).mp hvo
    exact hac c hcyc

def Arranged (deps : V → List V) (precedes : V → V → Prop) (l : List V) : Prop :=
  l.Pairwise fun u v => (∀ d, d ∈ deps u ↔ d ∈ deps v) → precedes u v

lemma Arranged.step {precedes : V → V → Prop} {q batch : List V}
    (hw : Wiring nodes deps dependents) (hs : Inv nodes deps ⟨f, v :: q, o⟩)
    (hl : Arranged deps precedes (o ++ v :: q))
    (hbat : batch.Perm (release f (dependents v)).2) (hsor : batch.Pairwise precedes) :
    Arranged deps precedes ((o ++ [v]) ++ (q ++ batch)) := by
  have hseq : (o ++ [v]) ++ (q ++ batch) = (o ++ v :: q) ++ batch := by simp
  rw [hseq]
  refine pairwise_append.mpr ⟨hl, ?_, ?_⟩
  · apply hsor.imp
    intro _ _ h _
    exact h
  intro a ha b hb hsame
  have hpos := (hs.fresh hw hbat b hb).1
  have hfa : f a = _ := hs.indegree a
  have hfb : f b = _ := hs.indegree b
  have ha0 : f a = 0 := ((hs.mem a).mp ha).2
  rw [hfb, length_pos_iff_exists_mem] at hpos
  obtain ⟨d, hd⟩ := hpos
  rw [mem_filter] at hd
  rw [hfa, length_eq_zero_iff, filter_eq_nil_iff] at ha0
  exact absurd hd.2 (ha0 d ((hsame d).mpr hd.1))

end Aether.Kahn
