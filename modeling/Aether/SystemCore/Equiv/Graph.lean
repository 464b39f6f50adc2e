import Aether.Algorithm.Dependency
import Aether.SystemCore.Graph
import Mathlib.Data.Prod.Lex
import Mathlib.Data.String.Basic

/-!
# Correctness of `DependencyGraph.new`

`DependencyGraph.new_spec`, from the passes of the implementation: the index of the manifests, the
dependency check, the in-degrees and dependents as those of the graph `depsOf map`, and the loop as
steps of the scheduler of `Algorithm/Dependency.lean`, whose invariant bounds the fuel.
-/

namespace Aether.SystemCore

open Aether.Core Kahn List DependencyGraph

/-- The manifest of `a` names `b` as a dependency. -/
def DependsOn (manifests : List ServiceManifest) (a b : String) : Prop :=
  ∃ m ∈ manifests, m.serviceId = a ∧ b ∈ m.dependencies

def Indexes (map : ManifestMap) (manifests : List ServiceManifest) : Prop :=
  ∀ id m, map[id]? = some m ↔ m ∈ manifests ∧ m.serviceId = id

def depsOf (map : ManifestMap) (id : String) : List String :=
  (map[id]?.map ServiceManifest.dependencies).getD []

def degreeFun (indegree : Std.TreeMap String Nat) (id : String) : ℕ := indegree.getD id 0

def dependentsFun (dependents : Std.TreeMap String (List String)) (id : String) : List String :=
  dependents.getD id []

lemma insertManifests_ok_iff (map : ManifestMap) (manifests : List ServiceManifest) :
    (∃ map', insertManifests map manifests = .ok map') ↔
      (manifests.map ServiceManifest.serviceId).Nodup ∧
        ∀ m ∈ manifests, m.serviceId ∉ map := by
  induction manifests generalizing map with
  | nil => simp [insertManifests]
  | cons m manifests ih =>
    unfold insertManifests
    by_cases hm : m.serviceId ∈ map
    · rw [if_pos (Std.TreeMap.contains_iff_mem.mpr hm)]
      simp [hm]
    · rw [if_neg (by simpa using hm), ih, map_cons, nodup_cons]
      simp only [Std.TreeMap.mem_insert, Std.LawfulEqCmp.compare_eq_iff_eq, not_or, mem_map,
        not_exists, not_and, mem_cons, forall_eq_or_imp]
      constructor
      · rintro ⟨hnd, hnew⟩
        exact ⟨⟨fun x hx => (hnew x hx).1 ∘ Eq.symm, hnd⟩, hm, fun x hx => (hnew x hx).2⟩
      · rintro ⟨⟨hne, hnd⟩, -, hnew⟩
        exact ⟨hnd, fun x hx => ⟨fun h => hne x hx h.symm, hnew x hx⟩⟩

variable {map : ManifestMap} {manifests : List ServiceManifest}

lemma insertManifests_getElem? {map' : ManifestMap}
    (h : insertManifests map manifests = .ok map') (id : String) (m : ServiceManifest) :
    map'[id]? = some m ↔ map[id]? = some m ∨ (m ∈ manifests ∧ m.serviceId = id) := by
  induction manifests generalizing map with
  | nil =>
    obtain rfl : map = map' := by simpa [insertManifests] using h
    simp
  | cons x manifests ih =>
    unfold insertManifests at h
    by_cases hx : x.serviceId ∈ map
    · rw [if_pos (Std.TreeMap.contains_iff_mem.mpr hx)] at h
      cases h
    · rw [if_neg (by simpa using hx)] at h
      rw [ih h, Std.TreeMap.getElem?_insert]
      by_cases hid : x.serviceId = id
      · -- `id` was free, so the new entry is the only one under it
        have hfree : map[id]? = none := by
          rw [← hid]; exact Std.TreeMap.getElem?_eq_none hx
        rw [if_pos (Std.LawfulEqCmp.compare_eq_iff_eq.mpr hid), hfree]
        constructor
        · rintro (heq | ⟨hm, hmid⟩)
          · cases heq
            exact Or.inr ⟨mem_cons_self, hid⟩
          · exact Or.inr ⟨mem_cons_of_mem _ hm, hmid⟩
        · rintro (heq | ⟨hm, hmid⟩)
          · cases heq
          · rcases mem_cons.mp hm with rfl | hm
            · exact Or.inl rfl
            · exact Or.inr ⟨hm, hmid⟩
      · rw [if_neg (fun hc => hid (Std.LawfulEqCmp.compare_eq_iff_eq.mp hc)), mem_cons]
        constructor
        · rintro (heq | ⟨hm, hmid⟩)
          · exact Or.inl heq
          · exact Or.inr ⟨Or.inr hm, hmid⟩
        · rintro (heq | ⟨rfl | hm, hmid⟩)
          · exact Or.inl heq
          · exact absurd hmid hid
          · exact Or.inr ⟨hm, hmid⟩

lemma indexes_of_insertManifests (h : insertManifests ∅ manifests = .ok map) :
    Indexes map manifests := by
  intro id m
  rw [insertManifests_getElem? h]
  simp

lemma Indexes.mem_iff (hi : Indexes map manifests) (id : String) :
    id ∈ map ↔ id ∈ manifests.map ServiceManifest.serviceId := by
  rw [← Std.TreeMap.isSome_getElem?_iff_mem, Option.isSome_iff_exists, mem_map]
  exact exists_congr fun m => hi id m

lemma Indexes.mem_vals (hi : Indexes map manifests) (m : ServiceManifest) :
    m ∈ map.vals ↔ m ∈ manifests := by
  unfold ManifestMap.vals
  simp only [mem_map, Prod.exists, exists_eq_right, Std.TreeMap.mem_toList_iff_getElem?_eq_some]
  constructor
  · rintro ⟨id, h⟩; exact ((hi id m).mp h).1
  · intro h; exact ⟨m.serviceId, (hi _ m).mpr ⟨h, rfl⟩⟩

lemma Indexes.serviceId_eq (hi : Indexes map manifests) {id : String} {m : ServiceManifest}
    (h : map[id]? = some m) : m.serviceId = id := ((hi id m).mp h).2

lemma Indexes.edge_iff (hi : Indexes map manifests) (a b : String) :
    Edge (depsOf map) a b ↔ DependsOn manifests a b := by
  unfold Edge depsOf DependsOn
  cases ha : map[a]? with
  | none =>
    simp only [Option.map_none, Option.getD_none, not_mem_nil, false_iff, not_exists, not_and]
    intro m hm hid _
    rw [(hi a m).mpr ⟨hm, hid⟩] at ha
    cases ha
  | some m =>
    simp only [Option.map_some, Option.getD_some]
    constructor
    · intro h
      exact ⟨m, ((hi a m).mp ha).1, ((hi a m).mp ha).2, h⟩
    · rintro ⟨m', hm', hid, hb⟩
      rw [(hi a m').mpr ⟨hm', hid⟩] at ha
      cases ha
      exact hb

lemma Indexes.edge_eq (hi : Indexes map manifests) : Edge (depsOf map) = DependsOn manifests := by
  funext a b
  exact propext (hi.edge_iff a b)

lemma firstMissing_eq_none_iff (map : ManifestMap) :
    firstMissing map = none ↔ ∀ m ∈ map.vals, ∀ d ∈ m.dependencies, d ∈ map := by
  unfold firstMissing
  rw [findSome?_eq_none_iff]
  refine forall₂_congr fun m _ => ?_
  rw [Option.map_eq_none_iff, find?_eq_none]
  simp

lemma getD_initialIndegree
    (hcl : ∀ m ∈ map.vals, ∀ d ∈ m.dependencies, d ∈ map) (id : String) :
    degreeFun (initialIndegree map) id = (depsOf map id).length := by
  have hpair : (map.toList.map fun (x : String × ServiceManifest) =>
      (x.1, (x.2.dependencies.filter fun d => map.contains d).length)).Pairwise
        fun a b => ¬ compare a.1 b.1 = .eq := by
    rw [pairwise_map]
    exact Std.TreeMap.distinct_keys_toList
  unfold degreeFun initialIndegree depsOf
  cases hid : map[id]? with
  | none =>
    rw [Std.TreeMap.getD_ofList_of_contains_eq_false]
    · simp
    · rw [← Bool.not_eq_true, contains_iff_mem, map_map]
      simp only [mem_map, Function.comp_apply, Prod.exists, not_exists, not_and,
        Std.TreeMap.mem_toList_iff_getElem?_eq_some]
      rintro a m ha rfl
      rw [ha] at hid
      cases hid
  | some m =>
    have hmem : (id, m) ∈ map.toList := Std.TreeMap.mem_toList_iff_getElem?_eq_some.mpr hid
    rw [Std.TreeMap.getD_ofList_of_mem (k := id) (by simp) hpair
      (mem_map.mpr ⟨(id, m), hmem, rfl⟩)]
    have hm : m ∈ map.vals := mem_map.mpr ⟨(id, m), hmem, rfl⟩
    simp only [Option.map_some, Option.getD_some]
    rw [filter_eq_self.mpr]
    intro d hd
    exact Std.TreeMap.contains_iff_mem.mpr (hcl m hm d hd)

lemma mem_initialIndegree (map : ManifestMap) (id : String) :
    id ∈ initialIndegree map ↔ id ∈ map := by
  unfold initialIndegree
  rw [Std.TreeMap.mem_ofList, map_map, contains_iff_mem]
  have hkeys : map.toList.map (Prod.fst ∘ fun (x : String × ServiceManifest) =>
      (x.1, (x.2.dependencies.filter fun d => map.contains d).length)) = map.keys := by
    rw [← Std.TreeMap.map_fst_toList_eq_keys]
    rfl
  exact hkeys ▸ Std.TreeMap.mem_keys

lemma getD_pushDependent (m : Std.TreeMap String (List String)) (dep id d : String) :
    (pushDependent m dep id).getD d [] =
      m.getD d [] ++ if dep = d then [id] else [] := by
  unfold pushDependent
  rw [Std.TreeMap.getD_insert]
  by_cases h : dep = d
  · subst h; simp
  · rw [if_neg (fun hc => h (Std.LawfulEqCmp.compare_eq_iff_eq.mp hc)), if_neg h, append_nil]

lemma getD_foldl_pushDependent (id d : String) (deps : List String)
    (m : Std.TreeMap String (List String)) :
    (deps.foldl (fun m dep => pushDependent m dep id) m).getD d [] =
      m.getD d [] ++ List.replicate (deps.count d) id := by
  induction deps generalizing m with
  | nil => simp
  | cons dep deps ih =>
    rw [foldl_cons, ih, getD_pushDependent, append_assoc]
    by_cases h : dep = d
    · subst h
      rw [if_pos rfl, count_cons_self, Nat.add_comm, replicate_add]
      rfl
    · rw [if_neg h, nil_append, count_cons_of_ne h]

lemma getD_foldl_dependents (d : String) (l : List ServiceManifest)
    (m : Std.TreeMap String (List String)) :
    (l.foldl (fun m manifest =>
        manifest.dependencies.foldl (fun m dep => pushDependent m dep manifest.serviceId) m)
      m).getD d [] =
      m.getD d [] ++ l.flatMap fun x => List.replicate (x.dependencies.count d) x.serviceId := by
  induction l generalizing m with
  | nil => simp
  | cons x l ih => rw [foldl_cons, ih, getD_foldl_pushDependent, flatMap_cons,
      append_assoc]

lemma count_flatMap_replicate (d id : String) (l : List ServiceManifest)
    (hl : (l.map ServiceManifest.serviceId).Nodup) :
    (l.flatMap fun x => List.replicate (x.dependencies.count d) x.serviceId).count id =
      ((l.find? fun x => x.serviceId = id).map fun x => x.dependencies.count d).getD 0 := by
  induction l with
  | nil => simp
  | cons x l ih =>
    rw [map_cons, nodup_cons] at hl
    rw [flatMap_cons, count_append, ih hl.2, count_replicate]
    by_cases hx : x.serviceId = id
    · rw [find?_cons_of_pos (by simpa using hx), if_pos (by simpa using hx)]
      have hnone : (l.find? fun x => x.serviceId = id) = none := by
        rw [find?_eq_none]
        intro y hy
        have hne : y.serviceId ≠ x.serviceId := fun h => hl.1 (h ▸ mem_map_of_mem hy)
        simpa [← hx] using hne
      rw [hnone]
      simp
    · rw [find?_cons_of_neg (by simpa using hx), if_neg (by simpa using hx), Nat.zero_add]

lemma Indexes.nodup_vals (hi : Indexes map manifests) :
    (map.vals.map ServiceManifest.serviceId).Nodup := by
  have hkeys : map.vals.map ServiceManifest.serviceId = map.keys := by
    unfold ManifestMap.vals
    rw [← Std.TreeMap.map_fst_toList_eq_keys, map_map]
    refine map_congr_left fun x hx => ?_
    exact hi.serviceId_eq (Std.TreeMap.mem_toList_iff_getElem?_eq_some.mp hx)
  rw [hkeys]
  exact Std.TreeMap.nodup_keys

lemma Indexes.count_dependentsOf (hi : Indexes map manifests) (d id : String) :
    (dependentsFun (dependentsOf map) d).count id = (depsOf map id).count d := by
  unfold dependentsFun dependentsOf
  rw [getD_foldl_dependents, Std.TreeMap.getD_emptyc, nil_append,
    count_flatMap_replicate d id _ hi.nodup_vals]
  unfold depsOf
  cases hid : map[id]? with
  | none =>
    have hnone : (map.vals.find? fun x => x.serviceId = id) = none := by
      rw [find?_eq_none]
      intro x hx
      rw [decide_eq_true_eq]
      rintro rfl
      rw [(hi _ x).mpr ⟨(hi.mem_vals x).mp hx, rfl⟩] at hid
      cases hid
    rw [hnone]
    simp
  | some m =>
    have hfind : (map.vals.find? fun x => x.serviceId = id) = some m := by
      cases hf : map.vals.find? fun x => x.serviceId = id with
      | none =>
        have hm := (hi.mem_vals m).mpr ((hi id m).mp hid).1
        have := find?_eq_none.mp hf m hm
        exact absurd (hi.serviceId_eq hid) (by simpa using this)
      | some x =>
        have hx : x ∈ manifests ∧ x.serviceId = id :=
          ⟨(hi.mem_vals x).mp (mem_of_find?_eq_some hf), by simpa using find?_some hf⟩
        rw [(hi id x).mpr hx] at hid
        exact hid
    rw [hfind]
    simp

lemma Indexes.wiring (hi : Indexes map manifests)
    (hcl : ∀ m ∈ map.vals, ∀ d ∈ m.dependencies, d ∈ map) :
    Wiring map.keys (depsOf map) (dependentsFun (dependentsOf map)) := by
  refine ⟨Std.TreeMap.nodup_keys, fun id d hd => ?_, hi.count_dependentsOf⟩
  unfold depsOf at hd
  cases hid : map[id]? with
  | none => rw [hid] at hd; simp at hd
  | some m =>
    rw [hid] at hd
    have hm := (hi.mem_vals m).mpr ((hi id m).mp hid).1
    refine ⟨Std.TreeMap.mem_keys.mpr ?_, Std.TreeMap.mem_keys.mpr (hcl m hm d (by simpa using hd))⟩
    rw [← Std.TreeMap.isSome_getElem?_iff_mem, hid]
    rfl

lemma sortByKey_perm (l : List ServiceManifest) : (sortByKey l).Perm l :=
  perm_insertionSort _ l

def sortKey (m : ServiceManifest) := toLex (m.startupPriority.toNat, m.serviceId)

def Precedes (map : ManifestMap) (a b : String) : Prop :=
  ∃ m m', map[a]? = some m ∧ map[b]? = some m' ∧ sortKey m ≤ sortKey m'

lemma sortByKey_pairwise (l : List ServiceManifest) :
    (sortByKey l).Pairwise fun a b => sortKey a ≤ sortKey b := by
  have hkey : ∀ a b, sortKey a ≤ sortKey b ↔ a.startupPriority < b.startupPriority ∨
      (a.startupPriority = b.startupPriority ∧ a.serviceId ≤ b.serviceId) := by
    intro a b
    rw [UInt32.lt_iff_toNat_lt, ← UInt32.toNat_inj]
    exact Prod.Lex.toLex_le_toLex
  have htot : Std.Total fun a b => sortKey a ≤ sortKey b := ⟨fun _ _ => le_total _ _⟩
  have htr : IsTrans _ fun a b => sortKey a ≤ sortKey b := ⟨fun _ _ _ => le_trans⟩
  simp only [hkey] at htot htr ⊢
  exact pairwise_insertionSort _ l

lemma pairwise_precedes {ms : List ServiceManifest}
    (hms : ∀ m ∈ ms, map[m.serviceId]? = some m) :
    ((sortByKey ms).map ServiceManifest.serviceId).Pairwise (Precedes map) := by
  rw [pairwise_map]
  apply (sortByKey_pairwise ms).imp_of_mem
  intro a b ha hb hkey
  rw [(sortByKey_perm ms).mem_iff] at ha hb
  exact ⟨a, b, hms a ha, hms b hb, hkey⟩

lemma Indexes.mapM_getElem? (hi : Indexes map manifests) (l : List (String × Nat))
    (hl : ∀ e ∈ l, e.1 ∈ map) :
    ∃ ready, (l.mapM fun e => map[e.1]?) = some ready ∧
      ready.map ServiceManifest.serviceId = l.map Prod.fst ∧
      ∀ m ∈ ready, map[m.serviceId]? = some m := by
  induction l with
  | nil => exact ⟨[], rfl, rfl, by simp⟩
  | cons e l ih =>
    obtain ⟨ready, hrdy, hids, hall⟩ := ih fun x hx => hl x (mem_cons_of_mem _ hx)
    obtain ⟨m, hm⟩ := Option.isSome_iff_exists.mp
      (Std.TreeMap.isSome_getElem?_iff_mem.mpr (hl e mem_cons_self))
    refine ⟨m :: ready, ?_, ?_, forall_mem_cons.mpr ⟨?_, hall⟩⟩
    · rw [mapM_cons, hm, hrdy]; rfl
    · rw [map_cons, map_cons, hids, hi.serviceId_eq hm]
    · rwa [hi.serviceId_eq hm]

lemma Indexes.initialQueue_eq (hi : Indexes map manifests)
    (hcl : ∀ m ∈ map.vals, ∀ d ∈ m.dependencies, d ∈ map) :
    ∃ queue, initialQueue map (initialIndegree map) = some queue ∧
      Initial map.keys (depsOf map) ⟨degreeFun (initialIndegree map), queue, []⟩ ∧
      queue.Pairwise (Precedes map) := by
  set ready := (initialIndegree map).toList.filter fun e => e.2 = 0 with hrdy
  have hkeys : ∀ e ∈ ready, e.1 ∈ map := by
    intro e he
    rw [hrdy, mem_filter, Std.TreeMap.mem_toList_iff_getElem?_eq_some] at he
    rw [← mem_initialIndegree, ← Std.TreeMap.isSome_getElem?_iff_mem, he.1]
    rfl
  obtain ⟨ms, hms, hids, hall⟩ := hi.mapM_getElem? ready hkeys
  refine ⟨(sortByKey ms).map ServiceManifest.serviceId, ?_, ?_, pairwise_precedes hall⟩
  · unfold initialQueue
    rw [← hrdy, hms]
    rfl
  · refine ⟨getD_initialIndegree hcl, ?_, rfl⟩
    refine ((sortByKey_perm ms).map _).trans ?_
    rw [hids]
    -- both sides are without repetitions and hold the services of in-degree zero
    have hnd : (ready.map Prod.fst).Nodup := by
      have hsub : (ready.map Prod.fst).Sublist (initialIndegree map).keys := by
        rw [← Std.TreeMap.map_fst_toList_eq_keys, hrdy]
        exact filter_sublist.map Prod.fst
      exact hsub.nodup Std.TreeMap.nodup_keys
    refine (perm_ext_iff_of_nodup hnd (Std.TreeMap.nodup_keys.filter _)).mpr fun id => ?_
    rw [mem_filter, Std.TreeMap.mem_keys, ← getD_initialIndegree hcl id, mem_map,
      decide_eq_true_eq]
    unfold degreeFun
    rw [Std.TreeMap.getD_eq_getD_getElem?]
    constructor
    · rintro ⟨e, he, rfl⟩
      refine ⟨hkeys e he, ?_⟩
      rw [hrdy, mem_filter, Std.TreeMap.mem_toList_iff_getElem?_eq_some] at he
      rw [he.1, Option.getD_some]
      simpa using he.2
    · rintro ⟨hmem, h0⟩
      rw [← mem_initialIndegree, ← Std.TreeMap.isSome_getElem?_iff_mem] at hmem
      obtain ⟨deg, hdeg⟩ := Option.isSome_iff_exists.mp hmem
      rw [hdeg, Option.getD_some] at h0
      subst h0
      refine ⟨(id, 0), ?_, rfl⟩
      rw [hrdy, mem_filter, Std.TreeMap.mem_toList_iff_getElem?_eq_some]
      exact ⟨hdeg, by simp⟩

lemma degreeFun_insert (indegree : Std.TreeMap String Nat) (id : String) (n : ℕ) :
    degreeFun (indegree.insert id n) = Function.update (degreeFun indegree) id n := by
  funext v
  unfold degreeFun
  rw [Std.TreeMap.getD_insert]
  by_cases h : v = id
  · subst h; simp
  · rw [if_neg (fun hc => h (Std.LawfulEqCmp.compare_eq_iff_eq.mp hc).symm),
      Function.update_of_ne h]

lemma Indexes.releaseChildren_eq (hi : Indexes map manifests) (id : String) :
    ∀ (children : List String) (indegree : Std.TreeMap String Nat)
      (unlocked : List ServiceManifest),
      (∀ v, v ∈ indegree ↔ v ∈ map) → (∀ c ∈ children, c ∈ map) →
      ∃ indegree' ms, releaseChildren map id children indegree unlocked
          = some (.ok (indegree', unlocked ++ ms)) ∧
        degreeFun indegree' = (release (degreeFun indegree) children).1 ∧
        ms.map ServiceManifest.serviceId = (release (degreeFun indegree) children).2 ∧
        (∀ v, v ∈ indegree' ↔ v ∈ map) ∧ ∀ m ∈ ms, map[m.serviceId]? = some m := by
  intro children
  induction children with
  | nil =>
    intro indegree unlocked hkeys _
    exact ⟨indegree, [], by simp [releaseChildren], rfl, rfl, hkeys, by simp⟩
  | cons c children ih =>
    intro indegree unlocked hkeys hsub
    have hc : c ∈ map := hsub c mem_cons_self
    obtain ⟨degree, hdegr⟩ := Option.isSome_iff_exists.mp
      (Std.TreeMap.isSome_getElem?_iff_mem.mpr ((hkeys c).mpr hc))
    obtain ⟨m, hm⟩ := Option.isSome_iff_exists.mp (Std.TreeMap.isSome_getElem?_iff_mem.mpr hc)
    have hdeg : degreeFun indegree c = degree := by
      unfold degreeFun
      rw [Std.TreeMap.getD_eq_getD_getElem?, hdegr, Option.getD_some]
    have hkeys' : ∀ v, v ∈ indegree.insert c (degree - 1) ↔ v ∈ map := by
      intro v
      rw [Std.TreeMap.mem_insert, Std.LawfulEqCmp.compare_eq_iff_eq, hkeys]
      exact ⟨fun h => h.elim (fun h => h ▸ hc) fun h => h, Or.inr⟩
    have hsub' : ∀ x ∈ children, x ∈ map := fun x hx => hsub x (mem_cons_of_mem _ hx)
    have hupd : degreeFun (indegree.insert c (degree - 1))
        = Function.update (degreeFun indegree) c (degreeFun indegree c - 1) := by
      rw [degreeFun_insert, hdeg]
    simp only [releaseChildren, hdegr, release, Function.update_self, hdeg]
    rw [hdeg] at hupd
    by_cases h0 : degree - 1 = 0
    · obtain ⟨indegree', ms, heq, hf, hids, hk, hall⟩ := ih _ (unlocked ++ [m]) hkeys' hsub'
      refine ⟨indegree', m :: ms, ?_, ?_, ?_, hk, forall_mem_cons.mpr ⟨?_, hall⟩⟩
      · rw [if_pos h0, hm]
        simpa [h0] using heq
      · rw [hf, hupd]
      · rw [map_cons, hids, hupd, if_pos h0, hi.serviceId_eq hm]
      · rwa [hi.serviceId_eq hm]
    · obtain ⟨indegree', ms, heq, hf, hids, hk, hall⟩ := ih _ unlocked hkeys' hsub'
      refine ⟨indegree', ms, ?_, ?_, ?_, hk, hall⟩
      · rw [if_neg h0, heq]
      · rw [hf, hupd]
      · rw [hids, hupd, if_neg h0]

lemma Indexes.kahnLoop_eq (hi : Indexes map manifests)
    (hw : Wiring map.keys (depsOf map) (dependentsFun (dependentsOf map))) :
    ∀ (fuel : ℕ) (indegree : Std.TreeMap String Nat) (queue order : List String),
      (∀ v, v ∈ indegree ↔ v ∈ map) →
      Inv map.keys (depsOf map) ⟨degreeFun indegree, queue, order⟩ →
      Arranged (depsOf map) (Precedes map) (order ++ queue) →
      map.keys.length < order.length + fuel →
      ∃ f order', kahnLoop map (dependentsOf map) fuel indegree queue order
          = some (.ok order') ∧ Inv map.keys (depsOf map) ⟨f, [], order'⟩ ∧
        Arranged (depsOf map) (Precedes map) order' := by
  intro fuel
  induction fuel with
  | zero =>
    intro indegree queue order _ hinv _ hfuel
    have hle := length_le_of_nodup_of_subset hinv.nodup fun u hu => ((hinv.mem u).mp hu).1
    simp only [length_append] at hle
    omega
  | succ fuel ih =>
    intro indegree queue order hkeys hinv harr hfuel
    cases queue with
    | nil => exact ⟨degreeFun indegree, order, rfl, hinv, by simpa using harr⟩
    | cons id queue =>
      rw [kahnLoop]
      have hlen : map.keys.length < (order ++ [id]).length + fuel := by
        rw [length_append, length_singleton]; omega
      cases hdep : (dependentsOf map)[id]? with
      | none =>
        -- no dependents: the batch is empty and the counters stay as they are
        have hnil : dependentsFun (dependentsOf map) id = [] := by
          unfold dependentsFun
          rw [Std.TreeMap.getD_eq_getD_getElem?, hdep, Option.getD_none]
        have hbat : List.Perm []
            (release (degreeFun indegree) (dependentsFun (dependentsOf map) id)).2 := by
          rw [hnil]; exact List.Perm.refl _
        have hstep := Step.list (degreeFun indegree) id queue order [] hbat
        have harr' := harr.step hw hinv hbat .nil
        rw [append_nil] at hstep harr'
        rw [hnil] at hstep
        exact ih indegree queue (order ++ [id]) hkeys (hinv.step hw hstep) harr' hlen
      | some children =>
        have hchi : dependentsFun (dependentsOf map) id = children := by
          unfold dependentsFun
          rw [Std.TreeMap.getD_eq_getD_getElem?, hdep, Option.getD_some]
        have hsub : ∀ c ∈ children, c ∈ map := by
          intro c hc
          have hpos : 0 < (depsOf map c).count id := by
            rw [← hw.count_dependents, hchi]
            exact count_pos_iff.mpr hc
          exact Std.TreeMap.mem_keys.mp (hw.mem_of_dep c id (count_pos_iff.mp hpos)).1
        obtain ⟨indegree', ms, heq, hf, hids, hk, hall⟩ :=
          hi.releaseChildren_eq id children indegree [] hkeys hsub
        have hbat : ((sortByKey ms).map ServiceManifest.serviceId).Perm
            (release (degreeFun indegree) (dependentsFun (dependentsOf map) id)).2 := by
          rw [hchi, ← hids]
          exact (sortByKey_perm ms).map _
        have hstep := Step.list (degreeFun indegree) id queue order _ hbat
        have harr' := harr.step hw hinv hbat (pairwise_precedes hall)
        rw [hchi, ← hf] at hstep
        simp only [heq, nil_append]
        exact ih indegree' _ (order ++ [id]) hk (hinv.step hw hstep) harr' hlen

lemma kahnLoop_add_fuel (map : ManifestMap) (dependents : Std.TreeMap String (List String))
    (k : ℕ) : ∀ (fuel : ℕ) (indegree : Std.TreeMap String Nat) (queue order : List String)
      (r : Except GraphError (List String)),
      kahnLoop map dependents fuel indegree queue order = some r →
      kahnLoop map dependents (fuel + k) indegree queue order = some r := by
  intro fuel
  induction fuel with
  | zero => intro indegree queue order r h; cases h
  | succ fuel ih =>
    intro indegree queue order r h
    rw [Nat.add_right_comm]
    cases queue with
    | nil => exact h
    | cons id queue =>
      simp only [kahnLoop] at h ⊢
      cases hdep : dependents[id]? with
      | none =>
        simp only [hdep] at h
        exact ih _ _ _ _ h
      | some children =>
        simp only [hdep] at h ⊢
        cases hrel : releaseChildren map id children indegree [] with
        | none => rw [hrel] at h; cases h
        | some res =>
          rw [hrel] at h
          cases res with
          | error e => exact h
          | ok p => exact ih _ _ _ _ h

variable {fuel : ℕ} {g : DependencyGraph}

lemma perm_keys_of_inv {f : String → ℕ} {order : List String}
    (hinv : Inv map.keys (depsOf map) ⟨f, [], order⟩) (hlen : order.length = map.keys.length) :
    order.Perm map.keys := by
  have hnd : order.Nodup := by simpa using hinv.nodup
  have hsub : order ⊆ map.keys := fun u hu => ((hinv.mem u).mp (by simpa using hu)).1
  exact (subperm_of_subset hnd hsub).perm_of_length_le hlen.ge

lemma Indexes.new_eq (hi : Indexes map manifests) (hins : insertManifests ∅ manifests = .ok map)
    (hmiss : firstMissing map = none) :
    ∃ f order, Inv map.keys (depsOf map) ⟨f, [], order⟩ ∧
      Arranged (depsOf map) (Precedes map) order ∧
      ∀ fuel, map.keys.length < fuel → DependencyGraph.new fuel manifests =
        if order.length ≠ map.keys.length then
          some (.error (.circularDependency (remaining map order)))
        else some (.ok ⟨map, order⟩) := by
  have hcl := (firstMissing_eq_none_iff map).mp hmiss
  have hw := hi.wiring hcl
  obtain ⟨queue, hq, hinit, hsor⟩ := hi.initialQueue_eq hcl
  have harr : Arranged (depsOf map) (Precedes map) ([] ++ queue) := by
    apply hsor.imp
    intro _ _ h _
    exact h
  obtain ⟨f, order, hloop, hinv, harr⟩ := hi.kahnLoop_eq hw (map.keys.length + 1)
    (initialIndegree map) queue [] (mem_initialIndegree map) (hinit.inv hw) harr (by simp)
  refine ⟨f, order, hinv, harr, fun fuel hfuel => ?_⟩
  obtain ⟨k, hk⟩ := Nat.exists_eq_add_of_le hfuel
  have hmore := kahnLoop_add_fuel map _ k _ _ _ _ _ hloop
  rw [← Nat.succ_eq_add_one, ← hk] at hmore
  unfold new
  simp only [hins, hmiss, hq, hmore, Option.bind_eq_bind, Option.bind_some,
    Std.TreeMap.length_keys]

/-- **Correctness of `new`**: the call returns once the fuel exceeds the number of manifests;
it succeeds exactly on distinct ids with existing, acyclic dependencies, and then the start order
is a permutation of the ids with every service after its dependencies. -/
theorem DependencyGraph.new_spec (manifests : List ServiceManifest) :
    ∃ r, (∀ fuel, manifests.length < fuel → DependencyGraph.new fuel manifests = some r) ∧
      ((∃ g, r = .ok g) ↔
        (manifests.map ServiceManifest.serviceId).Nodup ∧
        (∀ m ∈ manifests, ∀ d ∈ m.dependencies,
          d ∈ manifests.map ServiceManifest.serviceId) ∧
        ∀ id, ¬ Relation.TransGen (DependsOn manifests) id id) ∧
      ∀ g, r = .ok g →
        g.startOrder.Perm (manifests.map ServiceManifest.serviceId) ∧
        (∀ m ∈ manifests, ∀ d ∈ m.dependencies,
          g.startOrder.idxOf d < g.startOrder.idxOf m.serviceId) ∧
        g.stopOrder = g.startOrder.reverse := by
  cases hins : insertManifests ∅ manifests with
  | error e =>
    refine ⟨.error e, fun fuel _ => by simp [new, hins], ?_, by simp⟩
    have hdup : ¬ (manifests.map ServiceManifest.serviceId).Nodup := by
      intro hnd
      obtain ⟨map, hmap⟩ := (insertManifests_ok_iff ∅ manifests).mpr ⟨hnd, by simp⟩
      rw [hins] at hmap
      cases hmap
    simp only [reduceCtorEq, exists_false, false_iff]
    exact fun h => hdup h.1
  | ok map =>
    have hi := indexes_of_insertManifests hins
    have hnd := ((insertManifests_ok_iff ∅ manifests).mp ⟨map, hins⟩).1
    have hkeys : map.keys.Perm (manifests.map ServiceManifest.serviceId) := by
      refine (perm_ext_iff_of_nodup Std.TreeMap.nodup_keys hnd).mpr fun id => ?_
      rw [Std.TreeMap.mem_keys, hi.mem_iff]
    have hlen : map.keys.length = manifests.length := by rw [hkeys.length_eq, length_map]
    have hclosed_iff : (∀ m ∈ map.vals, ∀ d ∈ m.dependencies, d ∈ map) ↔
        ∀ m ∈ manifests, ∀ d ∈ m.dependencies, d ∈ manifests.map ServiceManifest.serviceId := by
      simp only [hi.mem_vals, hi.mem_iff]
    cases hmiss : firstMissing map with
    | some e =>
      refine ⟨.error e, fun fuel _ => by simp [new, hins, hmiss], ?_, by simp⟩
      simp only [reduceCtorEq, exists_false, false_iff]
      rintro ⟨-, hcl, -⟩
      rw [← hclosed_iff, ← firstMissing_eq_none_iff, hmiss] at hcl
      cases hcl
    | none =>
      have hcl := (firstMissing_eq_none_iff map).mp hmiss
      have hw := hi.wiring hcl
      obtain ⟨f, order, hinv, -, hnew⟩ := hi.new_eq hins hmiss
      have hiff := complete_iff_acyclic hw hinv
      unfold Acyclic at hiff
      rw [hi.edge_eq] at hiff
      rw [hlen] at hnew hiff
      by_cases hcom : order.length = manifests.length
      · simp only [hcom, ne_eq, not_true_eq_false, if_false] at hnew
        refine ⟨.ok ⟨map, order⟩, hnew, ?_, ?_⟩
        · simp only [Except.ok.injEq, exists_eq', true_iff]
          exact ⟨hnd, hclosed_iff.mp hcl, hiff.mp hcom⟩
        · intro g hg
          obtain rfl := (Except.ok.inj hg).symm
          have hnod : order.Nodup := by simpa using hinv.nodup
          have hperm : order.Perm map.keys := perm_keys_of_inv hinv (hcom.trans hlen.symm)
          have htop : Topological (depsOf map) order := by simpa using hinv.topological
          refine ⟨hperm.trans hkeys, fun m hm d hd => ?_, rfl⟩
          have hedge' : d ∈ depsOf map m.serviceId := (hi.edge_iff _ _).mpr ⟨m, hm, rfl, hd⟩
          exact htop.idxOf_lt hnod (hperm.mem_iff.mpr (hw.mem_of_dep _ _ hedge').1) hedge'
      · simp only [ne_eq, hcom, not_false_eq_true, if_true] at hnew
        refine ⟨_, hnew, ?_, by simp⟩
        simp only [reduceCtorEq, exists_false, false_iff]
        exact fun h => hcom (hiff.mpr h.2.2)

lemma DependencyGraph.new_add_fuel {r : Except GraphError DependencyGraph}
    (h : DependencyGraph.new fuel manifests = some r) (k : ℕ) :
    DependencyGraph.new (fuel + k) manifests = some r := by
  unfold new at h ⊢
  cases hins : insertManifests ∅ manifests with
  | error e => simpa [hins] using h
  | ok map =>
    cases hmiss : firstMissing map with
    | some e => simpa [hins, hmiss] using h
    | none =>
      simp only [hins, hmiss, Option.bind_eq_bind, Option.bind_eq_some_iff] at h ⊢
      obtain ⟨queue, hq, result, hloop, h⟩ := h
      exact ⟨queue, hq, result, kahnLoop_add_fuel map _ k _ _ _ _ _ hloop, h⟩

lemma insertManifests_error {e : GraphError} (h : insertManifests map manifests = .error e) :
    ∃ id, e = .duplicateServiceId id := by
  induction manifests generalizing map with
  | nil => cases h
  | cons m manifests ih =>
    rw [insertManifests] at h
    split_ifs at h
    · cases h
      exact ⟨_, rfl⟩
    · exact ih h

lemma firstMissing_error {e : GraphError} (h : firstMissing map = some e) :
    ∃ service dependency, e = .missingDependency service dependency := by
  obtain ⟨m, -, hm⟩ := exists_of_findSome?_eq_some h
  obtain ⟨d, -, rfl⟩ := Option.map_eq_some_iff.mp hm
  exact ⟨_, d, rfl⟩

lemma DependencyGraph.exists_of_new_eq {r : Except GraphError DependencyGraph}
    (h : DependencyGraph.new fuel manifests = some r)
    (hdup : ∀ id, r ≠ .error (.duplicateServiceId id))
    (hmis : ∀ id d, r ≠ .error (.missingDependency id d)) :
    ∃ map f order, Indexes map manifests ∧
      Wiring map.keys (depsOf map) (dependentsFun (dependentsOf map)) ∧
      Inv map.keys (depsOf map) ⟨f, [], order⟩ ∧ Arranged (depsOf map) (Precedes map) order ∧
      r = if order.length ≠ map.keys.length then .error (.circularDependency (remaining map order))
        else .ok ⟨map, order⟩ := by
  cases hins : insertManifests ∅ manifests with
  | error e =>
    obtain ⟨id, rfl⟩ := insertManifests_error hins
    rw [new, hins] at h
    exact absurd (Option.some.inj h).symm (hdup id)
  | ok map =>
    cases hmiss : firstMissing map with
    | some e =>
      obtain ⟨id, d, rfl⟩ := firstMissing_error hmiss
      simp only [new, hins, hmiss] at h
      exact absurd (Option.some.inj h).symm (hmis id d)
    | none =>
      have hi := indexes_of_insertManifests hins
      have hw := hi.wiring ((firstMissing_eq_none_iff map).mp hmiss)
      obtain ⟨f, order, hinv, harr, hnew⟩ := hi.new_eq hins hmiss
      -- with more fuel the call returns the same
      have hmore := new_add_fuel h (map.keys.length + 1)
      rw [hnew _ (by omega), ← apply_ite some] at hmore
      exact ⟨map, f, order, hi, hw, hinv, harr, (Option.some.inj hmore).symm⟩

lemma DependencyGraph.exists_of_new_eq_ok
    (h : DependencyGraph.new fuel manifests = some (.ok g)) :
    Indexes g.manifests manifests ∧
      Wiring g.manifests.keys (depsOf g.manifests)
        (dependentsFun (dependentsOf g.manifests)) ∧
      (∃ f, Inv g.manifests.keys (depsOf g.manifests) ⟨f, [], g.startOrder⟩) ∧
      Arranged (depsOf g.manifests) (Precedes g.manifests) g.startOrder ∧
      g.startOrder.length = g.manifests.keys.length := by
  obtain ⟨map, f, order, hi, hw, hinv, harr, hr⟩ := exists_of_new_eq h (by simp) (by simp)
  split_ifs at hr with hlen
  obtain rfl := Except.ok.inj hr
  exact ⟨hi, hw, ⟨f, hinv⟩, harr, not_not.mp hlen⟩

lemma DependencyGraph.startOrder_perm_keys
    (h : DependencyGraph.new fuel manifests = some (.ok g)) :
    g.startOrder.Perm g.manifests.keys := by
  obtain ⟨-, -, ⟨f, hinv⟩, -, hlen⟩ := exists_of_new_eq_ok h
  exact perm_keys_of_inv hinv hlen

lemma DependencyGraph.of_new_eq_ok (h : DependencyGraph.new fuel manifests = some (.ok g)) :
    Indexes g.manifests manifests ∧ ∀ id, ¬ Relation.TransGen (DependsOn manifests) id id := by
  obtain ⟨hi, hw, ⟨f, hinv⟩, -, hlen⟩ := exists_of_new_eq_ok h
  rw [← hi.edge_eq]
  exact ⟨hi, (complete_iff_acyclic hw hinv).mp hlen⟩

/-- **What a circular-dependency error lists**: in increasing order, the services that lie on a
cycle or depend, directly or through others, on one that does. -/
theorem DependencyGraph.circularDependency_spec {cycle : List String}
    (h : DependencyGraph.new fuel manifests = some (.error (.circularDependency cycle))) :
    cycle.Pairwise (· < ·) ∧
      ∀ id, id ∈ cycle ↔ ∃ c, Relation.ReflTransGen (DependsOn manifests) id c ∧
        Relation.TransGen (DependsOn manifests) c c := by
  obtain ⟨map, f, order, hi, hw, hinv, -, hr⟩ := exists_of_new_eq h (by simp) (by simp)
  split_ifs at hr
  obtain rfl := GraphError.circularDependency.inj (Except.error.inj hr)
  have hperm : (remaining map order).Perm (map.keys.filter fun id => id ∉ order) :=
    perm_insertionSort _ _
  constructor
  · have hnd : (remaining map order).Nodup :=
      hperm.nodup_iff.mpr (Std.TreeMap.nodup_keys.filter _)
    have hsor : (remaining map order).Pairwise (· ≤ ·) := pairwise_insertionSort _ _
    exact hsor.imp₂ (fun _ _ => lt_of_le_of_ne) hnd
  · intro id
    rw [hperm.mem_iff, mem_filter, decide_eq_true_eq, ← hi.edge_eq]
    constructor
    · rintro ⟨hid, hnot⟩
      exact (hinv.notMem_order_iff hw hid).mp hnot
    · intro hcyc
      have hid : id ∈ map.keys := by
        obtain ⟨c, hto, hcc⟩ := hcyc
        obtain ⟨d, hd, -⟩ := Relation.TransGen.head'_iff.mp (Relation.TransGen.trans_right hto hcc)
        exact (hw.mem_of_dep id d hd).1
      exact ⟨hid, (hinv.notMem_order_iff hw hid).mpr hcyc⟩

def service (id : String) (dependencies : List String) : ServiceManifest :=
  { serviceId := id, serviceType := .internal, command := none, dependencies,
    startupPriority := 10, restartPolicy := .never, restartLimit := 0,
    sandboxProfile := .internal }

def cyclic : List ServiceManifest :=
  [service "c" ["a", "d"], service "b" ["a"], service "a" ["b"], service "d" []]

theorem circularDependency_spec_cyclic :
    DependencyGraph.new 5 cyclic = some (.error (.circularDependency ["a", "b", "c"])) ∧
      ∀ id, id ∈ ["a", "b", "c"] ↔ ∃ c, Relation.ReflTransGen (DependsOn cyclic) id c ∧
        Relation.TransGen (DependsOn cyclic) c c :=
  ⟨by rfl, (DependencyGraph.circularDependency_spec
    (show DependencyGraph.new 5 cyclic = _ by rfl)).2⟩

/-- **Priorities decide between services with the same dependencies**: the one with the smaller
key stands first in the start order. -/
theorem DependencyGraph.startOrder_priority {a b : ServiceManifest}
    (h : DependencyGraph.new fuel manifests = some (.ok g)) (ha : a ∈ manifests)
    (hb : b ∈ manifests) (hdeps : ∀ d, d ∈ a.dependencies ↔ d ∈ b.dependencies)
    (hkey : toLex (a.startupPriority.toNat, a.serviceId) <
      toLex (b.startupPriority.toNat, b.serviceId)) :
    g.startOrder.idxOf a.serviceId < g.startOrder.idxOf b.serviceId := by
  obtain ⟨hi, -, -, harr, -⟩ := exists_of_new_eq_ok h
  have hget : ∀ m ∈ manifests, g.manifests[m.serviceId]? = some m :=
    fun m hm => (hi _ m).mpr ⟨hm, rfl⟩
  have hmem : ∀ m ∈ manifests, m.serviceId ∈ g.startOrder := by
    intro m hm
    rw [(startOrder_perm_keys h).mem_iff, Std.TreeMap.mem_keys, hi.mem_iff]
    exact mem_map_of_mem hm
  have hdepsOf : ∀ m ∈ manifests, depsOf g.manifests m.serviceId = m.dependencies := by
    intro m hm
    rw [depsOf, hget m hm]
    rfl
  by_contra hle
  rcases Nat.lt_or_eq_of_le (Nat.not_lt.mp hle) with hlt | heq
  · have hba := pairwise_iff_getElem.mp harr _ _ (idxOf_lt_length_of_mem (hmem b hb))
      (idxOf_lt_length_of_mem (hmem a ha)) hlt
    rw [getElem_idxOf, getElem_idxOf, hdepsOf a ha, hdepsOf b hb] at hba
    obtain ⟨m, m', hm, hm', hle'⟩ := hba fun d => (hdeps d).symm
    cases (hget b hb).symm.trans hm
    cases (hget a ha).symm.trans hm'
    exact absurd hkey (not_lt.mpr hle')
  · have hid := (idxOf_inj (hmem b hb)).mp heq
    cases (hget a ha).symm.trans (hid ▸ hget b hb)
    exact lt_irrefl _ hkey

def siblings : List ServiceManifest :=
  [service "c" ["a"], service "b" ["a", "a"], service "a" []]

theorem startOrder_priority_siblings : ∃ g, DependencyGraph.new 4 siblings = some (.ok g) ∧
    g.startOrder.idxOf "b" < g.startOrder.idxOf "c" := by
  have hg : DependencyGraph.new 4 siblings = some (.ok ⟨(((∅ : ManifestMap).insert "c"
      (service "c" ["a"])).insert "b" (service "b" ["a", "a"])).insert "a" (service "a" []),
        ["a", "b", "c"]⟩) := by rfl
  refine ⟨_, hg, ?_⟩
  exact DependencyGraph.startOrder_priority (a := service "b" ["a", "a"]) (b := service "c" ["a"])
    hg (by decide) (by decide) (by simp [service]) (by decide)

end Aether.SystemCore
