import Aether.Wm.WindowManager

/-!
# Windows and workspaces, without their contents

A `Desktop` is what decides which windows are to be seen.  `Filed` is the bookkeeping between
windows and workspaces, which every change keeps; `Shows` says that the visible windows are those of
the active workspace that are not minimized.
-/

namespace Aether.Wm

@[ext]
structure Placement where
  workspace : UInt32
  minimized : Bool
  visible : Bool
  deriving DecidableEq

def Placement.raised (p : Placement) : Placement := ⟨p.workspace, false, true⟩

def Placement.lowered (p : Placement) : Placement := ⟨p.workspace, true, false⟩

def Placement.hidden (p : Placement) : Placement :=
  if p.minimized = false then { p with visible := false } else p

def Placement.shown (p : Placement) : Placement := { p with visible := true }

def Placement.toRoot (p : Placement) : Placement := { p with workspace := 0 }

@[ext]
structure Desktop where
  windows : WindowId → Option Placement
  members : UInt32 → Option (List WindowId)
  active : UInt32
  nextId : WindowId

namespace Desktop

variable {d d' : Desktop} {id : WindowId} {j k target : UInt32} {l : List WindowId}
  {f : Placement → Placement}

def homeOf (d : Desktop) (id : WindowId) : Option UInt32 := (d.windows id).map Placement.workspace

def Shows (d : Desktop) : Prop :=
  ∀ id p, d.windows id = some p → (p.visible = true ↔ p.workspace = d.active ∧ p.minimized = false)

structure Filed (d : Desktop) : Prop where
  root : d.members 0 ≠ none
  active : d.members d.active ≠ none
  mem_iff : ∀ k l, d.members k = some l → ∀ id, id ∈ l ↔ d.homeOf id = some k
  home : ∀ id k, d.homeOf id = some k → d.members k ≠ none
  bound : ∀ id k, d.homeOf id = some k → id ≤ d.nextId

lemma Filed.congr (h : d.Filed) (hhome : d'.homeOf = d.homeOf) (hmem : d'.members = d.members)
    (hact : d'.members d'.active ≠ none) (hnext : d'.nextId = d.nextId) : d'.Filed where
  root := hmem ▸ h.root
  active := hact
  mem_iff k l hl id := by
    rw [hhome]
    exact h.mem_iff k l (hmem ▸ hl) id
  home id k hk := by
    rw [hmem]
    exact h.home id k (hhome ▸ hk)
  bound id k hk := by
    rw [hnext]
    exact h.bound id k (hhome ▸ hk)

lemma homeOf_eq_some_iff : d.homeOf id = some k ↔ ∃ p, d.windows id = some p ∧ p.workspace = k :=
  Option.map_eq_some_iff

def alter (d : Desktop) (id : WindowId) (f : Placement → Placement) : Desktop :=
  { d with windows := fun j => if id = j then (d.windows j).map f else d.windows j }

lemma filed_alter (hf : ∀ p, (f p).workspace = p.workspace)
    (h : d.Filed) : (d.alter id f).Filed := by
  refine h.congr (funext fun j => ?_) rfl h.active rfl
  unfold homeOf alter
  dsimp only
  split
  · rw [Option.map_map, show Placement.workspace ∘ f = Placement.workspace from funext hf]
  · rfl

lemma shows_alter_iff (h : d.Shows) : (d.alter id f).Shows ↔ ∀ p, d.windows id = some p →
      ((f p).visible = true ↔ (f p).workspace = d.active ∧ (f p).minimized = false) := by
  constructor
  · intro hsho p hp
    refine hsho id (f p) ?_
    simp [alter, hp]
  · intro hf j q hq
    simp only [alter] at hq
    split at hq
    · rename_i heq
      subst heq
      obtain ⟨p, hp, rfl⟩ := Option.map_eq_some_iff.mp hq
      exact hf p hp
    · exact h j q hq

lemma alter_of_eq (hf : (d.windows id).map f = d.windows id) : d.alter id f = d := by
  refine Desktop.ext (funext fun j => ?_) rfl rfl rfl
  simp only [alter]
  split
  · rename_i heq
    exact heq ▸ hf
  · rfl

lemma alter_alter (f g : Placement → Placement) :
    (d.alter id f).alter id g = d.alter id fun p => g (f p) := by
  refine Desktop.ext (funext fun j => ?_) rfl rfl rfl
  simp only [alter]
  split
  · rw [Option.map_map]
    rfl
  · rfl

def alterAll (d : Desktop) (l : List WindowId) (f : Placement → Placement) : Desktop :=
  { d with windows := fun j => if j ∈ l then (d.windows j).map f else d.windows j }

lemma alterAll_nil (f : Placement → Placement) : d.alterAll [] f = d := by
  refine Desktop.ext (funext fun j => ?_) rfl rfl rfl
  simp [alterAll]

lemma alterAll_cons (hf : ∀ p, f (f p) = f p) (l : List WindowId) :
    (d.alter id f).alterAll l f = d.alterAll (id :: l) f := by
  refine Desktop.ext (funext fun j => ?_) rfl rfl rfl
  simp only [alterAll, alter, List.mem_cons]
  by_cases hj : id = j
  · subst hj
    rw [if_pos rfl, if_pos (Or.inl rfl), Option.map_map, show f ∘ f = f from funext hf, ite_self]
  · rw [if_neg hj]
    simp only [Ne.symm hj, false_or]

lemma shows_raise_iff (h : d.Shows) :
    (d.alter id Placement.raised).Shows ↔ ∀ p, d.windows id = some p → p.workspace = d.active := by
  rw [shows_alter_iff h]
  simp [Placement.raised]

lemma shows_lower (h : d.Shows) : (d.alter id Placement.lowered).Shows := by
  rw [shows_alter_iff h]
  simp [Placement.lowered]

def alterMembers (d : Desktop) (k : UInt32) (f : List WindowId → List WindowId) : Desktop :=
  { d with members := fun j => if k = j then (d.members j).map f else d.members j }

lemma alterMembers_alterMembers (f g : List WindowId → List WindowId) :
    (d.alterMembers k f).alterMembers k g = d.alterMembers k fun l => g (f l) := by
  refine Desktop.ext rfl (funext fun j => ?_) rfl rfl
  simp only [alterMembers]
  split
  · rw [Option.map_map]
    rfl
  · rfl

lemma members_alterMembers_ne_none {f : List WindowId → List WindowId}
    (hj : d.members j ≠ none) : (d.alterMembers k f).members j ≠ none := by
  simp only [alterMembers]
  split
  · simpa using hj
  · exact hj

lemma exists_of_members_append (k : UInt32) (l₁ : List WindowId)
    (hl : (d.alterMembers k fun l₀ => l₀ ++ l₁).members j = some l) :
    ∃ l₀, d.members j = some l₀ ∧ ∀ i, i ∈ l ↔ i ∈ l₀ ∨ (k = j ∧ i ∈ l₁) := by
  simp only [alterMembers] at hl
  split at hl
  · rename_i heq
    obtain ⟨l₀, hl₀, rfl⟩ := Option.map_eq_some_iff.mp hl
    refine ⟨l₀, hl₀, fun i => ?_⟩
    simp [heq]
  · rename_i hne
    refine ⟨l, hl, fun i => ?_⟩
    simp [hne]

lemma mem_members_without_iff (h : d.Filed) (hk : d.homeOf id = some k)
    (hl : (d.alterMembers k fun l => l.filter fun w => w != id).members j = some l)
    (i : WindowId) : i ∈ l ↔ id ≠ i ∧ d.homeOf i = some j := by
  simp only [alterMembers] at hl
  split at hl
  · obtain ⟨l₀, hl₀, rfl⟩ := Option.map_eq_some_iff.mp hl
    rw [List.mem_filter, h.mem_iff j l₀ hl₀ i, bne_iff_ne, and_comm, ne_comm]
  · rename_i hne
    rw [h.mem_iff j l hl i]
    refine ⟨fun hi => ⟨?_, hi⟩, fun hi => hi.2⟩
    -- the window is in `k` and in no other workspace
    rintro rfl
    rw [hk] at hi
    exact hne (Option.some.inj hi)

def add (d : Desktop) (id : WindowId) : Desktop where
  windows j := if id = j then some ⟨d.active, false, true⟩ else d.windows j
  members k := if d.active = k then (d.members k).map fun l => l ++ [id] else d.members k
  active := d.active
  nextId := id

lemma homeOf_add (j : WindowId) :
    (d.add id).homeOf j = if id = j then some d.active else d.homeOf j := by
  unfold homeOf add
  dsimp only
  split <;> rfl

lemma filed_add (h : d.Filed) (hid : d.nextId < id) : (d.add id).Filed where
  root := members_alterMembers_ne_none h.root
  active := members_alterMembers_ne_none h.active
  mem_iff k l hl j := by
    -- the new id was in no workspace
    have hnew : d.homeOf id ≠ some k := fun hk =>
      absurd (h.bound id k hk) (UInt64.not_le.mpr hid)
    obtain ⟨l₀, hl₀, hmem⟩ := exists_of_members_append d.active [id] hl
    rw [homeOf_add, hmem, h.mem_iff k l₀ hl₀ j, List.mem_singleton]
    by_cases hj : id = j
    · subst hj
      simp [hnew]
    · simp [hj, Ne.symm hj]
  home j k hj := by
    rw [homeOf_add] at hj
    split at hj
    · cases hj
      exact members_alterMembers_ne_none h.active
    · exact members_alterMembers_ne_none (h.home j k hj)
  bound j k hj := by
    rw [homeOf_add] at hj
    split at hj
    · rename_i heq
      exact heq ▸ UInt64.le_refl id
    · exact UInt64.le_of_lt (UInt64.lt_of_le_of_lt (h.bound j k hj) hid)

lemma shows_add (h : d.Shows) (id : WindowId) : (d.add id).Shows := by
  intro j p hp
  simp only [add] at hp ⊢
  split at hp
  · cases hp
    simp
  · exact h j p hp

def remove (d : Desktop) (id : WindowId) (k : UInt32) : Desktop :=
  { d with
    windows := fun j => if id = j then none else d.windows j
    members := fun j => if k = j then (d.members j).map fun l => l.filter fun w => w != id
      else d.members j }

lemma homeOf_remove (j : WindowId) :
    (d.remove id k).homeOf j = if id = j then none else d.homeOf j := by
  unfold homeOf remove
  dsimp only
  split <;> rfl

lemma filed_remove (h : d.Filed) (hk : d.homeOf id = some k) : (d.remove id k).Filed where
  root := members_alterMembers_ne_none h.root
  active := members_alterMembers_ne_none h.active
  mem_iff j l hl i := by
    rw [homeOf_remove, mem_members_without_iff h hk hl i]
    by_cases hi : id = i <;> simp [hi]
  home i j hi := by
    rw [homeOf_remove] at hi
    split at hi
    · cases hi
    · exact members_alterMembers_ne_none (h.home i j hi)
  bound i j hi := by
    rw [homeOf_remove] at hi
    split at hi
    · cases hi
    · exact h.bound i j hi

lemma shows_remove (h : d.Shows) : (d.remove id k).Shows := by
  intro j p hp
  simp only [remove] at hp
  split at hp
  · cases hp
  · exact h j p hp

def alterIn (d : Desktop) (k : UInt32) (f : Placement → Placement) : Desktop :=
  { d with windows := fun i => (d.windows i).map fun p => if p.workspace = k then f p else p }

lemma alterAll_eq_alterIn (h : d.Filed) (hl : d.members k = some l)
    (f : Placement → Placement) : d.alterAll l f = d.alterIn k f := by
  refine Desktop.ext (funext fun i => ?_) rfl rfl rfl
  simp only [alterAll, alterIn, h.mem_iff k l hl i, homeOf]
  cases d.windows i with
  | none => simp
  | some p =>
    by_cases hp : p.workspace = k <;> simp [hp]

lemma filed_alterIn (hf : ∀ p, (f p).workspace = p.workspace)
    (h : d.Filed) : (d.alterIn k f).Filed := by
  refine h.congr (funext fun i => ?_) rfl h.active rfl
  unfold homeOf alterIn
  rw [Option.map_map]
  congr 1
  funext p
  show (if p.workspace = k then f p else p).workspace = p.workspace
  split
  · exact hf p
  · rfl

def addWorkspace (d : Desktop) (k : UInt32) : Desktop :=
  { d with members := fun j => if k = j then some [] else d.members j }

lemma members_addWorkspace_ne_none (hj : d.members j ≠ none) :
    (d.addWorkspace k).members j ≠ none := by
  unfold addWorkspace
  dsimp only
  split
  · simp
  · exact hj

lemma filed_addWorkspace (h : d.Filed) (hk : d.members k = none) : (d.addWorkspace k).Filed where
  root := members_addWorkspace_ne_none h.root
  active := members_addWorkspace_ne_none h.active
  mem_iff j l hl i := by
    show i ∈ l ↔ d.homeOf i = some j
    simp only [addWorkspace] at hl
    split at hl
    · rename_i heq
      subst heq
      cases hl
      refine iff_of_false (by simp) fun hi => ?_
      exact h.home i k hi hk
    · exact h.mem_iff j l hl i
  home i j hi := members_addWorkspace_ne_none (h.home i j hi)
  bound := h.bound

def destroy (d : Desktop) (k : UInt32) (l : List WindowId) : Desktop where
  windows := (d.alterIn k Placement.toRoot).windows
  members j := if k = j then none
    else if 0 = j then (d.members j).map fun l₀ => l₀ ++ l else d.members j
  active := if d.active = k then 0 else d.active
  nextId := d.nextId

lemma homeOf_destroy (i : WindowId) :
    (d.destroy k l).homeOf i = (d.homeOf i).map fun j => if j = k then 0 else j := by
  unfold homeOf destroy alterIn
  rw [Option.map_map, Option.map_map]
  congr 1
  funext p
  show (if p.workspace = k then p.toRoot else p).workspace =
    if p.workspace = k then 0 else p.workspace
  split <;> rfl

lemma members_destroy_ne_none (hne : k ≠ j)
    (hj : d.members j ≠ none) : (d.destroy k l).members j ≠ none := by
  unfold destroy
  dsimp only
  rw [if_neg hne]
  exact members_alterMembers_ne_none (k := 0) hj

lemma filed_destroy (h : d.Filed) (hk : k ≠ 0) (hl : d.members k = some l) :
    (d.destroy k l).Filed where
  root := members_destroy_ne_none hk h.root
  active := by
    show (d.destroy k l).members (if d.active = k then 0 else d.active) ≠ none
    split
    · exact members_destroy_ne_none hk h.root
    · rename_i hne
      exact members_destroy_ne_none (Ne.symm hne) h.active
  mem_iff j l' hl' i := by
    rw [homeOf_destroy, Option.map_eq_some_iff]
    simp only [destroy] at hl'
    split at hl'
    · cases hl'
    · rename_i hkj
      -- the root lists its own windows and those of `k`
      obtain ⟨l₀, hl₀, hmem⟩ := exists_of_members_append 0 l hl'
      rw [hmem, h.mem_iff j l₀ hl₀ i, h.mem_iff k l hl i]
      constructor
      · rintro (hi | ⟨rfl, hi⟩)
        · exact ⟨j, hi, if_neg (Ne.symm hkj)⟩
        · exact ⟨k, hi, if_pos rfl⟩
      · rintro ⟨a, ha, heq⟩
        split at heq
        · rename_i hak
          exact .inr ⟨heq, hak ▸ ha⟩
        · exact .inl (heq ▸ ha)
  home i j hi := by
    rw [homeOf_destroy, Option.map_eq_some_iff] at hi
    obtain ⟨a, ha, rfl⟩ := hi
    split
    · exact members_destroy_ne_none hk h.root
    · rename_i hne
      exact members_destroy_ne_none (Ne.symm hne) (h.home i a ha)
  bound i j hi := by
    rw [homeOf_destroy, Option.map_eq_some_iff] at hi
    obtain ⟨a, ha, -⟩ := hi
    exact h.bound i a ha

lemma shows_destroy_iff (h : d.Shows) (hk : k ≠ 0) :
    (d.destroy k l).Shows ↔
      (d.active = k → ∀ i p, d.windows i = some p → p.workspace = 0 → p.minimized = true) ∧
      (d.active = 0 → ∀ i p, d.windows i = some p → p.workspace = k → p.minimized = true) := by
  have hstep : (d.destroy k l).Shows ↔ ∀ i p, d.windows i = some p →
      (p.visible = true ↔ (if p.workspace = k then 0 else p.workspace) =
        (if d.active = k then 0 else d.active) ∧ p.minimized = false) := by
    constructor
    · intro hs i p hp
      have hi := hs i _ (Option.map_eq_some_iff.mpr ⟨p, hp, rfl⟩)
      split at hi <;> rename_i hpk
      · rw [if_pos hpk]
        exact hi
      · rw [if_neg hpk]
        exact hi
    · intro hs i q hq
      obtain ⟨p, hp, rfl⟩ := Option.map_eq_some_iff.mp hq
      have hi := hs i p hp
      split <;> rename_i hpk
      · rw [if_pos hpk] at hi
        exact hi
      · rw [if_neg hpk] at hi
        exact hi
  rw [hstep]
  constructor
  · intro hs
    constructor
    · intro hact i p hp hroot
      have hold := h i p hp
      have hnew := hs i p hp
      rw [hroot, hact] at hold
      rw [hroot, if_neg (Ne.symm hk), if_pos hact] at hnew
      simpa [Ne.symm hk] using hnew.symm.trans hold
    · intro hact i p hp hpk
      have hold := h i p hp
      have hnew := hs i p hp
      rw [hpk, hact] at hold
      rw [hpk, if_pos rfl, hact, if_neg (Ne.symm hk)] at hnew
      simpa [hk] using hnew.symm.trans hold
  · rintro ⟨hroot, hmv⟩ i p hp
    rw [h i p hp]
    by_cases hact : d.active = k
    · rw [if_pos hact, hact]
      by_cases hpk : p.workspace = k
      · simp [hpk]
      · rw [if_neg hpk]
        by_cases hp0 : p.workspace = 0
        · simp [hp0, Ne.symm hk, hroot hact i p hp hp0]
        · simp [hpk, hp0]
    · rw [if_neg hact]
      by_cases hpk : p.workspace = k
      · rw [if_pos hpk, hpk]
        by_cases h0 : d.active = 0
        · simp [hmv h0 i p hp hpk]
        · simp [Ne.symm hact, Ne.symm h0]
      · rw [if_neg hpk]

def activate (d : Desktop) (k : UInt32) : Desktop :=
  { (d.alterIn d.active Placement.hidden).alterIn k Placement.shown with active := k }

lemma hidden_workspace (p : Placement) : p.hidden.workspace = p.workspace := by
  unfold Placement.hidden
  split <;> rfl

lemma hidden_minimized (p : Placement) : p.hidden.minimized = p.minimized := by
  unfold Placement.hidden
  split <;> rfl

lemma filed_activate (h : d.Filed) (hk : d.members k ≠ none) : (d.activate k).Filed := by
  have hhid : (d.alterIn d.active Placement.hidden).Filed := filed_alterIn hidden_workspace h
  have hsho : ((d.alterIn d.active Placement.hidden).alterIn k Placement.shown).Filed :=
    filed_alterIn (fun _ => rfl) hhid
  exact hsho.congr rfl rfl hk rfl

lemma hidden_of_shows (h : d.Shows) {i : WindowId} {p : Placement}
    (hp : (d.alterIn d.active Placement.hidden).windows i = some p) : p.visible = false := by
  obtain ⟨q, hq, rfl⟩ := Option.map_eq_some_iff.mp hp
  have hold := h i q hq
  rw [← Bool.not_eq_true]
  split
  · rename_i hact
    unfold Placement.hidden
    split
    · simp
    · rename_i hmin
      rw [hold]
      simp [hmin]
  · rename_i hact
    rw [hold]
    simp [hact]

lemma shows_activate_iff (h : d.Shows) :
    (d.activate k).Shows ↔
      ∀ i p, d.windows i = some p → p.workspace = k → p.minimized = false := by
  -- what becomes of a window, once all are hidden
  have hwin : ∀ i p, d.windows i = some p → ∃ q, q.workspace = p.workspace ∧
      q.minimized = p.minimized ∧ q.visible = false ∧
      (d.activate k).windows i = some (if q.workspace = k then q.shown else q) := by
    intro i p hp
    have hq : (d.alterIn d.active Placement.hidden).windows i =
        some (if p.workspace = d.active then p.hidden else p) := by
      simp only [alterIn, hp, Option.map_some]
    refine ⟨_, ?_, ?_, hidden_of_shows h hq, ?_⟩
    · split
      · exact hidden_workspace p
      · rfl
    · split
      · exact hidden_minimized p
      · rfl
    · show ((d.alterIn d.active Placement.hidden).windows i).map _ = _
      rw [hq, Option.map_some]
  constructor
  · intro hs i p hp hpk
    obtain ⟨q, hws, hmini, -, hnew⟩ := hwin i p hp
    have hi := hs i _ hnew
    rw [hws, if_pos hpk] at hi
    exact hmini ▸ (hi.mp rfl).2
  · intro hmin i r hr
    obtain ⟨p, hp⟩ : ∃ p, d.windows i = some p := by
      cases hp : d.windows i with
      | none => simp [activate, alterIn, hp] at hr
      | some p => exact ⟨p, rfl⟩
    obtain ⟨q, hws, hmini, hvis, hnew⟩ := hwin i p hp
    cases hnew.symm.trans hr
    show _ ↔ _ = k ∧ _
    split
    · rename_i hqk
      have hqmin : q.minimized = false := hmini ▸ hmin i p hp (hws ▸ hqk)
      simp [Placement.shown, hqk, hqmin]
    · rename_i hqk
      simp [hvis, hqk]

def moveTo (d : Desktop) (id : WindowId) (k target : UInt32) : Desktop :=
  ((d.alter id fun p => { p with workspace := target }).alterMembers k
    fun l => l.filter fun w => w != id).alterMembers target fun l => l ++ [id]

lemma homeOf_moveTo (hk : d.homeOf id = some k) (i : WindowId) :
    (d.moveTo id k target).homeOf i = if id = i then some target else d.homeOf i := by
  unfold homeOf
  simp only [moveTo, alterMembers, alter]
  split
  · rename_i heq
    subst heq
    obtain ⟨p, hp, -⟩ := homeOf_eq_some_iff.mp hk
    rw [hp]
    rfl
  · rfl

lemma filed_moveTo (h : d.Filed) (hk : d.homeOf id = some k)
    (htgt : d.members target ≠ none) : (d.moveTo id k target).Filed where
  root := members_alterMembers_ne_none (members_alterMembers_ne_none h.root)
  active := members_alterMembers_ne_none (members_alterMembers_ne_none h.active)
  mem_iff j l hl i := by
    obtain ⟨l₀, hl₀, hmem⟩ := exists_of_members_append target [id] hl
    rw [homeOf_moveTo hk, hmem, mem_members_without_iff h hk hl₀ i, List.mem_singleton]
    by_cases hi : id = i
    · simp [hi]
    · simp [hi, Ne.symm hi]
  home i j hi := by
    rw [homeOf_moveTo hk] at hi
    split at hi
    · cases hi
      exact members_alterMembers_ne_none (members_alterMembers_ne_none htgt)
    · exact members_alterMembers_ne_none (members_alterMembers_ne_none (h.home i j hi))
  bound i j hi := by
    rw [homeOf_moveTo hk] at hi
    split at hi
    · rename_i heq
      exact h.bound i k (heq ▸ hk)
    · exact h.bound i j hi

lemma shows_moveTo_iff (h : d.Shows) :
    (d.moveTo id k target).Shows ↔ ∀ p, d.windows id = some p → p.minimized = false →
      (p.workspace = d.active ↔ target = d.active) := by
  have hwin : (d.moveTo id k target).Shows ↔ ∀ p, d.windows id = some p →
      (p.visible = true ↔ target = d.active ∧ p.minimized = false) :=
    shows_alter_iff (f := fun p => { p with workspace := target }) h
  rw [hwin]
  refine forall₂_congr fun p hp => ?_
  rw [h id p hp]
  cases p.minimized with
  | true => simp
  | false => simp

end Desktop

end Aether.Wm
