import Aether.Wm.Equiv.Visibility
import Mathlib.Data.List.Rotate

/-!
# The collections of the window manager

The map of windows, the stacking order and the lists of the workspaces describe the same windows.
-/

namespace Aether.Wm

open OrderedMap (getElem?_insert getElem?_erase getElem?_modify)

namespace Desktop

variable {d : Desktop} {id : WindowId} {k : UInt32} {l : List WindowId}

def Distinct (d : Desktop) : Prop := ∀ k l, d.members k = some l → l.Nodup

lemma distinct_alterMembers {f : List WindowId → List WindowId} (h : d.Distinct)
    (hf : ∀ l, d.members k = some l → l.Nodup → (f l).Nodup) : (d.alterMembers k f).Distinct := by
  intro j l hl
  simp only [alterMembers] at hl
  split at hl
  · rename_i heq
    subst heq
    obtain ⟨l₀, hl₀, rfl⟩ := Option.map_eq_some_iff.mp hl
    exact hf l₀ hl₀ (h k l₀ hl₀)
  · exact h j l hl

lemma distinct_append (h : d.Distinct) {l₁ : List WindowId} (hnd : l₁.Nodup)
    (hnew : ∀ l, d.members k = some l → ∀ i ∈ l, i ∉ l₁) :
    (d.alterMembers k fun l => l ++ l₁).Distinct :=
  distinct_alterMembers h fun l hl hold =>
    List.nodup_append'.mpr ⟨hold, hnd, fun _ hi => hnew l hl _ hi⟩

lemma distinct_without (h : d.Distinct) (k : UInt32) (id : WindowId) :
    (d.alterMembers k fun l => l.filter fun w => w != id).Distinct :=
  distinct_alterMembers h fun _ _ hold => hold.filter _

lemma distinct_add (hf : d.Filed) (h : d.Distinct) (hid : d.nextId < id) :
    (d.add id).Distinct := by
  refine distinct_append h (List.nodup_singleton id) fun l hl i hi hmem => ?_
  obtain rfl := List.mem_singleton.mp hmem
  exact UInt64.not_le.mpr hid (hf.bound i _ ((hf.mem_iff _ l hl i).mp hi))

lemma distinct_addWorkspace (h : d.Distinct) : (d.addWorkspace k).Distinct := by
  intro j l hl
  simp only [addWorkspace] at hl
  split at hl
  · cases hl
    exact List.nodup_nil
  · exact h j l hl

lemma distinct_destroy (hf : d.Filed) (h : d.Distinct) (hk : k ≠ 0) (hl : d.members k = some l) :
    (d.destroy k l).Distinct := by
  have hroot := distinct_append (k := 0) h (h k l hl) fun l₀ hl₀ i hi hmem =>
    -- a window is in one workspace only
    hk (Option.some.inj (((hf.mem_iff k l hl i).mp hmem).symm.trans
      ((hf.mem_iff 0 l₀ hl₀ i).mp hi)))
  intro j l' hl'
  simp only [destroy] at hl'
  split at hl'
  · cases hl'
  · exact hroot j l' hl'

lemma distinct_moveTo {target : UInt32} (hf : d.Filed) (h : d.Distinct)
    (hk : d.homeOf id = some k) : (d.moveTo id k target).Distinct := by
  refine distinct_append (d := (d.alter id _).alterMembers k _) (distinct_without h k id)
    (List.nodup_singleton id) fun l hl i hi hmem => ?_
  obtain rfl := List.mem_singleton.mp hmem
  exact ((mem_members_without_iff hf hk hl i).mp hi).1 rfl

lemma windows_alter_eq_none_iff {f : Placement → Placement} {j : WindowId} :
    (d.alter id f).windows j = none ↔ d.windows j = none := by
  simp only [alter]
  split <;> simp

lemma windows_alterIn_eq_none_iff {f : Placement → Placement} {j : WindowId} :
    (d.alterIn k f).windows j = none ↔ d.windows j = none := Option.map_eq_none_iff

end Desktop

namespace WindowManager

open Desktop

variable {m m' : WindowManager} {id : WindowId}

lemma minimize_stack (m : WindowManager) (id : WindowId) : (m.minimize id).2.stack = m.stack := by
  unfold minimize
  split
  · rfl
  · dsimp only
    split
    · exact focusTopmost_stack _ _
    · rfl

lemma destroyWorkspace_stack (m : WindowManager) (k : UInt32) :
    (m.destroyWorkspace k).2.stack = m.stack := by
  unfold destroyWorkspace
  split
  · rfl
  split
  · rfl
  next ws _ =>
  have hmv := stack_foldl (f := rehome) (fun _ _ => rfl) ws.windows
    { m with workspaces := m.workspaces.erase k }
  dsimp only
  split_ifs
  · exact hmv
  · exact hmv
  · rfl
  · rfl

lemma activateWorkspace_stack (m : WindowManager) (k : UInt32) :
    (m.activateWorkspace k).2.stack = m.stack := by
  unfold activateWorkspace
  split
  · rfl
  · exact (focusTopmost_stack _ _).trans (swapWindows_stack _ _ _)

lemma moveWindowToWorkspace_stack (m : WindowManager) (wid : WindowId) (target : UInt32) :
    (m.moveWindowToWorkspace wid target).2.stack = m.stack := by
  unfold moveWindowToWorkspace
  split
  · rfl
  · split <;> rfl

structure Neat (m : WindowManager) : Prop where
  distinct : m.desktop.Distinct
  nodup : m.stack.Nodup
  mem_iff : ∀ id, id ∈ m.stack ↔ m.desktop.windows id ≠ none

lemma Neat.of_stack_eq (h : m.Neat) (hsta : m'.stack = m.stack)
    (hdist : m'.desktop.Distinct)
    (hpres : ∀ j, m'.desktop.windows j = none ↔ m.desktop.windows j = none) : m'.Neat where
  distinct := hdist
  nodup := hsta ▸ h.nodup
  mem_iff j := by rw [hsta, h.mem_iff, ne_eq, ne_eq, hpres]

lemma Neat.congr (h : m.Neat) (hsta : m'.stack = m.stack) (hd : m'.desktop = m.desktop) :
    m'.Neat :=
  h.of_stack_eq hsta (hd ▸ h.distinct) fun _ => by rw [hd]

lemma Neat.modifyWindow (h : m.Neat) (id : WindowId) (f : Window → Window) :
    (m.modifyWindow id f).Neat := by
  refine h.of_stack_eq rfl h.distinct fun j => ?_
  show (m.windows.modify id f)[j]?.map Window.placement = none ↔
    m.windows[j]?.map Window.placement = none
  rw [getElem?_modify]
  split <;> simp

lemma Neat.focus (h : m.Neat) (id : WindowId) : (m.focus id).2.Neat := by
  have hd := m.desktop_focus id
  unfold WindowManager.focus at hd ⊢
  cases hw : m.windows[id]? with
  | none => exact h
  | some w =>
    rw [hw] at hd
    have hmem : id ∈ m.stack := (h.mem_iff id).mpr (by simp [desktop, hw])
    refine ⟨hd ▸ h.distinct, ?_, fun j => ?_⟩
    · exact List.nodup_append'.mpr ⟨h.nodup.erase id, List.nodup_singleton id,
        List.disjoint_singleton.mpr h.nodup.not_mem_erase⟩
    · rw [hd, ne_eq, windows_alter_eq_none_iff, ← ne_eq, ← h.mem_iff]
      show j ∈ m.stack.erase id ++ [id] ↔ j ∈ m.stack
      rw [List.mem_append, h.nodup.mem_erase_iff, List.mem_singleton]
      by_cases hj : j = id
      · simpa [hj] using hmem
      · simp [hj]

lemma Neat.close (h : m.Neat) (id : WindowId) : (m.close id).2.Neat := by
  rcases m.close_desktop id with hsame | ⟨k, -, hrem, hsta⟩
  · exact hsame.symm ▸ h
  refine ⟨hrem ▸ distinct_without h.distinct k id, hsta ▸ h.nodup.filter _, fun j => ?_⟩
  rw [hsta, hrem, List.mem_filter, h.mem_iff]
  simp only [remove]
  by_cases hj : id = j
  · simp [hj]
  · simp [hj, Ne.symm hj]

lemma Neat.add (h : m.Neat) (hf : m.desktop.Filed) (hid : m.nextId < id)
    (hd : m'.desktop = m.desktop.add id) (hsta : m'.stack = m.stack ++ [id]) : m'.Neat := by
  have hnew : id ∉ m.stack := by
    rw [h.mem_iff, not_not]
    by_contra hne
    obtain ⟨p, hp⟩ := Option.ne_none_iff_exists'.mp hne
    exact UInt64.not_le.mpr hid (hf.bound id _ (homeOf_eq_some_iff.mpr ⟨p, hp, rfl⟩))
  refine ⟨hd ▸ distinct_add hf h.distinct hid, ?_, fun j => ?_⟩
  · rw [hsta, ← List.concat_eq_append]
    exact h.nodup.concat hnew
  · rw [hsta, hd, List.mem_append, List.mem_singleton, h.mem_iff]
    simp only [Desktop.add]
    by_cases hj : id = j
    · simp [hj]
    · simp [hj, Ne.symm hj]

lemma Neat.apply (h : m.Neat) (action : WindowAction) : (m.apply action).2.Neat := by
  cases action with
  | focus id => exact h.focus id
  | close id => exact h.close id
  | minimize id =>
    have hd : (m.minimize id).2.desktop = _ := m.desktop_minimize id
    exact h.of_stack_eq (minimize_stack m id) (hd ▸ h.distinct) fun _ =>
      hd ▸ windows_alter_eq_none_iff
  | move id x y =>
    simp only [WindowManager.apply]
    split
    · exact h
    · exact (h.modifyWindow id _).congr rfl rfl
  | resize id width height =>
    simp only [WindowManager.apply]
    split
    · exact h
    · exact (h.modifyWindow id _).congr rfl rfl
  | maximize id =>
    simp only [WindowManager.apply]
    split
    · exact h
    split
    · exact h
    · exact (h.modifyWindow id _).focus id
  | restore id =>
    simp only [WindowManager.apply]
    split
    · exact h
    · exact (h.modifyWindow id _).focus id

lemma Neat.cycleFocus (h : m.Neat) : m.cycleFocus.2.Neat := by
  unfold WindowManager.cycleFocus
  dsimp only
  split
  · exact h
  · exact h.focus _

lemma neat_step (h : m.Neat) (hf : m.desktop.Filed) {op : WmOp} (hstep : m.step op = some m') :
    m'.Neat := by
  cases op with
  | create appId title w ht =>
    obtain ⟨⟨created, m₁⟩, hcr, rfl⟩ := Option.map_eq_some_iff.mp hstep
    rcases create_desktop hcr with ⟨-, hsame⟩ | ⟨window, -, hid, hadd, hsta, -⟩
    · exact hsame.symm ▸ h
    · exact h.add hf hid hadd hsta
  | createTracked appId title w ht surfaceId processId sessionId =>
    obtain ⟨⟨created, m₁⟩, hcr, rfl⟩ := Option.map_eq_some_iff.mp hstep
    rcases createTracked_desktop hcr with hsame | ⟨id, hid, hadd, hsta⟩
    · exact hsame.symm ▸ h
    · exact h.add hf hid hadd hsta
  | apply action =>
    cases hstep
    exact h.apply action
  | close id =>
    cases hstep
    exact h.close id
  | cycleFocus =>
    cases hstep
    exact h.cycleFocus
  | createWorkspace name =>
    obtain ⟨⟨k, m₁⟩, hcr, rfl⟩ := Option.map_eq_some_iff.mp hstep
    obtain ⟨-, hadd⟩ := createWorkspace_desktop hcr hf.root
    obtain ⟨_, -, h₁⟩ := Option.bind_eq_some_iff.mp hcr
    refine h.of_stack_eq ?_ (hadd ▸ distinct_addWorkspace h.distinct) fun _ => by rw [hadd]; rfl
    cases h₁
    rfl
  | destroyWorkspace k =>
    cases hstep
    rcases destroyWorkspace_desktop hf k with ⟨-, hsame⟩ | ⟨l, hk, hl, hd⟩
    · exact h.congr (destroyWorkspace_stack m k) hsame
    · exact h.of_stack_eq (destroyWorkspace_stack m k)
        (hd ▸ distinct_destroy hf h.distinct hk hl) fun _ => hd ▸ windows_alterIn_eq_none_iff
  | activateWorkspace k =>
    cases hstep
    rcases activateWorkspace_desktop hf k with ⟨-, hsame⟩ | ⟨-, hd⟩
    · exact h.congr (activateWorkspace_stack m k) hsame
    · exact h.of_stack_eq (activateWorkspace_stack m k) (hd ▸ h.distinct) fun _ =>
        hd ▸ windows_alterIn_eq_none_iff.trans windows_alterIn_eq_none_iff
  | moveWindowToWorkspace wid target =>
    cases hstep
    rcases m.moveWindowToWorkspace_desktop wid target with ⟨-, hsame⟩ | ⟨k, -, hk, hd⟩
    · exact h.congr (moveWindowToWorkspace_stack m wid target) hsame
    · exact h.of_stack_eq (moveWindowToWorkspace_stack m wid target)
        (hd ▸ distinct_moveTo hf h.distinct hk) fun _ => hd ▸ windows_alter_eq_none_iff
  | drainEvents =>
    cases hstep
    exact h.congr rfl rfl

structure Arranged (m : WindowManager) : Prop where
  sound : m.Sound
  filed : m.desktop.Filed
  neat : m.Neat

lemma arranged_new (area : ScreenArea) : (new area).Arranged := by
  refine ⟨sound_new area, filed_new area, fun k l hl => ?_, List.nodup_nil, fun id => ?_⟩
  · obtain ⟨ws, hws, rfl⟩ := Option.map_eq_some_iff.mp hl
    have hins : ((∅ : Std.TreeMap UInt32 Workspace).insert 0 ⟨0, "Desktop", []⟩)[k]? = some ws :=
      hws
    rw [getElem?_insert] at hins
    split at hins
    · cases hins
      exact List.nodup_nil
    · simp at hins
  · simp [new, desktop]

lemma Arranged.step (h : m.Arranged) {op : WmOp} (hstep : m.step op = some m') : m'.Arranged :=
  ⟨sound_step h.sound hstep, (shifts_step h.sound.keyed h.filed hstep).filed h.filed,
    neat_step h.neat h.filed hstep⟩

lemma arranged_run {area : ScreenArea} {ops : List WmOp}
    (h : Run.exec WindowManager.step (new area) ops = some m) : m.Arranged :=
  Run.exec_invariant (fun _ _ _ hm hstep => hm.step hstep) (arranged_new area) h

/-- Every window is in the stacking order once, and once in the list of its workspace only. -/
structure Structured (m : WindowManager) : Prop where
  id_eq : ∀ (id : WindowId) w, m.windows[id]? = some w → w.id = id
  stack_nodup : m.stack.Nodup
  mem_stack_iff : ∀ id, id ∈ m.stack ↔ id ∈ m.windows
  home : ∀ (id : WindowId) w, m.windows[id]? = some w → w.workspaceId ∈ m.workspaces
  count : ∀ (id : WindowId) w, m.windows[id]? = some w → ∀ (k : UInt32) ws,
    m.workspaces[k]? = some ws → ws.windows.count id = if k = w.workspaceId then 1 else 0
  active : m.activeWorkspace ∈ m.workspaces

lemma mem_workspaces_iff {k : UInt32} : k ∈ m.workspaces ↔ m.desktop.members k ≠ none := by
  rw [Std.TreeMap.mem_iff_isSome_getElem?, Option.isSome_iff_ne_none, members_ne_none_iff]

lemma Arranged.structured (h : m.Arranged) : m.Structured where
  id_eq := h.sound.keyed
  stack_nodup := h.neat.nodup
  mem_stack_iff id := by
    rw [h.neat.mem_iff, Std.TreeMap.mem_iff_isSome_getElem?, Option.isSome_iff_ne_none]
    simp [desktop]
  home id w hw := mem_workspaces_iff.mpr (h.filed.home id _ (by simp [homeOf, desktop, hw]; rfl))
  count id w hw k ws hws := by
    have hl : m.desktop.members k = some ws.windows := by simp [desktop, hws]
    have hhome : m.desktop.homeOf id = some w.workspaceId := by
      simp [homeOf, desktop, hw, Window.placement]
    simp [(h.neat.distinct k _ hl).count, h.filed.mem_iff k _ hl, hhome, eq_comm]
  active := mem_workspaces_iff.mpr h.filed.active

/-- **The collections agree** in every state that a run reaches. -/
theorem throughout_structured (area : ScreenArea) (ops : List WmOp) :
    Run.Throughout WindowManager.step Structured (new area) ops :=
  fun _ _ _ h => (arranged_run h).structured

end WindowManager

/-!
## Cycling the focus

`cycle_focus` goes to the next larger id among the visible windows, or to the smallest.  A call
changes none of the placements, so that the ids stay the same and each call is one step along the
same ring.
-/

open List

lemma findIdx?_next {α : Type*} {r : α → α → Prop} [DecidableRel r] [Std.Asymm r] {l : List α}
    (hl : l.Pairwise r) {k : ℕ} (hk : k < l.length) :
    (l.findIdx? fun a => decide (r l[k] a)).getD 0 = (k + 1) % l.length := by
  have hbef : ∀ j (hj : j ≤ k), ¬ r l[k] l[j] := by
    intro j hj
    rcases Nat.lt_or_eq_of_le hj with hlt | rfl
    · exact Std.Asymm.asymm _ _ (pairwise_iff_getElem.mp hl j k (by omega) hk hlt)
    · exact fun h => Std.Asymm.asymm _ _ h h
  by_cases hlast : k + 1 < l.length
  · have hfind : l.findIdx? (fun a => decide (r l[k] a)) = some (k + 1) := by
      refine findIdx?_eq_some_iff_getElem.mpr ⟨hlast, ?_, fun j hj => ?_⟩
      · simpa using pairwise_iff_getElem.mp hl k (k + 1) hk hlast (by omega)
      · simpa using hbef j (by omega)
    rw [hfind, Option.getD_some, Nat.mod_eq_of_lt hlast]
  · have hfind : l.findIdx? (fun a => decide (r l[k] a)) = none := by
      refine findIdx?_eq_none_iff.mpr fun a ha => ?_
      obtain ⟨j, hj, rfl⟩ := getElem_of_mem ha
      simpa using hbef j (by omega)
    rw [hfind, Option.getD_none, show k + 1 = l.length by omega, Nat.mod_self]

namespace WindowManager

variable {m m' : WindowManager} {id : WindowId}

def visibleIds (m : WindowManager) : List WindowId :=
  ((m.windows.toList.map Prod.snd).filter focusable).map Window.id

lemma mem_visibleIds_iff (hk : Keyed m.windows) :
    id ∈ m.visibleIds ↔ ∃ p, m.desktop.windows id = some p ∧ p.visible = true ∧
      p.minimized = false := by
  have hmem : id ∈ m.visibleIds ↔ ∃ w, m.windows[id]? = some w ∧ focusable w = true := by
    simp only [visibleIds, mem_map, mem_filter, Prod.exists,
      Std.TreeMap.mem_toList_iff_getElem?_eq_some]
    constructor
    · rintro ⟨w, ⟨⟨key, w', hw, rfl⟩, hfoc⟩, rfl⟩
      rw [hk key w' hw]
      exact ⟨w', hw, hfoc⟩
    · rintro ⟨w, hw, hfoc⟩
      exact ⟨w, ⟨⟨id, w, hw, rfl⟩, hfoc⟩, hk id w hw⟩
  rw [hmem]
  simp [desktop, Window.placement, focusable]

lemma pairwise_visibleIds (hk : Keyed m.windows) : m.visibleIds.Pairwise (· < ·) := by
  have hids : (m.windows.toList.map Prod.snd).map Window.id = m.windows.keys := by
    rw [← Std.TreeMap.map_fst_toList_eq_keys, map_map]
    refine map_congr_left fun ⟨key, w⟩ hent => ?_
    exact hk key w (Std.TreeMap.mem_toList_iff_getElem?_eq_some.mp hent)
  have hord := Std.TreeMap.ordered_keys (t := m.windows)
  have hkeys : m.windows.keys.Pairwise (· < ·) :=
    hord.imp fun h => compareOfLessAndEq_eq_lt.mp h
  rw [← hids] at hkeys
  exact hkeys.sublist (filter_sublist.map _)

lemma visibleIds_congr (hk : Keyed m.windows) (hk' : Keyed m'.windows)
    (hd : m'.desktop = m.desktop) : m'.visibleIds = m.visibleIds := by
  refine (pairwise_visibleIds hk').eq_of_mem_iff (pairwise_visibleIds hk) fun id => ?_
  rw [mem_visibleIds_iff hk', mem_visibleIds_iff hk, hd]

def cyclePos (m : WindowManager) : ℕ :=
  (m.visibleIds.findIdx? fun i => decide (m.focused.getD 0 < i)).getD 0

lemma cyclePos_lt (hne : m.visibleIds ≠ []) : m.cyclePos < m.visibleIds.length := by
  unfold cyclePos
  cases hfind : m.visibleIds.findIdx? fun i => decide (m.focused.getD 0 < i) with
  | none => exact length_pos_iff.mpr hne
  | some k => exact (findIdx?_eq_some_iff_getElem.mp hfind).1

/-- **One call** gives the focus to a visible window and changes no placement. -/
theorem cycleFocus_spec (hs : m.Sound) (hne : m.visibleIds ≠ []) :
    m.cycleFocus.2.focused = m.visibleIds[m.cyclePos]? ∧ m.cycleFocus.2.desktop = m.desktop := by
  obtain ⟨id, hget⟩ : ∃ id, m.visibleIds[m.cyclePos]? = some id :=
    ⟨_, getElem?_eq_getElem (cyclePos_lt hne)⟩
  have hcyc : m.cycleFocus = m.focus id := by
    unfold cycleFocus
    dsimp only
    split
    · rename_i hnone
      cases hget.symm.trans hnone
    · rename_i id' hid'
      cases hget.symm.trans hid'
      rfl
  obtain ⟨p, hp, hvis, hmin⟩ :=
    (mem_visibleIds_iff hs.keyed).mp (mem_of_getElem? hget)
  rw [hcyc, hget]
  constructor
  · rcases focus_cases hs.keyed id with hsame | ⟨-, hview, -⟩
    · obtain ⟨w, hw, -⟩ := Option.map_eq_some_iff.mp hp
      simp only [focus, hw]
      rfl
    · exact congrArg FocusView.focused hview
  · rw [desktop_focus]
    refine Desktop.alter_of_eq ?_
    rw [hp, Option.map_some]
    exact congrArg some (Placement.ext rfl hmin.symm hvis.symm)

/-- **All calls**: after `i + 1` of them the focus is `i` places further on the ring. -/
theorem iterate_cycleFocus (hs : m.Sound) (hne : m.visibleIds ≠ []) (i : ℕ) :
    let m' := (fun m => m.cycleFocus.2)^[i + 1] m
    m'.Sound ∧ m'.desktop = m.desktop ∧
      m'.focused = m.visibleIds[(i + m.cyclePos) % m.visibleIds.length]? := by
  induction i with
  | zero =>
    obtain ⟨hfoc, hd⟩ := cycleFocus_spec hs hne
    refine ⟨(keeps_cycleFocus m).sound hs, hd, ?_⟩
    rw [Nat.zero_add m.cyclePos, Nat.mod_eq_of_lt (cyclePos_lt hne)]
    exact hfoc
  | succ i ih =>
    rw [Function.iterate_succ_apply']
    set m₁ := (fun m => m.cycleFocus.2)^[i + 1] m
    obtain ⟨hs₁, hd₁, hfoc₁⟩ := ih
    have hids : m₁.visibleIds = m.visibleIds := visibleIds_congr hs.keyed hs₁.keyed hd₁
    have hk : (i + m.cyclePos) % m.visibleIds.length < m.visibleIds.length :=
      Nat.mod_lt _ (length_pos_iff.mpr hne)
    obtain ⟨hfoc, hd⟩ := cycleFocus_spec hs₁ (hids.symm ▸ hne)
    refine ⟨(keeps_cycleFocus m₁).sound hs₁, hd.trans hd₁, hfoc.trans ?_⟩
    have hpos : m₁.cyclePos = (i + 1 + m.cyclePos) % m.visibleIds.length := by
      unfold cyclePos at hk hfoc₁ ⊢
      rw [hids, hfoc₁, getElem?_eq_getElem hk, Option.getD_some,
        findIdx?_next (pairwise_visibleIds hs.keyed) hk, Nat.mod_add_mod]
      congr 1
      omega
    rw [hids, hpos]

/-- Cycling gives the focus to each visible window once, and changes none of them. -/
def CyclesAll (m : WindowManager) : Prop :=
  ∃ ids : List WindowId, ids.Nodup ∧
    (∀ id, id ∈ ids ↔ ∃ w, m.windows[id]? = some w ∧ w.visible = true ∧ w.state ≠ .minimized) ∧
    ((range ids.length).map fun i => ((fun m => m.cycleFocus.2)^[i + 1] m).focused).Perm
      (ids.map some) ∧
    ∀ i, i ≤ ids.length → ∀ id : WindowId,
      ((fun m => m.cycleFocus.2)^[i] m).windows[id]?.map Window.visible =
        m.windows[id]?.map Window.visible

lemma visible_of_desktop (hd : m'.desktop = m.desktop) (id : WindowId) :
    m'.windows[id]?.map Window.visible = m.windows[id]?.map Window.visible := by
  have hwin := congrArg (Option.map Placement.visible) (congrFun (congrArg Desktop.windows hd) id)
  simpa [desktop, Function.comp_def, Window.placement] using hwin

/-- **The focus goes around** in every state that a run reaches. -/
theorem throughout_cyclesAll (area : ScreenArea) (ops : List WmOp) :
    Run.Throughout WindowManager.step CyclesAll (new area) ops := by
  intro _ m _ hrun
  have hs := (arranged_run hrun).sound
  refine ⟨m.visibleIds, (pairwise_visibleIds hs.keyed).nodup, fun id => ?_, ?_, fun i hi id => ?_⟩
  · rw [mem_visibleIds_iff hs.keyed]
    simp [desktop, Window.placement]
  · -- the focused ids are the ring, from the first one on
    have hring : (range m.visibleIds.length).map
        (fun i => ((fun m => m.cycleFocus.2)^[i + 1] m).focused) =
          (m.visibleIds.rotate m.cyclePos).map some := by
      refine ext_getElem (by simp) fun i hi _ => ?_
      have hlt : i < m.visibleIds.length := by simpa using hi
      have hne : m.visibleIds ≠ [] := length_pos_iff.mp (Nat.zero_lt_of_lt hlt)
      rw [getElem_map, getElem_map, getElem_range, getElem_rotate,
        (iterate_cycleFocus hs hne i).2.2, getElem?_eq_getElem]
    rw [hring]
    exact (rotate_perm _ _).map some
  · cases i with
    | zero => rfl
    | succ i =>
      have hne : m.visibleIds ≠ [] := length_pos_iff.mp (Nat.zero_lt_of_lt hi)
      exact visible_of_desktop (iterate_cycleFocus hs hne i).2.1 id

end WindowManager

end Aether.Wm
