import Aether.Wm.Equiv.Desktop
import Aether.Wm.Equiv.Focus

/-!
# The visible windows of the window manager

Every operation is one of the changes of the desktop (`desktop_focus`, `desktop_close`, …), and with
them come the conditions under which it keeps the visible windows right.
-/

namespace Aether.Wm

open OrderedMap (getElem?_insert getElem?_erase getElem?_modify map_getElem?_modify)

def Window.placement (w : Window) : Placement :=
  ⟨w.workspaceId, decide (w.state = .minimized), w.visible⟩

namespace WindowManager

open Desktop Placement

variable {m m' : WindowManager} {id : WindowId}

def desktop (m : WindowManager) : Desktop where
  windows id := m.windows[id]?.map Window.placement
  members k := m.workspaces[k]?.map Workspace.windows
  active := m.activeWorkspace
  nextId := m.nextId

lemma alter_of_absent (hw : m.windows[id]? = none) (f : Placement → Placement) :
    m.desktop.alter id f = m.desktop := by
  refine alter_of_eq ?_
  show (m.windows[id]?.map Window.placement).map f = m.windows[id]?.map Window.placement
  rw [hw]
  rfl

variable {f : Window → Window} {g : Placement → Placement} {appId title : String}
  {created : Option Window} {k : UInt32}

lemma desktop_modifyWindow (m : WindowManager) (id : WindowId)
    (hf : ∀ w, (f w).placement = g w.placement) :
    (m.modifyWindow id f).desktop = m.desktop.alter id g :=
  Desktop.ext (funext fun _ => map_getElem?_modify hf) rfl rfl rfl

lemma desktop_modifyWindow_same (m : WindowManager) (id : WindowId)
    (hf : ∀ w, (f w).placement = w.placement) : (m.modifyWindow id f).desktop = m.desktop := by
  rw [desktop_modifyWindow m id (g := fun p => p) hf]
  exact alter_of_eq Option.map_id'

lemma desktop_focusTopmost (m : WindowManager) (p : Window → Bool) :
    (m.focusTopmost p).desktop = m.desktop := by
  unfold focusTopmost
  split
  · rfl
  · exact desktop_modifyWindow_same m _ fun _ => rfl

lemma focusTopmost_stack (m : WindowManager) (p : Window → Bool) :
    (m.focusTopmost p).stack = m.stack := by
  unfold focusTopmost
  split <;> rfl

lemma desktop_focus (m : WindowManager) (id : WindowId) :
    (m.focus id).2.desktop = m.desktop.alter id Placement.raised := by
  unfold focus
  cases hw : m.windows[id]? with
  | none =>
    exact (alter_of_absent hw _).symm
  | some w =>
    have hgain : ∀ w, (gainFocus w).placement = w.placement.raised := by
      intro w
      refine Placement.ext rfl ?_ rfl
      show decide ((if w.state = .minimized then .normal else w.state) = .minimized) = false
      split
      · rfl
      · rename_i hst
        simpa using hst
    rw [← desktop_modifyWindow m id hgain]
    refine Desktop.ext (funext fun k => ?_) rfl rfl rfl
    show ((m.windows.modify id gainFocus).map fun _ => loseFocus id)[k]?.map Window.placement =
      (m.windows.modify id gainFocus)[k]?.map Window.placement
    rw [Std.TreeMap.getElem?_map, Option.map_map]
    congr 1
    funext w
    show (loseFocus id w).placement = w.placement
    unfold loseFocus
    split <;> rfl

lemma desktop_minimize (m : WindowManager) (id : WindowId) :
    (m.minimize id).2.desktop = m.desktop.alter id Placement.lowered := by
  unfold minimize
  cases hw : m.windows[id]? with
  | none =>
    exact (alter_of_absent hw _).symm
  | some w =>
    rw [← desktop_modifyWindow m id (f := shrink) fun _ => rfl]
    dsimp only
    split
    · exact desktop_focusTopmost _ _
    · rfl

lemma desktop_maximize (m : WindowManager) (id : WindowId) (harea : m.area ≠ none) :
    (m.apply (.maximize id)).2.desktop = m.desktop.alter id Placement.raised := by
  obtain ⟨area, harea⟩ := Option.ne_none_iff_exists'.mp harea
  simp only [apply, harea]
  cases hw : m.windows[id]? with
  | none =>
    exact (alter_of_absent hw _).symm
  | some w =>
    show ((m.modifyWindow id (fill area)).focus id).2.desktop = _
    rw [desktop_focus, desktop_modifyWindow m id (g := fun p => p.raised) fun w => ?_, alter_alter]
    · rfl
    · rfl

lemma placement_unfill (w : Window) :
    (unfill w).placement.raised = w.placement.raised := by
  unfold unfill
  split
  · rfl
  · split <;> rfl
  · rfl

lemma desktop_restore (m : WindowManager) (id : WindowId) :
    (m.apply (.restore id)).2.desktop = m.desktop.alter id Placement.raised := by
  simp only [apply]
  cases hw : m.windows[id]? with
  | none =>
    exact (alter_of_absent hw _).symm
  | some w =>
    show ((m.modifyWindow id unfill).focus id).2.desktop = _
    rw [desktop_focus]
    refine Desktop.ext (funext fun k => ?_) rfl rfl rfl
    simp only [alter, desktop, modifyWindow, getElem?_modify]
    split
    · cases m.windows[k]? with
      | none => rfl
      | some w => simp [placement_unfill]
    · rfl

lemma desktop_modifyWorkspace (m : WindowManager) (k : UInt32) {f : Workspace → Workspace}
    {g : List WindowId → List WindowId} (hf : ∀ ws, (f ws).windows = g ws.windows) :
    (m.modifyWorkspace k f).desktop = m.desktop.alterMembers k g :=
  Desktop.ext rfl (funext fun _ => map_getElem?_modify hf) rfl rfl

lemma create_desktop {pw ph : UInt32} (h : m.create appId title pw ph = some (created, m')) :
    (created = none ∧ m' = m) ∨ ∃ window : Window, created = some window ∧
      m.nextId < window.id ∧ m'.desktop = m.desktop.add window.id ∧
      m'.stack = m.stack ++ [window.id] ∧ m'.windows[window.id]? = some window := by
  rcases create_cases h with hnone | ⟨window, hcre, hid, hnew, rfl⟩
  · exact Or.inl hnone
  · obtain ⟨-, hvis, hst, hws⟩ := hnew
    have hlt : m.nextId < window.id := by
      have hsum := (Checked.addU64_eq_some_iff _ _ _).mp hid
      rw [UInt64.lt_iff_toNat_lt]
      have hone : (1 : UInt64).toNat = 1 := rfl
      omega
    have hpla : window.placement = ⟨m.activeWorkspace, false, true⟩ := by
      rw [Window.placement, hvis, hst, hws]
      rfl
    refine Or.inr ⟨window, hcre, hlt, ?_, rfl, ?_⟩
    · refine Desktop.ext (funext fun j => ?_) (funext fun k => ?_) rfl rfl
      · show ((m.windows.map fun _ => unfocus).insert window.id window)[j]?.map Window.placement =
          if window.id = j then some ⟨m.activeWorkspace, false, true⟩
          else m.windows[j]?.map Window.placement
        rw [getElem?_insert]
        split
        · rw [Option.map_some, hpla]
        · rw [Std.TreeMap.getElem?_map, Option.map_map]
          rfl
      · exact map_getElem?_modify fun _ => rfl
    · show ((m.windows.map fun _ => unfocus).insert window.id window)[window.id]? = _
      rw [getElem?_insert, if_pos rfl]

lemma createTracked_desktop {sessionId : String} {pw ph : UInt32} {surfaceId : Option String}
    {processId : Option UInt32}
    (h : m.createTracked appId title pw ph surfaceId processId sessionId = some (created, m')) :
    m' = m ∨ ∃ id, m.nextId < id ∧ m'.desktop = m.desktop.add id ∧ m'.stack = m.stack ++ [id] := by
  unfold createTracked at h
  rw [Option.bind_eq_bind, Option.bind_eq_some_iff] at h
  obtain ⟨⟨created₁, m₁⟩, hcr, h⟩ := h
  rcases create_desktop hcr with ⟨rfl, hsame⟩ | ⟨window, rfl, hid, hadd, hsta, hwin⟩
  · cases h
    exact .inl hsame
  · -- the window is inserted once more, in the same place
    cases h
    refine .inr ⟨window.id, hid, ?_, hsta⟩
    rw [← hadd]
    refine Desktop.ext (funext fun j => ?_) rfl rfl rfl
    show (m₁.windows.insert window.id _)[j]?.map Window.placement =
      m₁.windows[j]?.map Window.placement
    rw [getElem?_insert]
    split
    · rename_i heq
      subst heq
      rw [hwin]
      rfl
    · rfl

lemma close_desktop (m : WindowManager) (id : WindowId) :
    (m.close id).2 = m ∨ ∃ k, m.desktop.homeOf id = some k ∧
      (m.close id).2.desktop = m.desktop.remove id k ∧
      (m.close id).2.stack = m.stack.filter fun w => w != id := by
  unfold close
  cases hw : m.windows[id]? with
  | none => exact .inl rfl
  | some w =>
    have hhome : m.desktop.homeOf id = some w.workspaceId := by
      show (m.windows[id]?.map Window.placement).map workspace = _
      rw [hw]
      rfl
    have hdet : (m.detach id w.workspaceId).desktop = m.desktop.remove id w.workspaceId := by
      refine Desktop.ext (funext fun j => ?_) (funext fun k => ?_) rfl rfl
      · show (m.windows.erase id)[j]?.map Window.placement =
          if id = j then none else m.windows[j]?.map Window.placement
        rw [getElem?_erase]
        split <;> rfl
      · exact map_getElem?_modify fun _ => rfl
    refine .inr ⟨w.workspaceId, hhome, ?_⟩
    rw [← hdet]
    dsimp only
    split
    · exact ⟨desktop_focusTopmost _ _, focusTopmost_stack _ _⟩
    · exact ⟨rfl, rfl⟩

lemma le_of_max?_eq_some {l : List UInt32} {a : UInt32} (h : l.max? = some a) (hk : k ∈ l) :
    k ≤ a := by
  have hsup : Std.LawfulOrderSup UInt32 := by
    constructor
    intro a b c
    show (if a ≤ b then b else a) ≤ c ↔ a ≤ c ∧ b ≤ c
    simp only [UInt32.le_iff_toNat_le]
    split <;> omega
  exact (List.max?_le_iff h).mp (UInt32.le_refl a) k hk

lemma getElem?_nextWorkspaceId (h : m.nextWorkspaceId = some k)
    (hroot : m.workspaces[(0 : UInt32)]? ≠ none) : m.workspaces[k]? = none := by
  have hkeys : ∀ {k : UInt32}, m.workspaces[k]? ≠ none → k ∈ m.workspaces.keys := by
    intro k hk
    rw [Std.TreeMap.mem_keys, Std.TreeMap.mem_iff_isSome_getElem?]
    exact Option.isSome_iff_ne_none.mpr hk
  unfold nextWorkspaceId at h
  cases hmax : m.workspaces.keys.max? with
  | none =>
    rw [List.max?_eq_none_iff] at hmax
    have hzero := hkeys hroot
    rw [hmax] at hzero
    cases hzero
  | some a =>
    rw [hmax] at h
    have hk := (Checked.addU32_eq_some_iff _ _ _).mp h
    have hone : (1 : UInt32).toNat = 1 := rfl
    by_contra hne
    have hle := UInt32.le_iff_toNat_le.mp (le_of_max?_eq_some hmax (hkeys hne))
    omega

lemma createWorkspace_desktop {name : String} (h : m.createWorkspace name = some (k, m'))
    (hroot : m.desktop.members 0 ≠ none) :
    m.desktop.members k = none ∧ m'.desktop = m.desktop.addWorkspace k := by
  unfold createWorkspace at h
  rw [Option.bind_eq_bind, Option.bind_eq_some_iff] at h
  obtain ⟨nextId, hnext, h⟩ := h
  obtain ⟨rfl, rfl⟩ := Prod.mk.inj (Option.some.inj h)
  refine ⟨?_, Desktop.ext rfl (funext fun j => ?_) rfl rfl⟩
  · show m.workspaces[nextId]?.map Workspace.windows = none
    rw [Option.map_eq_none_iff]
    exact getElem?_nextWorkspaceId hnext (by simpa [desktop] using hroot)
  · show (m.workspaces.insert nextId _)[j]?.map Workspace.windows =
      if nextId = j then some [] else m.workspaces[j]?.map Workspace.windows
    rw [getElem?_insert]
    split <;> rfl

lemma desktop_foldl_rehome (wids : List WindowId) (m : WindowManager) :
    (wids.foldl rehome m).desktop =
      (m.desktop.alterAll wids Placement.toRoot).alterMembers 0 fun l => l ++ wids := by
  induction wids generalizing m with
  | nil =>
    rw [alterAll_nil]
    refine Desktop.ext rfl (funext fun j => ?_) rfl rfl
    simp [alterMembers]
  | cons wid wids ih =>
    rw [List.foldl_cons, ih, desktop_modifyWindow _ wid (g := toRoot) fun _ => rfl,
      desktop_modifyWorkspace m 0 (g := fun l => l ++ [wid]) fun _ => rfl]
    have hmem :
        (fun l : List WindowId => l ++ wid :: wids) = fun l => (l ++ [wid]) ++ wids := by
      funext l
      simp
    rw [← alterAll_cons (f := toRoot) (fun _ => rfl), hmem]
    exact alterMembers_alterMembers
      (d := (m.desktop.alter wid toRoot).alterAll wids toRoot)
      (fun l => l ++ [wid]) fun l => l ++ wids

lemma destroyWorkspace_desktop (h : m.desktop.Filed) (k : UInt32) :
    ((k = 0 ∨ m.desktop.members k = none) ∧ (m.destroyWorkspace k).2.desktop = m.desktop) ∨
      ∃ l, k ≠ 0 ∧ m.desktop.members k = some l ∧
        (m.destroyWorkspace k).2.desktop = m.desktop.destroy k l := by
  unfold destroyWorkspace
  split
  · rename_i hk
    exact .inl ⟨.inl hk, rfl⟩
  rename_i hk
  cases hws : m.workspaces[k]? with
  | none => exact .inl ⟨.inr (by simp [desktop, hws]), rfl⟩
  | some ws =>
    have hl : m.desktop.members k = some ws.windows := by simp [desktop, hws]
    refine .inr ⟨ws.windows, hk, hl, ?_⟩
    have hroot : (m.workspaces.erase k).contains 0 = true := by
      rw [Std.TreeMap.contains_iff_mem, Std.TreeMap.mem_iff_isSome_getElem?, getElem?_erase,
        if_neg hk, Option.isSome_iff_ne_none]
      simpa [desktop] using h.root
    have hmv := desktop_foldl_rehome ws.windows { m with workspaces := m.workspaces.erase k }
    dsimp only
    rw [if_pos hroot]
    set moved := ws.windows.foldl rehome { m with workspaces := m.workspaces.erase k }
    have hwins : moved.desktop.windows = (m.desktop.destroy k ws.windows).windows := by
      rw [hmv]
      show (m.desktop.alterAll ws.windows toRoot).windows = _
      rw [alterAll_eq_alterIn h hl]
      rfl
    have hmem : moved.desktop.members = (m.desktop.destroy k ws.windows).members := by
      rw [hmv]
      funext j
      show (if 0 = j then ((m.workspaces.erase k)[j]?.map Workspace.windows).map _
        else (m.workspaces.erase k)[j]?.map Workspace.windows) =
          if k = j then none else if 0 = j then (m.workspaces[j]?.map Workspace.windows).map _
            else m.workspaces[j]?.map Workspace.windows
      rw [getElem?_erase]
      by_cases hkj : k = j
      · subst hkj
        simp [Ne.symm hk]
      · rw [if_neg hkj, if_neg hkj]
    have hact : moved.activeWorkspace = m.activeWorkspace := congrArg Desktop.active hmv
    have hnext : moved.nextId = m.nextId := congrArg Desktop.nextId hmv
    rw [hact]
    split
    · rename_i hk'
      refine Desktop.ext hwins hmem ?_ hnext
      exact (if_pos hk').symm
    · rename_i hk'
      refine Desktop.ext hwins hmem ?_ hnext
      exact hact.trans (if_neg hk').symm

lemma desktop_foldl_modifyWindow (hf : ∀ w, (f w).placement = g w.placement)
    (hg : ∀ p, g (g p) = g p) (wids : List WindowId) (m : WindowManager) :
    (wids.foldl (fun m wid => m.modifyWindow wid f) m).desktop = m.desktop.alterAll wids g := by
  induction wids generalizing m with
  | nil => exact (alterAll_nil g).symm
  | cons wid wids ih => rw [List.foldl_cons, ih, desktop_modifyWindow m wid hf, alterAll_cons hg]

lemma hidden_hidden (p : Placement) : p.hidden.hidden = p.hidden := by
  unfold Placement.hidden
  split
  · simp
  · rfl

lemma desktop_hideWindows (m : WindowManager) (wids : List WindowId) :
    (m.hideWindows wids).desktop = m.desktop.alterAll wids Placement.hidden := by
  refine desktop_foldl_modifyWindow (fun w => ?_) hidden_hidden wids m
  unfold Placement.hidden
  by_cases hst : w.state = .minimized <;> simp [Window.placement, hst]

lemma desktop_showWindows (m : WindowManager) (wids : List WindowId) :
    (m.showWindows wids).desktop = m.desktop.alterAll wids Placement.shown :=
  desktop_foldl_modifyWindow (g := shown) (fun _ => rfl) (fun _ => rfl) wids m

lemma desktop_swapWindows (h : m.desktop.Filed) {ws : Workspace}
    (hws : m.workspaces[k]? = some ws) :
    (swapWindows { m with activeWorkspace := k } m.activeWorkspace ws.windows).desktop =
      m.desktop.activate k := by
  have hl : m.desktop.members k = some ws.windows := by simp [desktop, hws]
  have hhid := filed_alterIn (k := m.desktop.active) hidden_workspace h
  obtain ⟨oldWs, hold, holdl⟩ : ∃ oldWs, m.workspaces[m.activeWorkspace]? = some oldWs ∧
      m.desktop.members m.desktop.active = some oldWs.windows := by
    obtain ⟨l, hact⟩ := Option.ne_none_iff_exists'.mp h.active
    obtain ⟨oldWs, hold, rfl⟩ := Option.map_eq_some_iff.mp hact
    exact ⟨oldWs, hold, hact⟩
  unfold swapWindows
  simp only [hold]
  rw [desktop_showWindows, desktop_hideWindows]
  show { (m.desktop.alterAll oldWs.windows Placement.hidden).alterAll ws.windows
    Placement.shown with active := k } = _
  rw [alterAll_eq_alterIn h holdl, alterAll_eq_alterIn hhid hl]
  rfl

lemma activateWorkspace_desktop (h : m.desktop.Filed) (k : UInt32) :
    (m.desktop.members k = none ∧ (m.activateWorkspace k).2.desktop = m.desktop) ∨
      (m.desktop.members k ≠ none ∧
        (m.activateWorkspace k).2.desktop = m.desktop.activate k) := by
  unfold activateWorkspace
  cases hws : m.workspaces[k]? with
  | none => exact .inl ⟨by simp [desktop, hws], rfl⟩
  | some ws =>
    refine .inr ⟨by simp [desktop, hws], ?_⟩
    rw [← desktop_swapWindows h hws]
    exact desktop_focusTopmost _ _

lemma moveWindowToWorkspace_desktop (m : WindowManager) (wid : WindowId) (target : UInt32) :
    ((m.desktop.members target = none ∨ m.desktop.windows wid = none) ∧
        (m.moveWindowToWorkspace wid target).2.desktop = m.desktop) ∨
      ∃ k, m.desktop.members target ≠ none ∧ m.desktop.homeOf wid = some k ∧
        (m.moveWindowToWorkspace wid target).2.desktop = m.desktop.moveTo wid k target := by
  have hcon : m.workspaces.contains target = true ↔ m.desktop.members target ≠ none := by
    rw [Std.TreeMap.contains_iff_mem, Std.TreeMap.mem_iff_isSome_getElem?,
      Option.isSome_iff_ne_none]
    simp [desktop]
  unfold moveWindowToWorkspace
  split
  · rename_i htgt
    rw [Bool.not_eq_eq_eq_not, Bool.not_true, ← Bool.not_eq_true, hcon, not_not] at htgt
    exact .inl ⟨.inl htgt, rfl⟩
  · rename_i htgt
    cases hw : m.windows[wid]? with
    | none => exact .inl ⟨.inr (by simp [desktop, hw]), rfl⟩
    | some w =>
      rw [Bool.not_eq_true, Bool.not_eq_false', hcon] at htgt
      refine .inr ⟨w.workspaceId, htgt, ?_, ?_⟩
      · simp [homeOf, desktop, hw, Window.placement]
      · show (((m.modifyWindow wid _).modifyWorkspace w.workspaceId _).modifyWorkspace target
          _).desktop = _
        rw [desktop_modifyWorkspace _ target (g := fun l => l ++ [wid]) fun _ => rfl,
          desktop_modifyWorkspace _ w.workspaceId
            (g := fun l : List WindowId => l.filter fun w => w != wid) fun _ => rfl,
          desktop_modifyWindow m wid (g := fun p => { p with workspace := target }) fun _ => rfl]
        rfl

lemma filed_new (area : ScreenArea) : (new area).desktop.Filed := by
  have hmem : ∀ k, (new area).desktop.members k = if 0 = k then some [] else none := by
    intro k
    show ((∅ : Std.TreeMap UInt32 Workspace).insert 0 _)[k]?.map Workspace.windows = _
    rw [getElem?_insert]
    split
    · rfl
    · simp
  have hhome : ∀ id, (new area).desktop.homeOf id = none := by
    intro id
    simp [homeOf, desktop, new]
  refine ⟨by simp [hmem], by rw [hmem]; simp [desktop, new], ?_, ?_, ?_⟩
  · intro k l hl id
    rw [hmem] at hl
    split at hl
    · cases hl
      simp [hhome]
    · cases hl
  · intro id k hk
    rw [hhome] at hk
    cases hk
  · intro id k hk
    rw [hhome] at hk
    cases hk

structure Shifts (m m' : WindowManager) (C : Prop) : Prop where
  filed : m.desktop.Filed → m'.desktop.Filed
  shows_iff : m.desktop.Shows → (m'.desktop.Shows ↔ C)

lemma Shifts.of_desktop {d : Desktop} {C : Prop} (h : m'.desktop = d)
    (hfil : m.desktop.Filed → d.Filed) (hsho : m.desktop.Shows → (d.Shows ↔ C)) :
    Shifts m m' C := by
  subst h
  exact ⟨hfil, hsho⟩

lemma Shifts.of_shows {d : Desktop} (h : m'.desktop = d) (hfil : m.desktop.Filed → d.Filed)
    (hsho : m.desktop.Shows → d.Shows) : Shifts m m' True :=
  .of_desktop h hfil fun hs => iff_of_true (hsho hs) trivial

lemma Shifts.of_eq (h : m'.desktop = m.desktop) : Shifts m m' True :=
  .of_shows h (fun hf => hf) fun hs => hs

lemma Shifts.mono {C C' : Prop} (h : Shifts m m' C) (hC : C ↔ C') : Shifts m m' C' :=
  ⟨h.filed, fun hs => (h.shows_iff hs).trans hC⟩

def InActive (m : WindowManager) (id : WindowId) : Prop :=
  ∀ w, m.windows[id]? = some w → w.workspaceId = m.activeWorkspace

lemma shifts_raise (h : m'.desktop = m.desktop.alter id Placement.raised) :
    Shifts m m' (m.InActive id) := by
  refine .of_desktop h (filed_alter fun _ => rfl) fun hs => ?_
  rw [shows_raise_iff hs]
  simp [desktop, InActive, Window.placement]

lemma shifts_lower (h : m'.desktop = m.desktop.alter id Placement.lowered) :
    Shifts m m' True :=
  .of_shows h (filed_alter fun _ => rfl) shows_lower

lemma shifts_add (hid : m.nextId < id) (h : m'.desktop = m.desktop.add id) :
    Shifts m m' True :=
  .of_shows h (fun hf => filed_add hf hid) fun hs => shows_add hs id

lemma shifts_close (m : WindowManager) (id : WindowId) : Shifts m (m.close id).2 True := by
  rcases m.close_desktop id with hsame | ⟨k, hk, hrem, -⟩
  · exact .of_eq (congrArg desktop hsame)
  · exact .of_shows hrem (fun hf => filed_remove hf hk) shows_remove

lemma shifts_cycleFocus (hk : Keyed m.windows) : Shifts m m.cycleFocus.2 True := by
  unfold cycleFocus
  dsimp only
  split
  · exact .of_eq rfl
  · rename_i id hid
    have hrai := shifts_raise (m.desktop_focus id)
    refine ⟨hrai.filed, fun hs => (hrai.shows_iff hs).trans (iff_of_true ?_ trivial)⟩
    obtain ⟨w, hw, hwid⟩ := List.mem_map.mp (List.mem_of_getElem? hid)
    obtain ⟨hmem, hfoc⟩ := List.mem_filter.mp hw
    obtain ⟨⟨key, w'⟩, hent, rfl⟩ := List.mem_map.mp hmem
    rw [Std.TreeMap.mem_toList_iff_getElem?_eq_some] at hent
    have hkey : key = id := (hk key w' hent).symm.trans hwid
    subst hkey
    intro w hw
    cases hent.symm.trans hw
    have hvis : w'.visible = true := (Bool.and_eq_true_iff.mp hfoc).1
    have hsho := (hs key w'.placement (by simp [desktop, hent])).mp hvis
    exact hsho.1

/-- The condition under which an operation keeps the visible windows right. -/
def KeepsVisible (m : WindowManager) : WmOp → Prop
  -- a window that gets the focus becomes visible, in whatever workspace it is
  | .apply (.focus id) | .apply (.restore id) => m.InActive id
  | .apply (.maximize id) => m.area ≠ none → m.InActive id
  -- windows change workspaces, or their workspace becomes the active one
  | .destroyWorkspace k => k ≠ 0 → m.workspaces[k]? ≠ none →
      (m.activeWorkspace = k → ∀ (id : WindowId) w, m.windows[id]? = some w → w.workspaceId = 0 →
        w.state = .minimized) ∧
      (m.activeWorkspace = 0 → ∀ (id : WindowId) w, m.windows[id]? = some w → w.workspaceId = k →
        w.state = .minimized)
  | .moveWindowToWorkspace wid target => m.workspaces[target]? ≠ none →
      ∀ w, m.windows[wid]? = some w → w.state ≠ .minimized →
        (w.workspaceId = m.activeWorkspace ↔ target = m.activeWorkspace)
  -- all windows of the workspace become visible
  | .activateWorkspace k => m.workspaces[k]? ≠ none →
      ∀ (id : WindowId) w, m.windows[id]? = some w → w.workspaceId = k → w.state ≠ .minimized
  | _ => True

lemma shifts_apply (m : WindowManager) (action : WindowAction) :
    Shifts m (m.apply action).2 (m.KeepsVisible (.apply action)) := by
  cases action with
  | focus id => exact shifts_raise (m.desktop_focus id)
  | restore id => exact shifts_raise (m.desktop_restore id)
  | maximize id =>
    by_cases harea : m.area = none
    · refine (Shifts.of_eq ?_).mono (iff_of_true trivial fun hne => absurd harea hne)
      simp only [apply, harea]
    · refine (shifts_raise (m.desktop_maximize id harea)).mono ?_
      exact ⟨fun h _ => h, fun h => h harea⟩
  | minimize id => exact shifts_lower (m.desktop_minimize id)
  | close id => exact shifts_close m id
  | move id x y =>
    refine Shifts.of_eq ?_
    simp only [apply]
    split
    · rfl
    · exact desktop_modifyWindow_same m id fun _ => rfl
  | resize id width height =>
    refine Shifts.of_eq ?_
    simp only [apply]
    split
    · rfl
    · exact desktop_modifyWindow_same m id fun _ => rfl

lemma members_ne_none_iff : m.desktop.members k ≠ none ↔ m.workspaces[k]? ≠ none := by
  simp [desktop]

lemma shifts_destroyWorkspace (hf : m.desktop.Filed) (k : UInt32) :
    Shifts m (m.destroyWorkspace k).2 (m.KeepsVisible (.destroyWorkspace k)) := by
  rcases destroyWorkspace_desktop hf k with ⟨hnone, hsame⟩ | ⟨l, hk, hl, hdes⟩
  · refine (Shifts.of_eq hsame).mono (iff_of_true trivial fun hk hws => ?_)
    rcases hnone with hzero | hnone
    · exact absurd hzero hk
    · exact absurd hnone (members_ne_none_iff.mpr hws)
  · have hws : m.workspaces[k]? ≠ none := members_ne_none_iff.mp (by simp [hl])
    refine .of_desktop hdes (fun hf => filed_destroy hf hk hl) fun hs => ?_
    rw [shows_destroy_iff hs hk]
    simp [desktop, Window.placement, KeepsVisible, hk, hws]

lemma shifts_activateWorkspace (hf : m.desktop.Filed) (k : UInt32) :
    Shifts m (m.activateWorkspace k).2 (m.KeepsVisible (.activateWorkspace k)) := by
  rcases activateWorkspace_desktop hf k with ⟨hnone, hsame⟩ | ⟨hk, hact⟩
  · refine (Shifts.of_eq hsame).mono (iff_of_true trivial fun hws => ?_)
    exact absurd hnone (members_ne_none_iff.mpr hws)
  · have hws := members_ne_none_iff.mp hk
    refine .of_desktop hact (fun hf => filed_activate hf hk) fun hs => ?_
    rw [shows_activate_iff hs]
    simp [desktop, Window.placement, KeepsVisible, hws]

lemma shifts_moveWindowToWorkspace (m : WindowManager) (wid : WindowId) (target : UInt32) :
    Shifts m (m.moveWindowToWorkspace wid target).2
      (m.KeepsVisible (.moveWindowToWorkspace wid target)) := by
  rcases m.moveWindowToWorkspace_desktop wid target with ⟨hnone, hsame⟩ | ⟨k, htgt, hk, hmove⟩
  · refine (Shifts.of_eq hsame).mono (iff_of_true trivial fun hws w hw => ?_)
    rcases hnone with hnone | hnone
    · exact absurd hnone (members_ne_none_iff.mpr hws)
    · simp [desktop, hw] at hnone
  · have hws := members_ne_none_iff.mp htgt
    refine .of_desktop hmove (fun hf => filed_moveTo hf hk htgt) fun hs => ?_
    rw [shows_moveTo_iff hs]
    simp [desktop, Window.placement, KeepsVisible, hws]

/-- **One operation**. -/
theorem shifts_step (hk : Keyed m.windows) (hf : m.desktop.Filed) {op : WmOp}
    (h : m.step op = some m') : Shifts m m' (m.KeepsVisible op) := by
  cases op with
  | create appId title w ht =>
    obtain ⟨⟨created, m₁⟩, hcr, rfl⟩ := Option.map_eq_some_iff.mp h
    rcases create_desktop hcr with ⟨-, hsame⟩ | ⟨window, -, hid, hadd, -⟩
    · exact .of_eq (congrArg desktop hsame)
    · exact shifts_add hid hadd
  | createTracked appId title w ht surfaceId processId sessionId =>
    obtain ⟨⟨created, m₁⟩, hcr, rfl⟩ := Option.map_eq_some_iff.mp h
    rcases createTracked_desktop hcr with hsame | ⟨id, hid, hadd, -⟩
    · exact .of_eq (congrArg desktop hsame)
    · exact shifts_add hid hadd
  | apply action =>
    cases h
    exact shifts_apply m action
  | close id =>
    cases h
    exact shifts_close m id
  | cycleFocus =>
    cases h
    exact shifts_cycleFocus hk
  | createWorkspace name =>
    obtain ⟨⟨k, m₁⟩, hcr, rfl⟩ := Option.map_eq_some_iff.mp h
    obtain ⟨hnew, hadd⟩ := createWorkspace_desktop hcr hf.root
    exact .of_shows hadd (fun hf => filed_addWorkspace hf hnew) fun hs => hs
  | destroyWorkspace k =>
    cases h
    exact shifts_destroyWorkspace hf k
  | activateWorkspace k =>
    cases h
    exact shifts_activateWorkspace hf k
  | moveWindowToWorkspace wid target =>
    cases h
    exact shifts_moveWindowToWorkspace m wid target
  | drainEvents =>
    cases h
    exact .of_eq rfl

/-- Visible are exactly the windows of the active workspace that are not minimized. -/
def VisibleOk (m : WindowManager) : Prop :=
  ∀ (id : WindowId) w, m.windows[id]? = some w →
    (w.visible = true ↔ w.workspaceId = m.activeWorkspace ∧ w.state ≠ .minimized)

lemma visibleOk_iff : m.VisibleOk ↔ m.desktop.Shows := by
  simp [VisibleOk, Desktop.Shows, desktop, Window.placement]

lemma keepsVisible_of_step_eq_none {op : WmOp} (h : m.step op = none) : m.KeepsVisible op := by
  cases op with
  | create => trivial
  | createTracked => trivial
  | createWorkspace => trivial
  | _ => cases h

/-- In every state that a run reaches the visible windows are right, exactly if every operation of
the run meets its condition. -/
theorem throughout_visibleOk_iff (area : ScreenArea) (ops : List WmOp) :
    Run.Throughout step VisibleOk (new area) ops ↔ Run.Along step KeepsVisible (new area) ops := by
  refine Run.throughout_iff_along (I := fun m => m.Sound ∧ m.desktop.Filed) ?_ ?_
    ⟨sound_new area, filed_new area⟩ ?_ ops
  · rintro m op m' ⟨hs, hf⟩ h
    exact ⟨sound_step hs h, (shifts_step hs.keyed hf h).filed hf⟩
  · rintro m op ⟨hs, hf⟩ hok
    have hsho := visibleOk_iff.mp hok
    cases h : m.step op with
    | none => exact iff_of_true nofun (keepsVisible_of_step_eq_none h)
    | some m' =>
      have hshi := (shifts_step hs.keyed hf h).shows_iff hsho
      simp only [Option.some.injEq, forall_eq']
      exact visibleOk_iff.trans hshi
  · intro id w hw
    simp [new] at hw

def twoWorkspaces : List WmOp := [.create "app-a" "A" 400 300, .createWorkspace "Work"]

/-- A window is sent to another workspace and is still to be seen. -/
theorem moved_window_visible :
    ∃ m, Run.exec step (new ⟨0, 96, 1024, 616⟩) (twoWorkspaces ++ [.moveWindowToWorkspace 1 1]) =
      some m ∧ ¬ m.VisibleOk := by
  have hrun : (Run.exec step (new ⟨0, 96, 1024, 616⟩)
      (twoWorkspaces ++ [.moveWindowToWorkspace 1 1])).map
        (fun m => (m.activeWorkspace, m.windows[(1 : WindowId)]?.map Window.placement)) =
      some (0, some ⟨1, false, true⟩) := by decide +kernel
  obtain ⟨m, hm, hview⟩ := Option.map_eq_some_iff.mp hrun
  obtain ⟨hact, hwin⟩ := Prod.mk.inj hview
  obtain ⟨w, hw, hpla⟩ := Option.map_eq_some_iff.mp hwin
  refine ⟨m, hm, fun hok => ?_⟩
  have hvis : w.visible = true := congrArg visible hpla
  have hws : w.workspaceId = 1 := congrArg workspace hpla
  have hhome := ((hok 1 w hw).mp hvis).1
  rw [hact, hws] at hhome
  cases hhome

/-!
## The focus over whole runs

`activate_workspace` gives the focus to the topmost window of the workspace that is not minimized,
without taking the flag from the window that had it.
-/

/-- The topmost window of a workspace that is not minimized. -/
def topmostIn (m : WindowManager) (k : UInt32) : Option WindowId :=
  m.stack.reverse.find? fun wid =>
    (m.windows[wid]?).any fun w => w.workspaceId == k && w.state != .minimized

/-- When an operation keeps flags and focused id in agreement: an activation finds no such
workspace, no focus, or the focus on the window that it gives it to. -/
def KeepsFocus (m : WindowManager) : WmOp → Prop
  | .activateWorkspace k => m.workspaces[k]? = none ∨ m.focused = none ∨ m.topmostIn k = m.focused
  | _ => True

lemma focused_focusTopmost (m : WindowManager) (p : Window → Bool) :
    (m.focusTopmost p).focused = m.stack.reverse.find? fun wid => (m.windows[wid]?).any p := by
  unfold focusTopmost
  split <;> simp [*]

lemma stack_foldl {α : Type*} {f : WindowManager → α → WindowManager}
    (hf : ∀ m a, (f m a).stack = m.stack) (l : List α) (m : WindowManager) :
    (l.foldl f m).stack = m.stack := by
  induction l generalizing m with
  | nil => rfl
  | cons a l ih => exact (ih (f m a)).trans (hf m a)

lemma swapWindows_stack (m : WindowManager) (old : UInt32) (wids : List WindowId) :
    (m.swapWindows old wids).stack = m.stack := by
  have hshow : ∀ m : WindowManager, (m.showWindows wids).stack = m.stack := by
    refine stack_foldl (fun m wid => ?_) wids
    rfl
  have hhide : ∀ (l : List WindowId) (m : WindowManager), (m.hideWindows l).stack = m.stack := by
    refine stack_foldl fun m wid => ?_
    rfl
  unfold swapWindows
  dsimp only
  split
  · exact hshow m
  · exact (hshow _).trans (hhide _ m)

lemma any_activate (d : Desktop) (k : UInt32) (id : WindowId) :
    ((d.activate k).windows id).any (fun p => p.visible && p.workspace == k && !p.minimized) =
      (d.windows id).any fun p => p.workspace == k && !p.minimized := by
  simp only [activate, alterIn, Option.any_map]
  congr 1
  funext p
  -- what was hidden has kept its workspace, and those of `k` are shown
  set q := if p.workspace = d.active then p.hidden else p with hq
  have hws : q.workspace = p.workspace := by rw [hq]; split <;> simp [hidden_workspace]
  have hmin : q.minimized = p.minimized := by rw [hq]; split <;> simp [hidden_minimized]
  by_cases hk : p.workspace = k
  · simp [hws, hmin, hk, Placement.shown]
  · simp [hws, hmin, hk, beq_eq_false_iff_ne.mpr hk]

lemma focused_activateWorkspace (h : m.desktop.Filed) {ws : Workspace}
    (hws : m.workspaces[k]? = some ws) : (m.activateWorkspace k).2.focused = m.topmostIn k := by
  have hany : ∀ (m : WindowManager) wid (q : Placement → Bool),
      (m.windows[wid]?).any (fun w => q w.placement) = (m.desktop.windows wid).any q :=
    fun m wid q => (Option.any_map ..).symm
  have hnot : ∀ w : Window, (w.state != .minimized) = !w.placement.minimized := fun w => by
    simp [Window.placement, bne, beq_eq_decide]
  rw [activateWorkspace, hws]
  refine (focused_focusTopmost _ _).trans ?_
  rw [swapWindows_stack, topmostIn]
  congr 1
  funext wid
  simp only [hnot]
  refine .trans (hany _ wid fun p => p.visible && p.workspace == k && !p.minimized) (.trans ?_
    (hany m wid fun p => p.workspace == k && !p.minimized).symm)
  rw [desktop_swapWindows h hws, any_activate]

lemma agrees_activateWorkspace_iff (hs : m.Sound) (hf : m.desktop.Filed) (ha : m.view.Agrees)
    (k : UInt32) :
    (m.activateWorkspace k).2.view.Agrees ↔ m.KeepsFocus (.activateWorkspace k) := by
  rw [KeepsFocus]
  cases hws : m.workspaces[k]? with
  | none =>
    refine iff_of_true ?_ (.inl rfl)
    rw [activateWorkspace, hws]
    exact ha
  | some ws =>
    rw [← focused_activateWorkspace hf hws]
    rcases m.activateWorkspace_cases k with heq | ⟨hview, -, -⟩
    · rw [heq]
      simpa using ha
    · rw [hview, FocusView.agrees_raise_iff ha hs.present]
      simp [view]

lemma step_agrees_iff (hs : m.Sound) (hf : m.desktop.Filed) (ha : m.view.Agrees) (op : WmOp) :
    (∀ m', m.step op = some m' → m'.view.Agrees) ↔ m.KeepsFocus op := by
  by_cases hop : ∃ k, op = .activateWorkspace k
  · obtain ⟨k, rfl⟩ := hop
    rw [← agrees_activateWorkspace_iff hs hf ha k]
    simp [step]
  · have htrue : m.KeepsFocus op := by
      cases op with
      | activateWorkspace k => exact absurd ⟨k, rfl⟩ hop
      | _ => trivial
    refine iff_of_true ?_ htrue
    intro m' h
    exact (keeps_step (fun k heq => hop ⟨k, heq⟩) h).agrees hs ha

/-- In every state that a run reaches, flags and focused id agree, exactly if every activation of
the run finds no such workspace, no focused window, or the focused one on top of the workspace. -/
theorem throughout_focusOk_iff (area : ScreenArea) (ops : List WmOp) :
    Run.Throughout step FocusOk (new area) ops ↔ Run.Along step KeepsFocus (new area) ops := by
  refine Run.throughout_iff_along (I := fun m => m.Sound ∧ m.desktop.Filed) ?_ ?_
    ⟨sound_new area, filed_new area⟩ (focusOk_new area) ops
  · rintro m op m' ⟨hs, hf⟩ h
    exact ⟨sound_step hs h, (shifts_step hs.keyed hf h).filed hf⟩
  · rintro m op ⟨hs, hf⟩ hok
    have ha := (focusOk_iff hs.keyed).mp hok
    rw [← step_agrees_iff hs hf ha op]
    refine forall₂_congr fun m' h => ?_
    exact focusOk_iff (sound_step hs h).keyed

/-- Going to a workspace without windows: the window that had the focus keeps its flag. -/
theorem activateWorkspace_keeps_flag :
    ∃ m, Run.exec step (new ⟨0, 96, 1024, 616⟩) (twoWorkspaces ++ [.activateWorkspace 1]) =
      some m ∧ m.focused = none ∧ ¬ m.FocusOk := by
  have hrun : (Run.exec step (new ⟨0, 96, 1024, 616⟩)
      (twoWorkspaces ++ [.activateWorkspace 1])).map
        (fun m => (m.focused, m.windows[(1 : WindowId)]?.map Window.focused)) =
      some (none, some true) := by decide +kernel
  obtain ⟨m, hm, hview⟩ := Option.map_eq_some_iff.mp hrun
  obtain ⟨hfoc, hwin⟩ := Prod.mk.inj hview
  obtain ⟨w, hw, hflag⟩ := Option.map_eq_some_iff.mp hwin
  refine ⟨m, hm, hfoc, ?_⟩
  intro hok
  have hid := (hok.flag 1 w hw).mp hflag
  rw [hfoc] at hid
  cases hid

end WindowManager

end Aether.Wm
