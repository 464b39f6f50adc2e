import Aether.Algorithm.OrderedMap
import Aether.Algorithm.Run
import Aether.Wm.WindowManager

/-!
# The focus of the window manager

Focus is stored twice, as a flag of each window and as the id of the focused one (`FocusView`).  All
operations keep the agreement but one: `activate_workspace` forgets the focused id without taking
the flag from its window.
-/

namespace Aether.Wm

open OrderedMap (getElem?_insert getElem?_erase getElem?_modify map_getElem?_modify)

@[ext]
structure FocusView where
  flags : WindowId → Option Bool
  focused : Option WindowId

namespace FocusView

def Agrees (v : FocusView) : Prop :=
  ∀ id b, v.flags id = some b → (b = true ↔ v.focused = some id)

def Present (v : FocusView) : Prop :=
  ∀ id, v.focused = some id → v.flags id ≠ none

def setOnly (v : FocusView) (id : WindowId) : FocusView where
  flags k := (v.flags k).map fun _ => decide (k = id)
  focused := some id

def add (v : FocusView) (id : WindowId) : FocusView where
  flags k := if id = k then some true else (v.flags k).map fun _ => false
  focused := some id

def drop (v : FocusView) (id : WindowId) : FocusView where
  flags k := if id = k then (v.flags k).map fun _ => false else v.flags k
  focused := v.focused

def remove (v : FocusView) (id : WindowId) : FocusView where
  flags k := if id = k then none else v.flags k
  focused := v.focused

def raise (v : FocusView) (target : Option WindowId) : FocusView where
  flags k := if target = some k then (v.flags k).map fun _ => true else v.flags k
  focused := target

variable {v : FocusView} {id : WindowId} {target : Option WindowId}

lemma agrees_setOnly (v : FocusView) (id : WindowId) : (v.setOnly id).Agrees := by
  intro k b hb
  obtain ⟨_, -, rfl⟩ := Option.map_eq_some_iff.mp hb
  show decide (k = id) = true ↔ some id = some k
  simp [eq_comm]

lemma present_setOnly (h : v.flags id ≠ none) : (v.setOnly id).Present := by
  intro k hk
  cases hk
  simpa [setOnly] using h

lemma agrees_add (v : FocusView) (id : WindowId) : (v.add id).Agrees := by
  intro k b hb
  simp only [add] at hb ⊢
  split at hb
  · rename_i heq
    cases hb
    simp [heq]
  · rename_i hne
    obtain ⟨_, -, rfl⟩ := Option.map_eq_some_iff.mp hb
    simp [hne]

lemma present_add (v : FocusView) (id : WindowId) : (v.add id).Present := by
  intro k hk
  cases hk
  simp [add]

lemma agrees_raise_of_unflagged (h : ∀ k b, v.flags k = some b → b = false) :
    (v.raise target).Agrees := by
  intro k b hb
  simp only [raise] at hb ⊢
  split at hb
  · rename_i heq
    obtain ⟨_, -, rfl⟩ := Option.map_eq_some_iff.mp hb
    exact iff_of_true rfl heq
  · rename_i hne
    obtain rfl := h k b hb
    exact iff_of_false (by simp) hne

lemma present_raise (h : ∀ k, target = some k → v.flags k ≠ none) :
    (v.raise target).Present := by
  intro k hk
  have hk' : target = some k := hk
  simpa [raise, hk'] using h k hk'

lemma agrees_raise_iff (hv : v.Agrees) (hp : v.Present) :
    (v.raise target).Agrees ↔ v.focused = none ∨ target = v.focused := by
  constructor
  · intro h
    cases hfoc : v.focused with
    | none => exact Or.inl rfl
    | some id =>
      obtain ⟨b, hb⟩ := Option.ne_none_iff_exists'.mp (hp id hfoc)
      have hflag : b = true := (hv id b hb).mpr hfoc
      refine Or.inr ?_
      by_contra hne
      have hid : (v.raise target).flags id = some true := by
        simp [raise, hne, hb, hflag]
      exact hne ((h id true hid).mp rfl)
  · rintro (hnone | heq)
    · apply agrees_raise_of_unflagged
      intro k b hb
      have hiff := hv k b hb
      rw [hnone] at hiff
      simpa using hiff
    · intro k b hb
      simp only [raise] at hb ⊢
      split at hb
      · rename_i hk
        obtain ⟨_, -, rfl⟩ := Option.map_eq_some_iff.mp hb
        exact iff_of_true rfl hk
      · rw [heq]
        exact hv k b hb

lemma Agrees.eq_false_of_ne (hv : v.Agrees) (hid : v.focused = some id) {k : WindowId} {b : Bool}
    (hne : id ≠ k) (hb : v.flags k = some b) : b = false := by
  have hiff := hv k b hb
  rw [hid, Option.some.injEq] at hiff
  simpa [hne] using hiff

lemma drop_unflagged (hv : v.Agrees) (hid : v.focused = some id) :
    ∀ k b, (v.drop id).flags k = some b → b = false := by
  intro k b hb
  simp only [drop] at hb
  split at hb
  · obtain ⟨_, -, rfl⟩ := Option.map_eq_some_iff.mp hb
    rfl
  · rename_i hne
    exact hv.eq_false_of_ne hid hne hb

lemma agrees_drop (hv : v.Agrees) (hid : v.focused ≠ some id) : (v.drop id).Agrees := by
  intro k b hb
  simp only [drop] at hb ⊢
  split at hb
  · rename_i heq
    obtain ⟨_, -, rfl⟩ := Option.map_eq_some_iff.mp hb
    exact iff_of_false (by simp) (heq ▸ hid)
  · exact hv k b hb

lemma present_drop (hp : v.Present) : (v.drop id).Present := by
  intro k hk
  have hk' := hp k hk
  simp only [drop]
  split
  · simpa using hk'
  · exact hk'

lemma remove_unflagged (hv : v.Agrees) (hid : v.focused = some id) :
    ∀ k b, (v.remove id).flags k = some b → b = false := by
  intro k b hb
  simp only [remove] at hb
  split at hb
  · cases hb
  · rename_i hne
    exact hv.eq_false_of_ne hid hne hb

lemma agrees_remove (hv : v.Agrees) : (v.remove id).Agrees := by
  intro k b hb
  simp only [remove] at hb ⊢
  split at hb
  · cases hb
  · exact hv k b hb

lemma present_remove (hp : v.Present) (hid : v.focused ≠ some id) : (v.remove id).Present := by
  intro k hk
  have hk' : v.focused = some k := hk
  have hne : id ≠ k := by
    rintro rfl
    exact hid hk'
  simpa [remove, hne] using hp k hk'

end FocusView

abbrev Windows := Std.TreeMap WindowId Window

def flagsOf (ws : Windows) (id : WindowId) : Option Bool := ws[id]?.map Window.focused

def WindowManager.view (m : WindowManager) : FocusView := ⟨flagsOf m.windows, m.focused⟩

def Keyed (ws : Windows) : Prop := ∀ (id : WindowId) w, ws[id]? = some w → w.id = id

section Windows

variable {ws : Windows} {id : WindowId}

variable {f : Window → Window}

lemma flagsOf_modify {g : Bool → Bool} (hf : ∀ w, (f w).focused = g w.focused) (k : WindowId) :
    flagsOf (ws.modify id f) k = if id = k then (flagsOf ws k).map g else flagsOf ws k :=
  map_getElem?_modify hf

lemma flagsOf_modify_same (hf : ∀ w, (f w).focused = w.focused) :
    flagsOf (ws.modify id f) = flagsOf ws := by
  funext k
  rw [flagsOf_modify (g := fun b => b) hf]
  simp

lemma flagsOf_map {f : WindowId → Window → Window} {g : WindowId → Bool → Bool}
    (hf : ∀ k w, ws[k]? = some w → (f k w).focused = g k w.focused) (k : WindowId) :
    flagsOf (ws.map f) k = (flagsOf ws k).map (g k) := by
  unfold flagsOf
  rw [Std.TreeMap.getElem?_map]
  cases hw : ws[k]? with
  | none => rfl
  | some w => simp [hf k w hw]

lemma Keyed.modify (h : Keyed ws) (hf : ∀ w, (f w).id = w.id) : Keyed (ws.modify id f) := by
  intro k w hw
  rw [getElem?_modify] at hw
  split at hw
  · obtain ⟨w', hw', rfl⟩ := Option.map_eq_some_iff.mp hw
    rw [hf, h k w' hw']
  · exact h k w hw

lemma Keyed.map (h : Keyed ws) {f : WindowId → Window → Window}
    (hf : ∀ k w, (f k w).id = w.id) : Keyed (ws.map f) := by
  intro k w hw
  rw [Std.TreeMap.getElem?_map] at hw
  obtain ⟨w', hw', rfl⟩ := Option.map_eq_some_iff.mp hw
  rw [hf, h k w' hw']

lemma Keyed.insert (h : Keyed ws) {w : Window} (hw : w.id = id) : Keyed (ws.insert id w) := by
  intro k w' hw'
  rw [getElem?_insert] at hw'
  split at hw'
  · rename_i heq
    cases hw'
    rw [hw, heq]
  · exact h k w' hw'

lemma Keyed.erase (h : Keyed ws) : Keyed (ws.erase id) := by
  intro k w hw
  rw [getElem?_erase] at hw
  split at hw
  · cases hw
  · exact h k w hw

lemma flagsOf_insert {w : Window} (k : WindowId) :
    flagsOf (ws.insert id w) k = if id = k then some w.focused else flagsOf ws k := by
  unfold flagsOf
  rw [getElem?_insert]
  split <;> rfl

lemma flagsOf_erase (k : WindowId) :
    flagsOf (ws.erase id) k = if id = k then none else flagsOf ws k := by
  unfold flagsOf
  rw [getElem?_erase]
  split <;> rfl

lemma flagsOf_ne_none_iff : flagsOf ws id ≠ none ↔ ∃ w, ws[id]? = some w := by
  unfold flagsOf
  rw [ne_eq, Option.map_eq_none_iff, ← ne_eq, Option.ne_none_iff_exists']

end Windows

namespace WindowManager

variable {m m' m'' : WindowManager}

structure Sound (m : WindowManager) : Prop where
  keyed : Keyed m.windows
  present : m.view.Present

structure Keeps (m m' : WindowManager) : Prop where
  sound : m.Sound → m'.Sound
  agrees : m.Sound → m.view.Agrees → m'.view.Agrees

lemma Keeps.refl (m : WindowManager) : Keeps m m := ⟨id, fun _ h => h⟩

lemma Keeps.trans (h : Keeps m m') (h' : Keeps m' m'') : Keeps m m'' :=
  ⟨fun hs => h'.sound (h.sound hs), fun hs ha => h'.agrees (h.sound hs) (h.agrees hs ha)⟩

structure SameView (m m' : WindowManager) : Prop where
  view : m'.view = m.view
  keyed : Keyed m.windows → Keyed m'.windows

lemma SameView.of_eq (hwins : m'.windows = m.windows) (hfoc : m'.focused = m.focused) :
    SameView m m' := by
  constructor
  · rw [WindowManager.view, WindowManager.view, hwins, hfoc]
  · rw [hwins]
    exact id

lemma SameView.trans (h : SameView m m') (h' : SameView m' m'') : SameView m m'' :=
  ⟨h'.view.trans h.view, fun hk => h'.keyed (h.keyed hk)⟩

lemma SameView.keeps (h : SameView m m') : Keeps m m' := by
  constructor
  · intro hs
    exact ⟨h.keyed hs.keyed, h.view ▸ hs.present⟩
  · intro _ ha
    rw [h.view]
    exact ha

lemma sameView_modifyWindow (m : WindowManager) (id : WindowId) {f : Window → Window}
    (hf : ∀ w, (f w).id = w.id ∧ (f w).focused = w.focused) :
    SameView m (m.modifyWindow id f) := by
  refine ⟨?_, fun h => h.modify fun w => (hf w).1⟩
  rw [view, view, modifyWindow, flagsOf_modify_same fun w => (hf w).2]

lemma sameView_foldl {α : Type*} {f : WindowManager → α → WindowManager}
    (hf : ∀ m a, SameView m (f m a)) (l : List α) (m : WindowManager) :
    SameView m (l.foldl f m) := by
  induction l generalizing m with
  | nil => exact .of_eq rfl rfl
  | cons a l ih => exact (hf m a).trans (ih (f m a))

lemma focusTopmost_spec (m : WindowManager) (p : Window → Bool) :
    (m.focusTopmost p).view = m.view.raise (m.focusTopmost p).focused ∧
      (∀ id, (m.focusTopmost p).focused = some id → m.view.flags id ≠ none) ∧
      (Keyed m.windows → Keyed (m.focusTopmost p).windows) := by
  unfold focusTopmost
  cases hfind : m.stack.reverse.find? fun wid => (m.windows[wid]?).any p with
  | none =>
    refine ⟨?_, by simp, fun h => h⟩
    simp [view, FocusView.raise]
  | some wid =>
    -- only the window that was found changes, and it exists
    have hany := List.find?_some hfind
    have hpres : flagsOf m.windows wid ≠ none := by
      rw [flagsOf_ne_none_iff]
      obtain ⟨w, hw, -⟩ := (Option.any_eq_true _ _).mp hany
      exact ⟨w, hw⟩
    refine ⟨?_, ?_, fun h => h.modify fun _ => rfl⟩
    · ext k b
      · show flagsOf (m.windows.modify wid _) k = some b ↔ _
        rw [flagsOf_modify (g := fun _ => true) fun _ => rfl]
        simp [view, FocusView.raise]
      · rfl
    · intro id hid
      cases hid
      exact hpres

lemma flagsOf_focus {ws : Windows} (hk : Keyed ws) (id k : WindowId) :
    flagsOf ((ws.modify id gainFocus).map fun _ => loseFocus id) k =
      (flagsOf ws k).map fun _ => decide (k = id) := by
  have hk' : Keyed (ws.modify id gainFocus) := hk.modify fun _ => rfl
  rw [flagsOf_map (g := fun k b => if k = id then b else false), flagsOf_modify
    (g := fun _ => true) fun _ => rfl]
  · by_cases heq : id = k
    · subst heq
      cases flagsOf ws id with
      | none => simp
      | some b => simp
    · cases flagsOf ws k with
      | none => simp
      | some b => simp [heq, Ne.symm heq]
  · intro k' w hw
    unfold loseFocus
    rw [hk' k' w hw]
    by_cases heq : k' = id <;> simp [heq]

lemma focus_cases (hk : Keyed m.windows) (id : WindowId) :
    (m.focus id).2 = m ∨ (m.view.flags id ≠ none ∧ (m.focus id).2.view = m.view.setOnly id ∧
      Keyed (m.focus id).2.windows) := by
  unfold focus
  cases hw : m.windows[id]? with
  | none => exact Or.inl rfl
  | some w =>
    refine Or.inr ⟨flagsOf_ne_none_iff.mpr ⟨w, hw⟩, ?_, ?_⟩
    · show FocusView.mk (flagsOf ((m.windows.modify id gainFocus).map fun _ => loseFocus id))
        (some id) = _
      exact FocusView.ext (funext fun k => flagsOf_focus hk id k) rfl
    · have hk' : Keyed (m.windows.modify id gainFocus) := hk.modify fun _ => rfl
      show Keyed ((m.windows.modify id gainFocus).map fun _ => loseFocus id)
      refine hk'.map ?_
      intro k w'
      unfold loseFocus
      split <;> rfl

lemma keeps_focus (m : WindowManager) (id : WindowId) : Keeps m (m.focus id).2 := by
  constructor
  · intro hs
    rcases focus_cases hs.keyed id with heq | ⟨hpres, hview, hkey⟩
    · rw [heq]
      exact hs
    · exact ⟨hkey, hview ▸ FocusView.present_setOnly hpres⟩
  · intro hs ha
    rcases focus_cases hs.keyed id with heq | ⟨-, hview, -⟩
    · rw [heq]
      exact ha
    · rw [hview]
      exact FocusView.agrees_setOnly _ _

lemma keeps_cycleFocus (m : WindowManager) : Keeps m m.cycleFocus.2 := by
  unfold cycleFocus
  dsimp only
  split
  · exact Keeps.refl m
  · exact keeps_focus m _

variable {appId title : String} {pw ph : UInt32} {created : Option Window}

lemma create_cases (h : m.create appId title pw ph = some (created, m')) :
    (created = none ∧ m' = m) ∨ ∃ window : Window, created = some window ∧
      Checked.addU64 m.nextId 1 = some window.id ∧
      (window.focused = true ∧ window.visible = true ∧ window.state = .normal ∧
        window.workspaceId = m.activeWorkspace) ∧
      m' = pushEvent (modifyWorkspace
        { m with
          nextId := window.id
          windows := (m.windows.map fun _ => unfocus).insert window.id window
          stack := m.stack ++ [window.id]
          focused := some window.id }
        m.activeWorkspace fun ws => { ws with windows := ws.windows ++ [window.id] })
        (.windowCreated window.id appId) := by
  unfold create at h
  cases harea : m.area with
  | none =>
    rw [harea] at h
    cases h
    exact Or.inl ⟨rfl, rfl⟩
  | some area =>
    simp only [harea, Option.bind_eq_bind, Option.bind_eq_some_iff] at h
    obtain ⟨id, hid, ⟨x, y, w, hgt⟩, -, h⟩ := h
    cases h
    exact Or.inr ⟨_, rfl, hid, ⟨rfl, rfl, rfl, rfl⟩, rfl⟩

lemma keyed_added (hk : Keyed m.windows) (window : Window) :
    Keyed ((m.windows.map fun _ => unfocus).insert window.id window) := by
  have hmap : Keyed (m.windows.map fun _ => unfocus) := hk.map fun _ _ => rfl
  exact hmap.insert rfl

lemma view_added {window : Window} (hflag : window.focused = true)
    (hwins : m'.windows = (m.windows.map fun _ => unfocus).insert window.id window)
    (hfoc : m'.focused = some window.id) : m'.view = m.view.add window.id := by
  refine FocusView.ext (funext fun k => ?_) hfoc
  show flagsOf m'.windows k =
    if window.id = k then some true else (flagsOf m.windows k).map fun _ => false
  rw [hwins, flagsOf_insert, hflag, flagsOf_map (g := fun _ _ => false) fun _ _ _ => rfl]

lemma keeps_create (h : m.create appId title pw ph = some (created, m')) : Keeps m m' := by
  rcases create_cases h with ⟨-, rfl⟩ | ⟨window, -, -, ⟨hflag, -⟩, hm'⟩
  · exact Keeps.refl m'
  · have hview : m'.view = m.view.add window.id := by
      rw [hm']
      exact view_added hflag rfl rfl
    constructor
    · intro hs
      refine ⟨?_, hview ▸ FocusView.present_add _ _⟩
      rw [hm']
      exact keyed_added hs.keyed window
    · intro _ _
      rw [hview]
      exact FocusView.agrees_add _ _

lemma keeps_createTracked {sessionId : String} {surfaceId : Option String}
    {processId : Option UInt32}
    (h : m.createTracked appId title pw ph surfaceId processId sessionId = some (created, m')) :
    Keeps m m' := by
  unfold createTracked at h
  rw [Option.bind_eq_bind, Option.bind_eq_some_iff] at h
  obtain ⟨⟨created₁, m₁⟩, hcr, h⟩ := h
  refine (keeps_create hcr).trans ?_
  rcases create_cases hcr with ⟨rfl, rfl⟩ | ⟨window, rfl, -, ⟨hflag, -⟩, hm₁⟩
  · obtain ⟨-, rfl⟩ := Prod.mk.inj (Option.some.inj h)
    exact Keeps.refl m₁
  · -- the window is inserted once more, with the same id and flag
    obtain ⟨-, rfl⟩ := Prod.mk.inj (Option.some.inj h)
    refine SameView.keeps ⟨?_, fun hk => hk.insert rfl⟩
    refine FocusView.ext (funext fun k => ?_) rfl
    show flagsOf (m₁.windows.insert window.id _) k = flagsOf m₁.windows k
    have hwins : m₁.windows = (m.windows.map fun _ => unfocus).insert window.id window := by
      rw [hm₁]
      rfl
    rw [flagsOf_insert, hwins, flagsOf_insert]
    split <;> rfl

lemma keeps_fallThrough {v : FocusView} (hv : m'.view = v) (p : Window → Bool) (id : WindowId)
    (hkey : m.Sound → Keyed m'.windows)
    (hpres : m.Sound → m'.focused ≠ some id → v.Present)
    (hagr : m.Sound → m.view.Agrees → m'.focused ≠ some id → v.Agrees)
    (hunf : m.Sound → m.view.Agrees → m'.focused = some id →
      ∀ k b, v.flags k = some b → b = false) :
    Keeps m (if m'.focused = some id then m'.focusTopmost p else m') := by
  obtain ⟨hview, htgt, hkey'⟩ := m'.focusTopmost_spec p
  split
  · rename_i hid
    constructor
    · intro hs
      exact ⟨hkey' (hkey hs), hview ▸ FocusView.present_raise htgt⟩
    · intro hs ha
      rw [hview, hv]
      exact FocusView.agrees_raise_of_unflagged (hunf hs ha hid)
  · rename_i hid
    constructor
    · intro hs
      exact ⟨hkey hs, hv ▸ hpres hs hid⟩
    · intro hs ha
      rw [hv]
      exact hagr hs ha hid

lemma keeps_minimize (m : WindowManager) (id : WindowId) : Keeps m (m.minimize id).2 := by
  unfold minimize
  cases m.windows[id]? with
  | none => exact Keeps.refl m
  | some w =>
    have hview : (m.modifyWindow id shrink).view = m.view.drop id := by
      refine FocusView.ext (funext fun k => ?_) rfl
      exact flagsOf_modify (g := fun _ => false) (fun _ => rfl) k
    exact keeps_fallThrough hview focusable id (fun hs => hs.keyed.modify fun _ => rfl)
      (fun hs _ => FocusView.present_drop hs.present)
      (fun _ ha hid => FocusView.agrees_drop ha hid)
      (fun _ ha hid => FocusView.drop_unflagged ha hid)

lemma keeps_close (m : WindowManager) (id : WindowId) : Keeps m (m.close id).2 := by
  unfold close
  cases m.windows[id]? with
  | none => exact Keeps.refl m
  | some w =>
    have hview : (m.detach id w.workspaceId).view = m.view.remove id :=
      FocusView.ext (funext fun k => flagsOf_erase k) rfl
    have hfall := keeps_fallThrough (m := m) hview focusable id (fun hs => hs.keyed.erase)
      (fun hs hid => FocusView.present_remove hs.present hid)
      (fun _ ha _ => FocusView.agrees_remove ha)
      (fun _ ha hid => FocusView.remove_unflagged ha hid)
    exact hfall.trans (SameView.keeps (.of_eq rfl rfl))

lemma unfill_spec (w : Window) : (unfill w).id = w.id ∧ (unfill w).focused = w.focused := by
  unfold unfill
  split
  · exact ⟨rfl, rfl⟩
  · split <;> exact ⟨rfl, rfl⟩
  · exact ⟨rfl, rfl⟩

lemma keeps_apply (m : WindowManager) (action : WindowAction) :
    Keeps m (m.apply action).2 := by
  cases action with
  | focus id => exact keeps_focus m id
  | move id x y =>
    simp only [apply]
    cases m.windows[id]? with
    | none => exact Keeps.refl m
    | some w =>
      have hmove := sameView_modifyWindow m id (f := fun w => { w with x, y }) fun _ => ⟨rfl, rfl⟩
      exact hmove.keeps.trans (SameView.keeps (.of_eq rfl rfl))
  | resize id width height =>
    simp only [apply]
    cases m.windows[id]? with
    | none => exact Keeps.refl m
    | some w =>
      have hres := sameView_modifyWindow m id
        (f := fun w => { w with width := max width 120, height := max height 80 })
        fun _ => ⟨rfl, rfl⟩
      exact hres.keeps.trans (SameView.keeps (.of_eq rfl rfl))
  | minimize id => exact keeps_minimize m id
  | maximize id =>
    simp only [apply]
    cases m.area with
    | none => exact Keeps.refl m
    | some area =>
      cases m.windows[id]? with
      | none => exact Keeps.refl m
      | some w =>
        have hfill := sameView_modifyWindow m id (f := fill area) fun _ => ⟨rfl, rfl⟩
        exact hfill.keeps.trans (keeps_focus _ id)
  | restore id =>
    simp only [apply]
    cases m.windows[id]? with
    | none => exact Keeps.refl m
    | some w =>
      exact (sameView_modifyWindow m id unfill_spec).keeps.trans (keeps_focus _ id)
  | close id => exact keeps_close m id

lemma keeps_createWorkspace {name : String} {id : UInt32}
    (h : m.createWorkspace name = some (id, m')) : Keeps m m' := by
  unfold createWorkspace at h
  rw [Option.bind_eq_bind, Option.bind_eq_some_iff] at h
  obtain ⟨nextId, -, h⟩ := h
  cases h
  exact SameView.keeps (.of_eq rfl rfl)

/-- What `destroy_workspace` does to each window of the workspace. -/
abbrev rehome (m : WindowManager) (wid : WindowId) : WindowManager :=
  (m.modifyWorkspace 0 fun d => { d with windows := d.windows ++ [wid] }).modifyWindow wid
    fun w => { w with workspaceId := 0 }

lemma keeps_destroyWorkspace (m : WindowManager) (id : UInt32) :
    Keeps m (m.destroyWorkspace id).2 := by
  unfold destroyWorkspace
  split
  · exact Keeps.refl m
  · cases m.workspaces[id]? with
    | none => exact Keeps.refl m
    | some ws =>
      -- the windows go to the workspace 0, which becomes the active one if necessary
      have hmv : ∀ m : WindowManager, SameView m (if m.workspaces.contains 0 then
          ws.windows.foldl rehome m else m) := by
        intro m
        split
        · refine sameView_foldl (fun m wid => ?_) ws.windows m
          have hspa : SameView m (m.modifyWorkspace 0 fun d =>
            { d with windows := d.windows ++ [wid] }) := .of_eq rfl rfl
          exact hspa.trans (sameView_modifyWindow _ wid fun _ => ⟨rfl, rfl⟩)
        · exact .of_eq rfl rfl
      have hact : ∀ m : WindowManager, SameView m (if m.activeWorkspace = id then
          { m with activeWorkspace := 0 }.pushEvent (.workspaceChanged 0) else m) := by
        intro m
        split <;> exact .of_eq rfl rfl
      have hera : SameView m { m with workspaces := m.workspaces.erase id } := .of_eq rfl rfl
      have hall := (hera.trans (hmv _)).trans (hact _)
      exact hall.keeps.trans (SameView.keeps (.of_eq rfl rfl))

lemma keeps_moveWindowToWorkspace (m : WindowManager) (wid : WindowId) (targetWs : UInt32) :
    Keeps m (m.moveWindowToWorkspace wid targetWs).2 := by
  unfold moveWindowToWorkspace
  split
  · exact Keeps.refl m
  · cases m.windows[wid]? with
    | none => exact Keeps.refl m
    | some w =>
      have hmove := sameView_modifyWindow m wid
        (f := fun w => { w with workspaceId := targetWs }) fun _ => ⟨rfl, rfl⟩
      exact hmove.keeps.trans (SameView.keeps (.of_eq rfl rfl))

lemma sameView_swapWindows (m : WindowManager) (old : UInt32) (wids : List WindowId) :
    SameView m (m.swapWindows old wids) := by
  have hshow : ∀ m : WindowManager, SameView m (m.showWindows wids) := by
    refine sameView_foldl (fun m wid => ?_) wids
    exact sameView_modifyWindow m wid fun _ => ⟨rfl, rfl⟩
  have hhide : ∀ (wids : List WindowId) (m : WindowManager), SameView m (m.hideWindows wids) := by
    refine sameView_foldl fun m wid => sameView_modifyWindow m wid fun w => ?_
    split <;> exact ⟨rfl, rfl⟩
  unfold swapWindows
  cases m.workspaces[old]? with
  | none => exact hshow m
  | some oldWs => exact (hhide oldWs.windows m).trans (hshow (m.hideWindows oldWs.windows))

lemma activateWorkspace_cases (m : WindowManager) (id : UInt32) :
    (m.activateWorkspace id).2 = m ∨
      ((m.activateWorkspace id).2.view = m.view.raise (m.activateWorkspace id).2.focused ∧
        (∀ k, (m.activateWorkspace id).2.focused = some k → m.view.flags k ≠ none) ∧
        (Keyed m.windows → Keyed (m.activateWorkspace id).2.windows)) := by
  unfold activateWorkspace
  cases m.workspaces[id]? with
  | none => exact Or.inl rfl
  | some newWs =>
    refine Or.inr ?_
    obtain ⟨hview, hkey⟩ :=
      sameView_swapWindows { m with activeWorkspace := id } m.activeWorkspace newWs.windows
    obtain ⟨hrai, hpres, hkey'⟩ := focusTopmost_spec
      ({ m with activeWorkspace := id }.swapWindows m.activeWorkspace newWs.windows)
      fun w => w.visible && w.workspaceId == id && w.state != .minimized
    rw [hview] at hrai hpres
    exact ⟨hrai, hpres, fun h => hkey' (hkey h)⟩

lemma sound_activateWorkspace (hs : m.Sound) (id : UInt32) :
    (m.activateWorkspace id).2.Sound := by
  rcases m.activateWorkspace_cases id with heq | ⟨hview, hpres, hkey⟩
  · rw [heq]
    exact hs
  · exact ⟨hkey hs.keyed, hview ▸ FocusView.present_raise hpres⟩

lemma keeps_step {op : WmOp} (hop : ∀ id, op ≠ .activateWorkspace id)
    (h : m.step op = some m') : Keeps m m' := by
  cases op with
  | create appId title w ht =>
    obtain ⟨⟨created, m₁⟩, hcr, rfl⟩ := Option.map_eq_some_iff.mp h
    exact keeps_create hcr
  | createTracked appId title w ht surfaceId processId sessionId =>
    obtain ⟨⟨created, m₁⟩, hcr, rfl⟩ := Option.map_eq_some_iff.mp h
    exact keeps_createTracked hcr
  | apply action =>
    cases h
    exact keeps_apply m action
  | close id =>
    cases h
    exact keeps_close m id
  | cycleFocus =>
    cases h
    exact keeps_cycleFocus m
  | createWorkspace name =>
    obtain ⟨⟨id, m₁⟩, hcr, rfl⟩ := Option.map_eq_some_iff.mp h
    exact keeps_createWorkspace hcr
  | destroyWorkspace id =>
    cases h
    exact keeps_destroyWorkspace m id
  | activateWorkspace id => exact absurd rfl (hop id)
  | moveWindowToWorkspace wid targetWs =>
    cases h
    exact keeps_moveWindowToWorkspace m wid targetWs
  | drainEvents =>
    cases h
    exact SameView.keeps (.of_eq rfl rfl)

lemma sound_step (hs : m.Sound) {op : WmOp} (h : m.step op = some m') : m'.Sound := by
  by_cases hop : ∃ id, op = .activateWorkspace id
  · obtain ⟨id, rfl⟩ := hop
    cases h
    exact sound_activateWorkspace hs id
  · exact (keeps_step (fun id heq => hop ⟨id, heq⟩) h).sound hs

/-- Flags and focused id agree. -/
structure FocusOk (m : WindowManager) : Prop where
  flag : ∀ (id : WindowId) w, m.windows[id]? = some w → (w.focused = true ↔ m.focused = some w.id)
  unique : ∀ (id id' : WindowId) w w', m.windows[id]? = some w → m.windows[id']? = some w' →
    w.focused = true → w'.focused = true → id = id'

lemma focusOk_iff (hk : Keyed m.windows) : m.FocusOk ↔ m.view.Agrees := by
  constructor
  · intro h id b hb
    obtain ⟨w, hw, rfl⟩ := Option.map_eq_some_iff.mp hb
    have hflag := h.flag id w hw
    rw [hk id w hw] at hflag
    exact hflag
  · intro h
    have hflag : ∀ (id : WindowId) w, m.windows[id]? = some w →
        (w.focused = true ↔ m.focused = some id) := by
      intro id w hw
      have hfla : m.view.flags id = some w.focused := by
        show m.windows[id]?.map Window.focused = some w.focused
        rw [hw, Option.map_some]
      exact h id w.focused hfla
    constructor
    · intro id w hw
      rw [hk id w hw]
      exact hflag id w hw
    · intro id id' w w' hw hw' hf hf'
      have hid := (hflag id w hw).mp hf
      have hid' := (hflag id' w' hw').mp hf'
      exact Option.some.inj (hid.symm.trans hid')

lemma sound_new (area : ScreenArea) : (new area).Sound := by
  constructor
  · intro id w hw
    simp [new] at hw
  · intro id hid
    cases hid

lemma focusOk_new (area : ScreenArea) : (new area).FocusOk := by
  rw [focusOk_iff (sound_new area).keyed]
  intro id b hb
  simp [view, flagsOf, new] at hb

end WindowManager

end Aether.Wm
