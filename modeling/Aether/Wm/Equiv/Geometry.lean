import Aether.Wm.Equiv.Arrangement

/-!
# Positions and sizes of windows

Restoring a maximized window gives back the rectangle that was saved.  One that was minimized in the
meantime becomes normal with the rectangle it has.

Hit testing compares a point with edges in 32-bit arithmetic.
-/

namespace Aether.Wm

open OrderedMap (getElem?_modify)

abbrev Rect := Int32 × Int32 × UInt32 × UInt32

def Window.rect (w : Window) : Rect := (w.x, w.y, w.width, w.height)

def ScreenArea.rect (a : ScreenArea) : Rect := (a.x, a.y, a.width, a.height)

@[ext]
structure Shape where
  rect : Rect
  state : WindowState
  saved : Option Rect
  deriving DecidableEq

def Window.shape (w : Window) : Shape := ⟨w.rect, w.state, w.restoreRect⟩

inductive ShapeAction where
  | maximize
  | minimize
  | restore
  | focus
  deriving DecidableEq

def ShapeAction.on (id : WindowId) : ShapeAction → WindowAction
  | .maximize => .maximize id
  | .minimize => .minimize id
  | .restore => .restore id
  | .focus => .focus id

namespace Shape

def raised (s : Shape) : Shape :=
  { s with state := if s.state = .minimized then .normal else s.state }

def unfilled (s : Shape) : Shape :=
  if s.state = .maximized then ⟨s.saved.getD s.rect, .normal, none⟩ else s

def next (area : Option Rect) (s : Shape) : ShapeAction → Shape
  | .maximize => area.elim s fun r =>
      ⟨r, .maximized, if s.state ≠ .maximized then some s.rect else s.saved⟩
  | .minimize => { s with state := .minimized }
  | .restore => s.unfilled.raised
  | .focus => s.raised

variable {area : Option Rect} {r : Rect} {s : Shape} {a : ShapeAction}

structure Keeps (area : Option Rect) (r : Rect) (s : Shape) : Prop where
  rect_eq : s.state ≠ .maximized → s.rect = r
  saved_eq : s.state = .maximized → area = some s.rect ∧ s.saved = some r

def Filled (area : Option Rect) (s : Shape) : Prop :=
  area = some s.rect ∧ (s.state = .maximized → s.saved = area)

def Safe (s : Shape) (a : ShapeAction) : Prop := a = .minimize → s.state ≠ .maximized

lemma Keeps.next (h : Keeps area r s) (ha : Safe s a) : Keeps area r (s.next area a) := by
  cases a with
  | maximize =>
    cases area with
    | none => exact h
    | some _ =>
      refine ⟨fun hne => absurd rfl hne, fun _ => ⟨rfl, ?_⟩⟩
      by_cases hs : s.state = .maximized
      · simpa [Shape.next, hs] using (h.saved_eq hs).2
      · simpa [Shape.next, hs] using h.rect_eq hs
  | minimize => exact ⟨fun _ => h.rect_eq (ha rfl), nofun⟩
  | restore =>
    by_cases hs : s.state = .maximized
    · constructor <;> simp [Shape.next, raised, unfilled, hs, (h.saved_eq hs).2]
    · have hrect := h.rect_eq hs
      by_cases hm : s.state = .minimized <;>
        constructor <;> simp [Shape.next, raised, unfilled, hs, hm, hrect]
  | focus =>
    by_cases hm : s.state = .minimized
    · constructor <;> simp [Shape.next, raised, hm, h.rect_eq]
    · rwa [Shape.next, raised, if_neg hm]

lemma Keeps.filled (h : Keeps area r s) (ha : ¬ Safe s a) : Filled area (s.next area a) := by
  obtain ⟨rfl, hs⟩ := Classical.not_imp.mp ha
  exact ⟨(h.saved_eq (not_not.mp hs)).1, nofun⟩

lemma Filled.next (h : Filled area s) (a : ShapeAction) : Filled area (s.next area a) := by
  obtain ⟨rfl, hsav⟩ := h
  cases a with
  | maximize =>
    refine ⟨rfl, fun _ => ?_⟩
    by_cases hs : s.state = .maximized
    · simpa [Shape.next, hs] using hsav hs
    · simp [Shape.next, hs]
  | minimize => exact ⟨rfl, nofun⟩
  | restore =>
    by_cases hs : s.state = .maximized
    · constructor <;> simp [Shape.next, raised, unfilled, hs, hsav hs]
    · by_cases hm : s.state = .minimized <;>
        constructor <;> simp [Shape.next, raised, unfilled, hs, hm]
  | focus =>
    refine ⟨rfl, ?_⟩
    by_cases hm : s.state = .minimized
    · simp [Shape.next, raised, hm]
    · simpa [Shape.next, raised, hm] using hsav

lemma keeps_or_filled (area : Option Rect) (hs : s.state = .normal)
    (actions : List ShapeAction) :
    (Run.Steps (next area) Safe s actions → Keeps area s.rect (actions.foldl (next area) s)) ∧
      (¬ Run.Steps (next area) Safe s actions → Filled area (actions.foldl (next area) s)) := by
  induction actions using List.reverseRecOn with
  | nil =>
    refine ⟨fun _ => ?_, fun h => absurd (fun pre i post hnil => ?_) h⟩
    · exact ⟨fun _ => rfl, fun hmax => absurd (hmax.symm.trans hs) (by decide)⟩
    · simp at hnil
  | append_singleton actions a ih =>
    rw [Run.steps_concat_iff, List.foldl_append]
    constructor
    · rintro ⟨hsts, ha⟩
      exact (ih.1 hsts).next ha
    · intro h
      by_cases hsts : Run.Steps (Shape.next area) Safe s actions
      · exact (ih.1 hsts).filled fun ha => h ⟨hsts, ha⟩
      · exact (ih.2 hsts).next a

end Shape

namespace WindowManager

variable {m : WindowManager} {id : WindowId}

def actOn (id : WindowId) (m : WindowManager) (a : ShapeAction) : WindowManager :=
  (m.apply (a.on id)).2

def shapeOf (m : WindowManager) (id : WindowId) : Option Shape := m.windows[id]?.map Window.shape

lemma shapeOf_modifyWindow {f : Window → Window} {g : Shape → Shape}
    (hf : ∀ w, (f w).shape = g w.shape) :
    (m.modifyWindow id f).shapeOf id = (m.shapeOf id).map g := by
  unfold shapeOf WindowManager.modifyWindow
  rw [OrderedMap.map_getElem?_modify hf, if_pos rfl]

lemma shapeOf_modifyWindow_same {k : WindowId} {f : Window → Window}
    (hf : ∀ w, (f w).shape = w.shape) : (m.modifyWindow k f).shapeOf id = m.shapeOf id := by
  unfold shapeOf WindowManager.modifyWindow
  rw [OrderedMap.map_getElem?_modify (g := fun s => s) hf, Option.map_id', ite_self]

lemma shapeOf_focusTopmost (p : Window → Bool) :
    (m.focusTopmost p).shapeOf id = m.shapeOf id := by
  unfold focusTopmost
  split
  · rfl
  · exact shapeOf_modifyWindow_same fun _ => rfl

lemma shapeOf_focus : (m.focus id).2.shapeOf id = (m.shapeOf id).map Shape.raised := by
  unfold focus
  cases hw : m.windows[id]? with
  | none => simp [shapeOf, hw]
  | some w =>
    rw [← shapeOf_modifyWindow (f := gainFocus) fun _ => rfl]
    show ((m.windows.modify id gainFocus).map fun _ => loseFocus id)[id]?.map Window.shape =
      (m.windows.modify id gainFocus)[id]?.map Window.shape
    rw [Std.TreeMap.getElem?_map, Option.map_map]
    congr 1
    funext w
    show (loseFocus id w).shape = w.shape
    unfold loseFocus
    split <;> rfl

lemma shape_unfill (w : Window) : (unfill w).shape.raised = w.shape.unfilled.raised := by
  unfold unfill Shape.unfilled
  cases hs : w.state with
  | maximized =>
    cases hr : w.restoreRect with
    | none => simp [Window.shape, Shape.raised, hs, hr]; rfl
    | some r => simp [Window.shape, Shape.raised, hs, hr]; rfl
  | minimized => simp [Window.shape, Shape.raised, hs]; rfl
  | normal => simp [Window.shape, hs]
  | fullscreen => simp [Window.shape, hs]

lemma shapeOf_actOn (a : ShapeAction) :
    (actOn id m a).shapeOf id =
      (m.shapeOf id).map (Shape.next (m.area.map ScreenArea.rect) · a) := by
  cases a with
  | focus => exact shapeOf_focus
  | minimize =>
    simp only [actOn, ShapeAction.on, WindowManager.apply, minimize]
    cases hw : m.windows[id]? with
    | none => simp [shapeOf, hw]
    | some w =>
      rw [← shapeOf_modifyWindow (f := shrink) fun _ => rfl]
      dsimp only
      split
      · exact shapeOf_focusTopmost _
      · rfl
  | maximize =>
    simp only [actOn, ShapeAction.on, WindowManager.apply]
    cases m.area with
    | none => exact Option.map_id'.symm
    | some area =>
      cases hw : m.windows[id]? with
      | none => simp [shapeOf, hw]
      | some w =>
        show ((m.modifyWindow id (fill area)).focus id).2.shapeOf id = _
        rw [shapeOf_focus, shapeOf_modifyWindow (g := (Shape.next (some area.rect) · .maximize))
          fun _ => rfl, Option.map_map]
        rfl
  | restore =>
    simp only [actOn, ShapeAction.on, WindowManager.apply]
    cases hw : m.windows[id]? with
    | none => simp [shapeOf, hw]
    | some w =>
      show ((m.modifyWindow id unfill).focus id).2.shapeOf id = _
      rw [shapeOf_focus, shapeOf, WindowManager.modifyWindow, getElem?_modify, if_pos rfl, shapeOf,
        hw]
      exact congrArg some (shape_unfill w)

lemma area_actOn (a : ShapeAction) : (actOn id m a).area = m.area := by
  have hfoc : ∀ m : WindowManager, (m.focus id).2.area = m.area := by
    intro m
    unfold focus
    split <;> rfl
  cases a with
  | focus => exact hfoc m
  | minimize =>
    simp only [actOn, ShapeAction.on, WindowManager.apply, minimize]
    split
    · rfl
    · unfold focusTopmost
      dsimp only
      split
      · split <;> rfl
      · rfl
  | maximize =>
    simp only [actOn, ShapeAction.on, WindowManager.apply]
    split
    · rfl
    · split
      · rfl
      · exact hfoc _
  | restore =>
    simp only [actOn, ShapeAction.on, WindowManager.apply]
    split
    · rfl
    · exact hfoc _

lemma shapeOf_foldl {s : Shape} (hs : m.shapeOf id = some s) (actions : List ShapeAction) :
    (actions.foldl (actOn id) m).shapeOf id =
        some (actions.foldl (Shape.next (m.area.map ScreenArea.rect)) s) ∧
      (actions.foldl (actOn id) m).area = m.area := by
  induction actions using List.reverseRecOn with
  | nil => exact ⟨hs, rfl⟩
  | append_singleton actions a ih =>
    rw [List.foldl_append, List.foldl_append]
    refine ⟨?_, (area_actOn a).trans ih.2⟩
    show (actOn id _ a).shapeOf id = _
    rw [shapeOf_actOn, ih.1, ih.2]
    rfl

def NeverMinimizedMaximized (id : WindowId) : WindowManager → List ShapeAction → Prop :=
  Run.Steps (actOn id) fun m a => a = .minimize → ∀ w, m.windows[id]? = some w →
    w.state ≠ .maximized

/-- **Restoring**: a window that is normal before and after a run of these actions on it has the
same position and size, exactly if it filled the screen area before, or was never minimized while it
was maximized. -/
theorem restored_rect_iff {m : WindowManager} {id : WindowId} {w w' : Window}
    {actions : List ShapeAction} (hw : m.windows[id]? = some w) (hnormal : w.state = .normal)
    (hw' : (actions.foldl (actOn id) m).windows[id]? = some w') (hnormal' : w'.state = .normal) :
    w'.rect = w.rect ↔ m.area.map ScreenArea.rect = some w.rect ∨
      NeverMinimizedMaximized id m actions := by
  have hs : m.shapeOf id = some w.shape := by rw [shapeOf, hw, Option.map_some]
  have hend : w'.shape = actions.foldl (Shape.next (m.area.map ScreenArea.rect)) w.shape := by
    have hfold := (shapeOf_foldl hs actions).1
    rw [shapeOf, hw', Option.map_some] at hfold
    exact Option.some.inj hfold
  have hsts : NeverMinimizedMaximized id m actions ↔
      Run.Steps (Shape.next (m.area.map ScreenArea.rect)) Shape.Safe w.shape actions := by
    refine forall₃_congr fun pre a post => forall_congr' fun heq => imp_congr_right fun _ => ?_
    have hfold := (shapeOf_foldl hs pre).1
    obtain ⟨u, hu, hsha⟩ := Option.map_eq_some_iff.mp hfold
    rw [← hsha, hu]
    simp [Window.shape]
  obtain ⟨hkp, hfil⟩ :=
    Shape.keeps_or_filled (m.area.map ScreenArea.rect) (s := w.shape) hnormal actions
  rw [← hend] at hkp hfil
  rw [hsts]
  by_cases hall : Run.Steps (Shape.next (m.area.map ScreenArea.rect)) Shape.Safe w.shape actions
  · refine iff_of_true ?_ (.inr hall)
    exact (hkp hall).rect_eq fun hmax => absurd (hmax.symm.trans hnormal') (by decide)
  · obtain ⟨harea, -⟩ := hfil hall
    rw [or_iff_left hall, harea, Option.some.injEq]
    rfl

def firstWindow : List WmOp := [.create "app-a" "A" 400 300]

def firstShapes (actions : List ShapeAction) : Option (Option Shape × Option Shape) :=
  (Run.exec WindowManager.step (new ⟨0, 96, 1024, 616⟩) firstWindow).map fun m =>
    (m.shapeOf 1, (actions.foldl (actOn 1) m).shapeOf 1)

lemma exists_of_firstShapes {actions : List ShapeAction} {s s' : Shape}
    (h : firstShapes actions = some (some s, some s')) :
    ∃ m w w', Run.exec WindowManager.step (new ⟨0, 96, 1024, 616⟩) firstWindow = some m ∧
      m.windows[(1 : WindowId)]? = some w ∧ w.shape = s ∧
      (actions.foldl (actOn 1) m).windows[(1 : WindowId)]? = some w' ∧ w'.shape = s' := by
  obtain ⟨m, hm, h⟩ := Option.map_eq_some_iff.mp h
  obtain ⟨hbef, haft⟩ := Prod.mk.inj h
  obtain ⟨w, hw, hs⟩ := Option.map_eq_some_iff.mp hbef
  obtain ⟨w', hw', hs'⟩ := Option.map_eq_some_iff.mp haft
  exact ⟨m, w, w', hm, hw, hs, hw', hs'⟩

theorem restored_rect_iff_restore :
    ∃ m w w', Run.exec WindowManager.step (new ⟨0, 96, 1024, 616⟩) firstWindow = some m ∧
      m.windows[(1 : WindowId)]? = some w ∧
      ([ShapeAction.maximize, .restore].foldl (actOn 1) m).windows[(1 : WindowId)]? = some w' ∧
      (w'.rect = w.rect ↔ m.area.map ScreenArea.rect = some w.rect ∨
        NeverMinimizedMaximized 1 m [.maximize, .restore]) := by
  have hrun : firstShapes [.maximize, .restore] =
      some (some ⟨(8, 104, 400, 292), .normal, none⟩,
        some ⟨(8, 104, 400, 292), .normal, none⟩) := by
    decide +kernel
  obtain ⟨m, w, w', hm, hw, hs, hw', hs'⟩ := exists_of_firstShapes hrun
  exact ⟨m, w, w', hm, hw, hw',
    restored_rect_iff hw (congrArg Shape.state hs) hw' (congrArg Shape.state hs')⟩

/-- A window that is minimized while it is maximized comes back as large as the screen. -/
theorem minimized_maximized_lost :
    ∃ m w w', Run.exec WindowManager.step (new ⟨0, 96, 1024, 616⟩) firstWindow = some m ∧
      m.windows[(1 : WindowId)]? = some w ∧ w.state = .normal ∧
      ([ShapeAction.maximize, .minimize, .restore].foldl (actOn 1) m).windows[(1 : WindowId)]? =
        some w' ∧ w'.state = .normal ∧ w'.rect ≠ w.rect := by
  have hrun : firstShapes [.maximize, .minimize, .restore] =
      some (some ⟨(8, 104, 400, 292), .normal, none⟩,
        some ⟨(0, 96, 1024, 616), .normal, some (8, 104, 400, 292)⟩) := by
    decide +kernel
  obtain ⟨m, w, w', hm, hw, hs, hw', hs'⟩ := exists_of_firstShapes hrun
  refine ⟨m, w, w', hm, hw, congrArg Shape.state hs, hw', congrArg Shape.state hs', ?_⟩
  show w'.shape.rect ≠ w.shape.rect
  rw [hs, hs']
  decide

end WindowManager

def Window.Contains (w : Window) (px py : Int32) : Prop :=
  (w.x.toInt ≤ px.toInt ∧ px.toInt < w.x.toInt + w.width.toNat) ∧
    (w.y.toInt ≤ py.toInt ∧ py.toInt < w.y.toInt + w.height.toNat)

instance (w : Window) (px py : Int32) : Decidable (w.Contains px py) :=
  inferInstanceAs (Decidable (_ ∧ _))

def EdgeFits (p start : Int32) (size : UInt32) : Prop :=
  p.toInt < start.toInt ∨ (size.toNat < 2147483648 ↔ start.toInt + size.toNat < 2147483648)

structure Window.Exact (w : Window) (px py : Int32) : Prop where
  edge_x : EdgeFits px w.x w.width
  edge_y : EdgeFits py w.y w.height
  size : w.Contains px py → w.width.toNat < 2147483648 ∧ w.height.toNat < 2147483648

namespace WindowManager

variable {m : WindowManager} {px py p start : Int32} {size : UInt32} {w : Window}
  {ids : List WindowId}

lemma toInt_toInt32 (n : UInt32) : n.toInt32.toInt =
    if n.toNat < 2147483648 then (n.toNat : ℤ) else n.toNat - 4294967296 := by
  have hlt := n.toNat_lt
  show n.toBitVec.toInt = _
  rw [BitVec.toInt_eq_toNat_cond]
  simp only [UInt32.toNat_toBitVec, Nat.reducePow]
  split <;> split <;> omega

lemma toInt_addI32 {a b c : Int32} (h : Checked.addI32 a b = some c) :
    c.toInt = a.toInt + b.toInt := by
  unfold Checked.addI32 at h
  split at h
  · rename_i hbou
    cases h
    have hmin : Int32.minValue.toInt = -2147483648 := rfl
    have hmax : Int32.maxValue.toInt = 2147483647 := rfl
    rw [hmin, hmax] at hbou
    rw [Int32.toInt_add, Int.bmod_eq_of_le] <;> omega
  · cases h

lemma addI32_isSome_iff {a : Int32} {n : UInt32} : (Checked.addI32 a n.toInt32).isSome ↔
    (n.toNat < 2147483648 ↔ a.toInt + n.toNat < 2147483648) := by
  have hmin : Int32.minValue.toInt = -2147483648 := rfl
  have hmax : Int32.maxValue.toInt = 2147483647 := rfl
  have hn := n.toNat_lt
  have hlow := a.le_toInt
  have hhigh := a.toInt_lt
  unfold Checked.addI32
  rw [toInt_toInt32, hmin, hmax]
  split <;> split <;> simp <;> omega

lemma spans_isSome_iff : (spans p start size).isSome ↔ EdgeFits p start size := by
  unfold spans EdgeFits
  split
  · rename_i hle
    rw [Int32.le_iff_toInt_le] at hle
    rw [Option.isSome_map, addI32_isSome_iff]
    simp [not_lt.mpr hle]
  · rename_i hlt
    rw [Int32.le_iff_toInt_le, not_le] at hlt
    simp [hlt]

lemma spans_eq {b : Bool} (h : spans p start size = some b) :
    b = true ↔ (start.toInt ≤ p.toInt ∧ p.toInt < start.toInt + size.toNat) ∧
      size.toNat < 2147483648 := by
  have hsize := size.toNat_lt
  unfold spans at h
  split at h
  · rename_i hle
    rw [Int32.le_iff_toInt_le] at hle
    obtain ⟨edge, hedge, rfl⟩ := Option.map_eq_some_iff.mp h
    rw [decide_eq_true_iff, Int32.lt_iff_toInt_lt, toInt_addI32 hedge, toInt_toInt32]
    split <;> omega
  · rename_i hlt
    rw [Int32.le_iff_toInt_le] at hlt
    cases h
    simp [hlt]

lemma contains_of_hits (h : hits w px py = some true) : w.Contains px py := by
  obtain ⟨inX, hX, h⟩ := Option.bind_eq_some_iff.mp h
  obtain ⟨inY, hY, h⟩ := Option.bind_eq_some_iff.mp h
  obtain ⟨hx, hy⟩ := Bool.and_eq_true_iff.mp (Option.some.inj h)
  exact ⟨((spans_eq hX).mp hx).1, ((spans_eq hY).mp hy).1⟩

lemma hits_eq_iff : hits w px py = some (decide (w.Contains px py)) ↔ w.Exact px py := by
  constructor
  · intro h
    obtain ⟨inX, hX, h⟩ := Option.bind_eq_some_iff.mp h
    obtain ⟨inY, hY, h⟩ := Option.bind_eq_some_iff.mp h
    refine ⟨spans_isSome_iff.mp (by simp [hX]), spans_isSome_iff.mp (by simp [hY]), fun hin => ?_⟩
    rw [Option.some.injEq, decide_eq_true hin, Bool.and_eq_true_iff] at h
    exact ⟨((spans_eq hX).mp h.1).2, ((spans_eq hY).mp h.2).2⟩
  · rintro ⟨hx, hy, hsize⟩
    obtain ⟨inX, hX⟩ := Option.isSome_iff_exists.mp (spans_isSome_iff.mpr hx)
    obtain ⟨inY, hY⟩ := Option.isSome_iff_exists.mp (spans_isSome_iff.mpr hy)
    have hboth : (inX && inY) = decide (w.Contains px py) := by
      rw [Bool.eq_iff_iff, Bool.and_eq_true_iff, spans_eq hX, spans_eq hY, decide_eq_true_iff]
      exact ⟨fun h => ⟨h.1.1, h.2.1⟩, fun h => ⟨⟨h.1, (hsize h).1⟩, h.2, (hsize h).2⟩⟩
    rw [hits, hX, hY, ← hboth]
    rfl

def topmost (m : WindowManager) (px py : Int32) (ids : List WindowId) : Option WindowId :=
  ids.find? fun id => m.windows[id]?.any fun w => focusable w && decide (w.Contains px py)

/-- The tests of the visible windows, up to the first that contains the point, are exact. -/
def TestsExactly (m : WindowManager) (px py : Int32) : List WindowId → Prop
  | [] => True
  | id :: rest =>
    (∀ w, m.windows[id]? = some w → focusable w = true → w.Exact px py) ∧
      ((∀ w, m.windows[id]? = some w → focusable w = true → ¬ w.Contains px py) →
        TestsExactly m px py rest)

lemma mem_of_windowAtFrom {id : WindowId} (h : m.windowAtFrom px py ids = some (some id)) :
    id ∈ ids := by
  induction ids with
  | nil => cases h
  | cons j rest ih =>
    unfold windowAtFrom at h
    split at h
    · exact List.mem_cons_of_mem _ (ih h)
    split at h
    · obtain ⟨hit, -, h⟩ := Option.bind_eq_some_iff.mp h
      split at h
      · cases h
        exact List.mem_cons_self
      · exact List.mem_cons_of_mem _ (ih h)
    · exact List.mem_cons_of_mem _ (ih h)

lemma windowAtFrom_eq_iff (hnd : ids.Nodup) :
    m.windowAtFrom px py ids = some (m.topmost px py ids) ↔ m.TestsExactly px py ids := by
  induction ids with
  | nil => exact iff_of_true rfl trivial
  | cons id rest ih =>
    obtain ⟨hid, hrest⟩ := List.nodup_cons.mp hnd
    specialize ih hrest
    rw [topmost, List.find?_cons, ← topmost]
    unfold windowAtFrom TestsExactly
    cases hw : m.windows[id]? with
    | none => simpa using ih
    | some w =>
      cases hfoc : focusable w with
      | false => simpa [hfoc] using ih
      | true =>
        simp only [Option.any_some, hfoc, Bool.true_and, Option.some.injEq, forall_eq',
          forall_const, if_true]
        cases hhit : hits w px py with
        | none =>
          refine iff_of_false (by simp) fun h => ?_
          simp [hits_eq_iff.mpr h.1] at hhit
        | some hit =>
          cases hit with
          | true =>
            have hin := contains_of_hits hhit
            have hexa : w.Exact px py := hits_eq_iff.mp (by rw [hhit, decide_eq_true hin])
            simp [hin, hexa]
          | false =>
            by_cases hin : w.Contains px py
            · -- the windows below do not have this id
              refine iff_of_false (fun h => ?_) fun h => ?_
              · have hbel : m.windowAtFrom px py rest = some (some id) := by simpa [hin] using h
                exact hid (mem_of_windowAtFrom hbel)
              · have hsame := hits_eq_iff.mpr h.1
                simp [hhit, hin] at hsame
            · have hexa : w.Exact px py := hits_eq_iff.mp (by rw [hhit, decide_eq_false hin])
              simpa [hin, hexa] using ih

/-- **Hit testing** in every state that a run reaches: for every point, `window_at` returns the
topmost visible window whose rectangle contains it, exactly if the test of each visible window up to
that one is exact. -/
theorem throughout_windowAt_iff (area : ScreenArea) (ops : List WmOp) :
    Run.Throughout WindowManager.step (fun m => ∀ px py,
      m.windowAt px py = some (m.topmost px py m.stack.reverse) ↔
        m.TestsExactly px py m.stack.reverse) (new area) ops :=
  fun _ _ _ hrun _ _ =>
    windowAtFrom_eq_iff (List.nodup_reverse.mpr (arranged_run hrun).neat.nodup)

/-- A window that reaches beyond the largest coordinate: the sum for its right edge overflows. -/
theorem windowAt_overflow :
    (Run.exec WindowManager.step (new ⟨0, 96, 1024, 616⟩)
      [.create "app-a" "A" 400 300, .apply (.move 1 2147483600 104)]).map
        (fun m => (m.windowAt 2147483610 110, m.topmost 2147483610 110 m.stack.reverse)) =
      some (none, some 1) := by
  decide +kernel

end WindowManager

end Aether.Wm
