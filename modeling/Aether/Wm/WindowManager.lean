import Aether.Algorithm.Checked
import Mathlib.Data.List.Sort

/-!
# The window manager (`graphics/aether-wm/src/lib.rs`)

A state machine without input or output: windows in a map by id, their stacking order from bottom to
top, the focused id, and the workspaces.  A `BTreeMap` is a `Std.TreeMap`; an operation that
overflows does not return (`none`).  Correctness is in `Equiv/`.
-/

namespace Aether.Wm

open Checked

abbrev WindowId := UInt64

inductive WindowState where
  | normal
  | minimized
  | maximized
  | fullscreen
  deriving DecidableEq

structure Window where
  id : WindowId
  appId : String
  title : String
  x : Int32
  y : Int32
  width : UInt32
  height : UInt32
  state : WindowState
  focused : Bool
  visible : Bool
  surfaceId : Option String
  processId : Option UInt32
  sessionId : String
  workspaceId : UInt32
  restoreRect : Option (Int32 × Int32 × UInt32 × UInt32)
  deriving DecidableEq

structure ScreenArea where
  x : Int32
  y : Int32
  width : UInt32
  height : UInt32
  deriving DecidableEq

structure Workspace where
  id : UInt32
  name : String
  windows : List WindowId
  deriving DecidableEq

inductive WindowAction where
  | focus (id : WindowId)
  | move (id : WindowId) (x y : Int32)
  | resize (id : WindowId) (width height : UInt32)
  | minimize (id : WindowId)
  | maximize (id : WindowId)
  | restore (id : WindowId)
  | close (id : WindowId)
  deriving DecidableEq

inductive WindowEvent where
  | windowCreated (id : WindowId) (appId : String)
  | windowClosed (id : WindowId)
  | windowFocused (id : WindowId)
  | windowMoved (id : WindowId) (x y : Int32)
  | windowResized (id : WindowId) (w h : UInt32)
  | workspaceCreated (id : UInt32) (name : String)
  | workspaceChanged (id : UInt32)
  | workspaceDestroyed (id : UInt32)
  deriving DecidableEq

structure WindowManager where
  windows : Std.TreeMap WindowId Window
  /-- From bottom to top. -/
  stack : List WindowId
  focused : Option WindowId
  nextId : WindowId
  area : Option ScreenArea
  activeWorkspace : UInt32
  workspaces : Std.TreeMap UInt32 Workspace
  events : List WindowEvent

namespace WindowManager

def new (area : ScreenArea) : WindowManager where
  windows := ∅
  stack := []
  focused := none
  nextId := 0
  area := some area
  activeWorkspace := 0
  workspaces := (∅ : Std.TreeMap UInt32 Workspace).insert 0 ⟨0, "Desktop", []⟩
  events := []

def pushEvent (m : WindowManager) (event : WindowEvent) : WindowManager :=
  { m with events := m.events ++ [event] }

def modifyWindow (m : WindowManager) (id : WindowId) (f : Window → Window) : WindowManager :=
  { m with windows := m.windows.modify id f }

def modifyWorkspace (m : WindowManager) (id : UInt32) (f : Workspace → Workspace) :
    WindowManager :=
  { m with workspaces := m.workspaces.modify id f }

def tile : ℕ → UInt32 × UInt32
  | 0 => (0, 0)
  | 1 => (1, 0)
  | 2 => (0, 1)
  | 3 => (1, 1)
  | n => (UInt32.ofNat (n % 2), UInt32.ofNat (n / 2 % 2))

def saturatingSubU32 (a b : UInt32) : UInt32 := if b ≤ a then a - b else 0

def tileRect (area : ScreenArea) (count : ℕ) (preferredWidth preferredHeight : UInt32) :
    Option (Int32 × Int32 × UInt32 × UInt32) := do
  let (col, row) := tile count
  let tileW := area.width / 2
  let tileH := area.height / 2
  let w := max (min preferredWidth (saturatingSubU32 tileW 16)) 200
  let h := max (min preferredHeight (saturatingSubU32 tileH 16)) 150
  let x ← addI32 (← addI32 area.x (col * tileW).toInt32) 8
  let y ← addI32 (← addI32 area.y (row * tileH).toInt32) 8
  some (x, y, w, h)

def unfocus (w : Window) : Window := { w with focused := false }

def create (m : WindowManager) (appId title : String) (preferredWidth preferredHeight : UInt32) :
    Option (Option Window × WindowManager) :=
  match m.area with
  | none => some (none, m)
  | some area => do
    let id ← addU64 m.nextId 1
    let (x, y, w, h) ← tileRect area m.windows.size preferredWidth preferredHeight
    let window : Window :=
      { id, appId, title, x, y, width := w, height := h, state := .normal, focused := true,
        visible := true, surfaceId := none, processId := none, sessionId := "",
        workspaceId := m.activeWorkspace, restoreRect := none }
    let m := { m with
      nextId := id, windows := (m.windows.map fun _ => unfocus).insert id window,
      stack := m.stack ++ [id], focused := some id }
    let m := m.modifyWorkspace m.activeWorkspace fun ws => { ws with windows := ws.windows ++ [id] }
    some (some window, m.pushEvent (.windowCreated id appId))

def createTracked (m : WindowManager) (appId title : String)
    (preferredWidth preferredHeight : UInt32) (surfaceId : Option String)
    (processId : Option UInt32) (sessionId : String) : Option (Option Window × WindowManager) := do
  let (created, m) ← m.create appId title preferredWidth preferredHeight
  match created with
  | none => some (none, m)
  | some win =>
    let win := { win with surfaceId, processId, sessionId }
    some (some win, { m with windows := m.windows.insert win.id win })

def focusable (w : Window) : Bool := w.visible && w.state != .minimized

def focusTopmost (m : WindowManager) (p : Window → Bool) : WindowManager :=
  match m.stack.reverse.find? fun wid => (m.windows[wid]?).any p with
  | none => { m with focused := none }
  | some wid =>
    { m.modifyWindow wid fun w => { w with focused := true } with focused := some wid }

def gainFocus (w : Window) : Window :=
  { w with focused := true, visible := true,
           state := if w.state = .minimized then .normal else w.state }

def loseFocus (id : WindowId) (other : Window) : Window :=
  if other.id ≠ id then { other with focused := false } else other

def focus (m : WindowManager) (id : WindowId) : Option Window × WindowManager :=
  match m.windows[id]? with
  | none => (none, m)
  | some _ =>
    let m := m.modifyWindow id gainFocus
    let m := { m with
      stack := m.stack.erase id ++ [id],
      windows := m.windows.map fun _ => loseFocus id,
      focused := some id }
    let m := m.pushEvent (.windowFocused id)
    (m.windows[id]?, m)

def spans (p start : Int32) (size : UInt32) : Option Bool :=
  if start ≤ p then (addI32 start size.toInt32).map fun edge => decide (p < edge) else some false

def hits (w : Window) (px py : Int32) : Option Bool := do
  let inX ← spans px w.x w.width
  let inY ← spans py w.y w.height
  some (inX && inY)

def windowAtFrom (m : WindowManager) (px py : Int32) : List WindowId → Option (Option WindowId)
  | [] => some none
  | id :: rest =>
    match m.windows[id]? with
    | none => m.windowAtFrom px py rest
    | some w =>
      if focusable w then do
        if ← hits w px py then some (some id) else m.windowAtFrom px py rest
      else m.windowAtFrom px py rest

def windowAt (m : WindowManager) (px py : Int32) : Option (Option WindowId) :=
  m.windowAtFrom px py m.stack.reverse

def cycleFocus (m : WindowManager) : Option Window × WindowManager :=
  let visible := ((m.windows.toList.map Prod.snd).filter focusable).map Window.id
  let current := m.focused.getD 0
  let pos := (visible.findIdx? fun i => decide (current < i)).getD 0
  match visible[pos]? with
  | none => (none, m)
  | some id => m.focus id

def detach (m : WindowManager) (id : WindowId) (workspaceId : UInt32) : WindowManager :=
  { m with
    windows := m.windows.erase id
    stack := m.stack.filter fun w => w != id }.modifyWorkspace workspaceId fun ws =>
      { ws with windows := ws.windows.filter fun w => w != id }

def close (m : WindowManager) (id : WindowId) : Option Window × WindowManager :=
  match m.windows[id]? with
  | none => (none, m)
  | some removed =>
    let m := m.detach id removed.workspaceId
    let m := if m.focused = some id then m.focusTopmost focusable else m
    (some removed, m.pushEvent (.windowClosed id))

def shrink (w : Window) : Window :=
  { w with state := .minimized, visible := false, focused := false }

def minimize (m : WindowManager) (id : WindowId) : Option Window × WindowManager :=
  match m.windows[id]? with
  | none => (none, m)
  | some _ =>
    let m := m.modifyWindow id shrink
    let m := if m.focused = some id then m.focusTopmost focusable else m
    (m.windows[id]?, m)

def fill (area : ScreenArea) (w : Window) : Window :=
  { w with
    restoreRect :=
      if w.state ≠ .maximized then some (w.x, w.y, w.width, w.height) else w.restoreRect
    state := .maximized, visible := true
    x := area.x, y := area.y, width := area.width, height := area.height }

def unfill (w : Window) : Window :=
  match w.state with
  | .minimized => { w with state := .normal, visible := true }
  | .maximized =>
    match w.restoreRect with
    | some (x, y, width, height) =>
      { w with x, y, width, height, restoreRect := none, state := .normal }
    | none => { w with state := .normal }
  | _ => w

def apply (m : WindowManager) : WindowAction → Option Window × WindowManager
  | .focus id => m.focus id
  | .move id x y =>
    match m.windows[id]? with
    | none => (none, m)
    | some _ =>
      let m := (m.modifyWindow id fun w => { w with x, y }).pushEvent (.windowMoved id x y)
      (m.windows[id]?, m)
  | .resize id width height =>
    match m.windows[id]? with
    | none => (none, m)
    | some _ =>
      let width := max width 120
      let height := max height 80
      let m := (m.modifyWindow id fun w => { w with width, height }).pushEvent
        (.windowResized id width height)
      (m.windows[id]?, m)
  | .minimize id => m.minimize id
  | .maximize id =>
    match m.area with
    | none => (none, m)
    | some area =>
      match m.windows[id]? with
      | none => (none, m)
      | some _ =>
        let m := ((m.modifyWindow id (fill area)).focus id).2
        (m.windows[id]?, m)
  | .restore id =>
    match m.windows[id]? with
    | none => (none, m)
    | some _ =>
      let m := ((m.modifyWindow id unfill).focus id).2
      (m.windows[id]?, m)
  | .close id => m.close id

def nextWorkspaceId (m : WindowManager) : Option UInt32 :=
  match m.workspaces.keys.max? with
  | none => some 1
  | some k => addU32 k 1

def createWorkspace (m : WindowManager) (name : String) : Option (UInt32 × WindowManager) := do
  let nextId ← m.nextWorkspaceId
  let m := m.pushEvent (.workspaceCreated nextId name)
  some (nextId, { m with workspaces := m.workspaces.insert nextId ⟨nextId, name, []⟩ })

def destroyWorkspace (m : WindowManager) (id : UInt32) : Bool × WindowManager :=
  if id = 0 then (false, m)
  else
    match m.workspaces[id]? with
    | none => (false, m)
    | some ws =>
      let m := { m with workspaces := m.workspaces.erase id }
      let m :=
        if m.workspaces.contains 0 then
          ws.windows.foldl (fun m wid =>
            (m.modifyWorkspace 0 fun d => { d with windows := d.windows ++ [wid] }).modifyWindow wid
              fun w => { w with workspaceId := 0 }) m
        else m
      let m :=
        if m.activeWorkspace = id then
          { m with activeWorkspace := 0 }.pushEvent (.workspaceChanged 0)
        else m
      (true, m.pushEvent (.workspaceDestroyed id))

def hideWindows (m : WindowManager) (wids : List WindowId) : WindowManager :=
  wids.foldl (fun m wid => m.modifyWindow wid fun w =>
    if w.state ≠ .minimized then { w with visible := false } else w) m

def showWindows (m : WindowManager) (wids : List WindowId) : WindowManager :=
  wids.foldl (fun m wid => m.modifyWindow wid fun w => { w with visible := true }) m

def swapWindows (m : WindowManager) (old : UInt32) (wids : List WindowId) : WindowManager :=
  let m := match m.workspaces[old]? with
    | none => m
    | some oldWs => m.hideWindows oldWs.windows
  m.showWindows wids

def activateWorkspace (m : WindowManager) (id : UInt32) : Bool × WindowManager :=
  match m.workspaces[id]? with
  | none => (false, m)
  | some newWs =>
    let old := m.activeWorkspace
    let m := { m with activeWorkspace := id }
    let m := m.swapWindows old newWs.windows
    let m := m.focusTopmost fun w => w.visible && w.workspaceId == id && w.state != .minimized
    (true, m.pushEvent (.workspaceChanged id))

def moveWindowToWorkspace (m : WindowManager) (wid : WindowId) (targetWs : UInt32) :
    Bool × WindowManager :=
  if !m.workspaces.contains targetWs then (false, m)
  else
    match m.windows[wid]? with
    | none => (false, m)
    | some w =>
      let m := m.modifyWindow wid fun w => { w with workspaceId := targetWs }
      let m := m.modifyWorkspace w.workspaceId fun ws =>
        { ws with windows := ws.windows.filter fun w => w != wid }
      let m := m.modifyWorkspace targetWs fun ws => { ws with windows := ws.windows ++ [wid] }
      (true, m)

def drainEvents (m : WindowManager) : List WindowEvent × WindowManager :=
  (m.events, { m with events := [] })

end WindowManager

inductive WmOp where
  | create (appId title : String) (preferredWidth preferredHeight : UInt32)
  | createTracked (appId title : String) (preferredWidth preferredHeight : UInt32)
      (surfaceId : Option String) (processId : Option UInt32) (sessionId : String)
  | apply (action : WindowAction)
  | close (id : WindowId)
  | cycleFocus
  | createWorkspace (name : String)
  | destroyWorkspace (id : UInt32)
  | activateWorkspace (id : UInt32)
  | moveWindowToWorkspace (wid : WindowId) (targetWs : UInt32)
  | drainEvents

def WindowManager.step (m : WindowManager) : WmOp → Option WindowManager
  | .create appId title w h => (m.create appId title w h).map Prod.snd
  | .createTracked appId title w h surfaceId processId sessionId =>
    (m.createTracked appId title w h surfaceId processId sessionId).map Prod.snd
  | .apply action => some (m.apply action).2
  | .close id => some (m.close id).2
  | .cycleFocus => some m.cycleFocus.2
  | .createWorkspace name => (m.createWorkspace name).map Prod.snd
  | .destroyWorkspace id => some (m.destroyWorkspace id).2
  | .activateWorkspace id => some (m.activateWorkspace id).2
  | .moveWindowToWorkspace wid targetWs => some (m.moveWindowToWorkspace wid targetWs).2
  | .drainEvents => some m.drainEvents.2

end Aether.Wm
