import Aether.Algorithm.Index
import Aether.Algorithm.Run
import Aether.Core.Json

/-!
# The surfaces of the compositor (`libaether-graphics/src/compositor.rs`)

A hash map is the partial function it stands for.
-/

namespace Aether.Graphics

open Aether.Core Function

structure CompositorWindow where
  surfaceId : Uuid
  appId : String
  processId : Option UInt32
  sessionId : String
  workspaceId : UInt32

inductive CompositorEvent where
  | surfaceCreated (surfaceId : Uuid) (appId : String)
  | surfaceDestroyed (surfaceId : Uuid)

structure Compositor where
  windows : Uuid → Option CompositorWindow
  byApp : String → Option Uuid
  byPid : UInt32 → Option Uuid
  events : List CompositorEvent

namespace Compositor

def new : Compositor := ⟨fun _ => none, fun _ => none, fun _ => none, []⟩

def registerSurface (c : Compositor) (surfaceId : Uuid) (appId : String)
    (processId : Option UInt32) (sessionId : String) (workspaceId : UInt32) : Compositor where
  byApp := update c.byApp appId (some surfaceId)
  byPid := processId.elim c.byPid fun pid => update c.byPid pid (some surfaceId)
  events := c.events ++ [.surfaceCreated surfaceId appId]
  windows := update c.windows surfaceId
    (some ⟨surfaceId, appId, processId, sessionId, workspaceId⟩)

def removeSurface (c : Compositor) (surfaceId : Uuid) : Option CompositorWindow × Compositor :=
  match c.windows surfaceId with
  | some win =>
    (some win,
      { windows := update c.windows surfaceId none
        byApp := update c.byApp win.appId none
        byPid := win.processId.elim c.byPid fun pid => update c.byPid pid none
        events := c.events ++ [.surfaceDestroyed surfaceId] })
  | none => (none, c)

def surfaceByApp (c : Compositor) (appId : String) : Option Uuid := c.byApp appId

def surfaceByPid (c : Compositor) (pid : UInt32) : Option Uuid := c.byPid pid

end Compositor

inductive SurfaceOp where
  | register (surfaceId : Uuid) (appId : String) (processId : Option UInt32) (sessionId : String)
      (workspaceId : UInt32)
  | remove (surfaceId : Uuid)

def Compositor.next (c : Compositor) : SurfaceOp → Compositor
  | .register surfaceId appId processId sessionId workspaceId =>
    c.registerSurface surfaceId appId processId sessionId workspaceId
  | .remove surfaceId => (c.removeSurface surfaceId).2

end Aether.Graphics

/-!
## The lookups of the compositor

The maps by app and by process are two indexes over the table of surfaces.  An app with several
surfaces has one entry, which goes with whichever surface goes first; and a surface that is
registered again leaves the entry of its old app behind.
-/

namespace Aether.Graphics.Compositor

open Aether.Core Index

variable {c : Compositor}

/-- Both indexes find exactly what is in the table of surfaces. -/
structure LooksUp (c : Compositor) : Prop where
  app : Right (fun win => some win.appId) c.windows c.surfaceByApp
  pid : Right CompositorWindow.processId c.windows c.surfaceByPid

/-- A surface is registered again under its old keys, and removed when no other one has them. -/
def KeepsLookups (c : Compositor) : SurfaceOp → Prop
  | .register id app pid _ _ => ∀ old, c.windows id = some old →
      (old.appId ≠ app → c.byApp old.appId ≠ some id) ∧
        ∀ p, old.processId = some p → pid ≠ some p → c.byPid p ≠ some id
  | .remove id => ∀ win, c.windows id = some win → ∀ s other, s ≠ id → c.windows s = some other →
      other.appId ≠ win.appId ∧ ∀ p, win.processId = some p → other.processId ≠ some p

lemma update_byApp (index : String → Option Uuid) (win : CompositorWindow)
    (entry : Option Uuid) :
    Function.update index win.appId entry = enter (fun win => some win.appId) index win entry := by
  funext a
  simp [enter, Function.update_apply, eq_comm]

lemma update_byPid (index : UInt32 → Option Uuid) (win : CompositorWindow)
    (entry : Option Uuid) :
    (win.processId.elim index fun pid => Function.update index pid entry) =
      enter CompositorWindow.processId index win entry := by
  funext p
  cases hp : win.processId with
  | none => simp [enter, hp]
  | some pid => simp [enter, hp, Function.update_apply, eq_comm]

/-- **One call**. -/
theorem looksUp_next_iff (h : c.LooksUp) (op : SurfaceOp) :
    (c.next op).LooksUp ↔ c.KeepsLookups op := by
  cases op with
  | register id app pid session workspace =>
    have happ := right_insert_iff (i := id) (v := ⟨id, app, pid, session, workspace⟩) h.app
    have hpid := right_insert_iff (i := id) (v := ⟨id, app, pid, session, workspace⟩) h.pid
    rw [← update_byApp] at happ
    rw [← update_byPid] at hpid
    constructor
    · intro hnew old hold
      refine ⟨fun hne => happ.mp hnew.app old _ hold rfl ?_, fun p => hpid.mp hnew.pid old p hold⟩
      exact fun heq => hne (Option.some.inj heq).symm
    · intro hkp
      refine ⟨happ.mpr fun old a hold ha hne => ?_, hpid.mpr fun old p hold => ?_⟩
      · cases ha
        exact (hkp old hold).1 fun heq => hne (congrArg some heq.symm)
      · exact (hkp old hold).2 p
  | remove id =>
    cases hwin : c.windows id with
    | none =>
      have hsame : c.next (.remove id) = c := by simp [next, removeSurface, hwin]
      rw [hsame]
      refine iff_of_true h fun win hw => ?_
      cases hwin.symm.trans hw
    | some win =>
      have happ := right_erase_iff h.app hwin
      have hpid := right_erase_iff h.pid hwin
      rw [← update_byApp] at happ
      rw [← update_byPid] at hpid
      simp only [next, removeSurface, hwin, KeepsLookups, Option.some.injEq, forall_eq']
      constructor
      · intro hnew s other hne hoth
        exact ⟨fun heq => happ.mp hnew.app _ rfl s other hne hoth (congrArg some heq),
          fun p hp => hpid.mp hnew.pid p hp s other hne hoth⟩
      · intro hkp
        refine ⟨happ.mpr fun a ha s other hne hoth heq => ?_,
          hpid.mpr fun p hp s other hne hoth => (hkp s other hne hoth).2 p hp⟩
        exact (hkp s other hne hoth).1 (Option.some.inj (heq.trans ha.symm))

/-- **Lookups**: after every call of a history the lookups are right, exactly if every call meets
its condition. -/
theorem lookups_iff (ops : List SurfaceOp) :
    (∀ pre, pre <+: ops → (pre.foldl next new).LooksUp) ↔ Run.Steps next KeepsLookups new ops := by
  have hany : Run.Steps next (fun _ _ => True) new ops := fun _ _ _ _ => trivial
  refine Run.forall_prefix_iff_steps (I := fun _ => True) hany (fun _ _ _ _ => trivial)
    (fun c op _ _ h => looksUp_next_iff h op) trivial ?_
  constructor <;> exact fun k => ⟨nofun, fun _ _ _ hwin => by cases hwin⟩

def twoSurfaces : Compositor :=
  [SurfaceOp.register ⟨Vector.replicate 16 0⟩ "notes" none "s" 0,
    .register ⟨Vector.replicate 16 1⟩ "notes" none "s" 0,
    .remove ⟨Vector.replicate 16 1⟩].foldl next new

/-- The surface that is left is not found. -/
theorem twoSurfaces_not_found :
    twoSurfaces.surfaceByApp "notes" = none ∧
      (twoSurfaces.windows ⟨Vector.replicate 16 0⟩).map CompositorWindow.appId = some "notes" := by
  decide +kernel

end Aether.Graphics.Compositor
