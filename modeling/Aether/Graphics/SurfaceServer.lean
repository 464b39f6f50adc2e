import Aether.Core.Json
import Aether.Wm.Equiv.Focus

/-!
# A connection of the surface server (`aether-graphical-shell/src/surface_server.rs`)

The thread of one connection reads lines.  Between two of them the other threads may use the window
manager and the table of clients.  An overflow is a panic, which ends the thread.
-/

namespace Aether.Graphics

open Aether.Core Wm Checked

inductive SurfaceCommand where
  | close (id : WindowId)

inductive SurfaceEvent where
  | registered (id : WindowId)
  | sent (command : SurfaceCommand)
  | notified (id : WindowId)
  | responded (v : Json)

inductive Status where
  | serving | ended | panicked
  deriving DecidableEq

structure Connection where
  wm : WindowManager
  clients : List WindowId
  registered : Option WindowId
  status : Status
  log : List SurfaceEvent

def WindowState.display : WindowState → String
  | .normal => "normal"
  | .minimized => "minimized"
  | .maximized => "maximized"
  | .fullscreen => "fullscreen"

def ofInt (n : Int32) : Json := .num (toString n.toInt)

def windowJson (w : Window) : Json :=
  .obj [("app", .str w.appId), ("focused", .bool w.focused), ("h", .ofNat w.height.toNat),
    ("id", .ofNat w.id.toNat), ("state", .str (WindowState.display w.state)),
    ("title", .str w.title), ("w", .ofNat w.width.toNat), ("x", ofInt w.x), ("y", ofInt w.y)]

def stacked (m : WindowManager) : List Window := m.stack.filterMap fun id => m.windows[id]?

def findByApp (m : WindowManager) (app : String) : Option WindowId :=
  ((stacked m).find? fun w => w.appId = app).map Window.id

def failure (error : String) : Json := .obj [("error", .str error), ("ok", .bool false)]

def opOf (req : Json) : String := (req.field "op").asStr.getD ""

namespace Connection

def accept (wm : WindowManager) (clients : List WindowId) : Connection :=
  ⟨wm, clients, none, .serving, []⟩

def push (c : Connection) (e : SurfaceEvent) : Connection := { c with log := c.log ++ [e] }

def respond (c : Connection) (v : Json) : Connection := c.push (.responded v)

def notifyClose (c : Connection) (id : WindowId) : Connection :=
  if id ∈ c.clients then { c with clients := c.clients.filter (· ≠ id) }.push (.notified id) else c

def register (c : Connection) (req : Json) : Connection :=
  let appId := (req.field "app").asStr.getD "app"
  let title := (req.field "title").asStr.getD appId
  let w := ((req.field "w").asU64.getD 420).toUInt32
  let h := ((req.field "h").asU64.getD 320).toUInt32
  match c.wm.create appId title w h with
  | none => { c with status := .panicked }
  | some (none, wm) => { c with wm, status := .ended }
  | some (some win, wm) =>
    let c := { c with wm, registered := some win.id, clients := win.id :: c.clients }.push
      (.registered win.id)
    match addI32 win.y 28 with
    | none => { c with status := .panicked }
    | some y => c.respond (.obj [("event", .str "registered"),
        ("rect", .arr [ofInt win.x, ofInt y, .ofNat win.width.toNat,
          .ofNat (WindowManager.saturatingSubU32 win.height 28).toNat]),
        ("window_id", .ofNat win.id.toNat)])

def closeTarget (c : Connection) (req : Json) : Option WindowId :=
  match (req.field "window_id").asU64, (req.field "app_id").asStr with
  | some id, _ => some id
  | none, some app => findByApp c.wm app
  | none, none => none

def act (c : Connection) (req : Json) (action : WindowId → WindowAction) : Connection :=
  match (req.field "window_id").asU64 with
  | none => c.respond (failure "window_id required")
  | some id =>
    let applied := c.wm.apply (action id)
    let c := { c with wm := applied.2 }
    if applied.1.isSome then
      c.respond (.obj [("ok", .bool true), ("window_id", .ofNat id.toNat)])
    else c.respond (failure "no such window")

def close (c : Connection) (req : Json) : Connection :=
  match c.closeTarget req with
  | some wid => ((c.notifyClose wid).push (.sent (.close wid))).respond
      (.obj [("closed", .ofNat wid.toNat), ("ok", .bool true)])
  | none => c.respond (failure "no such window")

def handle (c : Connection) (req : Json) : Connection :=
  match opOf req with
  | "register" => c.register req
  | "window.list" =>
    c.respond (.obj [("ok", .bool true), ("windows", .arr ((stacked c.wm).map windowJson))])
  | "window.focus" => c.act req .focus
  | "window.minimize" => c.act req .minimize
  | "window.maximize" => c.act req .maximize
  | "window.close" => c.close req
  | op => c.respond (failure s!"unknown op '{op}'")

def finish (c : Connection) : List SurfaceEvent :=
  if c.status = .panicked then c.log
  else
    match c.registered with
    | none => c.log
    | some id => c.log ++ [.sent (.close id)]

end Connection

inductive SurfaceInput where
  | line (req : Option Json)
  | elsewhere (op : WmOp) (clients : List WindowId)

def Connection.next (c : Connection) : SurfaceInput → Connection
  | .elsewhere op clients => { c with wm := (c.wm.step op).getD c.wm, clients }
  | .line none => c
  | .line (some req) => if c.status = .serving then c.handle req else c

/-!
## The windows of a connection

When a connection is over, the close commands that were sent are those that its client asked for and
one for the window it registered last.
-/

open List Run

namespace Connection

variable {c : Connection} {req : Json} {input : SurfaceInput} {id : WindowId}

/-- A line with this operation is read. -/
def Reads (c : Connection) (input : SurfaceInput) (op : String) (req : Json) : Prop :=
  input = .line (some req) ∧ c.status = .serving ∧ opOf req = op

/-- The input asks to close this window. -/
def AsksFor (c : Connection) (input : SurfaceInput) (id : WindowId) : Prop :=
  ∃ req, c.Reads input "window.close" req ∧ c.closeTarget req = some id

/-- What the window manager answers to a registration. -/
def created (c : Connection) (req : Json) : Option (Option Window × WindowManager) :=
  let appId := (req.field "app").asStr.getD "app"
  c.wm.create appId ((req.field "title").asStr.getD appId)
    ((req.field "w").asU64.getD 420).toUInt32 ((req.field "h").asU64.getD 320).toUInt32

/-- The input registers a window, which gets this id. -/
def Registers (c : Connection) (input : SurfaceInput) (id : WindowId) : Prop :=
  ∃ req, c.Reads input "register" req ∧
    ∃ win wm, c.created req = some (some win, wm) ∧ win.id = id

/-- The input is a registration that overflows: in the number or the place of the window, or in the
place of its contents. -/
def Overflows (c : Connection) (input : SurfaceInput) : Prop :=
  ∃ req, c.Reads input "register" req ∧
    (c.created req = none ∨ ∃ win wm, c.created req = some (some win, wm) ∧ addI32 win.y 28 = none)

/-- The window is the last one to be registered. -/
def RegisteredLast (c : Connection) (inputs : List SurfaceInput) (id : WindowId) : Prop :=
  ∃ pre input post, inputs = pre ++ input :: post ∧ (pre.foldl next c).Registers input id ∧
    Steps next (fun c input => ∀ id, ¬ c.Registers input id) ((pre ++ [input]).foldl next c) post

/-- For every window that is registered, a later input asks to close it, or it is the last one and
no registration overflows. -/
def AsksToClose (c : Connection) (inputs : List SurfaceInput) : Prop :=
  ∀ pre input post id, inputs = pre ++ input :: post → (pre.foldl next c).Registers input id →
    Sometime next (fun c input => c.AsksFor input id) ((pre ++ [input]).foldl next c) post ∨
      c.RegisteredLast inputs id ∧ Steps next (fun c input => ¬ c.Overflows input) c inputs

/-- After every registration in the log a close command was sent for its window. -/
def Closes (log : List SurfaceEvent) : Prop :=
  ∀ pre id post, log = pre ++ .registered id :: post → .sent (.close id) ∈ post

/-- What an input does to a connection. -/
structure Effect (c : Connection) (input : SurfaceInput) (c' : Connection)
    (new : List SurfaceEvent) : Prop where
  sound : c.wm.Sound → c'.wm.Sound
  log : c'.log = c.log ++ new
  sent : ∀ id, .sent (.close id) ∈ new ↔ c.AsksFor input id
  made : ∀ id, .registered id ∈ new ↔ c.Registers input id
  registered : ∀ id, c'.registered = some id ↔
    c.Registers input id ∨ (∀ id, ¬ c.Registers input id) ∧ c.registered = some id
  panicked : c'.status = .panicked ↔ c.status = .panicked ∨ c.Overflows input

lemma Effect.of_other {c' : Connection} {new : List SurfaceEvent} (hs : c.wm.Sound → c'.wm.Sound)
    (hop : ∀ op req, c.Reads input op req → op ≠ "register" ∧ op ≠ "window.close")
    (hlog : c'.log = c.log ++ new) (hnew : ∀ e ∈ new, ∃ v, e = .responded v)
    (hreg : c'.registered = c.registered) (hstat : c'.status = c.status) :
    Effect c input c' new := by
  have hasks : ∀ id, ¬ c.AsksFor input id := by
    rintro id ⟨req, hrea, -⟩
    exact (hop _ req hrea).2 rfl
  have hregs : ∀ id, ¬ c.Registers input id := by
    rintro id ⟨req, hrea, -⟩
    exact (hop _ req hrea).1 rfl
  have hover : ¬ c.Overflows input := by
    rintro ⟨req, hrea, -⟩
    exact (hop _ req hrea).1 rfl
  refine ⟨hs, hlog, fun id => iff_of_false ?_ (hasks id), fun id => iff_of_false ?_ (hregs id), ?_,
    ?_⟩
  · intro hmem
    obtain ⟨v, hv⟩ := hnew _ hmem
    cases hv
  · intro hmem
    obtain ⟨v, hv⟩ := hnew _ hmem
    cases hv
  · simp [hregs, hreg]
  · simp [hover, hstat]

lemma sound_of_create {m m' : WindowManager} {appId title : String} {w h : UInt32}
    {win : Option Window} (hm : m.Sound) (hcr : m.create appId title w h = some (win, m')) :
    m'.Sound := by
  have hstep : m.step (.create appId title w h) = some m' := congrArg (Option.map Prod.snd) hcr
  exact WindowManager.sound_step hm hstep

lemma effect_register (hser : c.status = .serving) (hop : opOf req = "register") :
    ∃ new, Effect c (.line (some req)) (c.register req) new := by
  have hasks : ∀ id, ¬ c.AsksFor (.line (some req)) id := by simp [AsksFor, Reads, hop]
  have hregs : ∀ id, c.Registers (.line (some req)) id ↔
      ∃ win wm, c.created req = some (some win, wm) ∧ win.id = id := by
    simp [Registers, Reads, hser, hop]
  have hover : c.Overflows (.line (some req)) ↔ c.created req = none ∨
      ∃ win wm, c.created req = some (some win, wm) ∧ addI32 win.y 28 = none := by
    simp [Overflows, Reads, hser, hop]
  show ∃ new, Effect c _ (match c.created req with
    | none => _
    | some (none, wm) => _
    | some (some win, wm) => _) new
  rcases hcr : c.created req with - | ⟨- | win, wm⟩ <;>
    simp only [hcr, reduceCtorEq, Option.some.injEq, Prod.mk.injEq, false_or] at hregs hover ⊢
  · refine ⟨[], id, (append_nil _).symm, ?_, ?_, ?_, ?_⟩ <;> simp [hasks, hregs, hover]
  · refine ⟨[], fun hs => sound_of_create hs hcr, (append_nil _).symm, ?_, ?_, ?_, ?_⟩ <;>
      simp [hasks, hregs, hover, hser]
  · split
    · next hy =>
      refine ⟨[.registered win.id], fun hs => sound_of_create hs hcr, rfl, ?_, ?_, ?_, ?_⟩ <;>
        simp [hasks, hregs, hover, hy, push, eq_comm]
    · next y hy =>
      refine ⟨[.registered win.id, .responded _], fun hs => sound_of_create hs hcr,
        append_assoc .., ?_, ?_, ?_, ?_⟩ <;>
        simp [hasks, hregs, hover, hy, push, respond, eq_comm]

lemma effect_close (hser : c.status = .serving) (hop : opOf req = "window.close") :
    ∃ new, Effect c (.line (some req)) (c.close req) new := by
  have hregs : ∀ id, ¬ c.Registers (.line (some req)) id := by simp [Registers, Reads, hop]
  have hover : ¬ c.Overflows (.line (some req)) := by simp [Overflows, Reads, hop]
  have hasks : ∀ id, c.AsksFor (.line (some req)) id ↔ c.closeTarget req = some id := by
    simp [AsksFor, Reads, hser, hop]
  unfold close
  cases htgt : c.closeTarget req with
  | none =>
    refine ⟨[.responded _], id, rfl, ?_, ?_, ?_, ?_⟩ <;>
      simp [hasks, htgt, hregs, hover, respond, push]
  | some wid =>
    dsimp only [notifyClose]
    split
    · refine ⟨[.notified wid, .sent (.close wid), .responded _], id,
        (append_assoc ..).trans (append_assoc ..), ?_, ?_, ?_, ?_⟩ <;>
        simp [hasks, htgt, hregs, hover, respond, push, eq_comm]
    · refine ⟨[.sent (.close wid), .responded _], id, append_assoc .., ?_, ?_, ?_, ?_⟩ <;>
        simp [hasks, htgt, hregs, hover, respond, push, eq_comm]

/-- **One input**. -/
theorem exists_effect (c : Connection) (input : SurfaceInput) :
    ∃ new, Effect c input (c.next input) new := by
  cases input with
  | elsewhere op clients =>
    refine ⟨[], .of_other (fun hs => ?_) (by simp [Reads]) (append_nil _).symm nofun rfl rfl⟩
    change ((c.wm.step op).getD c.wm).Sound
    cases hstep : c.wm.step op with
    | none => exact hs
    | some m => exact WindowManager.sound_step hs hstep
  | line req =>
    rcases req with - | req
    · exact ⟨[], .of_other id (by simp [Reads]) (append_nil _).symm nofun rfl rfl⟩
    by_cases hser : c.status = .serving
    swap
    · rw [next, if_neg hser]
      exact ⟨[], .of_other id (by simp [Reads, hser]) (append_nil _).symm nofun rfl rfl⟩
    rw [next, if_pos hser]
    -- the operations that only answer, after a change of the window manager or not
    have hanswer : opOf req ≠ "register" ∧ opOf req ≠ "window.close" → ∀ v m,
        (c.wm.Sound → m.Sound) →
        ∃ new, Effect c (.line (some req)) ({ c with wm := m }.respond v) new := by
      intro hop v m hm
      refine ⟨[.responded v], .of_other hm ?_ rfl (by simp) rfl rfl⟩
      rintro op req' ⟨heq, -, rfl⟩
      cases heq
      exact hop
    have hact : opOf req ≠ "register" ∧ opOf req ≠ "window.close" → ∀ action,
        ∃ new, Effect c (.line (some req)) (c.act req action) new := by
      intro hop action
      unfold act
      split
      · exact hanswer hop _ c.wm id
      · next id' _ =>
        have hstep : c.wm.step (.apply (action id')) = some (c.wm.apply (action id')).2 := rfl
        have hm := fun hs : c.wm.Sound => WindowManager.sound_step hs hstep
        dsimp only
        split <;> exact hanswer hop _ _ hm
    unfold handle
    split
    · next hop => exact effect_register hser hop
    · next hop => exact hanswer (by rw [hop]; decide) _ c.wm id
    · next hop => exact hact (by rw [hop]; decide) _
    · next hop => exact hact (by rw [hop]; decide) _
    · next hop => exact hact (by rw [hop]; decide) _
    · next hop => exact effect_close hser hop
    · next hreg _ _ _ _ hclo => exact hanswer ⟨hreg, hclo⟩ _ c.wm id

lemma sound_run (hs : c.wm.Sound) (inputs : List SurfaceInput) :
    (inputs.foldl next c).wm.Sound := by
  induction inputs generalizing c with
  | nil => exact hs
  | cons input inputs ih =>
    obtain ⟨new, he⟩ := c.exists_effect input
    exact ih (he.sound hs)

lemma panicked_run (c : Connection) (inputs : List SurfaceInput) :
    (inputs.foldl next c).status = .panicked ↔
      c.status = .panicked ∨ Sometime next Overflows c inputs := by
  induction inputs generalizing c with
  | nil => simp [Sometime]
  | cons input inputs ih =>
    obtain ⟨new, he⟩ := c.exists_effect input
    rw [foldl_cons, ih, he.panicked, sometime_cons_iff, or_assoc]

lemma registeredLast_cons_iff {inputs : List SurfaceInput} :
    c.RegisteredLast (input :: inputs) id ↔ c.Registers input id ∧
        Steps next (fun c input => ∀ id, ¬ c.Registers input id) (c.next input) inputs ∨
      (c.next input).RegisteredLast inputs id := exists_split_cons_iff

lemma registered_run (c : Connection) (inputs : List SurfaceInput) (id : WindowId) :
    (inputs.foldl next c).registered = some id ↔ c.RegisteredLast inputs id ∨
      Steps next (fun c input => ∀ id, ¬ c.Registers input id) c inputs ∧
        c.registered = some id := by
  induction inputs generalizing c with
  | nil => simp [RegisteredLast, Steps]
  | cons input inputs ih =>
    obtain ⟨new, he⟩ := c.exists_effect input
    rw [foldl_cons, ih, he.registered, registeredLast_cons_iff, steps_cons_iff]
    tauto

lemma Registers.not_asksFor {id' : WindowId} (h : c.Registers input id) :
    ¬ c.AsksFor input id' := by
  obtain ⟨req, ⟨rfl, -, hop⟩, -⟩ := h
  simp [AsksFor, Reads, hop]

/-- The log of a run, read back to the inputs. -/
theorem exists_log_run (X : WindowId → Prop) (c : Connection) (inputs : List SurfaceInput) :
    ∃ new, (inputs.foldl next c).log = c.log ++ new ∧
      (∀ id, .sent (.close id) ∈ new ↔ Sometime next (fun c i => c.AsksFor i id) c inputs) ∧
      ((∀ pre id post, new = pre ++ .registered id :: post → .sent (.close id) ∈ post ∨ X id) ↔
        ∀ pre input post id, inputs = pre ++ input :: post → (pre.foldl next c).Registers input id →
          Sometime next (fun c i => c.AsksFor i id) ((pre ++ [input]).foldl next c) post ∨
            X id) := by
  induction inputs generalizing c with
  | nil => exact ⟨[], by simp, by simp [Sometime], by simp⟩
  | cons input inputs ih =>
    obtain ⟨new, he⟩ := c.exists_effect input
    obtain ⟨rest, hlog, hsent, hiff⟩ := ih (c.next input)
    refine ⟨new ++ rest, ?_, fun id => ?_, ?_, ?_⟩
    · rw [foldl_cons, hlog, he.log, append_assoc]
    · rw [mem_append, he.sent, hsent, sometime_cons_iff]
    · intro h pre input' post id heq hreg
      rcases pre with - | ⟨j, pre⟩
      · cases heq
        obtain ⟨p, q, rfl⟩ := append_of_mem ((he.made id).mpr hreg)
        rcases h p id (q ++ rest) (by simp) with hmem | hX
        · rcases mem_append.mp hmem with hmem | hmem
          · exact absurd ((he.sent id).mp (by simp [hmem])) hreg.not_asksFor
          · exact .inl ((hsent id).mp hmem)
        · exact .inr hX
      · obtain ⟨rfl, htl⟩ := cons.inj heq
        refine hiff.mp (fun p id q hq => ?_) pre input' post id htl hreg
        exact h (new ++ p) id q (by rw [hq, append_assoc])
    · intro h pre id post heq
      rcases LastWrite.append_eq_append_cons_iff.mp heq with ⟨q, rfl, rfl⟩ | ⟨mid, rfl, hrest⟩
      · have hreg := (he.made id).mp (by simp)
        exact (h [] input inputs id rfl hreg).imp_left fun hs =>
          mem_append_right _ ((hsent id).mpr hs)
      · refine hiff.mpr (fun pre input' post id heq hreg => ?_) mid id post hrest
        exact h (input :: pre) input' post id (by rw [heq, cons_append]) hreg

lemma finish_eq (c : Connection) : ∃ rest, c.finish = c.log ++ rest ∧
    (∀ id, .registered id ∉ rest) ∧
    ∀ id, .sent (.close id) ∈ rest ↔ c.status ≠ .panicked ∧ c.registered = some id := by
  unfold finish
  split
  · rename_i hstat
    exact ⟨[], by simp, by simp, by simp [hstat]⟩
  · rename_i hstat
    split
    · rename_i hreg
      exact ⟨[], by simp, by simp, by simp [hreg]⟩
    · rename_i id hreg
      exact ⟨_, rfl, by simp, fun id' => by simp [hreg, hstat, eq_comm]⟩

lemma closes_finish_iff (wm : WindowManager) (clients : List WindowId)
    (inputs : List SurfaceInput) :
    Closes (inputs.foldl next (accept wm clients)).finish ↔
      (accept wm clients).AsksToClose inputs := by
  set c := accept wm clients with hc
  obtain ⟨rest, hfin, hnone, hsent⟩ := finish_eq (inputs.foldl next c)
  obtain ⟨new, hlog, -, hiff⟩ := exists_log_run
    (fun id => c.RegisteredLast inputs id ∧ Steps next (fun c i => ¬ c.Overflows i) c inputs) c
    inputs
  -- the close at the end is for the last window, unless the thread has panicked
  have hend : ∀ id, .sent (.close id) ∈ rest ↔
      c.RegisteredLast inputs id ∧ Steps next (fun c i => ¬ c.Overflows i) c inputs := by
    intro id
    rw [hsent, ne_eq, panicked_run, registered_run, ← not_sometime_iff]
    simp [hc, accept, and_comm]
  rw [AsksToClose, ← hiff, hfin, hlog]
  constructor
  · intro hclo pre id post hnew
    have hmem := hclo pre id (post ++ rest) (by rw [hnew]; simp [hc, accept])
    exact (mem_append.mp hmem).imp_right (hend id).mp
  · intro hasks pre id post heq
    rcases LastWrite.append_eq_append_cons_iff.mp heq with ⟨post, hnew, rfl⟩ | ⟨mid, -, hrest⟩
    · exact mem_append.mpr ((hasks pre id post hnew).imp_right (hend id).mpr)
    · exact absurd (hrest ▸ by simp) (hnone id)

/-- A close that is answered with `ok` is that of a window. -/
def AnswersExisting (c : Connection) (input : SurfaceInput) : Prop :=
  ∀ req v, c.Reads input "window.close" req → (c.next input).log.getLast? = some (.responded v) →
    v.field "ok" = .bool true → ∃ id, c.closeTarget req = some id ∧ id ∈ c.wm.windows

/-- An id that is given to a close is that of a window. -/
def GivesExisting (c : Connection) (input : SurfaceInput) : Prop :=
  ∀ req, c.Reads input "window.close" req → ∀ id, (req.field "window_id").asU64 = some id →
    id ∈ c.wm.windows

lemma next_eq_close (h : c.Reads input "window.close" req) : c.next input = c.close req := by
  obtain ⟨rfl, hser, hop⟩ := h
  simp only [next, if_pos hser, handle, hop]

lemma mem_of_findByApp {m : WindowManager} (hm : m.Sound) {app : String}
    (h : findByApp m app = some id) : id ∈ m.windows := by
  obtain ⟨w, hw, rfl⟩ := Option.map_eq_some_iff.mp h
  obtain ⟨key, -, hkey⟩ := mem_filterMap.mp (mem_of_find?_eq_some hw)
  rw [Std.TreeMap.mem_iff_isSome_getElem?, hm.keyed key w hkey, hkey]
  rfl

lemma answersExisting_iff (h : c.wm.Sound) :
    c.AnswersExisting input ↔ c.GivesExisting input := by
  constructor
  · intro hans req hrea id hid
    have htgt : c.closeTarget req = some id := by simp [closeTarget, hid]
    have hnext := next_eq_close hrea
    rw [close, htgt] at hnext
    obtain ⟨id', hid', hmem⟩ := hans req _ hrea (by rw [hnext]; exact getLast?_concat) rfl
    cases htgt.symm.trans hid'
    exact hmem
  · intro hgiv req v hrea hv hok
    rw [next_eq_close hrea, close] at hv
    cases htgt : c.closeTarget req with
    | none =>
      rw [htgt] at hv
      cases getLast?_concat.symm.trans hv
      cases hok
    | some id =>
      refine ⟨id, rfl, ?_⟩
      unfold closeTarget at htgt
      split at htgt
      · rename_i hid
        cases htgt
        exact hgiv req hrea id hid
      · exact mem_of_findByApp h htgt
      · cases htgt

/-- **The life of a window**: every registered window is closed and every answer about one is right,
iff the client closes all its windows but the last and gives only ids of windows. -/
theorem lifecycle_iff (area : ScreenArea) (ops : List WmOp) (wm : WindowManager)
    (hwm : exec WindowManager.step (.new area) ops = some wm) (clients : List WindowId)
    (inputs : List SurfaceInput) :
    Closes (inputs.foldl next (accept wm clients)).finish ∧
        Steps next AnswersExisting (accept wm clients) inputs ↔
      (accept wm clients).AsksToClose inputs ∧
        Steps next GivesExisting (accept wm clients) inputs := by
  have hsou : (accept wm clients).wm.Sound := exec_invariant (I := WindowManager.Sound)
    (fun _ _ _ hm hstep => WindowManager.sound_step hm hstep) (WindowManager.sound_new area) hwm
  refine and_congr (closes_finish_iff wm clients inputs) ?_
  exact forall_congr' fun pre => forall_congr' fun input => forall_congr' fun post =>
    imp_congr_right fun _ => answersExisting_iff (sound_run hsou pre)

def shell : WindowManager := .new ⟨0, 0, 1280, 720⟩

def registration : SurfaceInput := .line (some (.obj [("op", .str "register")]))

def closing (id : String) : SurfaceInput :=
  .line (some (.obj [("op", .str "window.close"), ("window_id", .num id)]))

theorem lifecycle_iff_registration :
    exec WindowManager.step (.new ⟨0, 0, 1280, 720⟩) [] = some shell ∧
    Closes ([registration].foldl next (accept shell [])).finish := by
  refine ⟨rfl, ((lifecycle_iff ⟨0, 0, 1280, 720⟩ [] shell rfl [] [registration]).mpr ⟨?_, ?_⟩).1⟩
  · have hone : (((accept shell []).created (.obj [("op", .str "register")])).bind Prod.fst).map
        (fun win => (addI32 win.y 28).isSome) = some true := by decide +kernel
    intro pre input post id heq hreg
    obtain ⟨rfl, rfl, rfl⟩ : pre = [] ∧ input = registration ∧ post = [] := by
      simpa [append_eq_singleton_iff, eq_comm] using heq
    refine .inr ⟨⟨[], _, [], rfl, hreg, by simp [Steps]⟩, steps_cons_iff.mpr ⟨?_, by simp [Steps]⟩⟩
    rintro ⟨req, ⟨heq, -⟩, hnone | ⟨win, wm, hcr, hy⟩⟩ <;> cases heq
    · rw [hnone] at hone
      cases hone
    · rw [hcr] at hone
      simp [hy] at hone
  · rintro pre input post heq req ⟨rfl, -, hop⟩
    rcases pre with - | ⟨e, pre⟩
    · cases (cons.inj heq).1
      exact absurd hop (by decide)
    · exact absurd (cons.inj heq).2 (by simp)

def closed : SurfaceEvent → Option WindowId
  | .sent (.close id) => some id
  | _ => none

/-- The first of two windows is never closed, and a window that does not exist is. -/
theorem secondWindow_forgets_first :
    ¬ Closes ([registration, registration].foldl next (accept shell [])).finish ∧
    ¬ Steps next AnswersExisting (accept shell []) [closing "7"] := by
  constructor
  · intro hclo
    have hmem := hclo [] 1 _ rfl
    have hid : (1 : WindowId) ∈ [2] := mem_filterMap.mpr ⟨_, hmem, show closed _ = _ from rfl⟩
    exact absurd hid (by decide)
  · intro hsts
    obtain ⟨id, -, hmem⟩ := hsts [] _ [] rfl _ _ ⟨rfl, rfl, rfl⟩ rfl rfl
    exact absurd hmem (by simp [accept, shell, WindowManager.new])

end Connection

end Aether.Graphics
