import Aether.Algorithm.Greedy
import Aether.SystemCore.AgentCommands
import Aether.SystemCore.Equiv.Manager

/-!
# Service commands (`aether-system-core/src/main.rs`, `dispatch_inner`)

Before the service itself, `start` and `restart` go once through its direct dependencies and start
those that are not running; an error of such a start is dropped.
-/

namespace Aether.SystemCore

open Aether.Core Command

def ManagedSystem.services (s : ManagedSystem) (now : UInt64) : List ServiceHealth :=
  s.manager.graph.startOrder.filterMap fun id =>
    (s.record id).map fun r => r.toHealthReport now id

inductive ServiceCommand where
  | start
  | stop
  | restart
  deriving DecidableEq

def IpcError.ofAetherError (e : AetherError) : IpcError := ⟨e.code.display, e.message⟩

namespace ServiceManager

variable (x : ServiceExecutor)

def startDependencies : List String → ManagerM Unit
  | [] => return ()
  | d :: ds => do
    let services ← peek fun s : ManagedSystem => s.services (x.clock s.calls)
    if services.any fun h => h.serviceId = d && h.status = .running then startDependencies ds
    else
      let _ ← attempt (startOne x d)
      startDependencies ds

def startWithDependencies (serviceId : String) : ManagerM Unit := do
  let found ← peek fun s : ManagedSystem => s.manager.graph.manifest serviceId
  match found with
  | some manifest => startDependencies x manifest.dependencies
  | none => return ()
  restartOne x serviceId

def serviceState (serviceId state : String) : Json :=
  .obj [("service", .str serviceId), ("state", .str state)]

def handleService (command : ServiceCommand) (parameters : Json) :
    Command ManagedSystem IpcError Json := do
  let serviceId ← require (required "service" (parameters.field "service").asStr)
  let graph ← peek fun s : ManagedSystem => s.manager.graph
  let depsOk := ((graph.manifest serviceId).map fun m =>
    m.dependencies.all fun d => (graph.manifest d).isSome).getD false
  if !depsOk && (graph.manifest serviceId).isNone then
    fail ⟨"NOT_FOUND", s!"unknown service '{serviceId}'"⟩
  else if command = .start ∨ command = .restart then
    mapError .ofAetherError (startWithDependencies x serviceId)
    return serviceState serviceId "RUNNING"
  else
    mapError .ofAetherError (stopOne x serviceId)
    return serviceState serviceId "STOPPED"

end ServiceManager

/-!
## What a start request starts

`start` goes once through the direct dependencies of a service and starts each one whose own
dependencies are running at that time (`Greedy.sweep`).
-/

open Relation List

/-- Every start and every stop succeeds. -/
structure ServiceExecutor.NeverFails (x : ServiceExecutor) : Prop where
  start : ∀ calls id, ∃ h, x.start calls id = .ok h
  stop : ∀ calls h, x.stop calls h = .ok ()

/-- What a start needs if `R` are the running services. -/
def Ready (g : DependencyGraph) (R : Set String) (id : String) : Prop :=
  ∃ m, g.manifest id = some m ∧ Launchable m ∧ ∀ d ∈ m.dependencies, d ∈ R

lemma Ready.mono {g : DependencyGraph} (R R' : Set String) (id : String) (hR : R ⊆ R')
    (h : Ready g R id) : Ready g R' id := by
  obtain ⟨m, hm, hlau, hdeps⟩ := h
  exact ⟨m, hm, hlau, fun d hd => hR (hdeps d hd)⟩

namespace ManagedSystem

structure Upto (g : DependencyGraph) (R : Set String) (s : ManagedSystem) : Prop where
  tracked : Tracked s
  graph : s.manager.graph = g
  running : ∀ id, s.Running id ↔ id ∈ R

variable {g : DependencyGraph} {R : Set String} {s : ManagedSystem} {id : String}

lemma Upto.addCall (h : Upto g R s) (id : String) (a : ExecutorAnswer) :
    Upto g R (s.addCall id a) := ⟨h.tracked, h.graph, h.running⟩

lemma Upto.setRecord (h : Upto g R s) (id : String) {r : ManagedService} {R' : Set String}
    (hself : r.status = .running ↔ id ∈ R') (hoth : ∀ id', id' ≠ id → (id' ∈ R' ↔ id' ∈ R)) :
    Upto g R' (s.setRecord id r) where
  tracked := h.tracked.setRecord id r
  graph := h.graph
  running id' := by
    rw [Running, record_setRecord]
    split_ifs with hid
    · subst hid
      rw [Option.map_some, Option.some.injEq]
      exact hself
    · rw [hoth id' hid, ← h.running id', Running]

lemma Upto.setRecord_same (h : Upto g R s) {r r' : ManagedService} (hr : s.record id = some r)
    (hstat : r'.status = r.status) : Upto g R (s.setRecord id r') := by
  refine h.setRecord id ?_ fun _ _ => Iff.rfl
  rw [← h.running id, Running, hr, hstat, Option.map_some, Option.some.injEq]

lemma Upto.exists_record (h : Upto g R s) (hid : (g.manifest id).isSome) :
    ∃ r, s.record id = some r := by
  rw [← h.graph] at hid
  exact Option.isSome_iff_exists.mp (h.tracked id hid)

end ManagedSystem

namespace ServiceManager

open ManagedSystem

variable {x : ServiceExecutor} {g : DependencyGraph} {R : Set String} {s : ManagedSystem}
  {id : String}

lemma startOne_upto (hx : x.NeverFails) (h : Upto g R s) (id : String) :
    (Ready g R id ∧ ∃ s', startOne x id s = (.ok (), s') ∧ Upto g (insert id R) s') ∨
      (¬ Ready g R id ∧ ∃ e, startOne x id s = (.error e, s)) := by
  have hrdy : s.Startable id ↔ Ready g R id := by
    simp only [Startable, Ready, h.graph, h.running]
  rw [← hrdy]
  rcases startOne_spec x h.tracked id with
    ⟨e, s', hsta, ⟨hnot, rfl⟩ | ⟨hfail, -⟩⟩ | ⟨hcan, r, r', handle, -, -, -, hrun, hsta⟩
  · exact .inr ⟨hnot, e, hsta⟩
  · obtain ⟨handle, hok⟩ := hx.start s.calls id
    rw [hok] at hfail
    cases hfail
  · refine .inl ⟨hcan, _, hsta, (h.addCall id _).setRecord id ?_ fun id' hid' => ?_⟩
    · simp [hrun]
    · simp [hid']

lemma stopOne_upto (hx : x.NeverFails) (h : Upto g R s) (hid : (g.manifest id).isSome) :
    ∃ s', stopOne x id s = (.ok (), s') ∧ Upto g (R \ {id}) s' := by
  obtain ⟨r, hr⟩ := h.exists_record hid
  have hself : (halted r).status = .running ↔ id ∈ R \ {id} := by
    simp [halted]
  have hoth : ∀ id', id' ≠ id → (id' ∈ R \ {id} ↔ id' ∈ R) := by
    intro id' hid'
    simp [hid']
  cases hh : r.handle with
  | none => exact ⟨_, stopOne_of_idle x hr hh, h.setRecord id hself hoth⟩
  | some handle =>
    have hstop := stopOne_of_handle x hr hh
    rw [hx.stop] at hstop
    -- taking the handle first leaves the status
    have hsame : Upto g R (s.setRecord id { r with handle := none }) := h.setRecord_same hr rfl
    exact ⟨_, hstop, (hsame.addCall id _).setRecord id hself hoth⟩

lemma restartOne_upto (hx : x.NeverFails) (h : Upto g R s) (hid : (g.manifest id).isSome) :
    (Ready g (R \ {id}) id ∧ Upto g (insert id R) (restartOne x id s).2) ∨
      (¬ Ready g (R \ {id}) id ∧ Upto g (R \ {id}) (restartOne x id s).2) := by
  obtain ⟨s₁, hstop, h₁⟩ := stopOne_upto hx h hid
  obtain ⟨r, hr⟩ := h₁.exists_record hid
  have h₂ : Upto g (R \ {id})
      (s₁.setRecord id { r with restarts := saturatingSucc r.restarts }) :=
    h₁.setRecord_same hr rfl
  have hrun : restartOne x id s =
      startOne x id (s₁.setRecord id { r with restarts := saturatingSucc r.restarts }) := by
    rw [restartOne, bind_apply, hstop]
    simp only [modifyRecord, update_bind_apply, hr]
  rw [hrun]
  rcases startOne_upto hx h₂ id with ⟨hrdy, s', hsta, h'⟩ | ⟨hnot, e, hsta⟩
  · refine .inl ⟨hrdy, ?_⟩
    rw [hsta]
    have hset : insert id (R \ {id}) = insert id R := Set.insert_sdiff_singleton
    exact hset ▸ h'
  · refine .inr ⟨hnot, ?_⟩
    rw [hsta]
    exact h₂

lemma services_any_iff (s : ManagedSystem) (now : UInt64) (d : String) :
    ((s.services now).any fun h => h.serviceId = d && h.status = .running) = true ↔
      d ∈ s.manager.graph.startOrder ∧ s.Running d := by
  rw [any_eq_true]
  constructor
  · rintro ⟨report, hrep, htest⟩
    obtain ⟨id, hid, hrcd⟩ := mem_filterMap.mp hrep
    obtain ⟨r, hr, rfl⟩ := Option.map_eq_some_iff.mp hrcd
    obtain ⟨heq, hstat⟩ := Bool.and_eq_true_iff.mp htest
    obtain rfl : id = d := of_decide_eq_true heq
    refine ⟨hid, ?_⟩
    rw [Running, hr, Option.map_some]
    exact congrArg some (of_decide_eq_true hstat)
  · rintro ⟨hd, hrunn⟩
    obtain ⟨r, hr, hstat⟩ := Option.map_eq_some_iff.mp hrunn
    refine ⟨r.toHealthReport now d, mem_filterMap.mpr ⟨d, hd, by rw [hr, Option.map_some]⟩, ?_⟩
    simp [ManagedService.toHealthReport, hstat]

/-- **The loop over the dependencies** is a sweep. -/
theorem startDependencies_upto (hx : x.NeverFails) (deps : List String) :
    ∀ {R : Set String} {s : ManagedSystem}, Upto g R s →
      ∃ s', startDependencies x deps s = (.ok (), s') ∧
        Upto g (Greedy.sweep (Ready g) R deps) s' := by
  induction deps with
  | nil => exact fun {R s} h => ⟨s, rfl, h⟩
  | cons d deps ih =>
    intro R s h
    classical
    rw [startDependencies, peek_bind_apply, Greedy.sweep]
    rcases Classical.em (d ∈ g.startOrder ∧ s.Running d) with hchk | hchk
    · -- it is running already, and the sweep adds nothing
      rw [if_pos ((services_any_iff s _ d).mpr (h.graph ▸ hchk))]
      have hset : (if Ready g R d then insert d R else R) = R := by
        rw [Set.insert_eq_of_mem ((h.running d).mp hchk.2), ite_self]
      rw [hset]
      exact ih h
    · rw [if_neg fun hany => hchk (h.graph ▸ (services_any_iff s _ d).mp hany), bind_apply]
      unfold attempt
      rcases startOne_upto hx h d with ⟨hrdy, s', hsta, h'⟩ | ⟨hnot, e, hsta⟩
      · rw [hsta, if_pos hrdy]
        exact ih h'
      · rw [hsta, if_neg hnot]
        exact ih h

/-- **A start request**: the sweep, then the service itself. -/
theorem startWithDependencies_upto (hx : x.NeverFails) (h : Upto g R s) {m : ServiceManifest}
    (hm : g.manifest id = some m) :
    let swept := Greedy.sweep (Ready g) R m.dependencies
    (Ready g (swept \ {id}) id ∧ Upto g (insert id swept) (startWithDependencies x id s).2) ∨
      (¬ Ready g (swept \ {id}) id ∧ Upto g (swept \ {id}) (startWithDependencies x id s).2) := by
  obtain ⟨s', hdeps, h'⟩ := startDependencies_upto hx m.dependencies h
  have hrun : startWithDependencies x id s = restartOne x id s' := by
    rw [startWithDependencies, peek_bind_apply, h.graph, hm]
    simp only
    rw [bind_apply, hdeps]
  rw [hrun]
  exact restartOne_upto hx h' (by rw [hm]; rfl)

/-- The dependencies that are not running are direct, and listed in an order in which they start. -/
structure OneSweep (manifests : List ServiceManifest) (s : ManagedSystem) (m : ServiceManifest) :
    Prop where
  launchable : Launchable m
  direct : ∀ id, TransGen (DependsOn manifests) m.serviceId id → id ∈ m.dependencies ∨ s.Running id
  ordered : ∃ l, l.Sublist m.dependencies ∧ (∀ d ∈ m.dependencies, s.Running d ∨ d ∈ l) ∧
    ∀ pre d post, l = pre ++ d :: post → ∃ m' ∈ manifests, m'.serviceId = d ∧ Launchable m' ∧
      ∀ e ∈ m'.dependencies, s.Running e ∨ e ∈ pre

variable {manifests : List ServiceManifest} {m : ServiceManifest}

lemma handleService_start (hman : (s.manager.graph.manifest id).isSome) {parameters : Json}
    (hid : (parameters.field "service").asStr = some id) :
    (handleService x .start parameters s).2 = (startWithDependencies x id s).2 := by
  obtain ⟨m, hm⟩ := Option.isSome_iff_exists.mp hman
  simp only [handleService, required, hid, require_ok_bind, peek_bind_apply, hm]
  rw [if_neg (by simp), if_pos (Or.inl trivial), bind_apply]
  have hsnd := mapError_apply_snd IpcError.ofAetherError (startWithDependencies x id) s
  rw [← hsnd]
  rcases mapError IpcError.ofAetherError (startWithDependencies x id) s with ⟨a | e | -, s'⟩
  · rfl
  · rfl
  · rfl

lemma ordered_iff (hi : Indexes g.manifests manifests) (h : Upto g R s) (l : List String) :
    Greedy.InOrder (Ready g) R l ↔ ∀ pre d post, l = pre ++ d :: post → ∃ m' ∈ manifests,
      m'.serviceId = d ∧ Launchable m' ∧ ∀ e ∈ m'.dependencies, s.Running e ∨ e ∈ pre := by
  refine forall₄_congr fun pre d post heq => ?_
  have hman : ∀ m', g.manifest d = some m' ↔ m' ∈ manifests ∧ m'.serviceId = d := hi d
  simp only [Ready, hman, h.running, Set.mem_union, Set.mem_ofPred_eq, and_assoc]

/-- **Start requests**: with an executor that never fails, over any accepted set of manifests and
from any state of the manager, a start request leaves the service and everything it depends on
running exactly if one sweep is enough. -/
theorem start_leaves_running_iff (hx : x.NeverFails) {fuel : ℕ}
    (hg : DependencyGraph.new fuel manifests = some (.ok s.manager.graph)) (ht : Tracked s)
    (hm : m ∈ manifests) {parameters : Json}
    (hid : (parameters.field "service").asStr = some m.serviceId) :
    (∀ id, ReflTransGen (DependsOn manifests) m.serviceId id →
        (handleService x .start parameters s).2.Running id) ↔ OneSweep manifests s m := by
  obtain ⟨hi, hacy⟩ := DependencyGraph.of_new_eq_ok hg
  have hman : s.manager.graph.manifest m.serviceId = some m := (hi _ m).mpr ⟨hm, rfl⟩
  have hupto : Upto s.manager.graph {id | s.Running id} s := ⟨ht, rfl, fun _ => Iff.rfl⟩
  rw [handleService_start (by rw [hman]; rfl) hid]
  have hsta := startWithDependencies_upto hx hupto hman
  set swept := Greedy.sweep (Ready s.manager.graph) {id | s.Running id} m.dependencies
  set s' := (startWithDependencies x m.serviceId s).2
  have hswe : (∀ d ∈ m.dependencies, d ∈ swept) ↔ ∃ l, l.Sublist m.dependencies ∧
      (∀ d ∈ m.dependencies, s.Running d ∨ d ∈ l) ∧ ∀ pre d post, l = pre ++ d :: post →
        ∃ m' ∈ manifests, m'.serviceId = d ∧ Launchable m' ∧
          ∀ e ∈ m'.dependencies, s.Running e ∨ e ∈ pre := by
    simp only [← ordered_iff hi hupto]
    exact Greedy.forall_mem_sweep_iff Ready.mono
  -- the service is none of those it depends on
  have hne : ∀ id, TransGen (DependsOn manifests) m.serviceId id → id ≠ m.serviceId := by
    rintro id hpath rfl
    exact hacy _ hpath
  have hrdy : Ready s.manager.graph (swept \ {m.serviceId}) m.serviceId ↔
      Launchable m ∧ ∀ d ∈ m.dependencies, d ∈ swept := by
    simp only [Ready, hman, Option.some.injEq, exists_eq_left']
    refine and_congr_right fun _ => forall₂_congr fun d hd => ?_
    have hd' := hne d (.single ⟨m, hm, rfl, hd⟩)
    simp [hd']
  constructor
  · intro hall
    rcases hsta with ⟨hcan, hup⟩ | ⟨-, hup⟩
    · obtain ⟨hlau, hdeps⟩ := hrdy.mp hcan
      refine ⟨hlau, fun id hpath => ?_, hswe.mp hdeps⟩
      have hmem := (hup.running id).mp (hall id hpath.to_reflTransGen)
      obtain ⟨l, hsub, -, hswept⟩ := Greedy.exists_inOrder (Ready s.manager.graph)
        {id | s.Running id} m.dependencies
      have hmem' : id ∈ swept := Set.mem_of_mem_insert_of_ne hmem (hne id hpath)
      rw [show swept = _ from hswept] at hmem'
      rcases hmem' with hrunn | hstd
      · exact .inr hrunn
      · exact .inl (hsub.subset hstd)
    · -- the service was stopped and not started again
      have hmem := (hup.running m.serviceId).mp (hall m.serviceId .refl)
      exact absurd rfl hmem.2
  · intro h
    have hdeps := hswe.mpr h.ordered
    rcases hsta with ⟨-, hup⟩ | ⟨hnot, -⟩
    · intro id hpath
      rw [hup.running id]
      rcases reflTransGen_iff_eq_or_transGen.mp hpath with heq | hpath
      · exact heq ▸ Set.mem_insert _ _
      · refine Set.mem_insert_of_mem _ ?_
        rcases h.direct id hpath with hdir | hrunn
        · exact hdeps id hdir
        · exact Greedy.subset_sweep _ _ hrunn
    · exact absurd (hrdy.mpr ⟨h.launchable, hdeps⟩) hnot

lemma neverFails_steady : steady.NeverFails := ⟨fun _ _ => ⟨_, rfl⟩, fun _ _ => rfl⟩

def requestFor (id : String) : Json := .obj [("service", .str id)]

lemma dependsOn_app {a b : String} (h : TransGen (DependsOn [app, svc]) a b) :
    a = "app" ∧ b = "svc" := by
  have hedge : ∀ {a b}, DependsOn [app, svc] a b → a = "app" ∧ b = "svc" := by
    rintro a b ⟨m, hm, rfl, hb⟩
    rcases mem_cons.mp hm with rfl | hm
    · exact ⟨rfl, mem_singleton.mp hb⟩
    · obtain rfl := mem_singleton.mp hm
      cases hb
  induction h with
  | single hab => exact hedge hab
  | tail _ hbc ih =>
    obtain ⟨-, rfl⟩ := ih
    exact absurd (hedge hbc).1 (by decide)

/-- `app` needs `svc` only, and one sweep is enough. -/
theorem start_app_leaves_running : ∃ g, DependencyGraph.new 3 [app, svc] = some (.ok g) ∧
    OneSweep [app, svc] (init g) app ∧
    ∀ id, ReflTransGen (DependsOn [app, svc]) "app" id →
      (handleService steady .start (requestFor "app") (init g)).2.Running id := by
  have hswe : OneSweep [app, svc] (init appGraph) app := by
    refine ⟨nofun, fun id hpath => .inl ?_, ["svc"], List.Sublist.refl _, fun d hd => .inr hd, ?_⟩
    · rw [(dependsOn_app hpath).2]
      exact mem_singleton.mpr rfl
    · intro pre d post heq
      have hd : d ∈ ["svc"] := heq ▸ mem_append_right pre mem_cons_self
      refine ⟨svc, by simp, (mem_singleton.mp hd).symm, nofun, nofun⟩
  have hid : ((requestFor "app").field "service").asStr = some app.serviceId := rfl
  exact ⟨_, new_app, hswe, (start_leaves_running_iff neverFails_steady new_app (tracked_init _)
    mem_cons_self hid).mpr hswe⟩

def shop : ServiceManifest := { svc with serviceId := "shop", dependencies := ["app"] }

/-- Nothing is running; `app` cannot be started before `svc`, which is not a dependency of `shop`
itself, and so `shop` is not started either. -/
theorem start_shop_leaves_stopped : ∃ g, DependencyGraph.new 4 [shop, app, svc] = some (.ok g) ∧
    ¬ (handleService steady .start (requestFor "shop") (init g)).2.Running "shop" := by
  have hg : DependencyGraph.new 4 [shop, app, svc] = some (.ok
      ⟨(((∅ : ManifestMap).insert "shop" shop).insert "app" app).insert "svc" svc,
        ["svc", "app", "shop"]⟩) := by rfl
  refine ⟨_, hg, ?_⟩
  unfold Running
  decide +kernel

end ServiceManager

end Aether.SystemCore
