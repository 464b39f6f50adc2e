import Aether.Algorithm.AssocList
import Aether.Algorithm.Run
import Aether.SystemCore.Equiv.Graph
import Aether.SystemCore.Manager

/-!
# What the service manager does to records and handles

Every operation is a chain of moves of single services (`Move`); `handle_failure` first drops the
handle that it finds (`Effect`).
-/

namespace Aether.SystemCore

open Aether.Core Command List

/-- A process has a command. -/
def Launchable (m : ServiceManifest) : Prop := ¬ (m.serviceType = .process ∧ m.command = none)

namespace ManagedSystem

variable {s s' : ManagedSystem}

@[simp] lemma record_setRecord (s : ManagedSystem) (id id' : String) (r : ManagedService) :
    (s.setRecord id r).record id' = if id' = id then some r else s.record id' := by
  rw [record, setRecord, AssocList.lookup_insert]
  rfl

@[simp] lemma record_addCall (s : ManagedSystem) (id id' : String) (a : ExecutorAnswer) :
    (s.addCall id a).record id' = s.record id' := rfl

@[simp] lemma calls_setRecord (s : ManagedSystem) (id : String) (r : ManagedService) :
    (s.setRecord id r).calls = s.calls := rfl

@[simp] lemma calls_addCall (s : ManagedSystem) (id : String) (a : ExecutorAnswer) :
    (s.addCall id a).calls = s.calls ++ [⟨id, s.record id, a⟩] := rfl

@[simp] lemma graph_setRecord (s : ManagedSystem) (id : String) (r : ManagedService) :
    (s.setRecord id r).manager.graph = s.manager.graph := rfl

@[simp] lemma graph_addCall (s : ManagedSystem) (id : String) (a : ExecutorAnswer) :
    (s.addCall id a).manager.graph = s.manager.graph := rfl

def handle (s : ManagedSystem) (id : String) : Option ServiceHandle :=
  (s.record id).bind fun r => r.handle

/-- Every service of the graph has a record. -/
def Tracked (s : ManagedSystem) : Prop :=
  ∀ id, (s.manager.graph.manifest id).isSome → (s.record id).isSome

/-- The service is recorded as running. -/
def Running (s : ManagedSystem) (id : String) : Prop :=
  (s.record id).map ManagedService.status = some .running

/-- What a start needs. -/
def Startable (s : ManagedSystem) (id : String) : Prop :=
  ∃ m, s.manager.graph.manifest id = some m ∧ Launchable m ∧ ∀ d ∈ m.dependencies, s.Running d

inductive Move (s : ManagedSystem) : ManagedSystem → Prop
  | relabelled {id : String} {r r' : ManagedService} : s.record id = some r →
      r'.handle = r.handle → (r'.status = .running → r.status = .running) →
      Move s (s.setRecord id r')
  | asked {id : String} {a : ExecutorAnswer} : (∀ h, a ≠ .start (.ok h)) → (∀ h b, a ≠ .stop h b) →
      Move s (s.addCall id a)
  | started {id : String} {r r' : ManagedService} {h : ServiceHandle} : s.record id = some r →
      r'.handle = some h → Move s ((s.addCall id (.start (.ok h))).setRecord id r')
  | stopped {id : String} {r r' : ManagedService} {h : ServiceHandle} : s.record id = some r →
      r.handle = some h → r'.handle = none → r'.status ≠ .running →
      Move s (((s.setRecord id { r with handle := none }).addCall id
        (.stop h (.ok ()))).setRecord id r')
  | notStopped {id : String} {r : ManagedService} {h : ServiceHandle} {e : AetherError} :
      s.record id = some r → r.handle = some h →
      Move s ((s.setRecord id { r with handle := none }).addCall id (.stop h (.error e)))

lemma Move.calls_mono (hm : Move s s') : s.calls <+: s'.calls := by
  cases hm <;> simp

lemma Tracked.setRecord (ht : Tracked s) (id : String) (r : ManagedService) :
    Tracked (s.setRecord id r) := by
  intro id' hid'
  rw [record_setRecord]
  split_ifs
  · rfl
  · exact ht id' hid'

lemma Move.tracked (hm : Move s s') (ht : Tracked s) : Tracked s' := by
  cases hm with
  | relabelled _ _ _ => exact ht.setRecord _ _
  | asked _ _ => exact ht
  | started _ _ => exact Tracked.setRecord (s := s.addCall _ _) ht _ _
  | stopped _ _ _ _ =>
    refine Tracked.setRecord (s := (s.setRecord _ _).addCall _ _) ?_ _ _
    exact ht.setRecord _ _
  | notStopped _ _ => exact ht.setRecord _ _

def Reaches (s s' : ManagedSystem) : Prop := Tracked s' ∧ Relation.ReflTransGen Move s s'

lemma Reaches.refl (ht : Tracked s) : Reaches s s := ⟨ht, .refl⟩

def Grows (s s' : ManagedSystem) : Prop :=
  s'.manager.graph = s.manager.graph ∧
    ∀ id r, s.record id = some r → ∃ r', s'.record id = some r' ∧ r.restarts ≤ r'.restarts

lemma Grows.refl (s : ManagedSystem) : Grows s s := ⟨rfl, fun _ r hr => ⟨r, hr, UInt32.le_refl _⟩⟩

lemma Grows.trans {s'' : ManagedSystem} (h : Grows s s') (h' : Grows s' s'') : Grows s s'' := by
  refine ⟨h'.1.trans h.1, fun id r hr => ?_⟩
  obtain ⟨r', hr', hle⟩ := h.2 id r hr
  obtain ⟨r'', hr'', hle'⟩ := h'.2 id r' hr'
  exact ⟨r'', hr'', UInt32.le_trans hle hle'⟩

lemma grows_setRecord {id : String} {r r' : ManagedService} (hr : s.record id = some r)
    (hle : r.restarts ≤ r'.restarts) : Grows s (s.setRecord id r') := by
  refine ⟨rfl, fun id' r₁ hr₁ => ?_⟩
  rw [record_setRecord]
  split_ifs with hid
  · cases hr.symm.trans (hid ▸ hr₁)
    exact ⟨r', rfl, hle⟩
  · exact ⟨r₁, hr₁, UInt32.le_refl _⟩

def Evolves (s s' : ManagedSystem) : Prop := Reaches s s' ∧ Grows s s'

lemma Evolves.refl (ht : Tracked s) : Evolves s s := ⟨.refl ht, .refl s⟩

lemma Evolves.tail {s₀ : ManagedSystem} (h : Evolves s₀ s) (hm : Move s s') (hg : Grows s s') :
    Evolves s₀ s' :=
  ⟨⟨hm.tracked h.1.1, h.1.2.tail hm⟩, h.2.trans hg⟩

end ManagedSystem

namespace ServiceManager

open ManagedSystem

variable (x : ServiceExecutor)

lemma checkDependencies_cases (id : String) (s : ManagedSystem) (deps : List String) :
    ((∀ d ∈ deps, s.Running d) ∧ checkDependencies id deps s = (.ok (), s)) ∨
      (¬ (∀ d ∈ deps, s.Running d) ∧ ∃ e, checkDependencies id deps s = (.error e, s)) := by
  induction deps with
  | nil => exact .inl ⟨by simp, rfl⟩
  | cons d deps ih =>
    rw [checkDependencies, peek_bind_apply]
    split_ifs with hd
    · rcases ih with ⟨hall, heq⟩ | ⟨hnot, heq⟩
      · exact .inl ⟨forall_mem_cons.mpr ⟨hd, hall⟩, heq⟩
      · exact .inr ⟨fun hall => hnot (forall_mem_cons.mp hall).2, heq⟩
    · exact .inr ⟨fun hall => hd (forall_mem_cons.mp hall).1, _, rfl⟩

lemma getRecord_apply (s : ManagedSystem) (id : String) :
    getRecord id s =
      match s.record id with
      | some r => (.ok r, s)
      | none => (.error (.notFound id), s) := by
  unfold getRecord
  rw [peek_bind_apply]
  cases s.record id <;> rfl

lemma getManifest_apply (s : ManagedSystem) (id : String) :
    getManifest id s =
      match s.manager.graph.manifest id with
      | some m => (.ok m, s)
      | none => (.error (.notFound id), s) := by
  unfold getManifest
  rw [peek_bind_apply]
  cases s.manager.graph.manifest id <;> rfl

variable {s : ManagedSystem} {id : String} {r : ManagedService}

lemma startOne_spec (ht : Tracked s) (id : String) :
    (∃ e s', startOne x id s = (.error e, s') ∧ (¬ s.Startable id ∧ s' = s ∨
      x.start s.calls id = .error e ∧ s' = s.addCall id (.start (.error e)))) ∨
    s.Startable id ∧ ∃ r r' h, s.record id = some r ∧ r'.handle = some h ∧
      r'.restarts = r.restarts ∧ r'.status = .running ∧
      startOne x id s = (.ok (), (s.addCall id (.start (.ok h))).setRecord id r') := by
  rw [startOne, bind_apply, getManifest_apply]
  cases hman : s.manager.graph.manifest id with
  | none => exact .inl ⟨_, s, rfl, .inl ⟨by simp [Startable, hman], rfl⟩⟩
  | some m =>
    have hcan : s.Startable id ↔ Launchable m ∧ ∀ d ∈ m.dependencies, s.Running d := by
      simp [Startable, hman]
    obtain ⟨r, hr⟩ := Option.isSome_iff_exists.mp (ht id (by simp [hman]))
    simp only [hcan]
    rw [bind_apply]
    rcases checkDependencies_cases id s m.dependencies with ⟨hall, hdeps⟩ | ⟨hnot, e, hdeps⟩
    · rw [hdeps]
      simp only [launch]
      split_ifs with hcom
      · exact .inl ⟨_, s, rfl, .inl ⟨fun h => h.1 hcom, rfl⟩⟩
      · rw [bind_apply]
        unfold callStart
        simp only [peek_bind_apply, update_bind_apply]
        cases hsta : x.start s.calls id with
        | error e => exact .inl ⟨e, _, rfl, .inr ⟨rfl, rfl⟩⟩
        | ok h =>
          refine .inr ⟨⟨hcom, hall⟩, r, { r with
            status := .running, handle := some h, health := .healthy,
            startedAt := some (x.clock (s.addCall id (.start (.ok h))).calls) }, h, hr, rfl, rfl,
            rfl, ?_⟩
          simp [answered, modifyRecord, hr]
    · rw [hdeps]
      exact .inl ⟨e, s, rfl, .inl ⟨fun h => hnot h.2, rfl⟩⟩

def halted (r : ManagedService) : ManagedService :=
  { r with handle := none, status := .stopped, health := .unhealthy, startedAt := none }

def released (s : ManagedSystem) (id : String) (r : ManagedService) (h : ServiceHandle)
    (answer : Except AetherError Unit) : ManagedSystem :=
  (s.setRecord id { r with handle := none }).addCall id (.stop h answer)

lemma stopOne_of_none (hr : s.record id = none) :
    stopOne x id s = (.error (.notFound id), s) := by
  rw [stopOne, bind_apply, getRecord_apply, hr]

lemma stopOne_of_idle (hr : s.record id = some r) (hh : r.handle = none) :
    stopOne x id s = (.ok (), s.setRecord id (halted r)) := by
  rw [stopOne, bind_apply, getRecord_apply, hr]
  simp only [stopHandle, hh]
  rfl

lemma stopOne_of_handle {h : ServiceHandle} (hr : s.record id = some r) (hh : r.handle = some h) :
    stopOne x id s =
      match x.stop s.calls h with
      | .ok () => (.ok (), (released s id r h (.ok ())).setRecord id (halted r))
      | .error e => (.error e, released s id r h (.error e)) := by
  rw [stopOne, bind_apply, getRecord_apply, hr]
  simp only [stopHandle, hh]
  rw [bind_apply]
  simp only [putRecord, callStop, peek_bind_apply, update_bind_apply, calls_setRecord]
  cases hstop : x.stop s.calls h with
  | ok u => rfl
  | error e => rfl

variable {s₀ : ManagedSystem}

lemma evolves_stopOne (id : String) : Preserves (Evolves s₀) (stopOne x id) := by
  intro s hs
  cases hr : s.record id with
  | none =>
    rw [stopOne_of_none x hr]
    exact hs
  | some r =>
    have hgr {r' : ManagedService} (h : r'.restarts = r.restarts) : Grows s (s.setRecord id r') :=
      grows_setRecord hr (h ▸ UInt32.le_refl _)
    cases hh : r.handle with
    | none =>
      rw [stopOne_of_idle x hr hh]
      exact hs.tail (.relabelled hr hh.symm nofun) (hgr rfl)
    | some h =>
      rw [stopOne_of_handle x hr hh]
      have hrel : Grows s (s.setRecord id { r with handle := none }) := hgr rfl
      cases x.stop s.calls h with
      | ok u =>
        refine hs.tail (.stopped hr hh rfl nofun) (hrel.trans ?_)
        exact grows_setRecord (s := released s id r h (.ok ())) (r := { r with handle := none })
          (by simp [released]) (UInt32.le_refl _)
      | error e => exact hs.tail (.notStopped hr hh) hrel

lemma evolves_startOne (id : String) : Preserves (Evolves s₀) (startOne x id) := by
  intro s hs
  rcases startOne_spec x hs.1.1 id with
    ⟨e, s', h, ⟨-, rfl⟩ | ⟨-, rfl⟩⟩ | ⟨-, r, r', handle, hr, hr', hres, -, h⟩ <;>
    rw [h]
  · exact hs
  · exact hs.tail (.asked nofun nofun) (Grows.refl s)
  · exact hs.tail (.started hr hr')
      (grows_setRecord (s := s.addCall _ _) hr (hres ▸ UInt32.le_refl _))

lemma evolves_modifyRecord (id : String) {f : ManagedService → ManagedService}
    (hhan : ∀ r, (f r).handle = r.handle)
    (hrun : ∀ r, (f r).status = .running → r.status = .running)
    (hle : ∀ r, r.restarts ≤ (f r).restarts) : Preserves (Evolves s₀) (modifyRecord id f) := by
  refine preserves_update fun s hs => ?_
  cases hr : s.record id with
  | none => exact hs
  | some r => exact hs.tail (.relabelled hr (hhan r) (hrun r)) (grows_setRecord hr (hle r))

lemma le_saturatingSucc (n : UInt32) : n ≤ saturatingSucc n := by
  rw [UInt32.le_iff_toNat_le, toNat_saturatingSucc]
  have hlt := n.toNat_lt
  omega

lemma evolves_stopEach (ids : List String) (firstError : Option AetherError) :
    Preserves (Evolves s₀) (stopEach x firstError ids) := by
  induction ids generalizing firstError with
  | nil => exact preserves_pure _
  | cons id ids ih =>
    refine Preserves.bind (evolves_stopOne x id).attempt fun result => ?_
    cases result with
    | ok u => exact ih _
    | error e => exact ih _

lemma evolves_stopAll : Preserves (Evolves s₀) (stopAll x) := by
  refine Preserves.bind (preserves_peek _) fun order => ?_
  refine Preserves.bind (evolves_stopEach x order none) fun firstError => ?_
  cases firstError with
  | none => exact preserves_pure _
  | some e => exact preserves_fail _

lemma evolves_startEach (ids : List String) : Preserves (Evolves s₀) (startEach x ids) := by
  induction ids with
  | nil => exact preserves_pure _
  | cons id ids ih =>
    refine Preserves.bind (evolves_startOne x id).attempt fun result => ?_
    cases result with
    | ok u => exact ih
    | error e => exact Preserves.bind (evolves_stopAll x).attempt fun _ => preserves_fail _

lemma evolves_restartOne (id : String) : Preserves (Evolves s₀) (restartOne x id) :=
  Preserves.bind (evolves_stopOne x id) fun _ =>
    Preserves.bind (evolves_modifyRecord id (fun _ => rfl) (fun _ h => h)
      fun r => le_saturatingSucc r.restarts) fun _ =>
      evolves_startOne x id

lemma evolves_recover (id : String) (manifest : ServiceManifest) :
    Preserves (Evolves s₀) (recover x id manifest) := by
  refine Preserves.bind (preserves_peek _) fun found => Preserves.ite (preserves_pure _) ?_
  refine Preserves.bind (evolves_modifyRecord id (fun _ => rfl) nofun
    fun _ => UInt32.le_refl _) fun _ => ?_
  refine Preserves.bind (evolves_stopOne x id) fun _ => ?_
  exact Preserves.bind (evolves_restartOne x id) fun _ => preserves_pure _

lemma probed_running {answer : Except AetherError HealthStatus}
    (h : (probed r answer).status = .running) : r.status = .running := by
  unfold probed at h
  simp only at h
  split_ifs at h
  exact h

lemma evolves_probe (hr : s.record id = some r) (hs : Evolves s₀ s) :
    Evolves s₀ (probe x id r s).2 := by
  unfold probe
  cases hh : r.handle with
  | none => exact hs
  | some h =>
    have hask : Evolves s₀ (s.addCall id (.health h (x.health s.calls h))) :=
      hs.tail (.asked nofun nofun) (Grows.refl s)
    exact hask.tail (.relabelled (s := s.addCall id _) hr rfl probed_running)
      (grows_setRecord (s := s.addCall id _) hr (UInt32.le_refl _))

lemma evolves_pollEach (ids : List String) : Preserves (Evolves s₀) (pollEach x ids) := by
  induction ids with
  | nil => exact preserves_pure _
  | cons id ids ih =>
    intro s hs
    rw [pollEach, peek_bind_apply]
    cases hr : s.record id with
    | none => exact ih s hs
    | some r =>
      refine Holds.bind (R := fun _ s' => Evolves s₀ s') (Q := fun _ s' => Evolves s₀ s')
        (evolves_probe x hr hs) (fun _ s₁ hs₁ => ?_) (fun _ _ h => h) fun _ h => h
      refine Preserves.bind (preserves_peek _) (fun now => ?_) s₁ hs₁
      refine Preserves.bind (preserves_peek _) fun after => ?_
      exact Preserves.bind ih fun reports => preserves_pure _

inductive Effect (s : ManagedSystem) : ManagerOp → ManagedSystem → Prop
  | moved {op : ManagerOp} {s' : ManagedSystem} : Reaches s s' → Effect s op s'
  | dropped {id : String} {r r' : ManagedService} {s' : ManagedSystem} : s.record id = some r →
      r'.handle = none → r'.status ≠ .running → Reaches (s.setRecord id r') s' →
      Effect s (.handleFailure id) s'

lemma handleFailure_spec (ht : Tracked s) (id : String) :
    Effect s (.handleFailure id) (handleFailure x id s).2 ∧ Grows s (handleFailure x id s).2 := by
  rw [handleFailure, bind_apply, getManifest_apply]
  cases hman : s.manager.graph.manifest id with
  | none => exact ⟨.moved (Reaches.refl ht), Grows.refl s⟩
  | some manifest =>
    simp only
    rw [bind_apply, getRecord_apply]
    cases hr : s.record id with
    | none => exact ⟨.moved (Reaches.refl ht), Grows.refl s⟩
    | some r =>
      let failed : ManagedService := { r with
        failures := saturatingSucc r.failures, status := .failed, health := .unhealthy,
        handle := none }
      have hhan : failed.handle = none := rfl
      have hfail : Grows s (s.setRecord id failed) := grows_setRecord hr (UInt32.le_refl _)
      have heff {s' : ManagedSystem} (h : Evolves (s.setRecord id failed) s') :
          Effect s (.handleFailure id) s' ∧ Grows s s' :=
        ⟨.dropped hr hhan nofun h.1, hfail.trans h.2⟩
      simp only [putRecord, update_bind_apply]
      have hsta := Evolves.refl (ht.setRecord id failed)
      cases manifest.restartPolicy with
      | never => exact heff hsta
      | onFailure => exact heff (evolves_recover x id manifest _ hsta)
      | always => exact heff (evolves_recover x id manifest _ hsta)

/-- **Every operation has one of the effects**, and no restart counter falls. -/
theorem effect_step (ht : Tracked s) (op : ManagerOp) :
    Effect s op (s.step x op) ∧ Grows s (s.step x op) := by
  have hs := Evolves.refl ht
  have heff {s' : ManagedSystem} (h : Evolves s s') : Effect s op s' ∧ Grows s s' :=
    ⟨.moved h.1, h.2⟩
  cases op with
  | startAll => exact heff (Preserves.bind (preserves_peek _) (evolves_startEach x) s hs)
  | startOne id => exact heff (evolves_startOne x id s hs)
  | stopOne id => exact heff (evolves_stopOne x id s hs)
  | stopAll => exact heff (evolves_stopAll x s hs)
  | restartOne id => exact heff (evolves_restartOne x id s hs)
  | handleFailure id =>
    exact Holds.bind (R := fun _ s' => Effect s (.handleFailure id) s' ∧ Grows s s')
      (Q := fun _ s' => Effect s (.handleFailure id) s' ∧ Grows s s') (handleFailure_spec x ht id)
      (fun _ _ h => h) (fun _ _ h => h) fun _ h => h
  | pollHealth =>
    have hpoll : Preserves (Evolves s) (pollHealth x) :=
      Preserves.bind (preserves_peek _) (evolves_pollEach x)
    exact heff (Preserves.bind hpoll (fun _ => preserves_pure _) s hs)

end ServiceManager

namespace ManagedSystem

variable {s s' : ManagedSystem} (x : ServiceExecutor)

lemma lookup_foldl_insert (ids : List String) (state : ServiceMap) (id : String) :
    (ids.foldl (fun state id => state.insert id ManagedService.fresh) state).lookup id =
      if id ∈ ids then some ManagedService.fresh else state.lookup id := by
  induction ids generalizing state with
  | nil => simp
  | cons a ids ih =>
    rw [foldl_cons, ih]
    by_cases hid : id ∈ ids
    · simp [hid]
    · simp [hid, AssocList.lookup_insert]

lemma record_init (g : DependencyGraph) (id : String) :
    (init g).record id = if id ∈ g.manifests.keys then some ManagedService.fresh else none :=
  lookup_foldl_insert _ _ _

lemma tracked_init (g : DependencyGraph) : Tracked (init g) := by
  intro id hid
  have hmem : id ∈ g.manifests.keys :=
    Std.TreeMap.mem_keys.mpr (Std.TreeMap.mem_iff_isSome_getElem?.mpr hid)
  rw [record_init, if_pos hmem]
  rfl

variable {bad : ExecutorCall → Prop} {P : ManagedSystem → Prop}

lemma moves_invariant (hmove : ∀ s s', Move s s' → (∀ c ∈ s'.calls, ¬ bad c) → P s → P s')
    (hm : Relation.ReflTransGen Move s s') (hs : (∀ c ∈ s.calls, ¬ bad c) → P s)
    (hcal : ∀ c ∈ s'.calls, ¬ bad c) : P s' := by
  induction hm with
  | refl => exact hs hcal
  | tail _ hlast ih =>
    -- the calls made before the last move are among those made after it
    exact hmove _ _ hlast hcal (ih fun c hc => hcal c (hlast.calls_mono.subset hc))

/-- **Rule for runs**: a property of a new manager that every move keeps, if its calls are not bad
ones, and that `handle_failure` keeps when it drops a handle, holds after a run without bad
calls. -/
theorem run_invariant {C : ManagedSystem → ManagerOp → Prop} {g : DependencyGraph}
    {ops : List ManagerOp} (hinit : P (init g))
    (hmove : ∀ s s', Move s s' → (∀ c ∈ s'.calls, ¬ bad c) → P s → P s')
    (hdrop : ∀ s id r r', C s (.handleFailure id) → s.record id = some r → r'.handle = none →
      r'.status ≠ .running → P s → P (s.setRecord id r'))
    (hsts : Run.Steps (step x) C (init g) ops)
    (hcal : ∀ c ∈ ((init g).run x ops).calls, ¬ bad c) : P ((init g).run x ops) := by
  have hrun : Tracked ((init g).run x ops) ∧
      ((∀ c ∈ ((init g).run x ops).calls, ¬ bad c) → P ((init g).run x ops)) := by
    refine hsts.invariant (I := fun s => Tracked s ∧ ((∀ c ∈ s.calls, ¬ bad c) → P s))
      (fun s op hC ⟨htra, hs⟩ => ?_) ⟨tracked_init g, fun _ => hinit⟩
    have heff := (ServiceManager.effect_step x htra op).1
    generalize s.step x op = s' at heff
    cases heff with
    | moved hr => exact ⟨hr.1, moves_invariant hmove hr.2 hs⟩
    | dropped hr hhan hstat hrea =>
      refine ⟨hrea.1, moves_invariant hmove hrea.2 fun hold => ?_⟩
      exact hdrop s _ _ _ hC hr hhan hstat (hs hold)
  exact hrun.2 hcal

end ManagedSystem

namespace ExecutorCall

/-- A failed stop of a running service. -/
def LeavesRunning (c : ExecutorCall) : Prop :=
  match c.answer with
  | .stop _ (.error _) => (c.record.map fun r => r.status) = some .running
  | _ => False

instance : DecidablePred LeavesRunning := fun c => by
  unfold LeavesRunning
  split <;> infer_instance

/-- A successful start over a stored handle. -/
def Overwrites (c : ExecutorCall) : Prop :=
  match c.answer with
  | .start (.ok _) => (c.record.bind fun r => r.handle).isSome
  | _ => False

instance : DecidablePred Overwrites := fun c => by
  unfold Overwrites
  split <;> infer_instance

def isStart (c : ExecutorCall) : Bool :=
  match c.answer with
  | .start _ => true
  | _ => false

def startedHandle (c : ExecutorCall) : Option ServiceHandle :=
  match c.answer with
  | .start (.ok h) => some h
  | _ => none

def stoppedHandle (c : ExecutorCall) : Option ServiceHandle :=
  match c.answer with
  | .stop h _ => some h
  | _ => none

end ExecutorCall

namespace ManagedSystem

variable {s s' : ManagedSystem} (x : ServiceExecutor)

/-- Running services have a handle. -/
def Stoppable (s : ManagedSystem) : Prop :=
  ∀ id r, s.record id = some r → r.status = .running → r.handle.isSome

variable {id : String} {r : ManagedService} {c₀ : ExecutorCall} {h : ServiceHandle}
  {g : DependencyGraph} {before : List String}

lemma Stoppable.setRecord (hs : Stoppable s) (hr : r.status = .running → r.handle.isSome) :
    Stoppable (s.setRecord id r) := by
  intro id' r' hr' hrun
  rw [record_setRecord] at hr'
  split_ifs at hr' with hid
  · cases hr'
    exact hr hrun
  · exact hs id' r' hr' hrun

lemma Move.stoppable (hm : Move s s') (hcal : ∀ c ∈ s'.calls, ¬ c.LeavesRunning)
    (hs : Stoppable s) : Stoppable s' := by
  cases hm with
  | relabelled hr hhan hstat =>
    refine hs.setRecord fun hrun => ?_
    rw [hhan]
    exact hs _ _ hr (hstat hrun)
  | asked _ _ => exact hs
  | started _ hhan =>
    exact Stoppable.setRecord (s := s.addCall _ _) hs fun _ => by simp [hhan]
  | @stopped id r r' h hr _ _ hstat =>
    -- the other records are those of `s`: the last write hides the first
    intro id' r'' hr'' hrun
    simp only [record_setRecord, record_addCall] at hr''
    split_ifs at hr'' with hid
    · cases hr''
      exact absurd hrun hstat
    · exact hs id' r'' hr'' hrun
  | @notStopped id r h e hr _ =>
    refine Stoppable.setRecord hs fun hrun => absurd ?_ (hcal ⟨id, some { r with handle := none },
      .stop h (.error e)⟩ (by simp))
    exact congrArg some hrun

lemma stoppable_init (g : DependencyGraph) : Stoppable (init g) := by
  intro id r hr hrun
  rw [record_init] at hr
  split_ifs at hr
  cases hr
  exact absurd hrun nofun

/-- **Running services can be stopped** in every state reached without a failed stop of a running
service. -/
theorem run_stoppable (g : DependencyGraph) (ops : List ManagerOp)
    (hcalls : ∀ c ∈ ((init g).run x ops).calls, ¬ c.LeavesRunning) :
    Stoppable ((init g).run x ops) :=
  run_invariant x (C := fun _ _ => True) (stoppable_init g) (fun _ _ hm => hm.stoppable)
    (fun _ _ _ _ _ _ _ hstat hs => hs.setRecord fun hrun => absurd hrun hstat)
    (fun _ _ _ _ => trivial) hcalls

def svc : ServiceManifest :=
  { serviceId := "svc", serviceType := .internal, command := none, dependencies := [],
    startupPriority := 10, restartPolicy := .onFailure, restartLimit := 5,
    sandboxProfile := .internal }

def solo : DependencyGraph := ⟨(∅ : ManifestMap).insert "svc" svc, ["svc"]⟩

lemma new_svc : DependencyGraph.new 2 [svc] = some (.ok solo) := by rfl

def steady : ServiceExecutor where
  start calls id := .ok ⟨id, .ofNat calls.length⟩
  stop _ _ := .ok ()
  health _ _ := .ok .healthy
  clock _ := 0

theorem run_stoppable_steady :
    (((init solo).run steady [.startAll]).record "svc").any (fun r => r.status = .running) ∧
      Stoppable ((init solo).run steady [.startAll]) :=
  ⟨by decide +kernel, run_stoppable _ _ _ (by decide +kernel)⟩

/-- The executor fails to stop the service: it is still running and its handle is gone. -/
theorem failed_stop_not_stoppable :
    DependencyGraph.new 2 [svc] = some (.ok solo) ∧
      ¬ Stoppable ((init solo).run
        { steady with stop := fun _ _ => .error (.serviceFailed "svc" "busy") }
        [.startAll, .stopOne "svc"]) := by
  refine ⟨new_svc, fun h => ?_⟩
  have hrcd : (((init solo).run
      { steady with stop := fun _ _ => .error (.serviceFailed "svc" "busy") }
      [.startAll, .stopOne "svc"]).record "svc").map (fun r => (r.status, r.handle)) =
      some (.running, none) := by decide +kernel
  obtain ⟨r, hr, heq⟩ := Option.map_eq_some_iff.mp hrcd
  obtain ⟨hstat, hhan⟩ := Prod.mk.inj heq
  have hsome := h "svc" r hr hstat
  rw [hhan] at hsome
  exact absurd hsome Bool.false_ne_true

def stoppedHandles (s : ManagedSystem) : List ServiceHandle :=
  s.calls.filterMap fun c => c.stoppedHandle

/-- Every handle that was started is stored or was stopped. -/
def Accounted (s : ManagedSystem) : Prop :=
  ∀ c ∈ s.calls, ∀ h ∈ c.startedHandle, s.handle c.serviceId = some h ∨ h ∈ s.stoppedHandles

instance : DecidablePred Accounted := fun s => by
  unfold Accounted
  infer_instance

lemma handle_setRecord (s : ManagedSystem) (id id' : String) (r : ManagedService) :
    (s.setRecord id r).handle id' = if id' = id then r.handle else s.handle id' := by
  rw [handle, record_setRecord]
  split_ifs <;> rfl

lemma handle_addCall (s : ManagedSystem) (id id' : String) (a : ExecutorAnswer) :
    (s.addCall id a).handle id' = s.handle id' := rfl

lemma handle_of_record (hr : s.record id = some r) : s.handle id = r.handle := by
  rw [handle, hr, Option.bind_some]

lemma Accounted.setRecord (hs : Accounted s) (hr : r.handle = s.handle id) :
    Accounted (s.setRecord id r) := by
  intro c hc h hans
  refine (hs c hc h hans).imp (fun hsto => ?_) fun hstop => hstop
  rw [handle_setRecord]
  split_ifs with hid
  · rw [hr, ← hid, hsto]
  · exact hsto

lemma accounted_of_append (hcal : s'.calls = s.calls ++ [c₀]) (hs : Accounted s)
    (hold : ∀ id h, s.handle id = some h → s'.handle id = some h ∨ h ∈ s'.stoppedHandles)
    (hnew : ∀ h ∈ c₀.startedHandle, s'.handle c₀.serviceId = some h) : Accounted s' := by
  intro c hc h hstd
  rw [hcal, mem_append, mem_singleton] at hc
  rcases hc with hc | rfl
  · rcases hs c hc h hstd with hsto | hstop
    · exact hold _ h hsto
    · refine .inr ?_
      rw [stoppedHandles, hcal, filterMap_append]
      exact mem_append_left _ hstop
  · exact .inl (hnew h hstd)

lemma accounted_of_stop {h₀ : ServiceHandle} (hr : s.record id = some r)
    (hh : r.handle = some h₀) (hcal : s'.calls = s.calls ++ [c₀])
    (hstop : c₀.stoppedHandle = some h₀) (hsta : c₀.startedHandle = none)
    (hfra : ∀ id', id' ≠ id → s'.handle id' = s.handle id') (hs : Accounted s) :
    Accounted s' := by
  refine accounted_of_append hcal hs (fun id' h hsto => ?_) fun h hstd => ?_
  · by_cases hid : id' = id
    · subst hid
      rw [handle_of_record hr, hh] at hsto
      cases hsto
      exact .inr (by simp [stoppedHandles, hcal, hstop])
    · exact .inl (by rw [hfra id' hid, hsto])
  · rw [hsta] at hstd
    exact nomatch hstd

lemma Move.accounted (hm : Move s s') (hcal : ∀ c ∈ s'.calls, ¬ c.Overwrites)
    (hs : Accounted s) : Accounted s' := by
  cases hm with
  | relabelled hr hhan _ => exact hs.setRecord (by rw [hhan, handle_of_record hr])
  | @asked id a hsta _ =>
    refine accounted_of_append rfl hs (fun _ _ => .inl) fun h hstd => absurd ?_ (hsta h)
    unfold ExecutorCall.startedHandle at hstd
    split at hstd
    · cases hstd
      assumption
    · exact nomatch hstd
  | @started id r r' h₀ hr hhan =>
    have happ : ((s.addCall id (.start (.ok h₀))).setRecord id r').calls =
        s.calls ++ [⟨id, s.record id, .start (.ok h₀)⟩] := rfl
    refine accounted_of_append happ hs
      (fun id' h hsto => .inl ?_) fun h hstd => ?_
    · have hidle : ¬ (s.handle id).isSome := fun hsome =>
        hcal ⟨id, s.record id, .start (.ok h₀)⟩ (by simp) hsome
      have hid : id' ≠ id := by
        rintro rfl
        exact hidle (by rw [hsto]; rfl)
      rw [handle_setRecord, if_neg hid, handle_addCall, hsto]
    · obtain rfl : h₀ = h := Option.some.inj hstd
      rw [handle_setRecord, if_pos rfl, hhan]
  | @stopped id r r' h₀ hr hh _ _ =>
    refine accounted_of_stop hr hh rfl rfl rfl (fun id' hid => ?_) hs
    simp [handle_setRecord, handle_addCall, hid]
  | @notStopped id r h₀ e hr hh =>
    refine accounted_of_stop hr hh rfl rfl rfl (fun id' hid => ?_) hs
    simp [handle_setRecord, handle_addCall, hid]

/-- `handle_failure` is called only for services without a handle. -/
def FindsNoHandle (s : ManagedSystem) : ManagerOp → Prop
  | .handleFailure id => s.handle id = none
  | _ => True

/-- **No handle is lost** in a run that starts no service over a stored handle and calls
`handle_failure` only for services without one. -/
theorem run_accounted (g : DependencyGraph) (ops : List ManagerOp)
    (hsteps : Run.Steps (step x) FindsNoHandle (init g) ops)
    (hcalls : ∀ c ∈ ((init g).run x ops).calls, ¬ c.Overwrites) :
    Accounted ((init g).run x ops) := by
  refine run_invariant x (fun c hc => absurd hc not_mem_nil) (fun _ _ hm => hm.accounted)
    (fun s id r r' hC _ hhan _ hs => hs.setRecord ?_) hsteps hcalls
  rw [hhan]
  exact hC.symm

theorem run_accounted_steady :
    ((init solo).run steady [.startAll, .stopOne "svc", .handleFailure "svc"]).calls.length = 3 ∧
      Accounted ((init solo).run steady [.startAll, .stopOne "svc", .handleFailure "svc"]) := by
  refine ⟨by decide +kernel, run_accounted _ _ _ (fun pre op post heq => ?_) (by decide +kernel)⟩
  have hnone : ((init solo).run steady [.startAll, .stopOne "svc"]).handle "svc" = none := by
    decide +kernel
  match pre, heq with
  | [], heq => obtain ⟨rfl, -⟩ := cons.inj heq; trivial
  | [_], heq => simp at heq; obtain ⟨-, rfl, -⟩ := heq; trivial
  | [_, _], heq => simp at heq; obtain ⟨rfl, rfl, rfl, -⟩ := heq; exact hnone
  | _ :: _ :: _ :: _, heq => simp at heq

/-- `handle_failure` for a service whose process still runs: its handle is lost. -/
theorem handleFailure_not_accounted :
    DependencyGraph.new 2 [svc] = some (.ok solo) ∧
      ¬ Accounted ((init solo).run steady [.startAll, .handleFailure "svc"]) :=
  ⟨new_svc, by decide +kernel⟩

def attempted (s : ManagedSystem) : List String :=
  (s.calls.filter fun c => c.isStart).map fun c => c.serviceId

def started (s : ManagedSystem) : List String :=
  (s.calls.filter fun c => c.startedHandle.isSome).map fun c => c.serviceId

def startedHandles (s : ManagedSystem) : List ServiceHandle :=
  s.calls.filterMap fun c => c.startedHandle

structure Stopped (s : ManagedSystem) (handles : List ServiceHandle) (s' : ManagedSystem) :
    Prop where
  attempted : s'.attempted = s.attempted
  started : s'.started = s.started
  startedHandles : s'.startedHandles = s.startedHandles
  stoppedHandles : s'.stoppedHandles = s.stoppedHandles ++ handles

lemma Stopped.of_calls_eq (h : s'.calls = s.calls) : Stopped s [] s' := by
  constructor <;> simp [ManagedSystem.attempted, ManagedSystem.started,
    ManagedSystem.startedHandles, ManagedSystem.stoppedHandles, h]

lemma Stopped.of_stop {c : ExecutorCall} {answer : Except AetherError Unit}
    (hcal : s'.calls = s.calls ++ [c]) (hc : c.answer = .stop h answer) : Stopped s [h] s' := by
  have hsta : c.isStart = false := by rw [ExecutorCall.isStart, hc]
  have hstd : c.startedHandle = none := by rw [ExecutorCall.startedHandle, hc]
  have hstop : c.stoppedHandle = some h := by rw [ExecutorCall.stoppedHandle, hc]
  constructor <;> simp [ManagedSystem.attempted, ManagedSystem.started,
    ManagedSystem.startedHandles, ManagedSystem.stoppedHandles, hcal, hsta, hstd, hstop]

lemma Stopped.trans {s'' : ManagedSystem} {hs hs' : List ServiceHandle} (h : Stopped s hs s')
    (h' : Stopped s' hs' s'') : Stopped s (hs ++ hs') s'' where
  attempted := h'.attempted.trans h.attempted
  started := h'.started.trans h.started
  startedHandles := h'.startedHandles.trans h.startedHandles
  stoppedHandles := by rw [h'.stoppedHandles, h.stoppedHandles, append_assoc]

lemma stopOne_stopped (s : ManagedSystem) (id : String) :
    ∃ result s', attempt (ServiceManager.stopOne x id) s = (.ok result, s') ∧
      Stopped s (s.handle id).toList s' ∧ ∀ id', id' ≠ id → s'.handle id' = s.handle id' := by
  unfold attempt
  cases hr : s.record id with
  | none =>
    rw [ServiceManager.stopOne_of_none x hr, handle, hr]
    exact ⟨_, _, rfl, .of_calls_eq rfl, fun _ _ => rfl⟩
  | some r =>
    rw [handle_of_record hr]
    cases hh : r.handle with
    | none =>
      rw [ServiceManager.stopOne_of_idle x hr hh]
      exact ⟨_, _, rfl, .of_calls_eq rfl, fun id' hid => by rw [handle_setRecord, if_neg hid]⟩
    | some h =>
      rw [ServiceManager.stopOne_of_handle x hr hh]
      cases x.stop s.calls h with
      | ok u =>
        refine ⟨_, _, rfl, .of_stop rfl rfl, fun id' hid => ?_⟩
        simp [ServiceManager.released, handle_setRecord, handle_addCall, hid]
      | error e =>
        refine ⟨_, _, rfl, .of_stop rfl rfl, fun id' hid => ?_⟩
        simp [ServiceManager.released, handle_setRecord, handle_addCall, hid]

lemma stopEach_stopped {ids : List String} (hnd : ids.Nodup) (s : ManagedSystem)
    (firstError : Option AetherError) :
    ∃ firstError' s', ServiceManager.stopEach x firstError ids s = (.ok firstError', s') ∧
      Stopped s (ids.filterMap s.handle) s' := by
  induction ids generalizing s firstError with
  | nil => exact ⟨_, s, rfl, .of_calls_eq rfl⟩
  | cons id ids ih =>
    obtain ⟨hid, hnd⟩ := nodup_cons.mp hnd
    obtain ⟨result, s₁, hres, hstop, hfra⟩ := stopOne_stopped x s id
    -- the services of the rest of the loop still have the handles they had before it
    have hrest : ids.filterMap s₁.handle = ids.filterMap s.handle :=
      filterMap_congr fun id' hid' => hfra id' fun heq => hid (heq ▸ hid')
    have hcons : (id :: ids).filterMap s.handle =
        (s.handle id).toList ++ ids.filterMap s₁.handle := by
      rw [hrest, filterMap_cons]
      cases s.handle id <;> rfl
    rw [ServiceManager.stopEach, bind_apply, hres, hcons]
    cases result with
    | ok u =>
      obtain ⟨e', s₂, hloop, hs₂⟩ := ih hnd s₁ firstError
      exact ⟨e', s₂, hloop, hstop.trans hs₂⟩
    | error e =>
      obtain ⟨e', s₂, hloop, hs₂⟩ := ih hnd s₁ (firstError.or (some e))
      exact ⟨e', s₂, hloop, hstop.trans hs₂⟩

lemma stopAll_stopped (hnd : s.manager.graph.stopOrder.Nodup) :
    ∃ result s', attempt (ServiceManager.stopAll x) s = (.ok result, s') ∧
      Stopped s (s.manager.graph.stopOrder.filterMap s.handle) s' := by
  obtain ⟨firstError, s', hloop, hs'⟩ := stopEach_stopped x hnd s none
  unfold attempt
  rw [ServiceManager.stopAll, peek_bind_apply, bind_apply, hloop]
  cases firstError with
  | none => exact ⟨_, s', rfl, hs'⟩
  | some e => exact ⟨_, s', rfl, hs'⟩

structure Progress (g : DependencyGraph) (before : List String) (s : ManagedSystem) : Prop where
  tracked : Tracked s
  graph : s.manager.graph = g
  attempted : s.attempted = before
  started : s.started = before
  stopped : s.stoppedHandles = []
  stored : before.filterMap s.handle = s.startedHandles
  idle : ∀ id, id ∉ before → s.handle id = none

lemma progress_init (g : DependencyGraph) : Progress g [] (init g) where
  tracked := tracked_init g
  graph := rfl
  attempted := rfl
  started := rfl
  stopped := rfl
  stored := rfl
  idle id _ := by
    rw [handle, record_init]
    split_ifs <;> rfl

lemma Progress.start (hp : Progress g before s) (hid : id ∉ before) (hr : r.handle = some h) :
    Progress g (before ++ [id]) ((s.addCall id (.start (.ok h))).setRecord id r) where
  tracked := Tracked.setRecord (s := s.addCall _ _) hp.tracked _ _
  graph := hp.graph
  attempted := by
    have := hp.attempted
    simp_all [ManagedSystem.attempted, ExecutorCall.isStart]
  started := by
    have := hp.started
    simp_all [ManagedSystem.started, ExecutorCall.startedHandle]
  stopped := by
    have := hp.stopped
    simp_all [ManagedSystem.stoppedHandles, ExecutorCall.stoppedHandle]
  stored := by
    have hold : before.filterMap ((s.addCall id (.start (.ok h))).setRecord id r).handle =
        before.filterMap s.handle := by
      refine filterMap_congr fun id' hid' => ?_
      have hne : id' ≠ id := fun heq => hid (heq ▸ hid')
      rw [handle_setRecord, if_neg hne, handle_addCall]
    rw [filterMap_append, hold, hp.stored]
    simp [ManagedSystem.startedHandles, handle_setRecord, hr, ExecutorCall.startedHandle]
  idle id' hid' := by
    simp only [mem_append, mem_singleton, not_or] at hid'
    rw [handle_setRecord, if_neg hid'.2, handle_addCall, hp.idle id' hid'.1]

/-- Exactly the services before the failing one were started, and they were stopped in reverse
order. -/
structure RolledBack (order : List String) (failing : String) (s : ManagedSystem) : Prop where
  before : ∃ after, order = s.started ++ failing :: after ∧ ∀ id ∈ after, id ∉ s.attempted
  stopped : s.stoppedHandles = s.startedHandles.reverse

lemma Progress.rollback {after : List String} {failing : String} (hp : Progress g before s)
    (hord : g.startOrder = before ++ failing :: after) (hnd : g.startOrder.Nodup)
    {e : AetherError} (hs' : s' = s ∨ s' = s.addCall failing (.start (.error e))) :
    ∃ result s'', attempt (ServiceManager.stopAll x) s' = (.ok result, s'') ∧
      RolledBack g.startOrder failing s'' := by
  have hstd : s'.started = s.started := by
    rcases hs' with rfl | rfl <;> simp [ManagedSystem.started, ExecutorCall.startedHandle]
  have hhan : s'.startedHandles = s.startedHandles := by
    rcases hs' with rfl | rfl <;>
      simp [ManagedSystem.startedHandles, ExecutorCall.startedHandle]
  have hsto : s'.stoppedHandles = s.stoppedHandles := by
    rcases hs' with rfl | rfl <;>
      simp [ManagedSystem.stoppedHandles, ExecutorCall.stoppedHandle]
  have hatt : s'.attempted ⊆ before ++ [failing] := by
    rw [← hp.attempted]
    rcases hs' with rfl | rfl <;> simp [ManagedSystem.attempted, ExecutorCall.isStart]
  have hstor : s'.handle = s.handle := by
    rcases hs' with rfl | rfl <;> rfl
  have hstop : s'.manager.graph.stopOrder = g.startOrder.reverse := by
    rw [← hp.graph]
    rcases hs' with rfl | rfl <;> rfl
  obtain ⟨result, s'', hres, hs''⟩ := stopAll_stopped x (s := s')
    (by rw [hstop]; exact nodup_reverse.mpr hnd)
  refine ⟨result, s'', hres, ⟨after, ?_, fun id hid hmem => ?_⟩, ?_⟩
  · rw [hs''.started, hstd, hp.started, hord]
  · rw [hs''.attempted] at hmem
    rw [hord, append_cons] at hnd
    exact disjoint_of_nodup_append hnd (hatt hmem) hid
  · -- only the services `before` have a handle
    have hidle : (failing :: after).filterMap s.handle = [] := by
      refine filterMap_eq_nil_iff.mpr fun id hid => hp.idle id fun hbef => ?_
      rw [hord] at hnd
      exact disjoint_of_nodup_append hnd hbef hid
    rw [hs''.stoppedHandles, hs''.startedHandles, hsto, hp.stopped, hhan, hstop, hstor,
      filterMap_reverse, hord, filterMap_append, hidle, append_nil, hp.stored,
      nil_append]

lemma startEach_spec (hnd : g.startOrder.Nodup) {rest : List String}
    (hord : g.startOrder = before ++ rest) (hp : Progress g before s) :
    (ServiceManager.startEach x rest s).1 = .ok () ∧
        Progress g g.startOrder (ServiceManager.startEach x rest s).2 ∨
      ∃ failing, (ServiceManager.startEach x rest s).1 =
          .error (.serviceFailed failing "startup failed; rolled back all services") ∧
        RolledBack g.startOrder failing (ServiceManager.startEach x rest s).2 := by
  induction rest generalizing before s with
  | nil => exact .inl ⟨rfl, by rwa [hord, append_nil]⟩
  | cons id rest ih =>
    have hid : id ∉ before := by
      intro hmem
      rw [hord] at hnd
      exact disjoint_of_nodup_append hnd hmem mem_cons_self
    rw [ServiceManager.startEach, bind_apply, attempt]
    rcases ServiceManager.startOne_spec x hp.tracked id with
      ⟨e, s', h, hs'⟩ | ⟨-, r, r', hd, hr, hr', -, -, h⟩ <;> rw [h]
    · have hs' : s' = s ∨ s' = s.addCall id (.start (.error e)) := hs'.imp And.right And.right
      obtain ⟨result, s'', hres, hback⟩ := hp.rollback x hord hnd hs'
      simp only [bind_apply, hres, fail_apply]
      exact .inr ⟨id, rfl, hback⟩
    · exact ih (by rw [hord, append_assoc]; rfl) (hp.start hid hr')

/-- **A failed `start_all` is rolled back**: on a new manager over an accepted set of manifests. -/
theorem startAll_rolledBack {fuel : Nat} {manifests : List ServiceManifest} {g : DependencyGraph}
    (hg : DependencyGraph.new fuel manifests = some (.ok g)) {e : AetherError}
    (herror : (ServiceManager.startAll x (init g)).1 = .error e) :
    ∃ failing, e = .serviceFailed failing "startup failed; rolled back all services" ∧
      RolledBack g.startOrder failing (ServiceManager.startAll x (init g)).2 := by
  have hnd : g.startOrder.Nodup :=
    (DependencyGraph.startOrder_perm_keys hg).nodup_iff.mpr Std.TreeMap.nodup_keys
  rcases startEach_spec x hnd rfl (progress_init g) with ⟨hok, -⟩ | ⟨failing, herr, hback⟩
  · cases hok.symm.trans herror
  · exact ⟨failing, Outcome.error.inj (herror.symm.trans herr), hback⟩

def app : ServiceManifest := { svc with serviceId := "app", dependencies := ["svc"] }

def appGraph : DependencyGraph :=
  ⟨((∅ : ManifestMap).insert "app" app).insert "svc" svc, ["svc", "app"]⟩

lemma new_app : DependencyGraph.new 3 [app, svc] = some (.ok appGraph) := by rfl

def svcOnly : ServiceExecutor :=
  { steady with
    start := fun calls id =>
      if id = "svc" then steady.start calls id else .error (.serviceFailed id "no binary") }

theorem startAll_rolledBack_app : ∃ g e, DependencyGraph.new 3 [app, svc] = some (.ok g) ∧
    (ServiceManager.startAll svcOnly (init g)).1 = .error e ∧
    ∃ failing, e = .serviceFailed failing "startup failed; rolled back all services" ∧
      RolledBack g.startOrder failing (ServiceManager.startAll svcOnly (init g)).2 := by
  refine ⟨_, .serviceFailed "app" "startup failed; rolled back all services", new_app, ?_, ?_⟩
  · rfl
  · exact startAll_rolledBack svcOnly new_app rfl

/-- **Boot and shutdown**: a `start_all` that succeeds on a manager of `build_manager` has started
every service once, in the start order, and a `stop_all` after it stops them all in the reverse
order, whatever the executor answers. -/
theorem startAll_stopAll_reverse {fuel : ℕ} {manifests : List ServiceManifest} {m : ServiceManager}
    (hm : buildManager fuel manifests = some (.ok m))
    (hok : ServiceManager.startAll x ⟨m, []⟩ = (.ok (), s)) :
    s.started = m.graph.startOrder ∧ s.attempted = s.started ∧
      ∃ result s', attempt (ServiceManager.stopAll x) s = (.ok result, s') ∧
        s'.attempted = s.attempted ∧ s'.stoppedHandles = s.startedHandles.reverse := by
  obtain ⟨answer, hg, hans⟩ := Option.map_eq_some_iff.mp hm
  obtain e | g := answer
  · cases hans
  cases hans
  have hnd : g.startOrder.Nodup :=
    (DependencyGraph.startOrder_perm_keys hg).nodup_iff.mpr Std.TreeMap.nodup_keys
  have hrun : ServiceManager.startEach x g.startOrder (init g) = (.ok (), s) := hok
  have hspec := startEach_spec x hnd rfl (progress_init g)
  rw [hrun] at hspec
  obtain ⟨-, hp⟩ | ⟨failing, herr, -⟩ := hspec
  case inr => cases herr
  rw [hp.attempted, hp.started]
  obtain ⟨result, s', hres, hs'⟩ := stopAll_stopped x (s := s)
    (by rw [hp.graph]; exact nodup_reverse.mpr hnd)
  refine ⟨rfl, rfl, result, s', hres, hs'.attempted.trans hp.attempted, ?_⟩
  have hstop : g.stopOrder = g.startOrder.reverse := rfl
  rw [hs'.stoppedHandles, hp.stopped, hp.graph, hstop, filterMap_reverse, hp.stored, nil_append]

theorem startAll_stopAll_reverse_app : ∃ m s, buildManager 3 [app, svc] = some (.ok m) ∧
    ServiceManager.startAll steady ⟨m, []⟩ = (.ok (), s) ∧ s.started = ["svc", "app"] ∧
      ∃ result s', attempt (ServiceManager.stopAll steady) s = (.ok result, s') ∧
        s'.stoppedHandles = s.startedHandles.reverse := by
  have hm : buildManager 3 [app, svc] = some (.ok (.new appGraph)) := by rfl
  obtain ⟨hsta, -, result, s', hres, -, hrev⟩ := startAll_stopAll_reverse steady hm rfl
  exact ⟨_, _, hm, rfl, hsta, result, s', hres, hrev⟩

end ManagedSystem

end Aether.SystemCore
