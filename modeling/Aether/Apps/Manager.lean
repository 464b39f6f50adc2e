import Aether.Algorithm.Checked
import Aether.Algorithm.Run
import Aether.Core.Str
import Mathlib.Data.List.Nodup

/-!
# The application manager (`aether-application-manager`)

What the system does during a call, spawning a process and looking after children, is an argument
of the call (`Processes`).  The counter of instances overflows with a panic (`none`).
-/

namespace Aether.Apps

open Aether.Core Checked

structure AppDefinition where
  id : String
  command : String
  deriving DecidableEq

inductive InstanceState where
  | running | exited | failed | closed
  deriving DecidableEq

structure Instance where
  instanceId : UInt64
  appId : String
  pid : Option UInt32
  state : InstanceState
  deriving DecidableEq

structure InstanceRecord where
  inst : Instance
  child : Option UInt32
  deriving DecidableEq

structure AppStateReport where
  appId : String
  installed : Bool
  state : String
  instances : List Instance

inductive AppManagerError where
  | unknownApp (id : String)
  | alreadyRunning (id : String)
  | notRunning (instanceId : UInt64)
  | launchFailed (e : String)
  deriving DecidableEq

inductive TryWait where
  | exited (success : Bool)
  | alive
  | error

structure Processes where
  tryWait : UInt64 → TryWait
  spawn : Str → List Str → Option UInt32

structure ApplicationManager where
  defs : Std.TreeMap String AppDefinition
  instances : List InstanceRecord
  nextInstance : UInt64

def InstanceRecord.isRunning (r : InstanceRecord) : Bool := r.inst.state = .running

def InstanceRecord.finish (r : InstanceRecord) (state : InstanceState) : InstanceRecord :=
  { r with inst := { r.inst with state }, child := none }

namespace ApplicationManager

def new : ApplicationManager := ⟨∅, [], 0⟩

def register (m : ApplicationManager) (d : AppDefinition) : ApplicationManager :=
  { m with defs := m.defs.insert d.id d }

def reapRecord (ps : Processes) (r : InstanceRecord) : InstanceRecord :=
  if !r.isRunning then r
  else if r.child.isNone then r
  else
    match ps.tryWait r.inst.instanceId with
    | .exited success => r.finish (if success then .exited else .failed)
    | .alive => r
    | .error => r.finish .failed

def reap (m : ApplicationManager) (ps : Processes) : ApplicationManager :=
  { m with instances := m.instances.map (reapRecord ps) }

def launch (m : ApplicationManager) (appId : String) (ps : Processes) :
    Option (Except AppManagerError Instance × ApplicationManager) :=
  let m := m.reap ps
  match m.defs[appId]? with
  | none => some (.error (.unknownApp appId), m)
  | some d =>
    if m.instances.any fun r => r.inst.appId = d.id && r.isRunning then
      some (.error (.alreadyRunning d.id), m)
    else
      (addU64 m.nextInstance 1).map fun instanceId =>
        let m := { m with nextInstance := instanceId }
        match Str.splitWhitespace d.command.toList with
        | [] => (.error (.launchFailed "empty command"), m)
        | program :: args =>
          let child := ps.spawn program args
          let inst := ⟨instanceId, d.id, child, if child.isSome then .running else .failed⟩
          (if child.isSome then .ok inst
            else .error (.launchFailed
              s!"spawn failed; recorded as FAILED instance {instanceId.toNat}"),
            { m with instances := m.instances ++ [⟨inst, child⟩] })

def running (m : ApplicationManager) (ps : Processes) : List Instance × ApplicationManager :=
  let m := m.reap ps
  ((m.instances.filter InstanceRecord.isRunning).map InstanceRecord.inst, m)

def close (m : ApplicationManager) (instanceId : UInt64) (ps : Processes) :
    Except AppManagerError Instance × ApplicationManager :=
  let m := m.reap ps
  match m.instances.find? fun r => r.inst.instanceId = instanceId with
  | none => (.error (.notRunning instanceId), m)
  | some r =>
    (.ok { r.inst with state := .closed }, { m with instances := m.instances.map fun r =>
      if r.inst.instanceId = instanceId then r.finish .closed else r })

def appState (m : ApplicationManager) (appId : String) (ps : Processes) :
    AppStateReport × ApplicationManager :=
  let m := m.reap ps
  let installed := m.defs.contains appId
  let instances := (m.instances.map InstanceRecord.inst).filter fun i => i.appId = appId
  let state :=
    if instances.any fun i => i.state = .running then "RUNNING"
    else if instances.any fun i => i.state = .failed then "FAILED"
    else
      match instances.getLast? with
      | some last =>
        match last.state with
        | .exited => "EXITED"
        | .closed => "CLOSED"
        | _ => "INSTALLED"
      | none => if installed then "INSTALLED" else "UNKNOWN"
  (⟨appId, installed, state, instances⟩, m)

def stats (m : ApplicationManager) (ps : Processes) : (ℕ × ℕ × ℕ) × ApplicationManager :=
  let m := m.reap ps
  ((m.defs.size, m.instances.countP InstanceRecord.isRunning,
    m.instances.countP fun r => r.inst.state = .failed), m)

end ApplicationManager

inductive AppCall where
  | register (d : AppDefinition)
  | launch (appId : String) (ps : Processes)
  | running (ps : Processes)
  | close (instanceId : UInt64) (ps : Processes)
  | appState (appId : String) (ps : Processes)
  | stats (ps : Processes)

def ApplicationManager.step (m : ApplicationManager) : AppCall → Option ApplicationManager
  | .register d => some (m.register d)
  | .launch appId ps => (m.launch appId ps).map Prod.snd
  | .running ps => some (m.running ps).2
  | .close instanceId ps => some (m.close instanceId ps).2
  | .appState appId ps => some (m.appState appId ps).2
  | .stats ps => some (m.stats ps).2

/-!
## The instances of the application manager
-/

open List Run

namespace ApplicationManager

variable {m m' : ApplicationManager} {ps : Processes} {c : AppCall} {r r' : InstanceRecord}

def ids (m : ApplicationManager) : List UInt64 := m.instances.map fun r => r.inst.instanceId

/-- No app runs twice, the running instances hold a child, and ids are not used twice. -/
structure Consistent (m : ApplicationManager) : Prop where
  single : ∀ r ∈ m.instances, ∀ r' ∈ m.instances, r.isRunning = true → r'.isRunning = true →
    r.inst.appId = r'.inst.appId → r.inst.instanceId = r'.inst.instanceId
  child : ∀ r ∈ m.instances, r.isRunning = true ↔ r.child.isSome
  nodup : m.ids.Nodup
  bound : ∀ id ∈ m.ids, id ≤ m.nextInstance

def Finished (r r' : InstanceRecord) : Prop :=
  r' = r ∨ ∃ state, state ≠ .running ∧ r' = r.finish state

lemma finished_reapRecord (ps : Processes) (r : InstanceRecord) : Finished r (reapRecord ps r) := by
  unfold reapRecord
  split
  · exact .inl rfl
  split
  · exact .inl rfl
  split
  · rename_i success _
    exact .inr ⟨_, by cases success <;> simp, rfl⟩
  · exact .inl rfl
  · exact .inr ⟨_, by simp, rfl⟩

lemma isRunning_finish {state : InstanceState} (h : state ≠ .running) :
    (r.finish state).isRunning = false := by
  simp [InstanceRecord.isRunning, InstanceRecord.finish, h]

lemma Finished.inst_eq (h : Finished r r') :
    r'.inst.instanceId = r.inst.instanceId ∧ r'.inst.appId = r.inst.appId ∧
      (r'.isRunning = true → r' = r) ∧
      ((r.isRunning = true ↔ r.child.isSome) → (r'.isRunning = true ↔ r'.child.isSome)) := by
  obtain rfl | ⟨state, hst, rfl⟩ := h
  · exact ⟨rfl, rfl, fun _ => rfl, id⟩
  · refine ⟨rfl, rfl, fun h => ?_, fun _ => ?_⟩
    · rw [isRunning_finish hst] at h
      cases h
    · rw [isRunning_finish hst]
      simp [InstanceRecord.finish]

lemma ids_map {f : InstanceRecord → InstanceRecord} (hf : ∀ r, Finished r (f r))
    (hm : m'.instances = m.instances.map f) : m'.ids = m.ids := by
  rw [ids, hm, map_map, ids]
  exact map_congr_left fun r _ => (hf r).inst_eq.1

lemma Consistent.map (h : m.Consistent) {f : InstanceRecord → InstanceRecord}
    (hf : ∀ r, Finished r (f r)) (hm : m'.instances = m.instances.map f)
    (hnext : m.nextInstance ≤ m'.nextInstance) : m'.Consistent where
  single := by
    simp only [hm, forall_mem_map]
    intro r hr r' hr' hrun hrun' happ
    have heq := (hf r).inst_eq.2.2.1 hrun
    have heq' := (hf r').inst_eq.2.2.1 hrun'
    rw [heq, heq'] at happ ⊢
    exact h.single r hr r' hr' (heq ▸ hrun) (heq' ▸ hrun') happ
  child := by
    simp only [hm, forall_mem_map]
    exact fun r hr => (hf r).inst_eq.2.2.2 (h.child r hr)
  nodup := ids_map hf hm ▸ h.nodup
  bound id hid := UInt64.le_trans (h.bound id (ids_map hf hm ▸ hid)) hnext

lemma Consistent.launched (h : m.Consistent) {id : UInt64} {appId : String}
    {child pid : Option UInt32} (hid : id.toNat = m.nextInstance.toNat + 1)
    (happ : ∀ r ∈ m.instances, r.inst.appId = appId → r.isRunning = false)
    (hm : m'.instances = m.instances ++
      [⟨⟨id, appId, pid, if child.isSome then .running else .failed⟩, child⟩])
    (hnext : m'.nextInstance = id) : m'.Consistent := by
  have hids : m'.ids = m.ids ++ [id] := by rw [ids, hm, map_append]; rfl
  have hlt : ∀ i ∈ m.ids, i.toNat < id.toNat := by
    intro i hi
    have hle := UInt64.le_iff_toNat_le.mp (h.bound i hi)
    omega
  refine ⟨?_, ?_, ?_, ?_⟩
  · intro r hr r' hr' hrun hrun' heq
    rw [hm, mem_append, mem_singleton] at hr hr'
    rcases hr with hr | rfl <;> rcases hr' with hr' | rfl
    · exact h.single r hr r' hr' hrun hrun' heq
    · rw [happ r hr heq] at hrun
      cases hrun
    · rw [happ r' hr' heq.symm] at hrun'
      cases hrun'
    · rfl
  · intro r hr
    rw [hm, mem_append, mem_singleton] at hr
    rcases hr with hr | rfl
    · exact h.child r hr
    · cases child <;> simp [InstanceRecord.isRunning]
  · rw [hids]
    refine nodup_append'.mpr ⟨h.nodup, by simp, fun i hi hmem => ?_⟩
    have := hlt i hi
    rw [mem_singleton.mp hmem] at this
    omega
  · intro i hi
    rw [hids, mem_append, mem_singleton] at hi
    rw [hnext, UInt64.le_iff_toNat_le]
    rcases hi with hi | rfl
    · exact (hlt i hi).le
    · exact le_rfl

inductive Changes (m m' : ApplicationManager) : Prop
  | finished (f : InstanceRecord → InstanceRecord) (hf : ∀ r, Finished r (f r))
      (hrun : ∀ r, r.isRunning = false → f r = r) (hm : m'.instances = m.instances.map f)
      (hnext : m.nextInstance ≤ m'.nextInstance)
  | launched {appId : String} {child pid : Option UInt32} (ps : Processes)
      (hid : m'.nextInstance.toNat = m.nextInstance.toNat + 1)
      (happ : ∀ r ∈ (m.reap ps).instances, r.inst.appId = appId → r.isRunning = false)
      (hm : m'.instances = (m.reap ps).instances ++
        [⟨⟨m'.nextInstance, appId, pid, if child.isSome then .running else .failed⟩, child⟩])

lemma reapRecord_of_not_running (ps : Processes) (h : r.isRunning = false) :
    reapRecord ps r = r := by simp [reapRecord, h]

lemma changes_reap (hm : m'.instances = (m.reap ps).instances)
    (hnext : m.nextInstance ≤ m'.nextInstance) : Changes m m' :=
  .finished (reapRecord ps) (finished_reapRecord ps) (fun _ => reapRecord_of_not_running ps) hm
    hnext

lemma changes_launch {appId : String} {result : Except AppManagerError Instance}
    (h : m.launch appId ps = some (result, m')) : Changes m m' := by
  unfold launch at h
  dsimp only at h
  split at h
  · cases h
    exact changes_reap rfl (UInt64.le_refl _)
  · rename_i d hd
    split at h
    · cases h
      exact changes_reap rfl (UInt64.le_refl _)
    · rename_i hany
      obtain ⟨id, hid, h⟩ := Option.map_eq_some_iff.mp h
      have hnat := (Checked.addU64_eq_some_iff _ _ _).mp hid
      change id.toNat = m.nextInstance.toNat + 1 at hnat
      have hle : m.nextInstance ≤ id := UInt64.le_iff_toNat_le.mpr (by omega)
      split at h
      · cases h
        exact changes_reap rfl hle
      · have happ : ∀ r ∈ (m.reap ps).instances, r.inst.appId = d.id → r.isRunning = false := by
          intro r hr heq
          by_contra hrun
          exact hany (any_eq_true.mpr ⟨r, hr, by simp [heq, Bool.not_eq_false _ ▸ hrun]⟩)
        cases h
        exact .launched ps hnat happ rfl

lemma changes_step (h : m.step c = some m') (hc : ∀ id ps, c ≠ .close id ps) : Changes m m' := by
  cases c with
  | register d =>
    cases h
    exact .finished id (fun _ => .inl rfl) (fun _ _ => rfl) (by simp [register]) (UInt64.le_refl _)
  | launch appId ps =>
    obtain ⟨⟨result, t⟩, ht, rfl⟩ := Option.map_eq_some_iff.mp h
    exact changes_launch ht
  | close id ps => exact absurd rfl (hc id ps)
  | running ps => cases h; exact changes_reap rfl (UInt64.le_refl _)
  | appState appId ps => cases h; exact changes_reap rfl (UInt64.le_refl _)
  | stats ps => cases h; exact changes_reap rfl (UInt64.le_refl _)

def closeRecord (id : UInt64) (r : InstanceRecord) : InstanceRecord :=
  if r.inst.instanceId = id then r.finish .closed else r

lemma finished_closeRecord (id : UInt64) (r : InstanceRecord) : Finished r (closeRecord id r) := by
  unfold closeRecord
  split
  · exact .inr ⟨_, by simp, rfl⟩
  · exact .inl rfl

lemma close_cases (m : ApplicationManager) (id : UInt64) (ps : Processes) :
    (∀ r ∈ (m.reap ps).instances, r.inst.instanceId ≠ id) ∧
        m.close id ps = (.error (.notRunning id), m.reap ps) ∨
      (∃ r ∈ (m.reap ps).instances, r.inst.instanceId = id) ∧
      (∃ inst, (m.close id ps).1 = .ok inst) ∧
        (m.close id ps).2 =
          { m.reap ps with instances := (m.reap ps).instances.map (closeRecord id) } := by
  unfold close
  dsimp only
  split
  · rename_i hnone
    refine .inl ⟨fun r hr => ?_, rfl⟩
    simpa using find?_eq_none.mp hnone r hr
  · rename_i r hr
    exact .inr ⟨⟨r, mem_of_find?_eq_some hr, by simpa using find?_some hr⟩, ⟨_, rfl⟩, rfl⟩

lemma Consistent.reap (h : m.Consistent) (ps : Processes) : (m.reap ps).Consistent :=
  h.map (finished_reapRecord ps) rfl (UInt64.le_refl _)

lemma ids_reap (m : ApplicationManager) (ps : Processes) : (m.reap ps).ids = m.ids :=
  ids_map (finished_reapRecord ps) rfl

lemma Consistent.step (h : m.Consistent) (hstep : m.step c = some m') :
    m'.Consistent ∧ m.ids <+: m'.ids := by
  by_cases hc : ∃ id ps, c = .close id ps
  · obtain ⟨id, ps, rfl⟩ := hc
    cases hstep
    obtain ⟨-, heq⟩ | ⟨-, -, heq⟩ := close_cases m id ps <;> rw [heq]
    · exact ⟨h.reap ps, by rw [ids_reap]⟩
    · have hids : ids { m.reap ps with instances := (m.reap ps).instances.map (closeRecord id) } =
          m.ids := (ids_map (finished_closeRecord id) rfl).trans (ids_reap m ps)
      exact ⟨(h.reap ps).map (finished_closeRecord id) rfl (UInt64.le_refl _), by rw [hids]⟩
  · cases changes_step hstep fun id ps heq => hc ⟨id, ps, heq⟩ with
    | finished f hf _ hm hnext => exact ⟨h.map hf hm hnext, by rw [ids_map hf hm]⟩
    | launched ps hid happ hm =>
      refine ⟨(h.reap ps).launched hid happ hm rfl, ?_⟩
      rw [← ids_reap m ps, ids, ids, hm, map_append]
      exact prefix_append _ _

lemma consistent_new : new.Consistent :=
  ⟨by simp [new], by simp [new], by simp [new, ids], by simp [new, ids]⟩

/-- **Instances** are consistent in every run, and no id is used again over time. -/
theorem consistent_run (calls : List AppCall) (m : ApplicationManager)
    (hrun : exec step new calls = some m) :
    m.Consistent ∧ ∀ later m', exec step m later = some m' → m.ids <+: m'.ids := by
  have hm : m.Consistent := exec_invariant (I := Consistent) (fun _ _ _ h hstep => (h.step hstep).1)
    consistent_new hrun
  refine ⟨hm, fun later m' hlat => ?_⟩
  exact (exec_invariant (I := fun t : ApplicationManager => t.Consistent ∧ m.ids <+: t.ids)
    (fun _ _ _ h hstep => ⟨(h.1.step hstep).1, h.2.trans (h.1.step hstep).2⟩)
    ⟨hm, prefix_refl _⟩ hlat).2

def shortLived : Processes := ⟨fun _ => .exited true, fun _ _ => some 100⟩

def launchEditor : List AppCall := [.register ⟨"editor", "/bin/edit"⟩, .launch "editor" shortLived]

theorem consistent_run_editor : ∃ m, exec step new launchEditor = some m ∧ m.ids = [1] ∧
    m.Consistent := by
  refine ⟨_, rfl, rfl, (consistent_run launchEditor _ rfl).1⟩

/-- Only running instances can be closed, and finished ones stay as they are. -/
def Keeps (m : ApplicationManager) (c : AppCall) : Prop :=
  (∀ id ps inst, c = .close id ps → (m.close id ps).1 = .ok inst →
    ∃ r ∈ (m.reap ps).instances, r.inst.instanceId = id ∧ r.inst.state = .running) ∧
  ∀ m', m.step c = some m' → ∀ r ∈ m.instances, r.inst.state ≠ .running →
    ∃ r' ∈ m'.instances, r'.inst.instanceId = r.inst.instanceId ∧ r'.inst.state = r.inst.state

/-- The instance that is closed is running or not there. -/
def ClosesRunning (m : ApplicationManager) (c : AppCall) : Prop :=
  ∀ id ps, c = .close id ps → ∀ r ∈ (m.reap ps).instances, r.inst.instanceId = id →
    r.inst.state = .running

lemma mem_reap_of_finished (ps : Processes) (hr : r ∈ m.instances) (h : r.inst.state ≠ .running) :
    r ∈ (m.reap ps).instances := by
  have hsame : reapRecord ps r = r :=
    reapRecord_of_not_running ps (by simpa [InstanceRecord.isRunning])
  exact mem_map.mpr ⟨r, hr, hsame⟩

lemma keeps_iff_closesRunning (hm : m.Consistent) : m.Keeps c ↔ m.ClosesRunning c := by
  constructor
  · rintro ⟨hclo, -⟩ id ps rfl r hr hid
    obtain ⟨hnone, -⟩ | ⟨-, ⟨inst, hok⟩, -⟩ := close_cases m id ps
    · exact absurd hid (hnone r hr)
    · obtain ⟨r', hr', hid', hrun⟩ := hclo id ps inst rfl hok
      rwa [inj_on_of_nodup_map (hm.reap ps).nodup hr hr' (hid.trans hid'.symm)]
  · intro hclos
    constructor
    · rintro id ps inst rfl hok
      obtain ⟨-, herr⟩ | ⟨⟨r, hr, hid⟩, -⟩ := close_cases m id ps
      · rw [herr] at hok
        cases hok
      · exact ⟨r, hr, hid, hclos id ps rfl r hr hid⟩
    · intro m' hstep r hr hfin
      by_cases hc : ∃ id ps, c = .close id ps
      · obtain ⟨id, ps, rfl⟩ := hc
        cases hstep
        have hmem := mem_reap_of_finished ps hr hfin
        obtain ⟨-, heq⟩ | ⟨-, -, heq⟩ := close_cases m id ps <;> rw [heq]
        · exact ⟨r, hmem, rfl, rfl⟩
        · have hne : r.inst.instanceId ≠ id := fun hid => hfin (hclos id ps rfl r hmem hid)
          exact ⟨r, mem_map.mpr ⟨r, hmem, if_neg hne⟩, rfl, rfl⟩
      · cases changes_step hstep fun id ps heq => hc ⟨id, ps, heq⟩ with
        | finished f _ hsame hmap =>
          have hr' : f r = r := hsame r (by simpa [InstanceRecord.isRunning])
          exact ⟨r, by rw [hmap]; exact mem_map.mpr ⟨r, hr, hr'⟩, rfl, rfl⟩
        | launched ps _ _ hmap =>
          exact ⟨r, by rw [hmap]; exact mem_append_left _ (mem_reap_of_finished ps hr hfin), rfl,
            rfl⟩

/-- **Finished instances** stay finished and cannot be closed, iff only running ones are closed. -/
theorem keeps_iff (calls : List AppCall) :
    Along step Keeps new calls ↔ Along step ClosesRunning new calls :=
  along_congr (I := Consistent) (fun _ _ _ h hstep => (h.step hstep).1)
    (fun _ _ h => keeps_iff_closesRunning h) consistent_new calls

/-- An instance that has exited is closed all the same. -/
theorem exited_closed : ¬ Along step Keeps new
    (launchEditor ++ [.running shortLived, .close 1 shortLived]) := by
  rintro ⟨-, h⟩
  obtain ⟨-, h⟩ := h _ rfl
  obtain ⟨-, h⟩ := h _ rfl
  obtain ⟨⟨-, h⟩, -⟩ := h _ rfl
  obtain ⟨r, hr, -, hst⟩ := h _ rfl _ mem_cons_self (by decide)
  obtain rfl := mem_singleton.mp hr
  cases hst

end ApplicationManager

end Aether.Apps
