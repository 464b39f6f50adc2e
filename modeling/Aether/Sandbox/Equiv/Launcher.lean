import Aether.Sandbox.Launcher

/-!
# The cgroup directory of a launch

The validation looks at the first bytes of the slice only, and the launcher puts the slice into a
path as it is, so `..` leads out of `aether.slice`.
-/

namespace Aether.Sandbox

open Aether.Core Calls
open Security (asBytes asBytes_append)

def sliceDir : List OsStr := ["sys", "fs", "cgroup", "aether.slice"].map asBytes

def subSlice (slice : String) : OsStr := (asBytes slice).drop (asBytes sliceRoot).length

variable {plan : SandboxPlan} {I : List SysCall → Prop} {c : SysCall} {cmd : List String}

lemma asBytes_slice (h : validate plan = .ok ()) :
    asBytes plan.resources.cgroupSlice =
      asBytes sliceRoot ++ subSlice plan.resources.cgroupSlice := by
  have hpre : sliceRoot.toList <+: plan.resources.cgroupSlice.toList := by
    unfold validate at h
    split at h
    · cases h
    · dsimp only at h
      split_ifs at h with hsli
      simpa using hsli
  obtain ⟨rest, hrest⟩ := hpre
  have hsli : plan.resources.cgroupSlice = sliceRoot ++ String.ofList rest := by
    rw [← String.toList_inj, String.toList_append, String.toList_ofList, hrest]
  rw [subSlice, hsli, asBytes_append, List.drop_left]

lemma resolve_cgroupPath (h : validate plan = .ok ()) (cwd : List OsStr) :
    Path.resolve cwd (cgroupPath plan.resources.cgroupSlice) =
      Lexical.resolve sliceDir (Path.parts (subSlice plan.resources.cgroupSlice)) := by
  have hpath : cgroupPath plan.resources.cgroupSlice =
      asBytes "/sys/fs/cgroup/aether.slice" ++
        Path.slash :: subSlice plan.resources.cgroupSlice := by
    have hroot : asBytes "/sys/fs/cgroup/" ++ asBytes sliceRoot =
        asBytes "/sys/fs/cgroup/aether.slice" ++ [Path.slash] := by decide
    show asBytes ("/sys/fs/cgroup/" ++ plan.resources.cgroupSlice) = _
    rw [asBytes_append, asBytes_slice h, ← List.append_assoc, hroot, List.append_assoc,
      List.singleton_append]
  have hdir : Path.parts (asBytes "/sys/fs/cgroup/aether.slice") = sliceDir.map Part.name := by
    decide
  have habs : Path.isAbsolute (asBytes "/sys/fs/cgroup/aether.slice") = true := by decide
  rw [hpath, Path.resolve, Path.isAbsolute_append (by decide), habs, if_pos rfl,
    Path.parts_append_slash, Lexical.resolve_append, hdir, Lexical.resolve_names, List.nil_append]

lemma zero_mem_cgroupPath_iff (slice : String) : 0 ∈ cgroupPath slice ↔ 0 ∈ asBytes slice := by
  show 0 ∈ asBytes ("/sys/fs/cgroup/" ++ slice) ↔ _
  have hroot : (0 : UInt8) ∉ asBytes "/sys/fs/cgroup/" := by decide
  rw [asBytes_append, List.mem_append]
  simp [hroot]

def OfSlice (slice : String) : SysCall → Prop
  | .createDirAll path => path = cgroupPath slice ∧ 0 ∉ cgroupPath slice
  | .write path _ =>
    path = Path.join (cgroupPath slice) (asBytes "cgroup.procs") ∧ 0 ∉ cgroupPath slice
  | _ => True

variable (k : Kernel)

lemma preserves_sysCall (h : ∀ log, I log → I (log ++ [c])) :
    Command.Preserves I (sysCall k c) := by
  refine (preserves_call k h).bind fun answer => ?_
  cases answer with
  | ok _ => exact Command.preserves_pure _
  | error e => exact Command.preserves_fail e

lemma preserves_pathCall (path : OsStr) (h : ∀ log, I log → I (log ++ [c])) :
    Command.Preserves I (pathCall k path c) :=
  (Command.preserves_fail _).ite (preserves_sysCall k h)

lemma preserves_execChild (cmd : List String)
    (h : ∀ log argv, I log → I (log ++ [.execvp argv])) : Command.Preserves I (execChild k cmd) :=
  (Command.preserves_fail _).ite ((preserves_sysCall k fun log => h log _).mapError _)

lemma preserves_writeCgroupSlice (pid : UInt32) (slice : String) :
    Command.Preserves (All (OfSlice slice)) (writeCgroupSlice k pid slice) := by
  by_cases hnul : 0 ∈ cgroupPath slice
  · -- The first call fails before it reaches the kernel.
    have hfail : writeCgroupSlice k pid slice = Command.fail Path.nulError := by
      funext log
      simp [writeCgroupSlice, pathCall, hnul, Command.bind_apply]
    rw [hfail]
    exact Command.preserves_fail _
  · refine Command.Preserves.bind ?_ fun _ => ?_
    · exact preserves_pathCall k _ fun log hlog => hlog.concat ⟨rfl, hnul⟩
    · exact preserves_pathCall k _ fun log hlog => hlog.concat ⟨rfl, hnul⟩

lemma preserves_applyAndExec (pid : UInt32) (plan : SandboxPlan) (cmd : List String) :
    Command.Preserves (All (OfSlice plan.resources.cgroupSlice)) (applyAndExec k pid plan cmd) := by
  have hpri : Command.Preserves (All (OfSlice plan.resources.cgroupSlice))
      (setNoNewPrivs k plan) :=
    (preserves_sysCall k fun log hlog => hlog.concat trivial).ite (Command.preserves_pure _)
  have huns : Command.Preserves (All (OfSlice plan.resources.cgroupSlice))
      (unshareNamespaces k plan) :=
    (Command.preserves_pure _).ite (preserves_sysCall k fun log hlog => hlog.concat trivial)
  have hcaps : Command.Preserves (All (OfSlice plan.resources.cgroupSlice))
      (setCapabilities k plan.capabilities) :=
    preserves_sysCall k fun log hlog => hlog.concat trivial
  refine (Command.preserves_fail _).ite ?_
  refine (hpri.mapError _).bind fun _ => (huns.mapError _).bind fun _ => ?_
  exact ((preserves_writeCgroupSlice k pid _).mapError _).bind fun _ =>
    (hcaps.mapError _).bind fun _ =>
      preserves_execChild k cmd fun log argv hlog => hlog.concat trivial

def accepting : Kernel := fun _ _ => .ok ()

lemma sysCall_accepting (c : SysCall) (log : List SysCall) :
    sysCall accepting c log = (.ok (), log ++ [c]) := rfl

lemma createDirAll_mem_applyAndExec (plan : SandboxPlan) (pid : UInt32) (hcmd : cmd ≠ [])
    (hnul : 0 ∉ cgroupPath plan.resources.cgroupSlice) :
    SysCall.createDirAll (cgroupPath plan.resources.cgroupSlice) ∈
      (applyAndExec accepting pid plan cmd []).2 := by
  have hpri : ∃ log, (setNoNewPrivs accepting plan).mapError (fun _ => (1 : UInt8)) [] =
      (.ok (), log) := by
    unfold setNoNewPrivs
    split_ifs <;> exact ⟨_, rfl⟩
  obtain ⟨log₁, h₁⟩ := hpri
  have huns : ∃ log, (unshareNamespaces accepting plan).mapError (fun _ => (1 : UInt8)) log₁ =
      (.ok (), log) := by
    unfold unshareNamespaces
    split_ifs <;> exact ⟨_, rfl⟩
  obtain ⟨log₂, h₂⟩ := huns
  rw [applyAndExec, if_neg hcmd, Command.bind_apply, h₁]
  dsimp only
  rw [Command.bind_apply, h₂]
  dsimp only
  -- From here on the calls only come on top.
  have hmem (c : SysCall) (log : List SysCall)
      (h : .createDirAll (cgroupPath plan.resources.cgroupSlice) ∈ log) :
      .createDirAll (cgroupPath plan.resources.cgroupSlice) ∈ log ++ [c] :=
    List.mem_append_left _ h
  have hwr : .createDirAll (cgroupPath plan.resources.cgroupSlice) ∈
      (writeCgroupSlice accepting pid plan.resources.cgroupSlice log₂).2 := by
    rw [writeCgroupSlice, Command.bind_apply, pathCall, if_neg hnul, sysCall_accepting]
    exact preserves_pathCall accepting _ (hmem _) _ (List.mem_append_right _ (by simp))
  refine Command.Holds.bind (Q := fun _ log => _ ∈ log) (R := fun _ log => _ ∈ log) ?_ ?_
    (fun _ _ h => h) fun _ h => h
  · rw [Command.Holds, Command.mapError_apply_snd]
    exact hwr
  · intro _ log hlog
    exact ((preserves_sysCall accepting (hmem _)).mapError _).bind
      (fun _ => preserves_execChild accepting cmd fun log _ => hmem _ log) log hlog

lemma main_of_plan {x : PlanReader} {path : String}
    (hplan : resolvePlan x (some path) none = .ok plan) (hval : validate plan = .ok ())
    (hcmd : cmd ≠ []) (k : Kernel) (pid : UInt32) (log : List SysCall) :
    (main x k pid ("--plan" :: path :: "--" :: cmd) log).2 =
      (applyAndExec k pid plan cmd log).2 := by
  have hargs : parseArgs {} ("--plan" :: path :: "--" :: cmd) =
      .options { planPath := some path } cmd := by
    have hcmd : parseArgs { planPath := some path } ("--" :: cmd) =
        .options { planPath := some path } cmd := by
      rw [parseArgs.eq_def]
      simp
    rw [parseArgs.eq_def]
    simp [hcmd]
  simp only [main, hargs, hplan, hval, if_neg hcmd, Bool.false_eq_true, if_false]
  rw [Command.bind_apply]
  rcases applyAndExec k pid plan cmd log with ⟨_ | _ | _, log'⟩
  · rfl
  · rfl
  · rfl

/-- Directories are created, and files written, strictly below `aether.slice` only. -/
def SysCall.Confined (cwd : List OsStr) : SysCall → Prop
  | .createDirAll path => Lexical.Below sliceDir (Path.resolve cwd path)
  | .write path _ => Lexical.Below sliceDir (Path.resolve cwd path).dropLast
  | _ => True

instance (cwd : List OsStr) : DecidablePred (SysCall.Confined cwd)
  | .createDirAll _ | .write _ _ => by unfold SysCall.Confined; infer_instance
  | .setNoNewPrivs | .unshare _ | .capset _ _ | .execvp _ => .isTrue trivial

/-- The components of the slice lead strictly below `aether.slice`. -/
def LeadsBelow (slice : String) : Prop :=
  let c := Lexical.climb (Path.parts (subSlice slice))
  Lexical.Below (sliceDir.drop (sliceDir.length - c.1)) c.2

instance (slice : String) : Decidable (LeadsBelow slice) := by
  unfold LeadsBelow; infer_instance

lemma resolve_procs (cwd : List OsStr) (path : OsStr) :
    Path.resolve cwd (Path.join path (asBytes "cgroup.procs")) =
      Path.resolve cwd path ++ [asBytes "cgroup.procs"] := by
  rw [Path.resolve_join, Path.resolve_name (by decide) (by decide)]

lemma confined_of_ofSlice (hval : validate plan = .ok ())
    (hbel : 0 ∈ asBytes plan.resources.cgroupSlice ∨ LeadsBelow plan.resources.cgroupSlice)
    (cwd : List OsStr) (hc : OfSlice plan.resources.cgroupSlice c) : c.Confined cwd := by
  have hdir (hnul : 0 ∉ cgroupPath plan.resources.cgroupSlice) :
      Lexical.Below sliceDir (Path.resolve cwd (cgroupPath plan.resources.cgroupSlice)) := by
    rw [zero_mem_cgroupPath_iff] at hnul
    rw [resolve_cgroupPath hval, Lexical.below_resolve_iff]
    exact hbel.resolve_left hnul
  cases c with
  | createDirAll path =>
    obtain ⟨rfl, hnul⟩ := hc
    exact hdir hnul
  | write path bytes =>
    obtain ⟨rfl, hnul⟩ := hc
    show Lexical.Below sliceDir (Path.resolve cwd (Path.join _ _)).dropLast
    rw [resolve_procs, List.dropLast_concat]
    exact hdir hnul
  | setNoNewPrivs => trivial
  | unshare flags => trivial
  | capset low high => trivial
  | execvp argv => trivial

/-- **The directory of a launch.**  For a plan file that is accepted, every launch creates and joins
a directory strictly below `/sys/fs/cgroup/aether.slice` iff the slice's components lead to one, or
the slice contains a NUL and no launch gets that far. -/
theorem main_confined_iff (x : PlanReader) (path : String) (plan : SandboxPlan)
    (hplan : resolvePlan x (some path) none = .ok plan) (hvalid : validate plan = .ok ())
    (cwd : List OsStr) :
    (∀ (k : Kernel) (pid : UInt32) (cmd : List String), cmd ≠ [] →
      ∀ c ∈ (main x k pid ("--plan" :: path :: "--" :: cmd) []).2, c.Confined cwd) ↔
    0 ∈ asBytes plan.resources.cgroupSlice ∨ LeadsBelow plan.resources.cgroupSlice := by
  constructor
  · intro h
    by_contra hnot
    obtain ⟨hnul, hbel⟩ := not_or.mp hnot
    rw [← zero_mem_cgroupPath_iff] at hnul
    have hcmd : ["true"] ≠ [] := by simp
    have hmem := createDirAll_mem_applyAndExec plan 1 hcmd hnul
    rw [← main_of_plan hplan hvalid hcmd] at hmem
    have hcon := h accepting 1 ["true"] hcmd _ hmem
    rw [SysCall.Confined, resolve_cgroupPath hvalid, Lexical.below_resolve_iff] at hcon
    exact hbel hcon
  · intro hbel k pid cmd hcmd c hc
    rw [main_of_plan hplan hvalid hcmd] at hc
    have hall := preserves_applyAndExec k pid plan cmd [] (all_nil _)
    exact confined_of_ofSlice hvalid hbel cwd (hall c hc)

/-- The text of the plan of a system service with another slice. -/
def planText (slice : String) : String :=
  "\x7b\"profile\":\"SystemService\",\"namespaces\":[\"User\",\"Mount\",\"Uts\"]," ++
  "\"capabilities\":[\"Chown\",\"Fowner\",\"Fsetid\",\"Setgid\",\"Setuid\",\"Setpcap\"," ++
  "\"NetBindService\",\"Kill\",\"SysTime\",\"SysResource\",\"AuditWrite\"]," ++
  "\"no_new_privs\":true,\"seccomp\":\"system-service-v1\",\"resources\":\x7b" ++
  "\"cgroup_slice\":\"" ++ slice ++ "\",\"cpu_weight\":100,\"memory_max_bytes\":null," ++
  "\"pids_max\":256,\"io_weight\":100\x7d,\"rationale\":\"" ++
  (planSandbox .systemService).rationale ++ "\"\x7d"

def readerOf (plan : SandboxPlan) : PlanReader where
  readToString path :=
    if path = "plan.json" then .ok (planText plan.resources.cgroupSlice)
    else .error "No such file or directory"
  fromStr text :=
    if text = planText plan.resources.cgroupSlice then .ok plan else .error "expected value"

theorem main_confined_iff_system_service :
    resolvePlan (readerOf (planSandbox .systemService)) (some "plan.json") none =
        .ok (planSandbox .systemService) ∧
      validate (planSandbox .systemService) = .ok () ∧
      ∀ (k : Kernel) (pid : UInt32) (cmd : List String), cmd ≠ [] →
        ∀ c ∈ (main (readerOf (planSandbox .systemService)) k pid
          ("--plan" :: "plan.json" :: "--" :: cmd) []).2, c.Confined [] :=
  have h : resolvePlan (readerOf (planSandbox .systemService)) (some "plan.json") none =
      .ok (planSandbox .systemService) := by decide +kernel
  ⟨h, by decide, (main_confined_iff _ _ _ h (by decide) []).mpr (.inr (by decide +kernel))⟩

def escapingPlan : SandboxPlan :=
  { planSandbox .systemService with
    resources := { ResourceLimits.systemDefault with cgroupSlice := "aether.slice/../user.slice" } }

theorem main_joins_user_slice :
    validate escapingPlan = .ok () ∧
      .createDirAll (asBytes "/sys/fs/cgroup/aether.slice/../user.slice") ∈
        (main (readerOf escapingPlan) accepting 1 ["--plan", "plan.json", "--", "true"] []).2 ∧
      ¬ ∀ c ∈ (main (readerOf escapingPlan) accepting 1 ["--plan", "plan.json", "--", "true"] []).2,
        c.Confined [] := by
  decide +kernel

end Aether.Sandbox
