import Aether.Update.DiskEngine

/-!
# Where the disk engine reads and writes

The target of a plan is joined to the engine's directories as it is, once as a whole and once with
the plan's time after it.
-/

namespace Aether.Update

open Aether.Core Calls Aether.Command List
open Security (asBytes asBytes_append)

namespace DiskApplyEngine

variable (e : DiskApplyEngine) (plan : UpdatePlan)

def dirs : List String := ["payloads", "staging", "active", "snapshot"]

def extensions : List String := [".bin", ".tmp", ".staged", ".sha256"]

def fileTail (ext : String) : OsStr := asBytes s!"@{plan.timestampMs}" ++ asBytes ext

lemma asBytes_planId (ext : String) :
    asBytes (plan.planId ++ ext) = asBytes plan.target ++ fileTail plan ext := by
  have hid : plan.planId = plan.target ++ s!"@{plan.timestampMs}" := String.append_assoc ..
  rw [fileTail, hid, asBytes_append, asBytes_append, append_assoc]

lemma not_mem_time {b : UInt8} (hb : b < 0x80) (hat : Char.ofNat b.toNat ≠ '@')
    (hdig : (Char.ofNat b.toNat).isDigit = false) : b ∉ asBytes s!"@{plan.timestampMs}" := by
  intro h
  have hmem := Security.mem_toList_of_mem_asBytes hb h
  rw [String.toList_append, mem_append] at hmem
  rcases hmem with hmem | hmem
  · exact hat (mem_singleton.mp hmem)
  · have hdigi : Char.ofNat b.toNat ∈ Nat.toDigits 10 plan.timestampMs.toNat := by
      rwa [show toString plan.timestampMs = String.ofList (Nat.toDigits 10 plan.timestampMs.toNat)
        from rfl, String.toList_ofList] at hmem
    have := Nat.isDigit_of_mem_toDigits (by decide) (by decide) hdigi
    simp [hdig] at this

variable {ext dir : String} {cwd : List OsStr}

lemma slash_not_mem_fileTail (hext : ext ∈ extensions) : Path.slash ∉ fileTail plan ext := by
  have hno : ∀ ext ∈ extensions, Path.slash ∉ asBytes ext := by decide
  rw [fileTail, mem_append, not_or]
  exact ⟨not_mem_time plan (by decide) (by decide) (by decide), hno ext hext⟩

lemma piecePart_fileTail (piece : OsStr) (ext : String) :
    Path.piecePart (piece ++ fileTail plan ext) = some (.name (piece ++ fileTail plan ext)) := by
  have hat : (64 : UInt8) ∈ fileTail plan ext := by
    rw [fileTail, show s!"@{plan.timestampMs}" = "@" ++ toString plan.timestampMs from rfl,
      asBytes_append]
    exact mem_append_left _ (mem_append_left _ (by decide))
  exact Path.piecePart_eq_name (mem_append_right _ hat) (by decide)

lemma resolve_pathIn (hdir : dir ∈ dirs) (file : String) (cwd : List OsStr) :
    Path.resolve cwd (e.pathIn dir file) =
      Path.resolve (Path.resolve cwd e.base ++ [asBytes dir]) (asBytes file) := by
  have hnam : ∀ dir ∈ dirs, Path.slash ∉ asBytes dir ∧
      Path.piecePart (asBytes dir) = some (.name (asBytes dir)) := by decide
  rw [pathIn, Path.resolve_join, Path.resolve_join,
    Path.resolve_name (hnam dir hdir).1 (hnam dir hdir).2]

lemma isPrefix_resolve_target_iff (hdir : dir ∈ dirs) (cwd : List OsStr) :
    Path.resolve cwd e.base <+: Path.resolve cwd (e.pathIn dir plan.target) ↔
      Path.StaysIn (Path.resolve cwd e.base) (asBytes plan.target) := by
  rw [resolve_pathIn e hdir, Path.isPrefix_resolve_child_iff]

lemma resolve_file (hdir : dir ∈ dirs) (hext : ext ∈ extensions) (cwd : List OsStr) :
    Path.resolve cwd (e.pathIn dir (plan.planId ++ ext)) =
      Path.resolve (Path.resolve cwd e.base ++ [asBytes dir])
          (Path.directory (asBytes plan.target)) ++
        [Path.lastPiece (asBytes plan.target) ++ fileTail plan ext] := by
  rw [resolve_pathIn e hdir, asBytes_planId,
    Path.resolve_append _ _ (slash_not_mem_fileTail plan hext) (piecePart_fileTail plan _ ext)]

lemma isPrefix_resolve_file (hdir : dir ∈ dirs) (hext : ext ∈ extensions)
    (h : Path.StaysIn (Path.resolve cwd e.base) (Path.directory (asBytes plan.target))) :
    Path.resolve cwd e.base <+: Path.resolve cwd (e.pathIn dir (plan.planId ++ ext)) := by
  rw [resolve_file e plan hdir hext]
  exact ((Path.isPrefix_resolve_child_iff _ _ _).mpr h).trans (prefix_append ..)

lemma staysIn_directory_of_files {ext' : String} (hdir : dir ∈ dirs) (hext : ext ∈ extensions)
    (hext' : ext' ∈ extensions) (hne : ext ≠ ext')
    (h : Path.resolve cwd e.base <+: Path.resolve cwd (e.pathIn dir (plan.planId ++ ext)))
    (h' : Path.resolve cwd e.base <+: Path.resolve cwd (e.pathIn dir (plan.planId ++ ext'))) :
    Path.StaysIn (Path.resolve cwd e.base) (Path.directory (asBytes plan.target)) := by
  rw [resolve_file e plan hdir hext, prefix_concat_iff] at h
  rw [resolve_file e plan hdir hext', prefix_concat_iff] at h'
  rw [← Path.isPrefix_resolve_child_iff _ (asBytes dir)]
  rcases h with h | h
  · rcases h' with h' | h'
    · have hnam := append_cancel_left (h.symm.trans h')
      rw [cons.injEq] at hnam
      have htai := append_cancel_left (append_cancel_left hnam.1)
      exact absurd (Security.asBytes_injective htai) hne
    · exact h'
  · exact h

lemma withExtension_stagingPath :
    Path.withExtension (e.stagingPath plan.planId) (asBytes "tmp") =
      e.pathIn "staging" (plan.planId ++ ".tmp") := by
  have hat : asBytes s!"@{plan.timestampMs}" ≠ [] := by
    rw [show s!"@{plan.timestampMs}" = "@" ++ toString plan.timestampMs from rfl, asBytes_append]
    exact append_ne_nil_of_left_ne_nil (by decide) _
  have hid : asBytes plan.planId = asBytes plan.target ++ asBytes s!"@{plan.timestampMs}" := by
    rw [← asBytes_append]
    exact congrArg asBytes (String.append_assoc ..)
  have hne : asBytes plan.planId ≠ [] := by
    rw [hid]
    exact append_ne_nil_of_right_ne_nil _ hat
  have hlast : Path.lastPiece (e.pathIn "staging" plan.planId) ≠ [] := by
    rw [pathIn, hid]
    obtain ⟨start, hsta⟩ := Path.exists_join_append (Path.join e.base (asBytes "staging"))
      (asBytes plan.target) (asBytes s!"@{plan.timestampMs}")
    rw [hsta, Path.lastPiece_append _ (not_mem_time plan (by decide) (by decide) (by decide))]
    exact append_ne_nil_of_right_ne_nil _ hat
  have hext (ext : String) : e.pathIn "staging" (plan.planId ++ ext) =
      e.pathIn "staging" plan.planId ++ asBytes ext := by
    rw [pathIn, pathIn, asBytes_append, Path.join_append _ hne]
  show Path.withExtension (e.pathIn "staging" (plan.planId ++ ".bin")) _ = _
  rw [hext, hext]
  exact Path.withExtension_append hlast (by decide) (by decide) (by decide) (by decide) (by decide)

def IsFile (path : OsStr) : Prop :=
  ∃ dir ∈ dirs, path = e.pathIn dir plan.target ∨
    ∃ ext ∈ extensions, path = e.pathIn dir (plan.planId ++ ext)

def OfPlan : FsCall → Prop
  | .read path => IsFile e plan path
  | .write path _ => IsFile e plan path
  | .rename src dst => IsFile e plan src ∧ IsFile e plan dst
  | .copy src dst => IsFile e plan src ∧ IsFile e plan dst
  | .exists _ => True
  | .createDirAll _ => True

end DiskApplyEngine

namespace Disk

variable {P : FsCall → Prop} {α : Type}

lemma preserves_orFail {I : List FsCall → Prop} (operation : String) (r : Except String α) :
    Preserves I (orFail operation r) := by
  cases r with
  | ok a => exact preserves_pure a
  | error message => exact preserves_fail _

lemma preserves_ioCall (fs : DiskFs) (operation : String) (path : OsStr) {c : FsCall}
    (result : c.Answer → Except String α) (h : P c) :
    Preserves (All P) (ioCall fs operation path c result) := by
  refine (preserves_fail _).ite ?_
  exact (preserves_call fs fun _ hlog => hlog.concat h).bind fun _ => preserves_orFail operation _

lemma preserves_pathExists (fs : DiskFs) (path : OsStr) (h : P (.exists path)) :
    Preserves (All P) (pathExists fs path) :=
  (preserves_pure _).ite (preserves_call fs fun _ hlog => hlog.concat h)

lemma preserves_createParent (fs : DiskFs) (path : OsStr) (h : ∀ dir, P (.createDirAll dir)) :
    Preserves (All P) (createParent fs path) := by
  unfold createParent
  split
  · exact preserves_pure _
  · exact (preserves_pure _).ite (preserves_ioCall fs _ _ _ (h _))

end Disk

namespace DiskApplyEngine

variable (e : DiskApplyEngine) (plan : UpdatePlan)

lemma preserves_ifExists (fs : DiskFs) (path : OsStr) (err : DiskApplyError)
    {k : DiskCommand DiskEngineAudit} (hk : Preserves (All (OfPlan e plan)) k) :
    Preserves (All (OfPlan e plan)) (ifExists fs path err k) :=
  (Disk.preserves_pathExists fs path trivial).bind fun _ => hk.ite (preserves_fail _)

variable {dir : String} {path : OsStr}

lemma isFile_target (hdir : dir ∈ dirs) :
    IsFile e plan (e.pathIn dir plan.target) := ⟨dir, hdir, .inl rfl⟩

lemma isFile_file {ext : String} (hdir : dir ∈ dirs) (hext : ext ∈ extensions) :
    IsFile e plan (e.pathIn dir (plan.planId ++ ext)) := ⟨dir, hdir, .inr ⟨ext, hext, rfl⟩⟩

/-- **The paths of a step.** -/
theorem preserves_runStep (sha256Inline : List UInt8 → String) (fs : DiskFs) (step : ApplyStep) :
    Preserves (All (OfPlan e plan)) (e.runStep sha256Inline fs step plan) := by
  have hpay : IsFile e plan (e.payloadPath plan.planId) :=
    isFile_file e plan (by decide) (by decide)
  have hsta : IsFile e plan (e.stagingPath plan.planId) :=
    isFile_file e plan (by decide) (by decide)
  have hstag : IsFile e plan (e.stagedPath plan.planId) :=
    isFile_file e plan (by decide) (by decide)
  have hhash : IsFile e plan (e.hashPath plan.planId) :=
    isFile_file e plan (by decide) (by decide)
  have htmp : IsFile e plan (Path.withExtension (e.stagingPath plan.planId) (asBytes "tmp")) := by
    rw [withExtension_stagingPath]
    exact isFile_file e plan (by decide) (by decide)
  have hact : IsFile e plan (e.activePath plan) := isFile_target e plan (by decide)
  have hsna : IsFile e plan (e.snapshotPath plan) := isFile_target e plan (by decide)
  have hpar (path : OsStr) : Preserves (All (OfPlan e plan)) (Disk.createParent fs path) :=
    Disk.preserves_createParent fs path fun _ => trivial
  cases step with
  | download =>
    refine preserves_ifExists e plan fs _ _ ?_
    refine (Disk.preserves_ioCall fs _ _ _ hpay).bind fun bytes => ?_
    refine Preserves.bind ?_ fun _ => preserves_pure _
    exact (Disk.preserves_ioCall fs _ _ _ htmp).bind fun _ =>
      Disk.preserves_ioCall fs _ _ _ ⟨htmp, hsta⟩
  | verify =>
    refine preserves_ifExists e plan fs _ _ ?_
    refine (Disk.preserves_ioCall fs _ _ _ hsta).bind fun bytes => ?_
    refine preserves_ifExists e plan fs _ _ ?_
    refine (Disk.preserves_ioCall fs _ _ _ hhash).bind fun s => ?_
    exact (Disk.preserves_orFail _ _).bind fun _ => (preserves_fail _).ite (preserves_pure _)
  | stage =>
    refine preserves_ifExists e plan fs _ _ ?_
    refine Preserves.bind ?_ fun _ => preserves_pure _
    exact (hpar _).bind fun _ => Disk.preserves_ioCall fs _ _ _ ⟨hsta, hstag⟩
  | snapshot =>
    refine (Disk.preserves_pathExists fs _ trivial).bind fun _ => ?_
    refine Preserves.ite ?_ (preserves_pure _)
    refine Preserves.bind ?_ fun _ => preserves_pure _
    exact (hpar _).bind fun _ => Disk.preserves_ioCall fs _ _ _ ⟨hact, hsna⟩
  | apply =>
    refine preserves_ifExists e plan fs _ _ ?_
    refine Preserves.bind ?_ fun _ => preserves_pure _
    exact (hpar _).bind fun _ => Disk.preserves_ioCall fs _ _ _ ⟨hstag, hact⟩
  | reboot => exact preserves_pure _

lemma zero_mem_pathIn {file : String} (h : 0 ∈ asBytes file) (dir : String) :
    0 ∈ e.pathIn dir file := Path.mem_join_right h _

lemma runStep_of_nul (hnul : 0 ∈ asBytes plan.target) (sha256Inline : List UInt8 → String)
    (fs : DiskFs) (step : ApplyStep) : (e.runStep sha256Inline fs step plan []).2 = [] := by
  have hfile (dir ext : String) : Disk.pathExists fs (e.pathIn dir (plan.planId ++ ext)) =
      pure false := by
    have h : 0 ∈ asBytes (plan.planId ++ ext) := by
      rw [asBytes_planId]
      exact mem_append_left _ hnul
    exact if_pos (zero_mem_pathIn e h dir)
  have htgt (dir : String) : Disk.pathExists fs (e.pathIn dir plan.target) = pure false :=
    if_pos (zero_mem_pathIn e hnul dir)
  have hif (dir ext : String) (err : DiskApplyError) (k : DiskCommand DiskEngineAudit) :
      (ifExists fs (e.pathIn dir (plan.planId ++ ext)) err k []).2 = [] := by
    rw [ifExists, hfile]
    rfl
  cases step with
  | download => exact hif "payloads" ".bin" _ _
  | verify => exact hif "staging" ".bin" _ _
  | stage => exact hif "staging" ".bin" _ _
  | snapshot =>
    show (DiskApplyEngine.snapshot e fs plan []).2 = []
    rw [DiskApplyEngine.snapshot, activePath, htgt]
    rfl
  | apply => exact hif "staging" ".staged" _ _
  | reboot => rfl

def acceptingFs : DiskFs := fun _ c =>
  match c with
  | .exists _ => true
  | .read _ => .ok []
  | .write _ _ => .ok ()
  | .rename _ _ => .ok ()
  | .copy _ _ => .ok ()
  | .createDirAll _ => .ok ()

lemma zero_not_mem_pathIn {file : String} (hdir : dir ∈ dirs) (hfile : 0 ∉ asBytes file) :
    0 ∉ e.pathIn dir file := by
  have hno : ∀ dir ∈ dirs, 0 ∉ asBytes dir := by decide
  exact Path.not_mem_join (Path.not_mem_join e.nulFree (by decide) (hno dir hdir)) (by decide) hfile

lemma zero_not_mem_file (hnul : 0 ∉ asBytes plan.target) {ext : String} (hdir : dir ∈ dirs)
    (hext : ext ∈ extensions) : 0 ∉ e.pathIn dir (plan.planId ++ ext) := by
  have hno : ∀ ext ∈ extensions, 0 ∉ asBytes ext := by decide
  refine zero_not_mem_pathIn e hdir ?_
  rw [asBytes_planId, fileTail, mem_append, mem_append, not_or, not_or]
  exact ⟨hnul, not_mem_time plan (by decide) (by decide) (by decide), hno ext hext⟩

lemma pathExists_acceptingFs (hnul : 0 ∉ path) (log : List FsCall) :
    Disk.pathExists acceptingFs path log = (.ok true, log ++ [.exists path]) := by
  rw [Disk.pathExists, if_neg hnul]
  rfl

lemma ioCall_eq_ok {α : Type} (fs : DiskFs) (c : FsCall) (result : c.Answer → Except String α)
    (hnul : 0 ∉ path) {log : List FsCall} {a : α} (hres : result (fs log c) = .ok a)
    (operation : String) : Disk.ioCall fs operation path c result log = (.ok a, log ++ [c]) := by
  rw [Disk.ioCall, if_neg hnul, bind_apply, call]
  dsimp only
  rw [hres]
  rfl

lemma createParent_acceptingFs (hnul : 0 ∉ path) (log : List FsCall) :
    ∃ log', Disk.createParent acceptingFs path log = (.ok (), log') := by
  cases hdir : Path.parent path with
  | none => exact ⟨log, by simp [Disk.createParent, hdir]⟩
  | some dir =>
    have hdirNul : 0 ∉ dir := fun h => hnul ((Path.parent_isPrefix hdir).subset h)
    simp only [Disk.createParent, hdir, Disk.createDirAll]
    split_ifs
    · exact ⟨_, rfl⟩
    · exact ⟨_, ioCall_eq_ok acceptingFs (.createDirAll dir) id hdirNul rfl _⟩

lemma download_acceptingFs (hnul : 0 ∉ asBytes plan.target) :
    .rename (e.pathIn "staging" (plan.planId ++ ".tmp"))
        (e.pathIn "staging" (plan.planId ++ ".bin")) ∈
      (e.download acceptingFs plan []).2 := by
  have hpay : 0 ∉ e.payloadPath plan.planId :=
    zero_not_mem_file e plan hnul (by decide) (by decide)
  have hbin : 0 ∉ e.stagingPath plan.planId := zero_not_mem_file e plan hnul (by decide) (by decide)
  have htmp : 0 ∉ e.pathIn "staging" (plan.planId ++ ".tmp") :=
    zero_not_mem_file e plan hnul (by decide) (by decide)
  have hboth : 0 ∉ e.pathIn "staging" (plan.planId ++ ".tmp") ++ e.stagingPath plan.planId := by
    simp [htmp, hbin]
  have hread (log : List FsCall) : Disk.readFile acceptingFs (e.payloadPath plan.planId) log =
      (.ok [], log ++ [.read (e.payloadPath plan.planId)]) :=
    ioCall_eq_ok acceptingFs (.read _) id hpay rfl _
  have hwr (log : List FsCall) : Disk.write acceptingFs
      (e.pathIn "staging" (plan.planId ++ ".tmp")) [] log =
        (.ok (), log ++ [.write (e.pathIn "staging" (plan.planId ++ ".tmp")) []]) :=
    ioCall_eq_ok acceptingFs (.write _ _) id htmp rfl _
  have hren (log : List FsCall) : Disk.rename acceptingFs
      (e.pathIn "staging" (plan.planId ++ ".tmp")) (e.stagingPath plan.planId) log =
        (.ok (), log ++ [.rename (e.pathIn "staging" (plan.planId ++ ".tmp"))
          (e.stagingPath plan.planId)]) :=
    ioCall_eq_ok acceptingFs (.rename _ _) id hboth rfl _
  simp only [download, ifExists, Disk.writeFile, withExtension_stagingPath, bind_apply,
    pathExists_acceptingFs hpay, if_true, hread, hwr, hren]
  exact mem_append_right _ (mem_singleton_self _)

lemma apply_acceptingFs (hnul : 0 ∉ asBytes plan.target) :
    .rename (e.pathIn "staging" (plan.planId ++ ".staged")) (e.pathIn "active" plan.target) ∈
      (e.apply acceptingFs plan []).2 := by
  have hsta : 0 ∉ e.stagedPath plan.planId :=
    zero_not_mem_file e plan hnul (by decide) (by decide)
  have hact : 0 ∉ e.activePath plan := zero_not_mem_pathIn e (by decide) hnul
  have hboth : 0 ∉ e.stagedPath plan.planId ++ e.activePath plan := by simp [hsta, hact]
  obtain ⟨log', hpar⟩ := createParent_acceptingFs hact [.exists (e.stagedPath plan.planId)]
  have hren : Disk.rename acceptingFs (e.stagedPath plan.planId) (e.activePath plan) log' =
      (.ok (), log' ++ [.rename (e.stagedPath plan.planId) (e.activePath plan)]) :=
    ioCall_eq_ok acceptingFs (.rename _ _) id hboth rfl _
  simp only [apply, ifExists, Disk.renameFile, bind_apply, pathExists_acceptingFs hsta,
    nil_append, if_true, hpar, hren]
  exact mem_append_right _ (mem_singleton_self _)

/-- What the call reads, writes, copies or renames is in the base directory. -/
def Confined (cwd : List OsStr) : FsCall → Prop
  | .read path => Path.resolve cwd e.base <+: Path.resolve cwd path
  | .write path _ => Path.resolve cwd e.base <+: Path.resolve cwd path
  | .rename src dst =>
    Path.resolve cwd e.base <+: Path.resolve cwd src ∧
      Path.resolve cwd e.base <+: Path.resolve cwd dst
  | .copy src dst =>
    Path.resolve cwd e.base <+: Path.resolve cwd src ∧
      Path.resolve cwd e.base <+: Path.resolve cwd dst
  | .exists _ => True
  | .createDirAll _ => True

instance (cwd : List OsStr) : DecidablePred (e.Confined cwd)
  | .read _ | .write _ _ | .rename _ _ | .copy _ _ => by unfold Confined; infer_instance
  | .exists _ | .createDirAll _ => .isTrue trivial

lemma confined_of_ofPlan {cwd : List OsStr}
    (htgt : Path.StaysIn (Path.resolve cwd e.base) (asBytes plan.target))
    (hdire : Path.StaysIn (Path.resolve cwd e.base) (Path.directory (asBytes plan.target)))
    {c : FsCall} (hc : OfPlan e plan c) : e.Confined cwd c := by
  have hfile {path : OsStr} (h : IsFile e plan path) :
      Path.resolve cwd e.base <+: Path.resolve cwd path := by
    obtain ⟨dir, hdir, rfl | ⟨ext, hext, rfl⟩⟩ := h
    · exact (isPrefix_resolve_target_iff e plan hdir cwd).mpr htgt
    · exact isPrefix_resolve_file e plan hdir hext hdire
  cases c with
  | read path => exact hfile hc
  | write path bytes => exact hfile hc
  | rename src dst => exact ⟨hfile hc.1, hfile hc.2⟩
  | copy src dst => exact ⟨hfile hc.1, hfile hc.2⟩
  | «exists» path => trivial
  | createDirAll path => trivial

lemma run_apply_snd (sha256Inline : List UInt8 → String) (fs : DiskFs) (step : ApplyStep)
    (log : List FsCall) :
    (e.run sha256Inline fs step plan log).2 = (e.runStep sha256Inline fs step plan log).2 := by
  rw [← mapError_apply_snd (fun err : DiskApplyError => err.intoApplyError step), run, bind_apply]
  rcases mapError (fun err : DiskApplyError => err.intoApplyError step)
    (e.runStep sha256Inline fs step plan) log with ⟨_ | _ | _, log'⟩
  · rfl
  · rfl
  · rfl

/-- **Confinement of the disk engine.**  Whatever the file system answers, what the steps of a plan
read, write, copy and rename is in the base directory iff the target of the plan and the directory
of the target stay in it, or the target contains a NUL and the engine finds no file. -/
theorem run_confined_iff (sha256Inline : List UInt8 → String) (cwd : List OsStr) :
    (∀ fs step, ∀ c ∈ (e.run sha256Inline fs step plan []).2, e.Confined cwd c) ↔
      0 ∈ asBytes plan.target ∨
        Path.StaysIn (Path.resolve cwd e.base) (asBytes plan.target) ∧
          Path.StaysIn (Path.resolve cwd e.base) (Path.directory (asBytes plan.target)) := by
  constructor
  · intro h
    by_cases hnul : 0 ∈ asBytes plan.target
    · exact .inl hnul
    right
    have hdow := h acceptingFs .download
    have happ := h acceptingFs .apply
    rw [run_apply_snd] at hdow happ
    obtain ⟨htmp, hbin⟩ := hdow _ (download_acceptingFs e plan hnul)
    obtain ⟨-, hact⟩ := happ _ (apply_acceptingFs e plan hnul)
    exact ⟨(isPrefix_resolve_target_iff e plan (by decide) cwd).mp hact,
      staysIn_directory_of_files e plan (by decide) (by decide) (by decide) (by decide) htmp hbin⟩
  · rintro (hnul | ⟨htgt, hdir⟩) fs step c hc
    · rw [run_apply_snd, runStep_of_nul e plan hnul] at hc
      exact nomatch hc
    · rw [run_apply_snd] at hc
      have hall := preserves_runStep e plan sha256Inline fs step [] (all_nil _)
      exact confined_of_ofPlan e plan htgt hdir (hall c hc)

def exampleEngine : DiskApplyEngine := ⟨asBytes "/var/aether", [], by decide⟩

/-- A target with a directory of its own stays in the base directory. -/
example : Path.StaysIn (Path.resolve [] exampleEngine.base) (asBytes "firmware/os-image") ∧
    Path.StaysIn (Path.resolve [] exampleEngine.base)
      (Path.directory (asBytes "firmware/os-image")) := by
  decide

/-- The active file of the target `../../../etc/passwd` is `/etc/passwd`. -/
theorem not_confined_parent_target :
    ¬ ∀ c ∈ (exampleEngine.run (fun _ => "") acceptingFs .apply
      ⟨"../../../etc/passwd", "1.0.0", 0⟩ []).2, exampleEngine.Confined [] c := by
  decide +kernel

end DiskApplyEngine

end Aether.Update
