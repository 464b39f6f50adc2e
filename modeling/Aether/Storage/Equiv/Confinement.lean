import Aether.Storage.Equiv.CreateDirAll
import Aether.Storage.FileManager

/-!
# Confinement to the workspace

A path that exists is replaced by its canonical path, which is below the root; for one that does not
exist the directory above it is below the root in the end.  But `fs::write` follows a dangling link
as the last component; `confined_iff` says that this is the only way out.
-/

namespace Aether.Storage

open Aether.Core Aether.Except FileTree Command List
open Security (asBytes)

/-- What `FileManager::new` leaves: the root is a directory. -/
structure Workspace where
  manager : FileManager
  tree : Tree
  root_dir : tree.node manager.root = some .dir

inductive FileOp where
  | read (path : String)
  | create (path content : String)
  | write (path content : String)
  | rename (source dest : String)

def FileOp.run (m : FileManager) : FileOp → DiskM Unit
  | .read path => do let _ ← m.read path
  | .create path content => do let _ ← m.create path content
  | .write path content => do let _ ← m.write path content
  | .rename source dest => do let _ ← m.rename source dest

/-- All that a successful operation accesses is in the workspace. -/
def FileOp.Confined (w : Workspace) (op : FileOp) : Prop :=
  ∀ d, op.run w.manager ⟨w.tree, []⟩ = (.ok (), d) → ∀ a ∈ d.log, Inside w.manager.root a

/-- The last component is a link in the workspace to a missing target outside it. -/
def LeadsOutside (w : Workspace) (userPath : String) : Prop :=
  ∃ pieces parent dir links name target outside missing,
    FileManager.checkText userPath = .ok pieces ∧
    (PathBuf.mk w.manager.root pieces).components = parent ++ [.name name] ∧
    resolve w.tree parent = .found dir links ∧ w.manager.root <+: dir ∧
    w.tree.node (dir ++ [name]) = some (.link target) ∧
    resolve w.tree (PathBuf.mk w.manager.root pieces).parts = .missing outside missing ∧
    ¬ w.manager.root <+: outside ++ [missing]

/-- The operation writes through a dangling link that leads outside. -/
def FileOp.Escapes (w : Workspace) : FileOp → Prop
  | .read _ => False
  | .create path _ => LeadsOutside w path
  | .write path _ => LeadsOutside w path
  | .rename _ _ => False

lemma namePath_injective : Function.Injective namePath := by
  intro l l' h
  exact map_injective_iff.mpr (fun _ _ h => Part.name.inj h) h

lemma namePath_le_iff {l l' : List String} : namePath l <+: namePath l' ↔ l <+: l' := by
  constructor
  · intro h
    obtain ⟨l'', hl'', heq⟩ := prefix_map_iff.mp h
    rwa [namePath_injective heq]
  · exact fun h => h.map _

lemma exists_namePath {pieces : List String} (h : .up ∉ pieces.filterMap piecePart) :
    ∃ names, pieces.filterMap piecePart = namePath names := by
  induction pieces with
  | nil => exact ⟨[], rfl⟩
  | cons piece pieces ih =>
    rw [filterMap_cons] at h ⊢
    cases hpc : piecePart piece with
    | none =>
      rw [hpc] at h
      exact ih h
    | some part =>
      rw [hpc] at h
      obtain ⟨names, hnam⟩ := ih fun hup => h (mem_cons_of_mem part hup)
      have hname : ∃ n, part = .name n := by
        unfold piecePart at hpc
        split_ifs at hpc
        · exact absurd (Option.some.inj hpc ▸ mem_cons_self) h
        · exact ⟨piece, (Option.some.inj hpc).symm⟩
      obtain ⟨n, rfl⟩ := hname
      exact ⟨n :: names, by rw [hnam, namePath, namePath, map_cons]⟩

@[simp] lemma parts_canonical (names : List String) :
    (PathBuf.canonical names).parts = namePath names := by
  simp [PathBuf.canonical, PathBuf.parts, PathBuf.components, PathBuf.endsInSlash,
    PathBuf.endsInDot]

@[simp] lemma components_canonical (names : List String) :
    (PathBuf.canonical names).components = namePath names := by
  simp [PathBuf.canonical, PathBuf.components]

variable {t : Tree} {p names : List String} {path : PathBuf} {k : Nat} {n : String}

lemma resolve_canonical (h : t.Physical p) : resolve t (namePath p) = .found p maxSymlinks := by
  have hroot : t.Physical ([] ++ p) := h
  exact walk_names hroot

lemma physical_of_resolve {parts : List (Part String)}
    (h : resolve t parts = .found p k) : t.Physical p :=
  physical_of_walk (physical_of_dir t.root) h

lemma parent_of_components (hpath : path.components = namePath (names ++ [n])) :
    path.parent = some (namePath names) := by
  rw [PathBuf.parent, hpath, if_neg (by simp)]
  simp [namePath]

lemma parts_eq (path : PathBuf) :
    path.parts = path.components ∨ path.parts = path.components ++ [.here] := by
  unfold PathBuf.parts
  split_ifs
  · exact .inr rfl
  · exact .inl (append_nil _)

lemma pathExists_of_dir (hpath : path.components = namePath names)
    (hdir : t.node names = some .dir) : pathExists t path.parts = true := by
  have hfnd := resolve_canonical (physical_of_dir hdir)
  refine pathExists_iff.mpr ⟨names, maxSymlinks, ?_⟩
  rcases parts_eq path with hpar | hpar <;> rw [hpar, hpath]
  · exact hfnd
  · rw [resolve, walk_append]
    rw [resolve] at hfnd
    rw [hfnd]
    exact (walk_here (isDirAt_iff.mpr hdir) []).trans (walk_nil _ _)

namespace FileManager

variable {m : FileManager} {userPath : String} {abs : PathBuf}

lemma checkText_eq_ok {pieces : List String} (h : checkText userPath = .ok pieces) :
    pieces = (userPath.toList.splitOn '/').map String.ofList ∧
      ∃ names, pieces.filterMap piecePart = namePath names := by
  unfold checkText at h
  split_ifs at h
  simp only at h
  split_ifs at h with hup
  cases h
  exact ⟨rfl, exists_namePath hup⟩

lemma checkExisting_eq_ok {canon : List String}
    (h : m.checkExisting userPath canon = .ok abs) : m.root <+: canon ∧ abs = .canonical canon := by
  unfold checkExisting at h
  split_ifs at h with hroot
  exact ⟨hroot, (Except.ok.inj h).symm⟩

variable {parts : List (Part String)}

lemma canonicalize_of_found (h : resolve t parts = .found p k) :
    canonicalize t parts = .ok p := by
  rw [canonicalize, h]

lemma canonicalOr_of_found (h : resolve t parts = .found p k) :
    canonicalOr t parts = namePath p := by
  rw [canonicalOr, canonicalize_of_found h]

lemma startsWith_namePath : startsWith (namePath names) m.root = true ↔ m.root <+: names := by
  rw [startsWith, decide_eq_true_iff]
  exact namePath_le_iff

lemma anchored_of_checkAncestors {rev : List String}
    (h : m.checkAncestors t userPath (namePath (n :: rev)) = .ok ()) : Anchored m.root t rev := by
  have hstep : ∀ {n : String} {rev : List String}, pathExists t (namePath rev.reverse) = true →
      m.checkAncestors t userPath (namePath (n :: rev)) = .ok () → Anchored m.root t rev := by
    intro n rev hexi h
    obtain ⟨p, k, hfnd⟩ := pathExists_iff.mp hexi
    rw [namePath, map_cons] at h
    unfold checkAncestors at h
    rw [← map_reverse, if_pos hexi, canonicalize_of_found hfnd] at h
    simp only at h
    split_ifs at h with hroot
    exact .here hfnd hroot
  induction rev generalizing n with
  | nil => exact hstep (pathExists_iff.mpr ⟨[], maxSymlinks, walk_nil _ _⟩) h
  | cons n' rev ih =>
    cases hexi : pathExists t (namePath (n' :: rev).reverse) with
    | true => exact hstep hexi h
    | false =>
      rw [namePath, map_cons] at h
      unfold checkAncestors at h
      rw [← map_reverse, if_neg (by rw [hexi]; decide)] at h
      exact .above hexi (ih h)

lemma anchored_of_checkParent {joined : PathBuf}
    (hjoi : joined.components = namePath (names ++ [n]))
    (h : m.checkParent t userPath joined = .ok ()) : Anchored m.root t names.reverse := by
  unfold checkParent at h
  rw [parent_of_components hjoi] at h
  simp only at h
  split_ifs at h with hexi hsta
  · obtain ⟨p, k, hfnd⟩ := pathExists_iff.mp hexi
    rw [canonicalOr_of_found hfnd] at hsta
    have hroot : m.root <+: p := startsWith_namePath.mp (by simpa using hsta)
    exact .here (by rwa [reverse_reverse]) hroot
  · obtain ⟨_, -, hanc⟩ := bind_eq_ok_iff.mp h
    rcases eq_nil_or_concat names with rfl | ⟨names', n', rfl⟩
    · exact absurd (pathExists_iff.mpr ⟨[], maxSymlinks, walk_nil _ _⟩) hexi
    · rw [concat_eq_append] at hexi hanc ⊢
      rw [← map_reverse, reverse_append, reverse_singleton, singleton_append]
        at hanc
      rw [reverse_append, reverse_singleton, singleton_append]
      refine .above ?_ (anchored_of_checkAncestors hanc)
      rw [reverse_cons, reverse_reverse]
      exact Bool.eq_false_iff.mpr hexi

lemma validateAndResolve_eq_ok (hroot : t.node m.root = some .dir)
    (h : m.validateAndResolve t userPath = .ok abs) :
    ∃ pieces, checkText userPath = .ok pieces ∧
      ((∃ p k, resolve t (PathBuf.mk m.root pieces).parts = .found p k ∧ m.root <+: p ∧
          abs = .canonical p) ∨
        (pathExists t (PathBuf.mk m.root pieces).parts = false ∧ abs = ⟨m.root, pieces⟩ ∧
          ∃ names n, (PathBuf.mk m.root pieces).components = namePath (names ++ [n]) ∧
            Anchored m.root t names.reverse)) := by
  unfold validateAndResolve at h
  obtain ⟨pieces, hpcs, h⟩ := bind_eq_ok_iff.mp h
  refine ⟨pieces, hpcs, ?_⟩
  simp only at h
  split_ifs at h with hexi
  · obtain ⟨p, k, hfnd⟩ := pathExists_iff.mp hexi
    rw [canonicalize_of_found hfnd] at h
    obtain ⟨hin, rfl⟩ := checkExisting_eq_ok h
    exact .inl ⟨p, k, hfnd, hin, rfl⟩
  · obtain ⟨_, hpar, h⟩ := bind_eq_ok_iff.mp h
    obtain ⟨_, -, h⟩ := bind_eq_ok_iff.mp h
    cases h
    refine .inr ⟨Bool.eq_false_iff.mpr hexi, rfl, ?_⟩
    obtain ⟨-, rest, hrest⟩ := checkText_eq_ok hpcs
    have hcomp : (PathBuf.mk m.root pieces).components = namePath (m.root ++ rest) := by
      rw [PathBuf.components, hrest, ← map_append]
    rcases eq_nil_or_concat rest with rfl | ⟨rest', n, rfl⟩
    · -- then the path is the root, which exists
      rw [append_nil] at hcomp
      exact absurd (pathExists_of_dir hcomp hroot) hexi
    · have hlast : (PathBuf.mk m.root pieces).components = namePath (m.root ++ rest' ++ [n]) := by
        rw [hcomp, concat_eq_append, append_assoc]
      exact ⟨m.root ++ rest', n, hlast, anchored_of_checkParent hlast hpar⟩

end FileManager

variable {α : Type} {op : Disk → Except Errno α × Disk} {onError : Errno → AetherError}
  {d d' d₁ : Disk} {a : α} {bytes : List UInt8} {root : List String}

lemma sysCall_eq_ok (h : sysCall op onError d = (.ok a, d')) : op d = (.ok a, d') := by
  unfold sysCall at h
  rcases hop : op d with ⟨e | a', d₁⟩ <;> rw [hop] at h
  · cases h
  · obtain ⟨ha, rfl⟩ := Prod.mk.inj h
    rw [Outcome.ok.inj ha]

lemma sysCall_of_ok (h : op d = (.ok a, d')) : sysCall op onError d = (.ok a, d') := by
  rw [sysCall, h]

lemma lift_eq_ok {r : Except AetherError α} (h : lift r d = (.ok a, d')) :
    r = .ok a ∧ d' = d := by
  cases r with
  | error e => cases h
  | ok a' =>
    obtain ⟨ha, rfl⟩ := Prod.mk.inj h
    exact ⟨by rw [Outcome.ok.inj ha], rfl⟩

lemma validated_bind_eq_ok {m : FileManager} {userPath : String} {k : PathBuf → DiskM α}
    (h : (m.validated userPath >>= k) d = (.ok a, d')) :
    ∃ abs, m.validateAndResolve d.tree userPath = .ok abs ∧ k abs d = (.ok a, d') := by
  obtain ⟨abs, d₁, habs, hk⟩ := bind_apply_eq_ok_iff.mp h
  have hlift : lift (m.validateAndResolve d.tree userPath) d = (.ok abs, d₁) := habs
  obtain ⟨hval, rfl⟩ := lift_eq_ok hlift
  exact ⟨abs, hval, hk⟩

lemma sysCall_pure_eq_ok {op : Disk → Except Errno Unit × Disk} {b : α}
    (h : (sysCall op onError >>= fun _ => pure b) d = (.ok a, d')) : op d = (.ok (), d') := by
  obtain ⟨_, d₁, hcall, hb⟩ := bind_apply_eq_ok_iff.mp h
  rw [pure_apply, Prod.mk.injEq] at hb
  rw [← hb.2]
  exact sysCall_eq_ok hcall

lemma ite_fail_eq_ok {c : Bool} {e : AetherError} {x : DiskM α}
    (h : (if c then fail e else x) d = (.ok a, d')) : c = false ∧ x d = (.ok a, d') := by
  cases c with
  | false => exact ⟨rfl, h⟩
  | true => cases h

lemma write_eq_ok {parts : List (Part String)} (h : Disk.write parts bytes d = (.ok (), d')) :
    ∃ p a, d'.log = d.log ++ [a] ∧ a.paths = [p] ∧
      ((∃ k, resolve d.tree parts = .found p k) ∨
        ∃ dir n, resolve d.tree parts = .missing dir n ∧ p = dir ++ [n]) := by
  unfold Disk.write at h
  cases hwri : d.tree.writeFile maxSymlinks parts bytes with
  | error e =>
    rw [hwri] at h
    cases h
  | ok result =>
    obtain ⟨p, isNew, t'⟩ := result
    rw [hwri] at h
    cases h
    refine ⟨p, _, rfl, ?_, writeFile_eq_ok hwri⟩
    split_ifs <;> rfl

lemma walk_last_missing {dir : List String} {x : String} {tail : List (Part String)}
    (htail : tail = [] ∨ tail = [.here]) (hdir : t.isDirAt p = true)
    (h : t.walk k p (.name n :: tail) = .missing dir x) :
    (dir = p ∧ x = n) ∨ ∃ target, t.node (p ++ [n]) = some (.link target) := by
  cases hnode : t.node (p ++ [n]) with
  | none =>
    rw [walk_name_none hdir hnode] at h
    split_ifs at h
    cases h
    exact .inl ⟨rfl, rfl⟩
  | some nd =>
    cases hlink : nd.isLink with
    | true =>
      cases nd with
      | link target => exact .inr ⟨target, rfl⟩
      | file bytes => exact absurd hlink (by simp [TreeNode.isLink])
      | dir => exact absurd hlink (by simp [TreeNode.isLink])
    | false =>
      rw [walk_name hdir hnode hlink] at h
      rcases htail with rfl | rfl
      · rw [walk_nil] at h
        cases h
      · cases hlast : t.isDirAt (p ++ [n]) with
        | true =>
          rw [walk_here hlast, walk_nil] at h
          cases h
        | false =>
          rw [walk_not_dir hlast] at h
          cases h

lemma resolve_last (hpath : path.components = namePath (names ++ [n]))
    (hfnd : resolve t (namePath names) = .found p k) :
    ∃ tail, (tail = [] ∨ tail = [.here]) ∧ resolve t path.parts = t.walk k p (.name n :: tail) := by
  have hcomp : path.components = namePath names ++ [.name n] := by
    rw [hpath, namePath, map_append, map_singleton]
  rw [resolve] at hfnd
  rcases parts_eq path with hpar | hpar
  · refine ⟨[], .inl rfl, ?_⟩
    rw [hpar, hcomp, resolve, walk_append, hfnd]
    rfl
  · refine ⟨[.here], .inr rfl, ?_⟩
    rw [hpar, hcomp, append_assoc, resolve, walk_append, hfnd]
    rfl

lemma write_inside_or_outside {d₂ : Disk} (hnot : pathExists d.tree path.parts = false)
    (hpath : path.components = namePath (names ++ [n]))
    (hmade : Disk.DirsMade root names.reverse d (.ok ()) d₁)
    (hwr : Disk.write path.parts bytes d₁ = (.ok (), d₂)) :
    (∃ a, d₂.log = d₁.log ++ [a] ∧ Inside root a) ∨
      ∃ dir k target outside missing, resolve d.tree (namePath names) = .found dir k ∧
        root <+: dir ∧ d.tree.node (dir ++ [n]) = some (.link target) ∧
        resolve d.tree path.parts = .missing outside missing ∧ ¬ root <+: outside ++ [missing] := by
  obtain ⟨dir, k, hfnd, hin, hdir, hemp⟩ := hmade.made rfl
  rw [reverse_reverse] at hfnd
  obtain ⟨tail, htail, hlast⟩ := resolve_last hpath hfnd
  obtain ⟨p, a, hlog, hpat, hwhe⟩ := write_eq_ok hwr
  have hin' : root <+: dir ++ [n] := hin.trans (prefix_append dir [n])
  by_cases hp : root <+: p
  · exact .inl ⟨a, hlog, by simpa [Inside, hpat] using hp⟩
  · right
    rcases hemp with rfl | hemp
    · rcases hwhe with ⟨l, hfnd'⟩ | ⟨outside, missing, hmis, rfl⟩
      · rw [pathExists_iff.mpr ⟨p, l, hfnd'⟩] at hnot
        cases hnot
      · rcases walk_last_missing htail hdir (hlast.symm.trans hmis) with
          ⟨rfl, rfl⟩ | ⟨target, hlink⟩
        · exact absurd hin' hp
        · exact ⟨dir, k, target, outside, missing, hfnd, hin, hlink, hmis, hp⟩
    · -- the directory was made now, so there is no link in it
      rw [walk_name_none hdir (hemp n)] at hlast
      rcases hwhe with ⟨l, hfnd'⟩ | ⟨outside, missing, hmis, rfl⟩
      · rw [hfnd'] at hlast
        split_ifs at hlast
      · rw [hmis] at hlast
        split_ifs at hlast
        cases hlast
        exact absurd hin' hp

lemma dirsMade_of_createDirAll (hanc : Anchored root d.tree names.reverse)
    (h : Disk.createDirAll (namePath names) d = (.ok (), d₁)) :
    Disk.DirsMade root names.reverse d (.ok ()) d₁ := by
  have hmade := Disk.createDirAllRev_spec d hanc
  rw [Disk.createDirAll, ← map_reverse] at h
  rwa [h] at hmade

lemma createDirAll_of_dir (hfnd : resolve d.tree (namePath names) = .found p k)
    (hdir : d.tree.isDirAt p = true) : Disk.createDirAll (namePath names) d = (.ok (), d) := by
  rw [Disk.createDirAll, ← map_reverse]
  exact Disk.createDirAllRev_of_dir (by rwa [reverse_reverse]) hdir

lemma makeParent_canonical (hp : d.tree.Physical p)
    (h : FileManager.makeParent (.canonical p) d = (.ok (), d₁)) : d₁ = d := by
  rcases eq_nil_or_concat p with rfl | ⟨q, n, rfl⟩
  · exact (Prod.mk.inj h).2.symm
  · rw [concat_eq_append] at h hp
    obtain ⟨nd, hnode, -⟩ := hp
    have hdir : d.tree.node q = some .dir := d.tree.closed q n (by rw [hnode]; rfl)
    rw [FileManager.makeParent, parent_of_components (components_canonical _)] at h
    have hmade := sysCall_eq_ok h
    rw [createDirAll_of_dir (resolve_canonical (physical_of_dir hdir)) (isDirAt_iff.mpr hdir)]
      at hmade
    exact (Prod.mk.inj hmade).2.symm

section Operations

variable {w : Workspace} {pieces : List String} {path userPath : String} {m : FileManager}

lemma inside_of_made {rev : List String} {o : Except Errno Unit} {a : Access}
    (hmade : Disk.DirsMade root rev ⟨t, []⟩ o d) (hlog : d'.log = d.log ++ [a])
    (ha : Inside root a) : ∀ a' ∈ d'.log, Inside root a' := by
  obtain ⟨new, hnew, hin⟩ := hmade.log
  intro a' ha'
  rw [hlog, hnew, nil_append] at ha'
  rcases mem_append.mp ha' with ha' | ha'
  · exact hin a' ha'
  · rwa [mem_singleton.mp ha']

lemma overwrite_inside (hp : t.Physical p) (hin : root <+: p)
    (h : Disk.write (PathBuf.canonical p).parts bytes ⟨t, []⟩ = (.ok (), d)) :
    ∀ a ∈ d.log, Inside root a := by
  obtain ⟨q, a, hlog, hpat, hwhe⟩ := write_eq_ok h
  rw [parts_canonical] at hwhe
  have hres := resolve_canonical hp
  obtain rfl : p = q := by
    rcases hwhe with ⟨k, hfnd⟩ | ⟨dir, n, hmis, -⟩
    · exact (Walk.found.inj (hres.symm.trans hfnd)).1
    · cases (hres.symm.trans hmis)
  intro a' ha'
  rw [hlog, nil_append, mem_singleton] at ha'
  subst ha'
  simpa [Inside, hpat] using hin

lemma new_file_inside (hpath : ¬ LeadsOutside w path)
    (htext : FileManager.checkText path = .ok pieces)
    (hnot : pathExists w.tree (PathBuf.mk w.manager.root pieces).parts = false)
    (hcomp : (PathBuf.mk w.manager.root pieces).components = namePath (names ++ [n]))
    (hmade : Disk.DirsMade w.manager.root names.reverse ⟨w.tree, []⟩ (.ok ()) d)
    (hwr : Disk.write (PathBuf.mk w.manager.root pieces).parts bytes d = (.ok (), d')) :
    ∀ a ∈ d'.log, Inside w.manager.root a := by
  have hlast : (PathBuf.mk w.manager.root pieces).components = namePath names ++ [.name n] := by
    rw [hcomp, namePath, map_append, map_singleton]
  rcases write_inside_or_outside hnot hcomp hmade hwr with
    ⟨a, hlog, ha⟩ | ⟨dir, k, target, outside, missing, hfnd, hdir, hlink, hmis, hout⟩
  · exact inside_of_made hmade hlog ha
  · exact absurd ⟨pieces, namePath names, dir, k, n, target, outside, missing, htext, hlast, hfnd,
      hdir, hlink, hmis, hout⟩ hpath

lemma discard_eq_ok {x : DiskM α} (h : (do let _ ← x : DiskM Unit) d = (.ok (), d')) :
    ∃ a, x d = (.ok a, d') := by
  obtain ⟨a, d₁, hx, hd⟩ := bind_apply_eq_ok_iff.mp h
  rw [pure_apply, Prod.mk.injEq] at hd
  exact ⟨a, hd.2 ▸ hx⟩

lemma read_confined (path : String) : (FileOp.read path).Confined w := by
  intro d h
  rw [FileOp.run] at h
  obtain ⟨text, h⟩ := discard_eq_ok h
  rw [FileManager.read] at h
  obtain ⟨abs, hval, h⟩ := validated_bind_eq_ok h
  rw [peek_bind_apply, bind_apply_eq_ok_iff] at h
  obtain ⟨_, d₃, hche, h⟩ := h
  obtain ⟨hrea, rfl⟩ := lift_eq_ok hche
  obtain ⟨bytes, d₄, hread, h⟩ := bind_apply_eq_ok_iff.mp h
  obtain ⟨-, rfl⟩ := lift_eq_ok h
  obtain ⟨pieces, -, hcas⟩ := FileManager.validateAndResolve_eq_ok w.root_dir hval
  rcases hcas with ⟨p, k, hfnd, hin, rfl⟩ | ⟨hnot, rfl, -⟩
  · have hres := resolve_canonical (physical_of_resolve hfnd)
    have hop := sysCall_eq_ok hread
    unfold Disk.read at hop
    rw [parts_canonical, hres] at hop
    simp only at hop
    split at hop
    · cases hop
      intro a ha
      obtain rfl := mem_singleton.mp ha
      simpa [Inside, Access.paths] using hin
    · cases hop
  · -- what does not exist is not read
    unfold FileManager.checkReadable at hrea
    split at hrea
    case h_1 p k hfnd =>
      rw [pathExists_iff.mpr ⟨p, k, hfnd⟩] at hnot
      cases hnot
    · cases hrea

variable (content : String)

lemma write_confined (hpath : ¬ LeadsOutside w path) :
    (FileOp.write path content).Confined w := by
  intro d h
  rw [FileOp.run] at h
  obtain ⟨result, h⟩ := discard_eq_ok h
  rw [FileManager.write] at h
  obtain ⟨abs, hval, h⟩ := validated_bind_eq_ok h
  obtain ⟨_, d₁, hpar, h⟩ := bind_apply_eq_ok_iff.mp h
  have hwr := sysCall_pure_eq_ok h
  obtain ⟨pieces, htext, hcas⟩ := FileManager.validateAndResolve_eq_ok w.root_dir hval
  rcases hcas with ⟨p, k, hfnd, hin, rfl⟩ | ⟨hnot, rfl, names, n, hcomp, hanc⟩
  · -- the file exists: nothing is made above it
    obtain rfl := makeParent_canonical (physical_of_resolve hfnd) hpar
    exact overwrite_inside (physical_of_resolve hfnd) hin hwr
  · rw [FileManager.makeParent, parent_of_components hcomp] at hpar
    have hmade := dirsMade_of_createDirAll hanc (sysCall_eq_ok hpar)
    exact new_file_inside hpath htext hnot hcomp hmade hwr

lemma pathExists_canonical (hp : t.Physical p) :
    pathExists t (PathBuf.canonical p).parts = true := by
  rw [parts_canonical]
  exact pathExists_iff.mpr ⟨p, maxSymlinks, resolve_canonical hp⟩

lemma create_confined (hpath : ¬ LeadsOutside w path) :
    (FileOp.create path content).Confined w := by
  intro d h
  rw [FileOp.run] at h
  obtain ⟨result, h⟩ := discard_eq_ok h
  rw [FileManager.create] at h
  obtain ⟨abs, hval, h⟩ := validated_bind_eq_ok h
  rw [peek_bind_apply] at h
  obtain ⟨hnew, h⟩ := ite_fail_eq_ok h
  obtain ⟨_, d₁, hpar, h⟩ := bind_apply_eq_ok_iff.mp h
  have hwr := sysCall_pure_eq_ok h
  obtain ⟨pieces, htext, hcas⟩ := FileManager.validateAndResolve_eq_ok w.root_dir hval
  rcases hcas with ⟨p, k, hfnd, hin, rfl⟩ | ⟨hnot, rfl, names, n, hcomp, hanc⟩
  · -- `create` refuses what exists
    rw [pathExists_canonical (physical_of_resolve hfnd)] at hnew
    cases hnew
  · rw [FileManager.createParent, parent_of_components hcomp] at hpar
    obtain ⟨_, d₂, hdirs, hpar⟩ := bind_apply_eq_ok_iff.mp hpar
    rw [peek_bind_apply] at hpar
    obtain ⟨-, rfl⟩ := lift_eq_ok hpar
    have hmade := dirsMade_of_createDirAll hanc (sysCall_eq_ok hdirs)
    exact new_file_inside hpath htext hnot hcomp hmade hwr

lemma lastEntry_of_physical {dir : List String} (hp : t.Physical p)
    (h : t.lastEntry maxSymlinks (namePath p) .resourceBusy = .ok (dir, n)) : dir ++ [n] = p := by
  obtain ⟨parts, k, hpar, hwalk⟩ := lastEntry_eq_ok h
  obtain ⟨q, ns, rfl, rfl, hns⟩ := map_eq_append_iff.mp hpar
  obtain rfl : ns = [n] := namePath_injective hns
  obtain ⟨nd, hnode, -⟩ := hp
  have hdir : t.node q = some .dir := t.closed q n (by rw [hnode]; rfl)
  have hfnd := resolve_canonical (physical_of_dir hdir)
  cases hfnd.symm.trans hwalk
  rfl

lemma rename_inside {path : PathBuf} {d₁ d₂ : Disk} (hp : d.tree.Physical p)
    (hin : root <+: p) (hpath : path.components = namePath (names ++ [n]))
    (hmade : Disk.DirsMade root names.reverse d (.ok ()) d₁)
    (hren : Disk.rename (.canonical p) path d₁ = (.ok (), d₂)) :
    ∃ a, d₂.log = d₁.log ++ [a] ∧ Inside root a := by
  have hp₁ : d₁.tree.Physical p := by
    obtain ⟨nd, hnode, hlink⟩ := hp
    exact ⟨nd, hmade.larger p nd hnode, hlink⟩
  unfold Disk.rename at hren
  simp only [parts_canonical] at hren
  split at hren
  case h_2 => cases hren
  case h_1 from' to' t' hok =>
    cases hren
    obtain ⟨⟨sourceDir, sourceName, hsou, rfl⟩, dir, name, hdest, rfl⟩ := rename_eq_ok hok
    have hfrom : root <+: sourceDir ++ [sourceName] := by
      rw [lastEntry_of_physical hp₁ hsou]
      exact hin
    -- the directory of the new name is the one that was made
    have hto : root <+: dir ++ [name] := by
      split_ifs at hdest
      · obtain ⟨parts, k, heq, -⟩ := lastEntry_eq_ok hdest
        exact absurd (append_inj' heq rfl).2 (by simp)
      · obtain ⟨q, k, hfnd, hq, -, -⟩ := hmade.made rfl
        rw [reverse_reverse, resolve] at hfnd
        rw [append_nil, hpath, namePath, map_append, map_singleton, lastEntry_name,
          hfnd] at hdest
        cases hdest
        exact hq.trans (prefix_append _ _)
    refine ⟨_, rfl, ?_⟩
    simp [Inside, Access.paths, hfrom, hto]

lemma rename_confined (source dest : String) : (FileOp.rename source dest).Confined w := by
  intro d h
  rw [FileOp.run] at h
  obtain ⟨result, h⟩ := discard_eq_ok h
  rw [FileManager.rename] at h
  obtain ⟨absFrom, hvalidFrom, h⟩ := validated_bind_eq_ok h
  rw [peek_bind_apply] at h
  obtain ⟨hexi, h⟩ := ite_fail_eq_ok h
  obtain ⟨absTo, hvalidTo, h⟩ := validated_bind_eq_ok h
  rw [peek_bind_apply] at h
  obtain ⟨hfree, h⟩ := ite_fail_eq_ok h
  obtain ⟨_, d₁, hpar, h⟩ := bind_apply_eq_ok_iff.mp h
  have hren := sysCall_pure_eq_ok h
  obtain ⟨pieces, -, hcas⟩ := FileManager.validateAndResolve_eq_ok w.root_dir hvalidFrom
  rcases hcas with ⟨p, k, hfnd, hin, rfl⟩ | ⟨hnot, rfl, -⟩
  swap
  · -- the source has to exist
    rw [hnot] at hexi
    cases hexi
  obtain ⟨pieces', -, hcas⟩ := FileManager.validateAndResolve_eq_ok w.root_dir hvalidTo
  rcases hcas with ⟨p', k', hfnd', -, rfl⟩ | ⟨-, rfl, names, n, hcomp, hanc⟩
  · -- and the target must not
    rw [pathExists_canonical (physical_of_resolve hfnd')] at hfree
    cases hfree
  rw [FileManager.makeParent, parent_of_components hcomp] at hpar
  have hmade := dirsMade_of_createDirAll hanc (sysCall_eq_ok hpar)
  obtain ⟨a, hlog, ha⟩ :=
    rename_inside (physical_of_resolve hfnd) hin hcomp hmade hren
  exact inside_of_made hmade hlog ha

lemma checkPrefix_eq_ok (hpcs : pieces ≠ []) :
    m.checkPrefix userPath ⟨m.root, pieces⟩ = .ok () := by
  refine if_pos ?_
  unfold PathBuf.display
  rw [if_neg hpcs]
  simp only
  split_ifs with hroot
  · rw [hroot, displayNames]
    simp
  · rw [String.toList_append, String.toList_append, append_assoc]
    exact prefix_append _ _

lemma runs_of_leadsOutside (h : LeadsOutside w path) (bytes : List UInt8) :
    ∃ abs outside t', ¬ w.manager.root <+: outside ∧
      pathExists w.tree abs.parts = false ∧
      w.manager.validated path ⟨w.tree, []⟩ = (.ok abs, ⟨w.tree, []⟩) ∧
      w.manager.createParent path abs ⟨w.tree, []⟩ = (.ok (), ⟨w.tree, []⟩) ∧
      FileManager.makeParent abs ⟨w.tree, []⟩ = (.ok (), ⟨w.tree, []⟩) ∧
      Disk.write abs.parts bytes ⟨w.tree, []⟩ = (.ok (), ⟨t', [.created outside]⟩) := by
  obtain ⟨pieces, parent, p, k, n, target, outside, missing, htext, hlast, hfnd, hin, -,
    hmis, hout⟩ := h
  obtain ⟨hpcs, rest, hrest⟩ := FileManager.checkText_eq_ok htext
  obtain ⟨names, rfl, hcomp⟩ : ∃ names, parent = namePath names ∧
      (PathBuf.mk w.manager.root pieces).components = namePath (names ++ [n]) := by
    rw [PathBuf.components, hrest, ← map_append] at hlast
    obtain ⟨names, ns, -, hnam, hns⟩ := map_eq_append_iff.mp hlast
    refine ⟨names, hnam.symm, ?_⟩
    rw [PathBuf.components, hrest, ← map_append, hlast, ← hnam, namePath, map_append,
      map_singleton]
  have hpar := parent_of_components hcomp
  -- a dangling link does not exist, so only its parent is looked at
  have hnot : pathExists w.tree (PathBuf.mk w.manager.root pieces).parts = false := by
    rw [pathExists, hmis]
  -- the walk has gone on from the parent
  have hdir : w.tree.isDirAt p = true := by
    obtain ⟨tail, -, hwalk⟩ := resolve_last hcomp hfnd
    by_contra hdir
    rw [walk_not_dir (Bool.eq_false_iff.mpr hdir)] at hwalk
    cases (hmis.symm.trans hwalk)
  have hstarts : startsWith (FileManager.canonicalOr w.tree (namePath names))
      w.manager.root = true := by
    rw [FileManager.canonicalOr_of_found hfnd, FileManager.startsWith_namePath.mpr hin]
  have hchk : w.manager.checkParent w.tree path ⟨w.manager.root, pieces⟩ = .ok () := by
    unfold FileManager.checkParent
    rw [hpar]
    simp only
    rw [if_pos (pathExists_iff.mpr ⟨p, k, hfnd⟩), hstarts]
    rfl
  have hne : pieces ≠ [] := by
    rw [hpcs]
    simp
  have hval : w.manager.validateAndResolve w.tree path = .ok ⟨w.manager.root, pieces⟩ := by
    refine bind_eq_ok_iff.mpr ⟨pieces, htext, ?_⟩
    simp only
    rw [if_neg (Bool.eq_false_iff.mp hnot)]
    exact bind_eq_ok_iff.mpr ⟨(), hchk, bind_eq_ok_iff.mpr ⟨(), checkPrefix_eq_ok hne, rfl⟩⟩
  have hmade : sysCall (Disk.createDirAll (namePath names)) ioError ⟨w.tree, []⟩ =
      (.ok (), ⟨w.tree, []⟩) := sysCall_of_ok (createDirAll_of_dir hfnd hdir)
  obtain ⟨t', ht'⟩ := writeFile_of_missing hmis bytes
  refine ⟨⟨w.manager.root, pieces⟩, outside ++ [missing], t', hout, hnot, ?_, ?_, ?_, ?_⟩
  · rw [FileManager.validated, peek_bind_apply, hval]
    rfl
  · rw [FileManager.createParent, hpar]
    refine (bind_apply_of_eq hmade _).trans ?_
    rw [peek_bind_apply, FileManager.checkCreated, hstarts]
    rfl
  · rw [FileManager.makeParent, hpar]
    exact hmade
  · rw [Disk.write, ht']
    rfl

lemma not_confined_of_created {x : DiskM α} {op : FileOp} (a : α) (t' : Tree)
    (hop : op.run w.manager = do let _ ← x) (hp : ¬ w.manager.root <+: p)
    (hrun : x ⟨w.tree, []⟩ = (.ok a, ⟨t', [.created p]⟩)) : ¬ op.Confined w := by
  intro hcon
  have hop' : op.run w.manager ⟨w.tree, []⟩ = (.ok (), ⟨t', [.created p]⟩) := by
    rw [hop]
    exact bind_apply_of_eq hrun _
  exact hp (hcon _ hop' (.created p) (by simp) p (by simp [Access.paths]))

lemma write_not_confined (h : LeadsOutside w path) :
    ¬ (FileOp.write path content).Confined w := by
  obtain ⟨abs, outside, t', hout, -, hval, -, hmade, hwr⟩ :=
    runs_of_leadsOutside h (asBytes content)
  refine not_confined_of_created (w.manager.relative abs, content.utf8ByteSize) t' rfl hout ?_
  rw [FileManager.write, bind_apply_of_eq hval, bind_apply_of_eq hmade,
    bind_apply_of_eq (sysCall_of_ok hwr)]
  rfl

lemma create_not_confined (h : LeadsOutside w path) :
    ¬ (FileOp.create path content).Confined w := by
  obtain ⟨abs, outside, t', hout, hnot, hval, hmade, -, hwr⟩ :=
    runs_of_leadsOutside h (asBytes content)
  refine not_confined_of_created (w.manager.relative abs, content.utf8ByteSize) t' rfl hout ?_
  rw [FileManager.create, bind_apply_of_eq hval, peek_bind_apply, hnot,
    if_neg Bool.false_ne_true, bind_apply_of_eq hmade, bind_apply_of_eq (sysCall_of_ok hwr)]
  rfl

end Operations

/-- **Confinement**: an operation stays in the workspace, for every tree and every path, if and only
if it does not write through a dangling link that leads outside. -/
theorem confined_iff (w : Workspace) (op : FileOp) : op.Confined w ↔ ¬ op.Escapes w := by
  cases op with
  | read path => exact ⟨fun _ h => h, fun _ => read_confined path⟩
  | create path content =>
    exact ⟨fun h hout => create_not_confined content hout h, create_confined content⟩
  | write path content =>
    exact ⟨fun h hout => write_not_confined content hout h, write_confined content⟩
  | rename source dest => exact ⟨fun _ h => h, fun _ => rename_confined source dest⟩

def linkedTree : Tree :=
  let tree₁ := FileTree.empty.set ["ws"] .dir (by decide) (by decide) (by decide)
  let tree₂ := tree₁.set ["outside"] .dir (by decide) (by decide) (by decide)
  tree₂.set ["ws", "notes.md"] (.link ⟨true, [.name "outside", .name "notes.md"]⟩) (by decide)
    (by decide) (by decide)

def linkedWorkspace : Workspace where
  manager := ⟨["ws"], 512 * 1024⟩
  tree := linkedTree
  root_dir := by decide

def linkedCreate : Outcome AetherError Unit × Disk :=
  (FileOp.create "notes.md" "text").run linkedWorkspace.manager ⟨linkedTree, []⟩

/-- `create` makes a file outside of the workspace. -/
theorem create_leaves_workspace :
    linkedCreate.2.log = [.created ["outside", "notes.md"]] ∧
      ¬ (FileOp.create "notes.md" "text").Confined linkedWorkspace := by
  have hok : linkedCreate.1 = .ok () := rfl
  have hlog : linkedCreate.2.log = [.created ["outside", "notes.md"]] := by decide +kernel
  refine ⟨hlog, fun hcon => ?_⟩
  have hmem : .created ["outside", "notes.md"] ∈ linkedCreate.2.log := by
    rw [hlog]
    exact mem_singleton_self _
  have hin := hcon _ (Prod.ext hok rfl) _ hmem
  exact absurd (hin ["outside", "notes.md"] (mem_singleton_self _)) (by decide)

end Aether.Storage
