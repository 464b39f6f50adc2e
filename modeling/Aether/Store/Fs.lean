import Mathlib.Data.List.AList
import Mathlib.Data.List.Sort
import Mathlib.Data.List.SplitBy

/-!
# The file system of the store (`aether-store/src/fs.rs`)

`StoreFs` is the trait, with operations that return a new state, so that a file system may answer
the same question differently at another time; `LocalFs` implements it.
-/

namespace Aether.Store

structure StoreFs (σ β : Type) where
  pathExists : String → σ → Bool × σ
  read : String → σ → Except String β × σ
  write : String → β → σ → Except String Unit × σ
  mkdirAll : String → σ → Except String Unit × σ
  list : String → σ → Except String (List String) × σ

def PlainName (name : String) : Prop := name ≠ "" ∧ name ≠ "." ∧ '/' ∉ name.toList

instance : DecidablePred PlainName := fun _ => inferInstanceAs (Decidable (_ ∧ _ ∧ _))

abbrev FileName := { name : String // PlainName name }

def components (path : String) : List FileName :=
  ((path.toList.splitOn '/').map String.ofList).filterMap fun name =>
    if h : PlainName name then some ⟨name, h⟩ else none

inductive LocalNode (β : Type) where
  | file (bytes : β)
  | dir

def LocalNode.isDir {β : Type} : LocalNode β → Bool
  | .file _ => false
  | .dir => true

structure LocalTree (β : Type) where
  nodes : AList fun _ : List FileName => LocalNode β
  closed : ∀ path name, (nodes.lookup (path ++ [name])).isSome →
    path = [] ∨ (nodes.lookup path).any LocalNode.isDir

namespace LocalTree

variable {β : Type}

def empty : LocalTree β where
  nodes := ∅
  closed _ _ h := nomatch h

def node (t : LocalTree β) (path : List FileName) : Option (LocalNode β) :=
  if path = [] then some .dir else t.nodes.lookup path

lemma closed_insert {t : LocalTree β} {path : List FileName} {name : FileName} {n : LocalNode β}
    (hpar : path = [] ∨ (t.nodes.lookup path).any LocalNode.isDir)
    (hdir : ¬ ((t.nodes.lookup (path ++ [name])).any LocalNode.isDir ∧ ¬ n.isDir))
    (path' : List FileName) (name' : FileName)
    (hsome : ((t.nodes.insert (path ++ [name]) n).lookup (path' ++ [name'])).isSome) :
    path' = [] ∨ ((t.nodes.insert (path ++ [name]) n).lookup path').any LocalNode.isDir := by
  have hold : path' = [] ∨ (t.nodes.lookup path').any LocalNode.isDir := by
    by_cases heq : path' ++ [name'] = path ++ [name]
    · obtain ⟨rfl, -⟩ := List.append_inj' heq rfl
      exact hpar
    · rw [AList.lookup_insert_ne heq] at hsome
      exact t.closed path' name' hsome
  refine hold.imp_right fun hdir' => ?_
  by_cases heq : path' = path ++ [name]
  · -- the new node takes the place of a directory, so it is one
    subst heq
    rw [AList.lookup_insert]
    exact Classical.not_not.mp fun hn => hdir ⟨hdir', hn⟩
  · rw [AList.lookup_insert_ne heq]
    exact hdir'

def put (t : LocalTree β) (path : List FileName) (name : FileName) (n : LocalNode β) :
    Except String (LocalTree β) :=
  if hparent : path = [] ∨ (t.nodes.lookup path).any LocalNode.isDir then
    if hdir : (t.nodes.lookup (path ++ [name])).any LocalNode.isDir ∧ ¬ n.isDir then
      .error "Is a directory"
    else .ok ⟨t.nodes.insert (path ++ [name]) n, closed_insert hparent hdir⟩
  else .error "No such file or directory"

def createDirAll (t : LocalTree β) (done : List FileName) : List FileName →
    Except String Unit × LocalTree β
  | [] => (.ok (), t)
  | name :: todo =>
    match t.nodes.lookup (done ++ [name]) with
    | some .dir => createDirAll t (done ++ [name]) todo
    | some (.file _) => (.error "File exists", t)
    | none =>
      match t.put done name .dir with
      | .ok t' => createDirAll t' (done ++ [name]) todo
      | .error e => (.error e, t)

def writeFile (t : LocalTree β) (path : List FileName) (bytes : β) :
    Except String Unit × LocalTree β :=
  match path.getLast? with
  | none => (.error "Is a directory", t)
  | some name =>
    match t.put path.dropLast name (.file bytes) with
    | .ok t' => (.ok (), t')
    | .error e => (.error e, t)

def children (t : LocalTree β) (path : List FileName) : List String :=
  t.nodes.keys.filterMap fun p =>
    if p ≠ [] ∧ p.dropLast = path then p.getLast?.map Subtype.val else none

end LocalTree

def LocalFs (β : Type) : StoreFs (LocalTree β) β where
  pathExists path t := ((t.node (components path)).isSome, t)
  read path t :=
    (match t.node (components path) with
      | some (.file bytes) => .ok bytes
      | some .dir => .error s!"read {path}: Is a directory"
      | none => .error s!"read {path}: No such file or directory", t)
  write path bytes t :=
    match t.createDirAll [] (components path).dropLast with
    | (.error e, t) => (.error s!"mkdir parent: {e}", t)
    | (.ok (), t) =>
      match t.writeFile (components path) bytes with
      | (.error e, t) => (.error s!"write {path}: {e}", t)
      | (.ok (), t) => (.ok (), t)
  mkdirAll path t :=
    match t.createDirAll [] (components path) with
    | (.error e, t) => (.error s!"mkdir {path}: {e}", t)
    | (.ok (), t) => (.ok (), t)
  list path t :=
    (match t.node (components path) with
      | some .dir => .ok ((t.children (components path)).insertionSort (· ≤ ·))
      | some (.file _) => .error s!"readdir {path}: Not a directory"
      | none => .error s!"readdir {path}: No such file or directory", t)

/-!
## The contract of the store's file system

`FsContract` is what the documentation of the trait promises about operations that succeed, for the
files that the store uses: those in a directory below the root.  `LocalFs` keeps it
(`localFs_contract`).
-/

open Option

variable {σ β : Type}

def joinPath (dir file : String) : String := dir ++ "/" ++ file

structure FsContract (fs : StoreFs σ β) (content : σ → String → String → Option β) : Prop where
  content_pathExists : ∀ path s, content (fs.pathExists path s).2 = content s
  content_read : ∀ path s, content (fs.read path s).2 = content s
  content_list : ∀ path s, content (fs.list path s).2 = content s
  pathExists_of_content : ∀ s dir file bytes, PlainName dir → PlainName file →
    content s dir file = some bytes → (fs.pathExists (joinPath dir file) s).1 = true
  read_ok : ∀ s dir file bytes, PlainName dir → PlainName file →
    (fs.read (joinPath dir file) s).1 = .ok bytes → content s dir file = some bytes
  write_ok : ∀ s dir file bytes, PlainName dir → PlainName file →
    (fs.write (joinPath dir file) bytes s).1 = .ok () → ∀ dir' file',
      content (fs.write (joinPath dir file) bytes s).2 dir' file' =
        if dir' = dir ∧ file' = file then some bytes else content s dir' file'
  write_top_ok : ∀ s file bytes, PlainName file → (fs.write file bytes s).1 = .ok () →
    content (fs.write file bytes s).2 = content s
  mkdirAll_ok : ∀ s path, (fs.mkdirAll path s).1 = .ok () →
    content (fs.mkdirAll path s).2 = content s
  list_ok : ∀ s names, (fs.list "." s).1 = .ok names →
    (∀ dir ∈ names, PlainName dir) ∧
      ∀ dir file, (content s dir file).isSome → dir ∈ names

lemma slash_not_mem {name : String} (h : PlainName name) :
    ∀ c ∈ name.toList, (c == '/') = false := by
  intro c hc
  rw [beq_eq_false_iff_ne]
  rintro rfl
  exact h.2.2 hc

lemma components_name {file : String} (hf : PlainName file) : components file = [⟨file, hf⟩] := by
  rw [components, List.splitOn, List.splitOnP_eq_singleton (slash_not_mem hf)]
  simp [hf]

lemma components_joinPath {dir file : String} (hd : PlainName dir) (hf : PlainName file) :
    components (joinPath dir file) = [⟨dir, hd⟩, ⟨file, hf⟩] := by
  have hcs : (joinPath dir file).toList = dir.toList ++ '/' :: file.toList := by
    simp [joinPath]
  rw [components, hcs, List.splitOn,
    List.splitOnP_append_cons_of_forall_mem (slash_not_mem hd) '/' (by decide),
    List.splitOnP_eq_singleton (slash_not_mem hf)]
  simp [hd, hf]

lemma components_dot : components "." = [] := by decide

def LocalNode.bytes? : LocalNode β → Option β
  | .file bytes => some bytes
  | .dir => none

namespace LocalTree

variable {t t' : LocalTree β}

variable {path path' : List FileName} {name : FileName} {n : LocalNode β}

lemma node_of_put (h : t.put path name n = .ok t') :
    t'.node path' = if path' = path ++ [name] then some n else t.node path' := by
  unfold put at h
  split_ifs at h
  cases h
  unfold node
  by_cases hpath : path' = path ++ [name]
  · subst hpath
    rw [if_neg (by simp), if_pos rfl, AList.lookup_insert]
  · rw [if_neg hpath, AList.lookup_insert_ne hpath]

def fileAt (t : LocalTree β) (path : List FileName) : Option β :=
  (t.node path).bind LocalNode.bytes?

lemma fileAt_of_put (h : t.put path name n = .ok t') :
    t'.fileAt path' = if path' = path ++ [name] then n.bytes? else t.fileAt path' := by
  rw [fileAt, node_of_put h]
  split_ifs
  · rw [bind_some]
  · rfl

lemma fileAt_createDirAll (t : LocalTree β) (done todo : List FileName) :
    (t.createDirAll done todo).2.fileAt = t.fileAt := by
  induction todo generalizing t done with
  | nil => rfl
  | cons name todo ih =>
    unfold createDirAll
    split
    · exact ih t _
    · rfl
    case h_3 hnone =>
      split
      case h_1 t' hput =>
        rw [ih t']
        funext path'
        rw [fileAt_of_put hput]
        split_ifs with hpath
        · rw [fileAt, hpath, node, if_neg (by simp), hnone, bind_none]
          rfl
        · rfl
      · rfl

lemma fileAt_of_writeFile (path path' : List FileName) {bytes : β}
    (h : (t.writeFile path bytes).1 = .ok ()) :
    (t.writeFile path bytes).2.fileAt path' =
      if path' = path then some bytes else t.fileAt path' := by
  unfold writeFile at h ⊢
  cases hlast : path.getLast? with
  | none =>
    rw [hlast] at h
    exact nomatch h
  | some name =>
    rw [hlast] at h
    simp only at h ⊢
    cases hput : t.put path.dropLast name (.file bytes) with
    | error e =>
      rw [hput] at h
      exact nomatch h
    | ok t' =>
      have hpath : path.dropLast ++ [name] = path := List.dropLast_append_getLast? name hlast
      simp only
      rw [fileAt_of_put hput, hpath]
      rfl

end LocalTree

variable {t : LocalTree β} {dir : String}

lemma fileAt_of_write {path : String} {bytes : β}
    (h : ((LocalFs β).write path bytes t).1 = .ok ()) (path' : List FileName) :
    ((LocalFs β).write path bytes t).2.fileAt path' =
      if path' = components path then some bytes else t.fileAt path' := by
  have hdirs := t.fileAt_createDirAll [] (components path).dropLast
  unfold LocalFs at h ⊢
  simp only at h ⊢
  rcases hmade : t.createDirAll [] (components path).dropLast with ⟨_ | _, t₁⟩
  · rw [hmade] at h
    exact nomatch h
  · rw [hmade] at h hdirs
    simp only at h hdirs ⊢
    rcases hwri : t₁.writeFile (components path) bytes with ⟨_ | _, t₂⟩
    · rw [hwri] at h
      exact nomatch h
    · have hfile := t₁.fileAt_of_writeFile (components path) path'
        (show (t₁.writeFile (components path) bytes).1 = .ok () by rw [hwri])
      rw [hwri] at hfile
      rw [hfile, hdirs]

def localContent (t : LocalTree β) (dir file : String) : Option β :=
  if h : PlainName dir ∧ PlainName file then t.fileAt [⟨dir, h.1⟩, ⟨file, h.2⟩] else none

lemma localContent_of_plain (t : LocalTree β) {file : String} (hd : PlainName dir)
    (hf : PlainName file) : localContent t dir file = t.fileAt [⟨dir, hd⟩, ⟨file, hf⟩] :=
  dif_pos ⟨hd, hf⟩

lemma localContent_congr {t' : LocalTree β} (h : ∀ d f, t'.fileAt [d, f] = t.fileAt [d, f]) :
    localContent t' = localContent t := by
  funext dir file
  unfold localContent
  split_ifs with hpl
  · exact h _ _
  · rfl

lemma plainName_of_mem_children (h : dir ∈ t.children []) : PlainName dir := by
  obtain ⟨p, -, hp⟩ := List.mem_filterMap.mp h
  split_ifs at hp
  obtain ⟨name, -, rfl⟩ := map_eq_some_iff.mp hp
  exact name.2

lemma mem_children_of_localContent {file : String} (h : (localContent t dir file).isSome) :
    dir ∈ t.children [] := by
  unfold localContent at h
  split_ifs at h with hpl
  · have hfile : (t.nodes.lookup ([⟨dir, hpl.1⟩] ++ [⟨file, hpl.2⟩])).isSome := by
      rw [LocalTree.fileAt, LocalTree.node, if_neg (by simp)] at h
      exact isSome_of_isSome_bind h
    have hpar := (t.closed _ _ hfile).resolve_left (by simp)
    have hkey : [⟨dir, hpl.1⟩] ∈ t.nodes.keys := by
      rw [← AList.mem_keys, ← AList.lookup_isSome]
      cases hn : t.nodes.lookup [⟨dir, hpl.1⟩] with
      | none => simp [hn] at hpar
      | some n => rfl
    exact List.mem_filterMap.mpr ⟨_, hkey, by simp⟩
  · exact nomatch h

/-- **The local file system keeps the contract.** -/
theorem localFs_contract : FsContract (LocalFs β) localContent where
  content_pathExists _ _ := rfl
  content_read _ _ := rfl
  content_list _ _ := rfl
  pathExists_of_content t dir file bytes hd hf h := by
    rw [localContent_of_plain t hd hf, LocalTree.fileAt] at h
    obtain ⟨n, hn, -⟩ := bind_eq_some_iff.mp h
    simp only [LocalFs, components_joinPath hd hf, hn, isSome_some]
  read_ok t dir file bytes hd hf h := by
    rw [localContent_of_plain t hd hf, LocalTree.fileAt]
    simp only [LocalFs, components_joinPath hd hf] at h
    split at h
    case h_1 bytes' hn =>
      cases h
      rw [hn, bind_some, LocalNode.bytes?]
    · exact nomatch h
    · exact nomatch h
  write_ok t dir file bytes hd hf h dir' file' := by
    unfold localContent
    by_cases hpl : PlainName dir' ∧ PlainName file'
    · rw [dif_pos hpl, dif_pos hpl, fileAt_of_write h, components_joinPath hd hf]
      simp [Subtype.ext_iff]
    · rw [dif_neg hpl, dif_neg hpl, if_neg]
      rintro ⟨rfl, rfl⟩
      exact hpl ⟨hd, hf⟩
  write_top_ok t file bytes hf h := by
    refine localContent_congr fun d f => ?_
    rw [fileAt_of_write h, components_name hf, if_neg (by simp)]
  mkdirAll_ok t path h := by
    refine localContent_congr fun d f => ?_
    have hdirs := t.fileAt_createDirAll [] (components path)
    unfold LocalFs at h ⊢
    simp only at h ⊢
    rcases hmade : t.createDirAll [] (components path) with ⟨_ | _, t₁⟩
    · rw [hmade] at h
      exact nomatch h
    · rw [hmade] at hdirs
      exact congrFun hdirs [d, f]
  list_ok t names h := by
    simp only [LocalFs, components_dot, LocalTree.node, if_true] at h
    cases h
    have hmem : ∀ dir, dir ∈ (t.children []).insertionSort (· ≤ ·) ↔ dir ∈ t.children [] :=
      fun dir => (List.perm_insertionSort _ _).mem_iff
    constructor
    · intro dir hdir
      exact plainName_of_mem_children ((hmem dir).mp hdir)
    · intro dir file hsome
      exact (hmem dir).mpr (mem_children_of_localContent hsome)

end Aether.Store
