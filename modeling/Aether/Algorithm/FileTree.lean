import Mathlib.Data.List.Infix

/-!
# File trees with symbolic links

The walk along a path as the kernel does it: links are followed in place, `..` is the parent of the
directory that was reached, and a walk that has followed too many links fails.  A path that ends in
a slash or in `.` ends in the component `here`.
-/

namespace Aether

open List

universe u

inductive Part (N : Type u) where
  | here
  | up
  | name (n : N)
  deriving DecidableEq

structure LinkTarget (N : Type u) where
  absolute : Bool
  parts : List (Part N)
  deriving DecidableEq

inductive TreeNode (N β : Type u) where
  | file (bytes : β)
  | dir
  | link (target : LinkTarget N)
  deriving DecidableEq

def TreeNode.isLink {N β : Type u} : TreeNode N β → Bool
  | .link _ => true
  | _ => false

inductive Errno where
  | notFound
  | notADirectory
  | alreadyExists
  | isADirectory
  | directoryNotEmpty
  | filesystemLoop
  | invalidInput
  | resourceBusy
  | storageFull
  deriving DecidableEq

structure FileTree (N β : Type u) where
  node : List N → Option (TreeNode N β)
  support : List (List N)
  mem_support : ∀ p, (node p).isSome → p ∈ support
  root : node [] = some .dir
  closed : ∀ p n, (node (p ++ [n])).isSome → node p = some .dir

namespace FileTree

variable {N β : Type u}

def empty : FileTree N β where
  node p := if p.isEmpty then some .dir else none
  support := [[]]
  mem_support p hp := by
    cases p with
    | nil => exact List.mem_singleton_self []
    | cons n p => exact nomatch hp
  root := rfl
  closed p n hp := by simp at hp

inductive Walk (N : Type u) where
  | found (path : List N) (links : Nat)
  | missing (dir : List N) (name : N)
  | error (e : Errno)

variable (t : FileTree N β)

def isDirAt (p : List N) : Bool :=
  match t.node p with
  | some .dir => true
  | _ => false

def walkParts (follow : List N → List (Part N) → Walk N) (links : Nat) :
    List N → List (Part N) → Walk N
  | cur, [] => .found cur links
  | cur, part :: rest =>
    if t.isDirAt cur then
      match part with
      | .here => walkParts follow links cur rest
      | .up => walkParts follow links cur.dropLast rest
      | .name n =>
        match t.node (cur ++ [n]) with
        | none => if rest.isEmpty then .missing cur n else .error .notFound
        | some (.link target) => follow (if target.absolute then [] else cur) (target.parts ++ rest)
        | some _ => walkParts follow links (cur ++ [n]) rest
    else .error .notADirectory

def walk : Nat → List N → List (Part N) → Walk N
  | 0 => walkParts t (fun _ _ => .error .filesystemLoop) 0
  | links + 1 => walkParts t (walk links) (links + 1)

def follow : Nat → List N → List (Part N) → Walk N
  | 0 => fun _ _ => .error .filesystemLoop
  | links + 1 => t.walk links

def Walk.andThen (w : Walk N) (go : Nat → List N → List (Part N) → Walk N) (rest : List (Part N)) :
    Walk N :=
  match w with
  | .found p links => go links p rest
  | .missing dir name => if rest.isEmpty then .missing dir name else .error .notFound
  | .error e => .error e

variable {t} {links : Nat} {cur p : List N}

lemma walk_eq (links : Nat) (cur : List N) (parts : List (Part N)) :
    t.walk links cur parts = t.walkParts (t.follow links) links cur parts := by
  cases links with
  | zero => rfl
  | succ links => rfl

@[simp] lemma walk_nil (links : Nat) (cur : List N) : t.walk links cur [] = .found cur links := by
  rw [walk_eq, walkParts]

lemma walk_here (hcur : t.isDirAt cur = true) (rest : List (Part N)) :
    t.walk links cur (.here :: rest) = t.walk links cur rest := by
  rw [walk_eq, walkParts, if_pos hcur, walk_eq]

lemma walk_up (hcur : t.isDirAt cur = true) (rest : List (Part N)) :
    t.walk links cur (.up :: rest) = t.walk links cur.dropLast rest := by
  rw [walk_eq, walkParts, if_pos hcur, walk_eq]

lemma walk_not_dir (hcur : t.isDirAt cur = false) (part : Part N) (rest : List (Part N)) :
    t.walk links cur (part :: rest) = .error .notADirectory := by
  rw [walk_eq]
  unfold walkParts
  rw [if_neg (by rw [hcur]; decide)]

variable {n : N} {k : Nat} {parts : List (Part N)} {t' : FileTree N β}

lemma walk_name_none (hcur : t.isDirAt cur = true) (h : t.node (cur ++ [n]) = none)
    (rest : List (Part N)) :
    t.walk links cur (.name n :: rest) =
      if rest.isEmpty then .missing cur n else .error .notFound := by
  rw [walk_eq, walkParts, if_pos hcur, h]

lemma walk_name_link {target : LinkTarget N} (hcur : t.isDirAt cur = true)
    (h : t.node (cur ++ [n]) = some (.link target)) (rest : List (Part N)) :
    t.walk links cur (.name n :: rest) =
      t.follow links (if target.absolute then [] else cur) (target.parts ++ rest) := by
  rw [walk_eq, walkParts, if_pos hcur, h]

lemma walk_name {nd : TreeNode N β} (hcur : t.isDirAt cur = true)
    (h : t.node (cur ++ [n]) = some nd) (hlink : nd.isLink = false) (rest : List (Part N)) :
    t.walk links cur (.name n :: rest) = t.walk links (cur ++ [n]) rest := by
  cases nd with
  | file bytes => rw [walk_eq, walkParts, if_pos hcur, h, walk_eq]
  | dir => rw [walk_eq, walkParts, if_pos hcur, h, walk_eq]
  | link target => exact absurd hlink (by simp [TreeNode.isLink])

/-- The steps of a walk, up to where it ends: on a path that goes on, an error stays. -/
inductive Goes (t : FileTree N β) : Nat → List N → List (Part N) → Walk N → Prop
  | found (links : Nat) (cur : List N) : Goes t links cur [] (.found cur links)
  | missing {links : Nat} {cur : List N} {n : N} : t.isDirAt cur = true →
      t.node (cur ++ [n]) = none → Goes t links cur [.name n] (.missing cur n)
  | error {links : Nat} {cur : List N} {parts : List (Part N)} {e : Errno} :
      (∀ rest, t.walk links cur (parts ++ rest) = .error e) → Goes t links cur parts (.error e)
  | here {links : Nat} {cur : List N} {rest : List (Part N)} {w : Walk N} :
      t.isDirAt cur = true → Goes t links cur rest w → Goes t links cur (.here :: rest) w
  | up {links : Nat} {cur : List N} {rest : List (Part N)} {w : Walk N} :
      t.isDirAt cur = true → Goes t links cur.dropLast rest w → Goes t links cur (.up :: rest) w
  | link {links : Nat} {cur : List N} {n : N} {rest : List (Part N)} {target : LinkTarget N}
      {w : Walk N} : t.isDirAt cur = true → t.node (cur ++ [n]) = some (.link target) →
      Goes t links (if target.absolute then [] else cur) (target.parts ++ rest) w →
      Goes t (links + 1) cur (.name n :: rest) w
  | name {links : Nat} {cur : List N} {n : N} {rest : List (Part N)} {nd : TreeNode N β}
      {w : Walk N} : t.isDirAt cur = true → t.node (cur ++ [n]) = some nd → nd.isLink = false →
      Goes t links (cur ++ [n]) rest w → Goes t links cur (.name n :: rest) w

/-- **Every walk goes step by step**: by induction on the links that may be followed, then on the
path. -/
theorem goes_walk (t : FileTree N β) : ∀ links cur parts,
    t.Goes links cur parts (t.walk links cur parts) := by
  have along : ∀ links, (∀ cur n rest target, t.isDirAt cur = true →
      t.node (cur ++ [n]) = some (.link target) →
      t.Goes links cur (.name n :: rest) (t.walk links cur (.name n :: rest))) →
      ∀ cur parts, t.Goes links cur parts (t.walk links cur parts) := by
    intro links hlin cur parts
    induction parts generalizing cur with
    | nil => exact walk_nil (t := t) links cur ▸ .found links cur
    | cons part rest ih =>
      cases hcur : t.isDirAt cur with
      | false =>
        rw [walk_not_dir hcur]
        exact .error fun more => walk_not_dir hcur part (rest ++ more)
      | true =>
        cases part with
        | here => exact walk_here hcur rest ▸ .here hcur (ih cur)
        | up => exact walk_up hcur rest ▸ .up hcur (ih cur.dropLast)
        | name n =>
          cases hnode : t.node (cur ++ [n]) with
          | none =>
            rw [walk_name_none hcur hnode]
            cases rest with
            | nil => exact .missing hcur hnode
            | cons part rest =>
              exact .error fun more => walk_name_none hcur hnode (part :: rest ++ more)
          | some nd =>
            cases nd with
            | link target => exact hlin cur n rest target hcur hnode
            | file bytes => exact walk_name hcur hnode rfl rest ▸ .name hcur hnode rfl (ih _)
            | dir => exact walk_name hcur hnode rfl rest ▸ .name hcur hnode rfl (ih _)
  intro links
  induction links with
  | zero =>
    refine along 0 fun cur n rest target hcur hnode => ?_
    rw [walk_name_link hcur hnode]
    exact .error fun more => walk_name_link hcur hnode (rest ++ more)
  | succ links ih =>
    refine along _ fun cur n rest target hcur hnode => ?_
    rw [walk_name_link hcur hnode]
    exact .link hcur hnode (ih _ _)

lemma walk_append (links : Nat) (cur : List N) (parts rest : List (Part N)) :
    t.walk links cur (parts ++ rest) = (t.walk links cur parts).andThen t.walk rest := by
  have hgo := t.goes_walk links cur parts
  generalize t.walk links cur parts = w at hgo
  induction hgo with
  | found links cur => rfl
  | missing hdir hnode => exact walk_name_none hdir hnode rest
  | error hstay => exact hstay rest
  | here hdir _ ih => rw [cons_append, walk_here hdir, ih]
  | up hdir _ ih => rw [cons_append, walk_up hdir, ih]
  | link hdir hnode _ ih =>
    rw [cons_append, walk_name_link hdir hnode, ← append_assoc]
    exact ih
  | name hdir hnode hlink _ ih => rw [cons_append, walk_name hdir hnode hlink, ih]

lemma exists_found_of_append {rest : List (Part N)}
    (h : t.walk links cur (parts ++ rest) = .found p k) :
    ∃ dir l, t.walk links cur parts = .found dir l ∧ t.walk l dir rest = .found p k := by
  rw [walk_append] at h
  cases hwalk : t.walk links cur parts with
  | found dir l =>
    rw [hwalk] at h
    exact ⟨dir, l, rfl, h⟩
  | missing dir name =>
    rw [hwalk, Walk.andThen] at h
    split_ifs at h
  | error e =>
    rw [hwalk] at h
    exact nomatch h

lemma isDirAt_iff : t.isDirAt p = true ↔ t.node p = some .dir := by
  unfold isDirAt
  split <;> simp_all

lemma node_dropLast (h : (t.node p).isSome) : t.node p.dropLast = some .dir := by
  rcases eq_nil_or_concat p with rfl | ⟨q, n, rfl⟩
  · exact t.root
  · rw [concat_eq_append] at h ⊢
    rw [dropLast_concat]
    exact t.closed q n h

lemma node_of_append {q : List N} (h : (t.node (p ++ q)).isSome) (hq : q ≠ []) :
    t.node p = some .dir := by
  induction q using reverseRecOn with
  | nil => exact absurd rfl hq
  | append_singleton q n ih =>
    rw [← append_assoc] at h
    have hdir := t.closed _ _ h
    cases q with
    | nil => rwa [append_nil] at hdir
    | cons m q => exact ih (by rw [hdir]; rfl) (by simp)

def Physical (t : FileTree N β) (p : List N) : Prop := ∃ nd, t.node p = some nd ∧ nd.isLink = false

lemma physical_of_dir (h : t.node p = some .dir) : t.Physical p := ⟨.dir, h, rfl⟩

lemma physical_of_walk (hcur : t.Physical cur) (h : t.walk links cur parts = .found p k) :
    t.Physical p := by
  have hgo := t.goes_walk links cur parts
  generalize hw : t.walk links cur parts = w at hgo h
  clear hw
  induction hgo with
  | found links cur =>
    cases h
    exact hcur
  | missing => cases h
  | error => cases h
  | here _ _ ih => exact ih hcur h
  | up hdir _ ih =>
    refine ih (physical_of_dir (node_dropLast ?_)) h
    rw [isDirAt_iff.mp hdir]
    rfl
  | link _ _ _ ih =>
    refine ih ?_ h
    split_ifs
    · exact physical_of_dir t.root
    · exact hcur
  | name _ hnode hlink _ ih => exact ih ⟨_, hnode, hlink⟩ h

lemma node_of_walk_missing {dir : List N} {name : N}
    (h : t.walk links cur parts = .missing dir name) :
    t.node dir = some .dir ∧ t.node (dir ++ [name]) = none := by
  have hgo := t.goes_walk links cur parts
  generalize hw : t.walk links cur parts = w at hgo h
  clear hw
  induction hgo with
  | found => cases h
  | missing hdir hnode =>
    cases h
    exact ⟨isDirAt_iff.mp hdir, hnode⟩
  | error => cases h
  | here _ _ ih => exact ih h
  | up _ _ ih => exact ih h
  | link _ _ _ ih => exact ih h
  | name _ _ _ _ ih => exact ih h

lemma walk_names {q : List N} (h : t.Physical (cur ++ q)) :
    t.walk links cur (q.map .name) = .found (cur ++ q) links := by
  induction q generalizing cur with
  | nil => rw [map_nil, walk_nil, append_nil]
  | cons n q ih =>
    obtain ⟨nd, hnode, hlink⟩ := h
    have hsome : (t.node (cur ++ n :: q)).isSome := by rw [hnode]; rfl
    have hcur : t.isDirAt cur = true := isDirAt_iff.mpr (node_of_append hsome (by simp))
    have hspl : cur ++ n :: q = cur ++ [n] ++ q := by simp
    rw [hspl] at hnode hsome ⊢
    have hnext : t.Physical (cur ++ [n]) := by
      cases q with
      | nil => exact ⟨nd, by simpa using hnode, hlink⟩
      | cons m q => exact physical_of_dir (node_of_append hsome (by simp))
    obtain ⟨nd', hnode', hlink'⟩ := hnext
    rw [map_cons, walk_name hcur hnode' hlink']
    exact ih ⟨nd, hnode, hlink⟩

def Extends (t t' : FileTree N β) : Prop := ∀ p nd, t.node p = some nd → t'.node p = some nd

lemma Extends.refl (t : FileTree N β) : t.Extends t := fun _ _ h => h

lemma Extends.trans {t'' : FileTree N β} (h : t.Extends t') (h' : t'.Extends t'') :
    t.Extends t'' := fun p nd hnode => h' p nd (h p nd hnode)

lemma walk_mono (hext : t.Extends t') (h : t.walk links cur parts = .found p k) :
    t'.walk links cur parts = .found p k := by
  have hdir' : ∀ {q}, t.isDirAt q = true → t'.isDirAt q = true := fun hdir =>
    isDirAt_iff.mpr (hext _ _ (isDirAt_iff.mp hdir))
  have hgo := t.goes_walk links cur parts
  generalize hw : t.walk links cur parts = w at hgo h
  clear hw
  induction hgo with
  | found links cur =>
    rw [walk_nil]
    exact h
  | missing => cases h
  | error => cases h
  | here hdir _ ih => rw [walk_here (hdir' hdir), ih h]
  | up hdir _ ih => rw [walk_up (hdir' hdir), ih h]
  | link hdir hnode _ ih =>
    rw [walk_name_link (hdir' hdir) (hext _ _ hnode)]
    exact ih h
  | name hdir hnode hlink _ ih => rw [walk_name (hdir' hdir) (hext _ _ hnode) hlink, ih h]

/-!
## Calls on a file tree

`mkdir`, `writeFile` and `rename`, each of which returns the physical location of what it has
changed, and what they do in terms of walks.
-/

variable {dir : List N}

def lastEntry (t : FileTree N β) (links : Nat) (parts : List (Part N)) (dots : Errno) :
    Except Errno (List N × N) :=
  match parts.getLast? with
  | some (.name n) =>
    match t.walk links [] parts.dropLast with
    | .found dir _ => .ok (dir, n)
    | .missing _ _ => .error .notFound
    | .error e => .error e
  | _ =>
    match t.walk links [] parts with
    | .found _ _ => .error dots
    | .missing _ _ => .error .notFound
    | .error e => .error e

lemma lastEntry_name (parts : List (Part N)) (n : N) (dots : Errno) :
    t.lastEntry links (parts ++ [.name n]) dots =
      match t.walk links [] parts with
      | .found dir _ => .ok (dir, n)
      | .missing _ _ => .error .notFound
      | .error e => .error e := by
  unfold lastEntry
  rw [List.getLast?_concat, List.dropLast_concat]

lemma lastEntry_eq_ok {dots : Errno} (h : t.lastEntry links parts dots = .ok (dir, n)) :
    ∃ parts' k, parts = parts' ++ [.name n] ∧ t.walk links [] parts' = .found dir k := by
  unfold lastEntry at h
  split at h
  case h_1 n' hlast =>
    obtain ⟨parts', rfl⟩ := List.getLast?_eq_some_iff.mp hlast
    rw [List.dropLast_concat] at h
    split at h
    case h_1 dir' k hwalk =>
      cases h
      exact ⟨parts', k, rfl, hwalk⟩
    · exact nomatch h
    · exact nomatch h
  · split at h <;> exact nomatch h

def isFileAt (t : FileTree N β) (p : List N) : Bool :=
  match t.node p with
  | some (.file _) => true
  | _ => false

lemma isFileAt_spec (h : t.isFileAt p = true) :
    p ≠ [] ∧ t.isDirAt p.dropLast = true ∧ t.isDirAt p = false := by
  unfold isFileAt at h
  split at h
  case h_1 bytes hnode =>
    refine ⟨?_, isDirAt_iff.mpr (node_dropLast (by rw [hnode]; rfl)), by rw [isDirAt, hnode]⟩
    rintro rfl
    rw [t.root] at hnode
    exact nomatch hnode
  · exact nomatch h

variable [DecidableEq N]

def set (t : FileTree N β) (p : List N) (nd : TreeNode N β) (hp : p ≠ [])
    (hparent : t.isDirAt p.dropLast = true) (hold : t.isDirAt p = false) : FileTree N β where
  node q := if q = p then some nd else t.node q
  support := p :: t.support
  mem_support q hq := by
    split_ifs at hq with hqp
    · exact List.mem_cons.mpr (.inl hqp)
    · exact List.mem_cons_of_mem p (t.mem_support q hq)
  root := by
    rw [if_neg hp.symm]
    exact t.root
  closed q n hq := by
    have hdir : t.node q = some .dir := by
      split_ifs at hq with hqp
      · rw [← hqp, List.dropLast_concat, isDirAt_iff] at hparent
        exact hparent
      · exact t.closed q n hq
    have hne : q ≠ p := by
      rintro rfl
      rw [isDirAt_iff.mpr hdir] at hold
      exact nomatch hold
    rw [if_neg hne]
    exact hdir

lemma extends_set {nd : TreeNode N β} {hp : p ≠ []} {hpar : t.isDirAt p.dropLast = true}
    {hold : t.isDirAt p = false} (hnone : t.node p = none) :
    t.Extends (t.set p nd hp hpar hold) := by
  intro q nd' hq
  have hne : q ≠ p := by
    rintro rfl
    rw [hnone] at hq
    exact nomatch hq
  exact (if_neg hne).trans hq

def move (t : FileTree N β) (source dir : List N) (name : N) (hsource : source ≠ [])
    (hdir : t.isDirAt dir = true) (hbelow : ¬ source <+: dir) : FileTree N β where
  node q :=
    if dir ++ [name] <+: q then t.node (source ++ q.drop (dir.length + 1))
    else if source <+: q then none
    else t.node q
  support := t.support ++ t.support.map fun q => dir ++ [name] ++ q.drop source.length
  mem_support q hq := by
    split_ifs at hq with hdest hsrc
    · obtain ⟨rest, rfl⟩ := hdest
      rw [List.mem_append, List.mem_map]
      refine .inr ⟨source ++ rest, t.mem_support _ ?_, by simp⟩
      simpa using hq
    · exact nomatch hq
    · exact List.mem_append_left _ (t.mem_support q hq)
  root := by
    rw [if_neg (by simp), if_neg (by simpa using hsource)]
    exact t.root
  closed q n hq := by
    split_ifs at hq with hdest hsrc
    · rcases List.prefix_concat_iff.mp hdest with heq | hdest'
      · -- the new name itself: its directory stays
        obtain ⟨rfl, -⟩ := List.append_inj' heq rfl
        have hlong : ¬ dir ++ [name] <+: dir := by
          intro h
          have hlen := h.length_le
          rw [List.length_append, List.length_singleton] at hlen
          omega
        rw [if_neg hlong, if_neg hbelow]
        exact isDirAt_iff.mp hdir
      · rw [if_pos hdest']
        have hlen : dir.length + 1 ≤ q.length := by simpa using hdest'.length_le
        rw [List.drop_append_of_le_length hlen, ← List.append_assoc] at hq
        exact t.closed _ n hq
    · exact nomatch hq
    · rw [if_neg fun h => hdest (h.trans (List.prefix_append q [n])),
        if_neg fun h => hsrc (h.trans (List.prefix_append q [n]))]
      exact t.closed q n hq

def mkdir (t : FileTree N β) (links : Nat) (parts : List (Part N)) :
    Except Errno (List N × FileTree N β) :=
  match t.lastEntry links parts .alreadyExists with
  | .error e => .error e
  | .ok (dir, n) =>
    if hdir : t.isDirAt dir = true then
      if hnone : (t.node (dir ++ [n])).isNone then
        .ok (dir ++ [n], t.set (dir ++ [n]) .dir (by simp) (by simpa using hdir) (by
          rw [isDirAt, Option.isNone_iff_eq_none.mp hnone]))
      else .error .alreadyExists
    else .error .notADirectory

def writeFile (t : FileTree N β) (links : Nat) (parts : List (Part N)) (bytes : β) :
    Except Errno (List N × Bool × FileTree N β) :=
  match t.walk links [] parts with
  | .found p _ =>
    if h : t.isFileAt p = true then
      have hset := isFileAt_spec h
      .ok (p, false, t.set p (.file bytes) hset.1 hset.2.1 hset.2.2)
    else .error .isADirectory
  | .missing dir n =>
    if h : t.isDirAt dir = true ∧ t.isDirAt (dir ++ [n]) = false then
      .ok (dir ++ [n], true,
        t.set (dir ++ [n]) (.file bytes) (by simp) (by simpa using h.1) h.2)
    else .error .notFound
  | .error e => .error e

def hasChildren (t : FileTree N β) (p : List N) : Bool :=
  t.support.any fun q => !q.isEmpty && q.dropLast == p && (t.node q).isSome

def renameEntry (t : FileTree N β) (source : List N) (dir : List N) (name : N) (slash : Bool) :
    Except Errno (FileTree N β) :=
  if (t.node source).isNone then .error .notFound
  else if hdir : t.isDirAt dir = true then
    if source = dir ++ [name] then .ok t
    else if !t.isDirAt source && slash then .error .notADirectory
    else if hmove : source ≠ [] ∧ ¬ source <+: dir then
      match t.node (dir ++ [name]) with
      | none => .ok (t.move source dir name hmove.1 hdir hmove.2)
      | some .dir =>
        if !t.isDirAt source then .error .isADirectory
        else if t.hasChildren (dir ++ [name]) then .error .directoryNotEmpty
        else .ok (t.move source dir name hmove.1 hdir hmove.2)
      | some _ =>
        if t.isDirAt source then .error .notADirectory
        else .ok (t.move source dir name hmove.1 hdir hmove.2)
    else .error .invalidInput
  else .error .notADirectory

def rename (t : FileTree N β) (links : Nat) (source dest : List (Part N)) (slash : Bool) :
    Except Errno (List N × List N × FileTree N β) :=
  match t.lastEntry links source .resourceBusy with
  | .error e => .error e
  | .ok (sourceDir, sourceName) =>
    match t.lastEntry links dest .resourceBusy with
    | .error e => .error e
    | .ok (dir, name) =>
      match t.renameEntry (sourceDir ++ [sourceName]) dir name slash with
      | .error e => .error e
      | .ok t' => .ok (sourceDir ++ [sourceName], dir ++ [name], t')

lemma mkdir_eq_ok (h : t.mkdir links (parts ++ [.name n]) = .ok (p, t')) :
    ∃ dir k, t.walk links [] parts = .found dir k ∧ p = dir ++ [n] ∧ t.isDirAt dir = true ∧
      t.node p = none ∧ t.Extends t' ∧ t'.node p = some .dir ∧ ∀ m, t'.node (p ++ [m]) = none := by
  unfold mkdir at h
  rw [lastEntry_name] at h
  cases hwalk : t.walk links [] parts with
  | missing dir name =>
    rw [hwalk] at h
    exact nomatch h
  | error e =>
    rw [hwalk] at h
    exact nomatch h
  | found dir k =>
    rw [hwalk] at h
    simp only at h
    split_ifs at h with hdir hnone
    cases h
    rw [Option.isNone_iff_eq_none] at hnone
    refine ⟨dir, k, rfl, rfl, hdir, hnone, extends_set hnone, if_pos rfl, fun m => ?_⟩
    have hchi : t.node (dir ++ [n] ++ [m]) = none := by
      cases hnode : t.node (dir ++ [n] ++ [m]) with
      | none => rfl
      | some nd =>
        have hcl := t.closed _ m (by rw [hnode]; rfl)
        rw [hnone] at hcl
        exact nomatch hcl
    exact (if_neg (by simp)).trans hchi

lemma mkdir_of_none {k : Nat} (hwalk : t.walk links [] parts = .found dir k)
    (hdir : t.isDirAt dir = true) (hnone : t.node (dir ++ [n]) = none) :
    ∃ t', t.mkdir links (parts ++ [.name n]) = .ok (dir ++ [n], t') := by
  unfold mkdir
  rw [lastEntry_name, hwalk]
  exact ⟨_, by simp only [hdir, hnone, Option.isNone_none, dif_pos]; rfl⟩

lemma mkdir_eq_notFound (h : t.mkdir links (parts ++ [.name n]) = .error .notFound)
    (dir : List N) (k : Nat) : t.walk links [] parts ≠ .found dir k := by
  intro hwalk
  unfold mkdir at h
  rw [lastEntry_name, hwalk] at h
  simp only at h
  split_ifs at h
  · exact absurd (Except.error.inj h) (by decide)
  · exact absurd (Except.error.inj h) (by decide)

lemma mkdir_of_found {k : Nat} (h : t.walk links [] (parts ++ [.name n]) = .found p k) :
    ∃ e, e ≠ .notFound ∧ t.mkdir links (parts ++ [.name n]) = .error e := by
  obtain ⟨dir, l, hwalk, hlast⟩ := exists_found_of_append h
  unfold mkdir
  rw [lastEntry_name, hwalk]
  simp only
  split_ifs with hdir hnone
  · rw [walk_name_none hdir (Option.isNone_iff_eq_none.mp hnone)] at hlast
    exact nomatch hlast
  · exact ⟨.alreadyExists, by decide, rfl⟩
  · exact ⟨.notADirectory, by decide, rfl⟩

lemma writeFile_eq_ok {bytes : β} {isNew : Bool}
    (h : t.writeFile links parts bytes = .ok (p, isNew, t')) :
    (∃ k, t.walk links [] parts = .found p k) ∨
      ∃ dir n, t.walk links [] parts = .missing dir n ∧ p = dir ++ [n] := by
  unfold writeFile at h
  split at h
  case h_1 q k hwalk =>
    split_ifs at h
    cases h
    exact .inl ⟨k, hwalk⟩
  case h_2 dir n hwalk =>
    split_ifs at h
    cases h
    exact .inr ⟨dir, n, hwalk, rfl⟩
  case h_3 => exact nomatch h

lemma writeFile_of_missing (hwalk : t.walk links [] parts = .missing dir n) (bytes : β) :
    ∃ t', t.writeFile links parts bytes = .ok (dir ++ [n], true, t') := by
  obtain ⟨hdir, hnone⟩ := node_of_walk_missing hwalk
  have hcond : t.isDirAt dir = true ∧ t.isDirAt (dir ++ [n]) = false :=
    ⟨isDirAt_iff.mpr hdir, by rw [isDirAt, hnone]⟩
  unfold writeFile
  rw [hwalk]
  exact ⟨_, dif_pos hcond⟩

lemma rename_eq_ok {source dest : List (Part N)} {slash : Bool} {from' to' : List N}
    (h : t.rename links source dest slash = .ok (from', to', t')) :
    (∃ dir n, t.lastEntry links source .resourceBusy = .ok (dir, n) ∧ from' = dir ++ [n]) ∧
      ∃ dir n, t.lastEntry links dest .resourceBusy = .ok (dir, n) ∧ to' = dir ++ [n] := by
  unfold rename at h
  split at h
  · exact nomatch h
  case h_2 sourceDir sourceName hsou =>
    split at h
    · exact nomatch h
    case h_2 dir name hdest =>
      split at h
      · exact nomatch h
      · obtain ⟨rfl, hrest⟩ := Prod.mk.inj (Except.ok.inj h)
        cases hrest
        exact ⟨⟨_, _, hsou, rfl⟩, _, _, hdest, rfl⟩

end FileTree

end Aether
