import Aether.Storage.Disk

/-!
# Where `create_dir_all` makes directories

The nearest ancestor of a path that exists decides: if it is below the root, so are the directories
that are made.  `mkdir` does not follow a dangling link as the last component.
-/

namespace Aether.Storage

open FileTree

variable {root : List String}

def Inside (root : List String) (a : Access) : Prop := ∀ p ∈ a.paths, root <+: p

abbrev namePath (names : List String) : List (Part String) := names.map .name

lemma pathExists_iff {t : Tree} {parts : List (Part String)} :
    pathExists t parts = true ↔ ∃ p k, resolve t parts = .found p k := by
  unfold pathExists
  split
  case h_1 p k h => exact ⟨fun _ => ⟨p, k, h⟩, fun _ => rfl⟩
  case h_2 h =>
    refine ⟨fun h' => (nomatch h'), ?_⟩
    rintro ⟨p, k, hfnd⟩
    exact absurd hfnd (h p k)

inductive Anchored (root : List String) (t : Tree) : List String → Prop
  | here {rev p : List String} {k : Nat} :
      resolve t (namePath rev.reverse) = .found p k → root <+: p → Anchored root t rev
  | above {n : String} {rev : List String} :
      pathExists t (namePath (n :: rev).reverse) = false → Anchored root t rev →
      Anchored root t (n :: rev)

lemma Anchored.inside {t : Tree} {rev p : List String} {k : Nat} (h : Anchored root t rev)
    (hfnd : resolve t (namePath rev.reverse) = .found p k) : root <+: p := by
  cases h with
  | here hfnd' hp =>
    cases hfnd'.symm.trans hfnd
    exact hp
  | above hnot _ =>
    rw [pathExists_iff.mpr ⟨p, k, hfnd⟩] at hnot
    cases hnot

namespace Disk

structure DirsMade (root rev : List String) (d : Disk) (o : Except Errno Unit) (d' : Disk) :
    Prop where
  log : ∃ new, d'.log = d.log ++ new ∧ ∀ a ∈ new, Inside root a
  larger : d.tree.Extends d'.tree
  made : o = .ok () → ∃ p k, resolve d'.tree (namePath rev.reverse) = .found p k ∧ root <+: p ∧
    d'.tree.isDirAt p = true ∧ (d' = d ∨ ∀ n, d'.tree.node (p ++ [n]) = none)

variable {d : Disk} {rev : List String} {o : Except Errno Unit}

lemma DirsMade.unchanged (h : o = .ok () → ∃ p k, resolve d.tree (namePath rev.reverse) =
    .found p k ∧ root <+: p ∧ d.tree.isDirAt p = true) : DirsMade root rev d o d where
  log := ⟨[], by simp, by simp⟩
  larger := .refl _
  made ho := by
    obtain ⟨p, k, hfnd, hp, hdir⟩ := h ho
    exact ⟨p, k, hfnd, hp, hdir, .inl rfl⟩

lemma namePath_reverse_cons (n : String) (rev : List String) :
    namePath (n :: rev).reverse = namePath rev.reverse ++ [.name n] := by
  simp [namePath]

variable {p : List String} {parts : List (Part String)}

lemma dirsMade_mkdir {d₀ : Disk} {n : String} {t' : Tree}
    (hlog : ∃ new, d.log = d₀.log ++ new ∧ ∀ a ∈ new, Inside root a)
    (hlar : d₀.tree.Extends d.tree)
    (h : d.tree.mkdir maxSymlinks (namePath rev.reverse ++ [.name n]) = .ok (p, t'))
    (hroot : ∀ q k, resolve d.tree (namePath rev.reverse) = .found q k → root <+: q) :
    DirsMade root (n :: rev) d₀ (.ok ()) ⟨t', d.log ++ [.created p]⟩ := by
  obtain ⟨dir, k, hwalk, rfl, hdir, -, hext, hnode, hemp⟩ := mkdir_eq_ok h
  obtain ⟨new, hlog, hnew⟩ := hlog
  have hin : root <+: dir ++ [n] := (hroot dir k hwalk).trans (List.prefix_append dir [n])
  refine ⟨⟨new ++ [.created (dir ++ [n])], by rw [hlog, List.append_assoc], ?_⟩,
    hlar.trans hext, fun _ => ⟨dir ++ [n], k, ?_, hin, isDirAt_iff.mpr hnode, .inr hemp⟩⟩
  · intro a ha
    rcases List.mem_append.mp ha with ha | ha
    · exact hnew a ha
    · obtain rfl := List.mem_singleton.mp ha
      simpa [Inside, Access.paths] using hin
  · have hdir' : t'.isDirAt dir = true := isDirAt_iff.mpr (hext _ _ (isDirAt_iff.mp hdir))
    rw [namePath_reverse_cons, resolve, walk_append, walk_mono hext hwalk]
    exact (walk_name hdir' hnode rfl []).trans (walk_nil _ _)

lemma isDir_iff {t : Tree} :
    isDir t parts = true ↔ ∃ p k, resolve t parts = .found p k ∧ t.isDirAt p = true := by
  unfold isDir
  split
  case h_1 p k h =>
    refine ⟨fun hdir => ⟨p, k, h, hdir⟩, ?_⟩
    rintro ⟨q, l, hfnd, hdir⟩
    cases h.symm.trans hfnd
    exact hdir
  case h_2 h =>
    refine ⟨fun h' => (nomatch h'), ?_⟩
    rintro ⟨p, k, hfnd, -⟩
    exact absurd hfnd (h p k)

lemma resolve_ne_found_of_mkdir {t : Tree} {n : String}
    (h : ∀ e, e ≠ .notFound → t.mkdir maxSymlinks (namePath rev.reverse ++ [.name n]) ≠ .error e)
    (p : List String) (k : Nat) : resolve t (namePath (n :: rev).reverse) ≠ .found p k := by
  intro hfnd
  rw [namePath_reverse_cons] at hfnd
  obtain ⟨e, hne, he⟩ := mkdir_of_found hfnd
  exact h e hne he

/-- **`create_dir_all`** for a path of names whose nearest existing ancestor is below the root. -/
theorem createDirAllRev_spec (d : Disk) (h : Anchored root d.tree rev) :
    DirsMade root rev d (createDirAllRev (namePath rev) d).1
      (createDirAllRev (namePath rev) d).2 := by
  induction rev generalizing d with
  | nil =>
    refine .unchanged fun _ => ⟨[], maxSymlinks, walk_nil _ _, ?_, isDirAt_iff.mpr d.tree.root⟩
    exact h.inside (walk_nil _ _)
  | cons n rev ih =>
    have hpath : (namePath rev).reverse ++ [.name n] = namePath rev.reverse ++ [.name n] := by
      rw [namePath, namePath, List.map_reverse]
    -- the anchor of a path that does not exist is that of the path above it
    have hrest : (∀ p k, resolve d.tree (namePath (n :: rev).reverse) ≠ .found p k) →
        Anchored root d.tree rev := by
      intro hnot
      cases h with
      | here hfnd _ => exact absurd hfnd (hnot _ _)
      | above _ hrev => exact hrev
    rw [namePath, List.map_cons]
    unfold createDirAllRev
    rw [hpath]
    unfold Disk.mkdir
    cases hmk : d.tree.mkdir maxSymlinks (namePath rev.reverse ++ [.name n]) with
    | ok made =>
      obtain ⟨p, t'⟩ := made
      have hnot : ∀ p k, resolve d.tree (namePath (n :: rev).reverse) ≠ .found p k :=
        resolve_ne_found_of_mkdir fun e _ => by rw [hmk]; simp
      exact dirsMade_mkdir ⟨[], by simp, by simp⟩ (.refl _) hmk fun q k => (hrest hnot).inside
    | error e =>
      simp only
      by_cases he : e = .notFound
      · subst he
        have hnot : ∀ p k, resolve d.tree (namePath rev.reverse) ≠ .found p k :=
          mkdir_eq_notFound hmk
        have hwho : ∀ p k, resolve d.tree (namePath (n :: rev).reverse) ≠ .found p k :=
          resolve_ne_found_of_mkdir fun e hne he => hne (Except.error.inj (hmk ▸ he)).symm
        have hmade := ih d (hrest hwho)
        rw [if_pos rfl]
        rcases hrec : createDirAllRev (namePath rev) d with ⟨e | _, d₁⟩ <;> rw [hrec] at hmade
        · exact ⟨hmade.log, hmade.larger, fun ho => nomatch ho⟩
        · -- the directory above was made now, so it is empty
          obtain ⟨p, k, hfnd, hp, hdir, hemp⟩ := hmade.made rfl
          have hnone : d₁.tree.node (p ++ [n]) = none := by
            rcases hemp with rfl | hemp
            · exact absurd hfnd (hnot p k)
            · exact hemp n
          obtain ⟨t', hmk₁⟩ := mkdir_of_none hfnd hdir hnone
          simp only [hmk₁]
          refine dirsMade_mkdir hmade.log hmade.larger hmk₁ fun q l hfnd' => ?_
          cases hfnd.symm.trans hfnd'
          exact hp
      · -- any other error is passed over if the path is a directory
        rw [if_neg he]
        by_cases hdir : isDir d.tree (namePath rev.reverse ++ [.name n]) = true
        · rw [if_pos hdir]
          rw [← namePath_reverse_cons] at hdir
          obtain ⟨p, k, hfnd, hdir⟩ := isDir_iff.mp hdir
          exact .unchanged fun _ => ⟨p, k, hfnd, h.inside hfnd, hdir⟩
        · rw [if_neg hdir]
          exact .unchanged fun ho => nomatch ho

lemma createDirAllRev_of_dir {k : Nat}
    (hfnd : resolve d.tree (namePath rev.reverse) = .found p k) (hdir : d.tree.isDirAt p = true) :
    createDirAllRev (namePath rev) d = (.ok (), d) := by
  cases rev with
  | nil => rfl
  | cons n rev =>
    have hisDir : isDir d.tree (namePath rev.reverse ++ [.name n]) = true :=
      isDir_iff.mpr ⟨p, k, namePath_reverse_cons n rev ▸ hfnd, hdir⟩
    rw [namePath_reverse_cons] at hfnd
    obtain ⟨e, hne, he⟩ := mkdir_of_found hfnd
    rw [namePath, List.map_cons]
    unfold createDirAllRev Disk.mkdir
    rw [← List.map_reverse, he]
    simp only [hne, if_false, hisDir, if_true]

end Disk

end Aether.Storage
