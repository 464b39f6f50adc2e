import Aether.Algorithm.Lexical
import Aether.Core.Str

/-!
# Paths

`std::path` on Unix, on sequences of bytes.  `resolve cwd path` is what a path names in the
directory `cwd`, with `.`, `..` and absolute paths resolved and no symbolic links.
-/

namespace Aether.Core

abbrev OsStr := List UInt8

namespace Path

def slash : UInt8 := 47

def dot : UInt8 := 46

def isAbsolute (path : OsStr) : Bool := path.head? = some slash

def pieces (path : OsStr) : List OsStr := path.splitOn slash

def isEmptyPiece (piece : OsStr) : Bool := piece = [] || piece = [dot]

def piecePart (piece : OsStr) : Option (Part OsStr) :=
  if isEmptyPiece piece then none
  else if piece = [dot, dot] then some .up
  else some (.name piece)

def parts (path : OsStr) : List (Part OsStr) := (pieces path).filterMap piecePart

def resolve (cwd : List OsStr) (path : OsStr) : List OsStr :=
  Lexical.resolve (if isAbsolute path then [] else cwd) (parts path)

def join (path other : OsStr) : OsStr :=
  if isAbsolute other then other
  else if path = [] then other
  else if path.getLast? = some slash then path ++ other
  else path ++ slash :: other

def trimmedPieces (path : OsStr) : List OsStr :=
  match pieces path with
  | [] => []
  | first :: rest => first :: rest.rdropWhile isEmptyPiece

def fileName (path : OsStr) : Option OsStr :=
  match (trimmedPieces path).getLast? with
  | none => none
  | some piece => if isEmptyPiece piece || piece = [dot, dot] then none else some piece

def parent (path : OsStr) : Option OsStr :=
  match trimmedPieces path with
  | [] => none
  | [first] => if first = [] then none else some []
  | first :: rest =>
    match rest.dropLast.rdropWhile isEmptyPiece with
    | [] => if first = [] then some [slash] else some first
    | rest => some ([slash].intercalate (first :: rest))

def splitAtLastDot (name : OsStr) : Option (OsStr × OsStr) :=
  match name.rdropWhile (· != dot) with
  | [] => none
  | [_] => none
  | before => some (before.dropLast, name.rtakeWhile (· != dot))

def extension (path : OsStr) : Option OsStr :=
  (fileName path).bind fun name => (splitAtLastDot name).map Prod.snd

def withExtension (path extension : OsStr) : OsStr :=
  match fileName path with
  | none => path
  | some name =>
    let stem := ((splitAtLastDot name).map Prod.fst).getD name
    let name := if extension = [] then stem else stem ++ dot :: extension
    [slash].intercalate ((trimmedPieces path).dropLast ++ [name])

def display (path : OsStr) : String := String.ofList (Utf8.lossyChars 0 path)

def nulError : String := "file name contained an unexpected NUL byte"

end Path

end Aether.Core

/-!
## What the operations on paths do

A path joined to a directory is resolved in that directory, an absolute path at the root
(`resolve_join`); a text without a slash only changes the path's last piece (`resolve_append`).
-/

namespace Aether.Core.Path

open List

@[simp] lemma parts_nil : parts [] = [] := by decide

@[simp] lemma isAbsolute_nil : isAbsolute [] = false := rfl

lemma parts_append_slash (path other : OsStr) :
    parts (path ++ slash :: other) = parts path ++ parts other := by
  rw [parts, parts, parts, pieces, pieces, pieces, splitOn_append_cons_self,
    filterMap_append]

variable {piece path other ext : OsStr} {b : UInt8}

lemma parts_of_no_slash (h : slash ∉ piece) : parts piece = (piecePart piece).toList := by
  rw [parts, pieces, splitOn_eq_singleton h]
  cases hpart : piecePart piece <;> simp [hpart]

lemma isAbsolute_append (hpath : path ≠ []) (other : OsStr) :
    isAbsolute (path ++ other) = isAbsolute path := by
  cases path with
  | nil => exact absurd rfl hpath
  | cons b path => rfl

lemma piecePart_eq_name (hb : b ∈ piece) (hdot : b ≠ dot) :
    piecePart piece = some (.name piece) := by
  have h0 : piece ≠ [] := by rintro rfl; simp at hb
  have h1 : piece ≠ [dot] := by rintro rfl; simp [hdot] at hb
  have h2 : piece ≠ [dot, dot] := by rintro rfl; simp [hdot] at hb
  simp [piecePart, isEmptyPiece, h0, h1, h2]

lemma isAbsolute_join (path other : OsStr) :
    isAbsolute (join path other) = (isAbsolute other || isAbsolute path) := by
  unfold join
  split_ifs with hoth hpath hsla
  · simp [hoth]
  · simp [hoth, hpath]
  · rw [isAbsolute_append hpath]
    simp [hoth]
  · rw [isAbsolute_append hpath]
    simp [hoth]

lemma parts_join (path other : OsStr) :
    parts (join path other) =
      if isAbsolute other then parts other else parts path ++ parts other := by
  unfold join
  split_ifs with hoth hpath hsla
  · rfl
  · simp [hpath]
  · -- A slash at the end of the path is not doubled.
    obtain ⟨dir, rfl⟩ := getLast?_eq_some_iff.mp hsla
    have hdir : parts (dir ++ [slash]) = parts dir := by
      simpa using parts_append_slash dir []
    rw [append_assoc, singleton_append, parts_append_slash, hdir]
  · exact parts_append_slash path other

lemma resolve_join (cwd : List OsStr) (path other : OsStr) :
    resolve cwd (join path other) = resolve (resolve cwd path) other := by
  rw [resolve, isAbsolute_join, parts_join]
  by_cases hoth : isAbsolute other
  · simp [resolve, hoth]
  · rw [if_neg hoth, Lexical.resolve_append]
    simp [resolve, hoth]

lemma resolve_name {name : OsStr} (hsla : slash ∉ name)
    (hname : piecePart name = some (.name name)) (cwd : List OsStr) :
    resolve cwd name = cwd ++ [name] := by
  have habs : isAbsolute name = false := by
    cases name with
    | nil => rfl
    | cons b name =>
      have hb : b ≠ slash := by rintro rfl; exact hsla (mem_cons_self ..)
      simpa [isAbsolute] using hb
  rw [resolve, parts_of_no_slash hsla, hname, habs]
  rfl

lemma join_append (path : OsStr) (hne : other ≠ []) (tail : OsStr) :
    join path (other ++ tail) = join path other ++ tail := by
  unfold join
  rw [isAbsolute_append hne]
  split_ifs <;> simp

lemma exists_join_append (path other tail : OsStr) :
    ∃ start, join path (other ++ tail) = start ++ tail := by
  unfold join
  split_ifs
  · exact ⟨_, rfl⟩
  · exact ⟨_, rfl⟩
  · exact ⟨_, (append_assoc ..).symm⟩
  · exact ⟨path ++ slash :: other, by simp⟩

lemma mem_join_right (h : b ∈ other) (path : OsStr) : b ∈ join path other := by
  unfold join
  split_ifs
  · exact h
  · exact h
  · exact mem_append_right _ h
  · exact mem_append_right _ (mem_cons_of_mem _ h)

lemma not_mem_join (hpath : b ∉ path) (hsla : b ≠ slash) (hoth : b ∉ other) :
    b ∉ join path other := by
  unfold join
  split_ifs
  · exact hoth
  · exact hoth
  · simp [hpath, hoth]
  · simp [hpath, hoth, hsla]

def directory (path : OsStr) : OsStr := path.rdropWhile (· != slash)

def lastPiece (path : OsStr) : OsStr := path.rtakeWhile (· != slash)

lemma directory_append_lastPiece (path : OsStr) : directory path ++ lastPiece path = path :=
  rdropWhile_append_rtakeWhile ..

lemma slash_not_mem_lastPiece (path : OsStr) : slash ∉ lastPiece path := by
  intro h
  have := mem_rtakeWhile_imp h
  simp at this

lemma lastPiece_append (path : OsStr) {tail : OsStr} (h : slash ∉ tail) :
    lastPiece (path ++ tail) = lastPiece path ++ tail := by
  have hall : ∀ b ∈ tail.reverse, (b != slash) = true := by
    intro b hb
    have hne : b ≠ slash := by rintro rfl; exact h (mem_reverse.mp hb)
    simpa using hne
  simp [lastPiece, rtakeWhile, takeWhile_append_of_pos hall]

lemma directory_eq_nil_or (path : OsStr) :
    directory path = [] ∨ ∃ dir, directory path = dir ++ [slash] := by
  rcases eq_nil_or_concat' (directory path) with h | ⟨dir, b, h⟩
  · exact .inl h
  · have hne : directory path ≠ [] := by simp [h]
    have hlast := rdropWhile_last_not _ _ hne
    have hb : b = slash := by
      simpa [show path.rdropWhile (· != slash) = dir ++ [b] from h] using hlast
    exact .inr ⟨dir, by rw [h, hb]⟩

lemma parts_directory_append (path : OsStr) (h : slash ∉ piece) :
    parts (directory path ++ piece) = parts (directory path) ++ (piecePart piece).toList := by
  rcases directory_eq_nil_or path with hd | ⟨dir, hd⟩
  · rw [hd, nil_append, parts_nil, nil_append, parts_of_no_slash h]
  · have hdir : parts (dir ++ [slash]) = parts dir := by simpa using parts_append_slash dir []
    rw [hd, hdir, append_assoc, singleton_append, parts_append_slash,
      parts_of_no_slash h]

lemma resolve_append (cwd : List OsStr) (path : OsStr) {tail : OsStr} (h : slash ∉ tail)
    (hname : piecePart (lastPiece path ++ tail) = some (.name (lastPiece path ++ tail))) :
    resolve cwd (path ++ tail) = resolve cwd (directory path) ++ [lastPiece path ++ tail] := by
  have hspl : path ++ tail = directory path ++ (lastPiece path ++ tail) := by
    rw [← append_assoc, directory_append_lastPiece]
  have hpc : slash ∉ lastPiece path ++ tail := by
    simp [slash_not_mem_lastPiece, h]
  have habs : isAbsolute (path ++ tail) = isAbsolute (directory path) := by
    rw [hspl]
    rcases directory_eq_nil_or path with hd | ⟨dir, hd⟩
    · rw [hd, nil_append]
      cases hcons : lastPiece path ++ tail with
      | nil => rfl
      | cons b rest =>
        have hb : b ≠ slash := by
          rintro rfl
          exact hpc (by rw [hcons]; exact mem_cons_self ..)
        simpa [isAbsolute] using hb
    · exact isAbsolute_append (by simp [hd]) _
  rw [resolve, habs, hspl, parts_directory_append _ hpc, hname, Option.toList_some,
    Lexical.resolve_concat, ← resolve]
  rfl

/-- Joined to a directory that ends with `base`, the path leads into it. -/
def StaysIn (base : List OsStr) (path : OsStr) : Prop :=
  if isAbsolute path then base <+: Lexical.resolve [] (parts path)
  else base.drop (base.length - ((Lexical.climb (parts path)).1 - 1)) <+:
    (Lexical.climb (parts path)).2

instance (base : List OsStr) (path : OsStr) : Decidable (StaysIn base path) := by
  unfold StaysIn; infer_instance

lemma isPrefix_resolve_child_iff (base : List OsStr) (child path : OsStr) :
    base <+: resolve (base ++ [child]) path ↔ StaysIn base path := by
  rw [resolve, StaysIn]
  split_ifs with habs
  · exact Iff.rfl
  · exact Lexical.isPrefix_resolve_child_iff base child (parts path)

lemma exists_pieces_directory (path : OsStr) :
    ∃ dirs, ∀ piece, slash ∉ piece → pieces (directory path ++ piece) = dirs ++ [piece] := by
  rcases directory_eq_nil_or path with hd | ⟨dir, hd⟩
  · refine ⟨[], fun piece h => ?_⟩
    rw [hd, nil_append, pieces, splitOn_eq_singleton h, nil_append]
  · refine ⟨pieces dir, fun piece h => ?_⟩
    rw [hd, append_assoc, singleton_append, pieces, pieces,
      splitOn_append_cons_self, splitOn_eq_singleton h]

lemma trimmedPieces_of_pieces {dirs : List OsStr} (h : pieces path = dirs ++ [piece])
    (hpc : isEmptyPiece piece = false) : trimmedPieces path = dirs ++ [piece] := by
  rw [trimmedPieces, h]
  cases dirs with
  | nil => rfl
  | cons first dirs =>
    have hrest : (dirs ++ [piece]).rdropWhile isEmptyPiece = dirs ++ [piece] :=
      rdropWhile_concat_neg _ _ _ (by simp [hpc])
    simp [hrest]

lemma splitAtLastDot_append {stem : OsStr} (hstem : stem ≠ []) (hext : dot ∉ ext) :
    splitAtLastDot (stem ++ dot :: ext) = some (stem, ext) := by
  have hall : ∀ b ∈ ext.reverse, (b != dot) = true := by
    intro b hb
    have hne : b ≠ dot := by rintro rfl; exact hext (mem_reverse.mp hb)
    simpa using hne
  have hdrop : (stem ++ dot :: ext).rdropWhile (· != dot) = stem ++ [dot] := by
    simp [rdropWhile, dropWhile_append_of_pos hall]
  have htake : (stem ++ dot :: ext).rtakeWhile (· != dot) = ext := by
    simp [rtakeWhile, takeWhile_append_of_pos hall]
  rw [splitAtLastDot, hdrop, htake]
  cases stem with
  | nil => exact absurd rfl hstem
  | cons b stem =>
    cases stem with
    | nil => rfl
    | cons b' stem =>
      have hlast : (b :: b' :: stem ++ [dot]).dropLast = b :: b' :: stem := dropLast_concat ..
      simpa using hlast

lemma eq_of_splitAtLastDot {name stem : OsStr} (h : splitAtLastDot name = some (stem, ext)) :
    name = stem ++ dot :: ext := by
  have hspl : name.rdropWhile (· != dot) ++ name.rtakeWhile (· != dot) = name :=
    rdropWhile_append_rtakeWhile ..
  unfold splitAtLastDot at h
  split at h
  · cases h
  · cases h
  · next hne _ =>
    cases h
    have hbef : name.rdropWhile (· != dot) ≠ [] := hne
    have hlast : (name.rdropWhile (· != dot)).getLast hbef = dot := by
      simpa using rdropWhile_last_not (· != dot) name hbef
    rw [← hspl]
    nth_rewrite 1 [← dropLast_append_getLast hbef]
    rw [hlast, append_assoc, singleton_append]
    simp

lemma getLast?_of_extension (h : extension path = some ext) :
    path.getLast? = some slash ∨ path.getLast? = some dot ∨ ext <:+ path := by
  obtain ⟨dirs, hdirs⟩ := exists_pieces_directory path
  have hpcs := hdirs _ (slash_not_mem_lastPiece path)
  have hpath := directory_append_lastPiece path
  rw [hpath] at hpcs
  by_cases hemp : isEmptyPiece (lastPiece path) = true
  · simp only [isEmptyPiece, Bool.or_eq_true, decide_eq_true_eq] at hemp
    rcases hemp with hnil | hdot
    · rcases directory_eq_nil_or path with hd | ⟨dir, hd⟩
      · rw [hd, hnil] at hpath
        rw [← hpath] at h
        cases h
      · rw [hd, hnil, append_nil] at hpath
        exact .inl (by rw [← hpath, getLast?_concat])
    · rw [hdot] at hpath
      exact .inr (.inl (by rw [← hpath, getLast?_concat]))
  · have htrim := trimmedPieces_of_pieces hpcs (by simpa using hemp)
    obtain ⟨name, hname, hext⟩ := Option.bind_eq_some_iff.mp h
    obtain ⟨⟨stem, ext'⟩, hspl, rfl⟩ := Option.map_eq_some_iff.mp hext
    simp only [fileName, htrim, getLast?_concat] at hname
    split_ifs at hname
    cases hname
    refine .inr (.inr ?_)
    rw [← hpath, eq_of_splitAtLastDot hspl]
    exact ⟨directory path ++ (stem ++ [dot]), by simp⟩

lemma withExtension_append {ext' : OsStr} (hlast : lastPiece path ≠ []) (hne : ext ≠ [])
    (hdot : dot ∉ ext) (hsla : slash ∉ ext) (hne' : ext' ≠ []) (hsla' : slash ∉ ext') :
    withExtension (path ++ dot :: ext) ext' = path ++ dot :: ext' := by
  obtain ⟨dirs, hdirs⟩ := exists_pieces_directory path
  have hspl (e : OsStr) : path ++ dot :: e = directory path ++ (lastPiece path ++ dot :: e) := by
    rw [← append_assoc, directory_append_lastPiece]
  have hpc {e : OsStr} (he : slash ∉ e) : slash ∉ lastPiece path ++ dot :: e := by
    have hne : slash ≠ dot := by decide
    simp [slash_not_mem_lastPiece, he, hne]
  -- With a byte before the dot and one after it, the last piece is a file name.
  have hlen : 2 < (lastPiece path ++ dot :: ext).length := by
    have h1 := length_pos_iff.mpr hlast
    have h2 := length_pos_iff.mpr hne
    simp
    omega
  have hemp : isEmptyPiece (lastPiece path ++ dot :: ext) = false := by
    rw [isEmptyPiece, Bool.or_eq_false_iff, decide_eq_false_iff_not, decide_eq_false_iff_not]
    constructor <;> intro h <;> simp [h] at hlen
  have hup : lastPiece path ++ dot :: ext ≠ [dot, dot] := by
    intro h
    simp [h] at hlen
  have htrim : trimmedPieces (path ++ dot :: ext) = dirs ++ [lastPiece path ++ dot :: ext] := by
    rw [hspl]
    exact trimmedPieces_of_pieces (hdirs _ (hpc hsla)) hemp
  have hname : fileName (path ++ dot :: ext) = some (lastPiece path ++ dot :: ext) := by
    simp [fileName, htrim, hemp, hup]
  have hjoin : [slash].intercalate (dirs ++ [lastPiece path ++ dot :: ext']) =
      path ++ dot :: ext' := by
    rw [← hdirs _ (hpc hsla'), pieces, intercalate_splitOn, hspl]
  simp [withExtension, hname, htrim, splitAtLastDot_append hlast hdot, hne', hjoin]

lemma intercalate_isPrefix (sep : OsStr) {l₁ l₂ : List OsStr} (h : l₁ <+: l₂) :
    sep.intercalate l₁ <+: sep.intercalate l₂ := by
  obtain ⟨t, rfl⟩ := h
  induction l₁ with
  | nil => simp
  | cons a l₁ ih =>
    cases l₁ with
    | nil =>
      cases t with
      | nil => exact prefix_rfl
      | cons b t =>
        rw [intercalate_singleton, singleton_append, intercalate_cons_cons,
          append_assoc]
        exact prefix_append ..
    | cons a' l₁ =>
      rw [cons_append, cons_append, intercalate_cons_cons,
        intercalate_cons_cons]
      exact (prefix_append_right_inj _).mpr ih

lemma trimmedPieces_isPrefix (path : OsStr) : trimmedPieces path <+: pieces path := by
  unfold trimmedPieces
  split
  · exact nil_prefix
  · next first rest hpcs =>
    rw [hpcs]
    exact cons_prefix_cons.mpr ⟨rfl, rdropWhile_prefix ..⟩

lemma parent_isPrefix {dir : OsStr} (h : parent path = some dir) : dir <+: path := by
  have hpcs := trimmedPieces_isPrefix path
  have hpath : [slash].intercalate (pieces path) = path := intercalate_splitOn slash
  unfold parent at h
  split at h
  · cases h
  · split_ifs at h
    cases h
    exact nil_prefix
  · next first rest hne htrim =>
    rw [htrim] at hpcs
    have hlong : first :: rest.dropLast.rdropWhile isEmptyPiece <+: pieces path := by
      refine List.IsPrefix.trans (cons_prefix_cons.mpr ⟨rfl, ?_⟩) hpcs
      exact ( rdropWhile_prefix ..).trans ( dropLast_prefix _)
    split at h
    · split_ifs at h with hfst
      · -- An absolute path with one component.
        cases h
        obtain ⟨second, rest, rfl⟩ : ∃ a l, rest = a :: l :=
          exists_cons_of_ne_nil (by rintro rfl; exact hne rfl)
        have hroot := intercalate_isPrefix [slash] hpcs
        rw [hpath, hfst, intercalate_cons_cons, nil_append] at hroot
        exact (prefix_append ..).trans hroot
      · cases h
        next hnil =>
        rw [hnil] at hlong
        simpa [hpath] using intercalate_isPrefix [slash] hlong
    · cases h
      simpa [hpath] using intercalate_isPrefix [slash] hlong

end Aether.Core.Path
