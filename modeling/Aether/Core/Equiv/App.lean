import Aether.Algorithm.Separated
import Aether.Core.Manifest
import Mathlib.Data.List.Forall2
import Mathlib.Data.String.Basic

/-!
# App ids and their cgroup slices

The slice of an app id does not tell a dot from a hyphen.
-/

namespace Aether.Core

open Separated List

def IsLabelChar (c : Char) : Prop := c.isLower = true ∨ c.isDigit = true ∨ c = '-'

def sanitise (c : Char) : Char := if c.isAlphanum then c else '_'

variable {c d : Char} {s t l g : List Char} {ls : List (List Char)}

lemma sanitise_of_isAlphanum (h : c.isAlphanum = true) : sanitise c = c := if_pos h

lemma eq_of_sanitise_eq (h : sanitise c = sanitise d) (hd : d.isAlphanum = true) : c = d := by
  rw [sanitise_of_isAlphanum hd] at h
  unfold sanitise at h
  split at h
  · exact h
  · rw [← h] at hd
    exact absurd hd (by decide)

lemma IsLabelChar.eq_hyphen_or (h : IsLabelChar c) : c = '-' ∨ c.isAlphanum = true := by
  rcases h with h | h | h
  · have halp : c.isAlpha = true := Bool.or_eq_true_iff.mpr (.inr h)
    exact Or.inr (Bool.or_eq_true_iff.mpr (.inl halp))
  · exact Or.inr (Bool.or_eq_true_iff.mpr (.inr h))
  · exact Or.inl h

lemma IsLabelChar.ne_dot (h : IsLabelChar c) : c ≠ '.' := by
  rintro rfl
  revert h
  unfold IsLabelChar
  decide

lemma utf8Size_of_le (h : c.val ≤ 127) : c.utf8Size = 1 := if_pos h

lemma IsLabelChar.utf8Size (h : IsLabelChar c) : c.utf8Size = 1 := by
  apply utf8Size_of_le
  rcases h with h | h | rfl
  · have hle : c.val ≤ 'z'.val := of_decide_eq_true (Bool.and_eq_true_iff.mp h).2
    exact UInt32.le_trans hle (by decide)
  · have hle : c.val ≤ '9'.val := of_decide_eq_true (Bool.and_eq_true_iff.mp h).2
    exact UInt32.le_trans hle (by decide)
  · decide

structure IsLabel (s : List Char) : Prop where
  nonempty : s ≠ []
  short : s.length ≤ 63
  first : s.head? ≠ some '-'
  last : s.getLast? ≠ some '-'
  chars : ∀ c ∈ s, IsLabelChar c

lemma utf8Len_eq_length (h : ∀ c ∈ s, c.utf8Size = 1) : String.utf8Len s = s.length := by
  induction s with
  | nil => rfl
  | cons c s ih =>
    rw [forall_mem_cons] at h
    rw [String.utf8Len_cons, ih h.2, h.1, length_cons]

lemma isValidSegment_iff : isValidSegment s = true ↔ IsLabel s := by
  have hcs : (s.all fun c => c.isLower || c.isDigit || c == '-') = true ↔
      ∀ c ∈ s, IsLabelChar c := by
    simp [IsLabelChar, or_assoc]
  unfold isValidSegment
  simp only [Bool.and_eq_true, hcs, bne_iff_ne, decide_eq_true_eq, Bool.not_eq_true',
    isEmpty_eq_false_iff, String.utf8ByteSize_ofList]
  constructor
  · rintro ⟨⟨⟨⟨hne, hsh⟩, hfst⟩, hlast⟩, hall⟩
    rw [utf8Len_eq_length fun c hc => (hall c hc).utf8Size] at hsh
    exact ⟨hne, hsh, hfst, hlast, hall⟩
  · intro h
    rw [utf8Len_eq_length fun c hc => (h.chars c hc).utf8Size]
    exact ⟨⟨⟨⟨h.nonempty, h.short⟩, h.first⟩, h.last⟩, h.chars⟩

lemma IsLabel.of_append (h : IsLabel (s ++ t)) (hs : s ≠ []) (hlast : s.getLast? ≠ some '-') :
    IsLabel s := by
  refine ⟨hs, ?_, ?_, hlast, fun c hc => h.chars c (mem_append_left _ hc)⟩
  · have hsh := h.short
    rw [length_append] at hsh
    omega
  · have hfst := h.first
    rwa [head?_append_of_ne_nil s hs] at hfst

lemma IsLabel.of_append_right (h : IsLabel (s ++ t)) (ht : t ≠ []) (hfst : t.head? ≠ some '-') :
    IsLabel t := by
  refine ⟨ht, ?_, hfst, ?_, fun c hc => h.chars c (mem_append_right _ hc)⟩
  · have hsh := h.short
    rw [length_append] at hsh
    omega
  · rw [← getLast?_append_of_ne_nil s ht]
    exact h.last

lemma IsLabel.merge (hs : IsLabel s) (ht : IsLabel t) (hsh : s.length + 1 + t.length ≤ 63) :
    IsLabel (s ++ '-' :: t) := by
  refine ⟨by simp, ?_, ?_, ?_, ?_⟩
  · rw [length_append, length_cons]
    omega
  · rw [head?_append_of_ne_nil s hs.nonempty]
    exact hs.first
  · rw [← singleton_append, ← append_assoc, getLast?_append_of_ne_nil _ ht.nonempty]
    exact ht.last
  · intro c hc
    rw [mem_append, mem_cons] at hc
    rcases hc with hc | rfl | hc
    · exact hs.chars c hc
    · exact Or.inr (Or.inr rfl)
    · exact ht.chars c hc

lemma IsLabel.exists_concat (h : IsLabel s) : ∃ s' c, s = s' ++ [c] ∧ c.isAlphanum = true := by
  rcases eq_nil_or_concat' s with rfl | ⟨s', c, rfl⟩
  · exact absurd rfl h.nonempty
  · refine ⟨s', c, rfl, (h.chars c (by simp)).eq_hyphen_or.resolve_left ?_⟩
    rintro rfl
    exact h.last (by simp)

lemma IsLabel.exists_cons (h : IsLabel s) : ∃ c s', s = c :: s' ∧ c.isAlphanum = true := by
  obtain ⟨c, s', rfl⟩ := exists_cons_of_ne_nil h.nonempty
  refine ⟨c, s', rfl, (h.chars c (by simp)).eq_hyphen_or.resolve_left ?_⟩
  rintro rfl
  exact h.first rfl

structure IsAppId (l : List Char) : Prop where
  two : 2 ≤ (l.splitOn '.').length
  labels : ∀ s ∈ l.splitOn '.', IsLabel s
  short : l.length ≤ 253

lemma eq_dot_or_isLabelChar (h : ∀ s ∈ l.splitOn '.', IsLabel s) (hc : c ∈ l) :
    c = '.' ∨ IsLabelChar c := by
  have hjoin : ['.'].intercalate (l.splitOn '.') = l := intercalate_splitOn '.'
  rw [← hjoin] at hc
  rcases eq_or_mem_of_mem_intercalate hc with hdot | ⟨s, hs, hcs⟩
  · exact Or.inl hdot
  · exact Or.inr ((h s hs).chars c hcs)

lemma isValidAppId_iff {id : String} : isValidAppId id = true ↔ IsAppId id.toList := by
  -- the code limits the bytes; with valid labels there is one for each character
  have hsize : (∀ s ∈ id.toList.splitOn '.', IsLabel s) →
      id.utf8ByteSize = id.toList.length := by
    intro hlab
    rw [← String.ofList_toList (s := id), String.utf8ByteSize_ofList, String.toList_ofList]
    refine utf8Len_eq_length ?_
    intro c hc
    rcases eq_dot_or_isLabelChar hlab hc with rfl | hchar
    · decide
    · exact hchar.utf8Size
  unfold isValidAppId
  have hall : ((id.toList.splitOn '.').all isValidSegment) = true ↔
      ∀ s ∈ id.toList.splitOn '.', IsLabel s := by
    rw [all_eq_true]
    exact forall₂_congr fun s _ => isValidSegment_iff
  constructor
  · intro h
    split at h
    · cases h
    · rename_i hfst
      simp only at h
      split at h
      · cases h
      · rename_i htwo
        have hlab := hall.mp h
        refine ⟨by omega, hlab, ?_⟩
        rw [← hsize hlab]
        simp only [Bool.or_eq_true, decide_eq_true_eq, not_or] at hfst
        omega
  · intro h
    have hne : id.isEmpty = false := by
      rw [Bool.eq_false_iff]
      intro hemp
      have htwo := h.two
      rw [String.isEmpty_iff.mp hemp] at htwo
      simp at htwo
    have hbs : ¬ 253 < id.utf8ByteSize := by
      rw [hsize h.labels]
      have := h.short
      omega
    rw [if_neg (by simp [hne, hbs])]
    simp only
    rw [if_neg (by have := h.two; omega)]
    exact hall.mpr h.labels

lemma appCgroupSlice_eq_iff {a b : String} :
    appCgroupSlice a = appCgroupSlice b ↔ a.toList.map sanitise = b.toList.map sanitise := by
  have hsli : ∀ id : String, (appCgroupSlice id).toList =
      "aether.slice/app.".toList ++ id.toList.map sanitise ++ ".slice".toList := by
    intro id
    have heq : appCgroupSlice id =
      "aether.slice/app." ++ String.ofList (id.toList.map sanitise) ++ ".slice" := rfl
    have hmid : (String.ofList (id.toList.map sanitise)).toList = id.toList.map sanitise :=
      String.toList_ofList
    rw [heq, String.toList_append, String.toList_append, hmid]
  have hcan : ∀ p m m' q : List Char, p ++ m ++ q = p ++ m' ++ q ↔ m = m' := by simp
  rw [← String.toList_inj, hsli, hsli]
  exact hcan _ _ _ _

/-- A hyphen stands between two letters or digits. -/
def HasLoneHyphen (l : List Char) : Prop :=
  ∃ pre c d post, l = pre ++ c :: '-' :: d :: post ∧ c.isAlphanum = true ∧ d.isAlphanum = true

lemma ne_of_isAlphanum (h : c.isAlphanum = true) (hd : d.isAlphanum = false) : c ≠ d := by
  rintro rfl
  rw [hd] at h
  cases h

lemma IsAppId.dot_for_hyphen {pre post : List Char} (h : IsAppId (pre ++ c :: '-' :: d :: post))
    (hc : c.isAlphanum = true) (hd : d.isAlphanum = true) :
    IsAppId (pre ++ c :: '.' :: d :: post) := by
  have hcdot : c ≠ '.' := ne_of_isAlphanum hc (by decide)
  have hddot : d ≠ '.' := ne_of_isAlphanum hd (by decide)
  rcases eq_nil_or_concat' (pre.splitOn '.') with hnil | ⟨ls, l, hpre⟩
  · exact absurd hnil (splitOn_ne_nil _ _)
  obtain ⟨m, ms, hpost⟩ := exists_cons_of_ne_nil (splitOn_ne_nil '.' post)
  -- the labels before and after the hyphen, and the one that contains it
  have hleft : (pre ++ [c]).splitOn '.' = ls ++ [l ++ [c]] :=
    splitOn_append_cons_of_ne hcdot hpre (splitOn_nil '.')
  have hri : (d :: post).splitOn '.' = (d :: m) :: ms := by
    have hemp : ([] : List Char).splitOn '.' = [] ++ [[]] := splitOn_nil '.'
    exact splitOn_append_cons_of_ne hddot hemp hpost
  have hlab : (pre ++ c :: '-' :: d :: post).splitOn '.' =
      ls ++ (l ++ [c] ++ '-' :: d :: m) :: ms := by
    rw [append_cons]
    exact splitOn_append_cons_of_ne (by decide) hleft hri
  have hspl : (pre ++ c :: '.' :: d :: post).splitOn '.' =
      ls ++ (l ++ [c]) :: (d :: m) :: ms := by
    rw [append_cons, splitOn_append_cons, hleft, hri]
    simp
  have hval := h.labels
  rw [hlab] at hval
  have hmid : IsLabel (l ++ [c] ++ '-' :: d :: m) := hval _ (by simp)
  refine ⟨?_, ?_, ?_⟩
  · have htwo := h.two
    rw [hlab] at htwo
    rw [hspl]
    simp only [length_append, length_cons] at htwo ⊢
    omega
  · rw [hspl]
    intro s hs
    simp only [mem_append, mem_cons] at hs
    rcases hs with hs | rfl | rfl | hs
    · exact hval s (by simp [hs])
    · refine hmid.of_append (by simp) ?_
      simpa using ne_of_isAlphanum hc (by decide)
    · rw [append_cons] at hmid
      refine hmid.of_append_right (by simp) ?_
      simpa using ne_of_isAlphanum hd (by decide)
    · exact hval s (by simp [hs])
  · have hsh := h.short
    simpa using hsh

lemma IsAppId.hyphen_for_dot {ms : List (List Char)} (h : IsAppId l)
    (hl : l.splitOn '.' = ls ++ s :: t :: ms) (hthr : 3 ≤ (l.splitOn '.').length)
    (hsh : s.length + 1 + t.length ≤ 63) :
    ∃ l', IsAppId l' ∧ l' ≠ l ∧ l'.map sanitise = l.map sanitise := by
  have hval := h.labels
  rw [hl] at hval hthr
  have hlab : ∀ k ∈ ls ++ (s ++ '-' :: t) :: ms, IsLabel k := by
    intro k hk
    simp only [mem_append, mem_cons] at hk
    rcases hk with hk | rfl | hk
    · exact hval k (by simp [hk])
    · exact (hval s (by simp)).merge (hval t (by simp)) hsh
    · exact hval k (by simp [hk])
  have hspl : (['.'].intercalate (ls ++ (s ++ '-' :: t) :: ms)).splitOn '.' =
      ls ++ (s ++ '-' :: t) :: ms := by
    refine splitOn_intercalate '.' ?_ (by simp)
    intro k hk hdot
    exact ((hlab k hk).chars '.' hdot).ne_dot rfl
  -- the two ids differ in one character
  obtain ⟨before, after, hctx⟩ := exists_intercalate_eq (x := '.') ls ms
  have hjoin : l = before ++ (s ++ '.' :: t) ++ after := by
    rw [← hctx, intercalate_merge, ← hl, intercalate_splitOn]
  have hlen : (['.'].intercalate (ls ++ (s ++ '-' :: t) :: ms)).length = l.length := by
    rw [hctx, hjoin]
    simp
  refine ⟨_, ⟨?_, hspl ▸ hlab, hlen ▸ h.short⟩, ?_, ?_⟩
  · rw [hspl]
    simp only [length_append, length_cons] at hthr ⊢
    omega
  · intro heq
    have hcnt := congrArg length (hspl.symm.trans ((congrArg _ heq).trans hl))
    simp at hcnt
  · rw [hctx, hjoin]
    simp [sanitise]

lemma eq_dot_of_between {rest after : List Char} {x : Char} (hs : IsLabel s) (ht : IsLabel t)
    (hg : g.map sanitise = s.map sanitise) (hrest : rest.map sanitise = (t ++ after).map sanitise)
    (hx : x = '.' ∨ IsLabelChar x) (hsame : sanitise x = sanitise '.')
    (hlone : ¬ HasLoneHyphen (g ++ x :: rest)) : x = '.' := by
  rcases hx with hdot | hchar
  · exact hdot
  exfalso
  rcases hchar.eq_hyphen_or with rfl | haln
  · -- the characters next to the hyphen are those at the end of `s` and the beginning of `t`
    obtain ⟨s', c, rfl, hc⟩ := hs.exists_concat
    obtain ⟨d, t', rfl, hd⟩ := ht.exists_cons
    rw [map_append] at hg
    obtain ⟨g', last, rfl, -, hlast⟩ := map_eq_append_iff.mp hg
    obtain ⟨c', rfl, hc'⟩ := map_eq_singleton_iff.mp hlast
    rw [cons_append, map_cons] at hrest
    obtain ⟨d', rest', rfl, hd', -⟩ := map_eq_cons_iff.mp hrest
    refine hlone ⟨g', c', d', rest', by simp, ?_, ?_⟩
    · rw [eq_of_sanitise_eq hc' hc]
      exact hc
    · rw [eq_of_sanitise_eq hd' hd]
      exact hd
  · have heq := eq_of_sanitise_eq hsame.symm haln
    rw [← heq] at haln
    exact absurd haln (by decide)

lemma exists_groups (hls : ls ≠ []) (hlab : ∀ s ∈ ls, IsLabel s)
    (hcs : ∀ c ∈ l, c = '.' ∨ IsLabelChar c) (hlone : ¬ HasLoneHyphen l)
    (hmap : l.map sanitise = (['.'].intercalate ls).map sanitise) :
    ∃ groups, l = ['.'].intercalate groups ∧
      List.Forall₂ (fun g s => g.map sanitise = s.map sanitise) groups ls := by
  induction ls generalizing l with
  | nil => exact absurd rfl hls
  | cons s ls ih =>
    cases ls with
    | nil =>
      rw [intercalate_singleton] at hmap
      exact ⟨[l], by simp, List.Forall₂.cons hmap List.Forall₂.nil⟩
    | cons t ls =>
      rw [forall_mem_cons] at hlab
      rw [intercalate_cons_cons, append_assoc, singleton_append, map_append,
        map_cons] at hmap
      -- `g` stands where the first label is, and `x` where the dot after it is
      obtain ⟨g, tail, rfl, hg, htail⟩ := map_eq_append_iff.mp hmap
      obtain ⟨x, rest, rfl, hx, hrest⟩ := map_eq_cons_iff.mp htail
      obtain ⟨after, haft⟩ : ∃ after, ['.'].intercalate (t :: ls) = t ++ after := by
        cases ls with
        | nil => exact ⟨[], by simp⟩
        | cons u ls => exact ⟨_, by rw [intercalate_cons_cons, append_assoc]⟩
      have hdot : x = '.' :=
        eq_dot_of_between hlab.1 (hlab.2 t (by simp)) hg (haft ▸ hrest)
          (hcs x (by simp)) hx hlone
      subst hdot
      have hlone' : ¬ HasLoneHyphen rest := by
        rintro ⟨pre, c, d, post, rfl, hc, hd⟩
        exact hlone ⟨g ++ '.' :: pre, c, d, post, by simp, hc, hd⟩
      obtain ⟨groups, rfl, hall⟩ := ih (by simp) hlab.2
        (fun c hc => hcs c (by simp [hc])) hlone' hrest
      refine ⟨g :: groups, ?_, List.Forall₂.cons hg hall⟩
      obtain ⟨g', groups, rfl⟩ : ∃ g' groups', groups = g' :: groups' := by
        cases hall with
        | cons => exact ⟨_, _, rfl⟩
      rw [intercalate_cons_cons, append_assoc, singleton_append]

lemma eq_of_map_sanitise (hg : ∀ c ∈ g, IsLabelChar c) (hs : ∀ c ∈ s, IsLabelChar c)
    (hmap : g.map sanitise = s.map sanitise) : g = s := by
  induction g generalizing s with
  | nil => exact (map_eq_nil_iff.mp hmap.symm).symm
  | cons c g ih =>
    rw [map_cons] at hmap
    obtain ⟨d, s, rfl, hd, hmap'⟩ := map_eq_cons_iff.mp hmap.symm
    rw [forall_mem_cons] at hg hs
    have hcd : c = d := by
      rcases hg.1.eq_hyphen_or with rfl | hc
      · rcases hs.1.eq_hyphen_or with rfl | hd'
        · rfl
        · exact eq_of_sanitise_eq hd.symm hd'
      · exact (eq_of_sanitise_eq hd hc).symm
    rw [hcd, ih hg.2 hs.2 hmap'.symm]

lemma group_cases {groups : List (List Char)} (hlab : ∀ s ∈ ls, IsLabel s)
    (hall : List.Forall₂ (fun g s => g.map sanitise = s.map sanitise) groups ls)
    (hcs : ∀ g ∈ groups, ∀ c ∈ g, c = '.' ∨ IsLabelChar c) :
    groups = ls ∨ ∃ g ∈ groups, '.' ∈ g ∧ g.length ≤ 63 := by
  induction hall with
  | nil => exact Or.inl rfl
  | @cons g s groups ls hmap _ ih =>
    rw [forall_mem_cons] at hlab hcs
    by_cases hdot : '.' ∈ g
    · refine Or.inr ⟨g, mem_cons_self .., hdot, ?_⟩
      have hlen : g.length = s.length := by simpa using congrArg length hmap
      rw [hlen]
      exact hlab.1.short
    · have hg : ∀ c ∈ g, IsLabelChar c := by
        intro c hc
        refine (hcs.1 c hc).resolve_left ?_
        rintro rfl
        exact hdot hc
      rw [eq_of_map_sanitise hg hlab.1.chars hmap]
      rcases ih hlab.2 hcs.2 with rfl | ⟨g', hg', hsh⟩
      · exact Or.inl rfl
      · exact Or.inr ⟨g', mem_cons_of_mem _ hg', hsh⟩

lemma length_le_flatMap_splitOn (groups : List (List Char)) :
    groups.length ≤ (groups.flatMap fun g => g.splitOn '.').length := by
  induction groups with
  | nil => exact Nat.le_refl 0
  | cons g groups ih =>
    have hpos : 0 < (g.splitOn '.').length := length_pos_of_ne_nil (splitOn_ne_nil _ _)
    rw [flatMap_cons, length_append, length_cons]
    omega

lemma exists_two_labels (hdot : '.' ∈ g) :
    ∃ s t ms, g.splitOn '.' = s :: t :: ms ∧ s.length + 1 + t.length ≤ g.length := by
  obtain ⟨pre, post, rfl⟩ := append_of_mem hdot
  have hjoin : ['.'].intercalate ((pre ++ '.' :: post).splitOn '.') = pre ++ '.' :: post :=
    intercalate_splitOn '.'
  rw [splitOn_append_cons] at hjoin ⊢
  obtain ⟨s, ls, hpre⟩ := exists_cons_of_ne_nil (splitOn_ne_nil '.' pre)
  obtain ⟨t, ms, hrest⟩ : ∃ t ms, ls ++ post.splitOn '.' = t :: ms :=
    exists_cons_of_ne_nil (by simp [splitOn_ne_nil])
  rw [hpre, cons_append, hrest] at hjoin ⊢
  refine ⟨s, t, ms, rfl, ?_⟩
  have hlen := congrArg length hjoin
  rw [intercalate_cons_cons, length_append, length_append] at hlen
  have hle : t.length ≤ (['.'].intercalate (t :: ms)).length := by
    have happ := intercalate_append_cons (x := '.') t [] ms
    rw [append_nil] at happ
    rw [happ, length_append]
    omega
  rw [← hlen, length_singleton]
  omega

lemma eq_or_adjacent (hls : ls ≠ []) (hlab : ∀ s ∈ ls, IsLabel s)
    (hl : ∀ s ∈ l.splitOn '.', IsLabel s) (hlone : ¬ HasLoneHyphen l)
    (hmap : l.map sanitise = (['.'].intercalate ls).map sanitise) :
    l = ['.'].intercalate ls ∨
      ls.length < (l.splitOn '.').length ∧ ∃ ks s t ms, l.splitOn '.' = ks ++ s :: t :: ms ∧
        s.length + 1 + t.length ≤ 63 := by
  have hcs : ∀ c ∈ l, c = '.' ∨ IsLabelChar c := fun c hc => eq_dot_or_isLabelChar hl hc
  obtain ⟨groups, rfl, hall⟩ := exists_groups hls hlab hcs hlone hmap
  have hgro : groups ≠ [] := by
    rintro rfl
    cases hall
    exact hls rfl
  have hmem : ∀ g ∈ groups, ∀ c ∈ g, c ∈ ['.'].intercalate groups := by
    intro g hg c hc
    obtain ⟨ks, ms, rfl⟩ := append_of_mem hg
    obtain ⟨before, after, hctx⟩ := exists_intercalate_eq (x := '.') ks ms
    rw [hctx]
    simp [hc]
  rcases group_cases hlab hall fun g hg c hc => hcs c (hmem g hg c hc) with
    rfl | ⟨g, hg, hdot, hsh⟩
  · exact Or.inl rfl
  · refine Or.inr ?_
    obtain ⟨ks, ms, hks⟩ := append_of_mem hg
    obtain ⟨s, t, rest, hspl, hfit⟩ := exists_two_labels hdot
    have hlen := hall.length_eq
    have hksl := length_le_flatMap_splitOn ks
    have hmsl := length_le_flatMap_splitOn ms
    rw [splitOn_intercalate_flatMap hgro, ← hlen, hks, flatMap_append,
      flatMap_cons, hspl]
    refine ⟨?_, _, s, t, rest ++ ms.flatMap fun g => g.splitOn '.', rfl, by omega⟩
    simp only [length_append, length_cons]
    omega

/-- The slice of a valid id is its own exactly if the id has no lone hyphen and cannot lose a dot:
there is only one, or no two neighbouring labels fit into one. -/
theorem appCgroupSlice_unique_iff (a : String) (ha : isValidAppId a = true) :
    (∀ b, isValidAppId b = true → appCgroupSlice a = appCgroupSlice b → a = b) ↔
      ¬ HasLoneHyphen a.toList ∧
        ((a.toList.splitOn '.').length = 2 ∨
          ∀ ks s t ms, a.toList.splitOn '.' = ks ++ s :: t :: ms →
            63 < s.length + 1 + t.length) := by
  have hid := isValidAppId_iff.mp ha
  constructor
  · intro huni
    -- another id with the same slice is `a` itself
    have hsame : ∀ l, IsAppId l → l.map sanitise = a.toList.map sanitise → l = a.toList := by
      intro l hl hmap
      have hb := huni (String.ofList l) (isValidAppId_iff.mpr (by rwa [String.toList_ofList]))
        (appCgroupSlice_eq_iff.mpr (by rw [String.toList_ofList, hmap]))
      rw [hb, String.toList_ofList]
    constructor
    · rintro ⟨pre, c, d, post, hpre, hc, hd⟩
      have hdot := (hpre ▸ hid).dot_for_hyphen hc hd
      have heq := hsame _ hdot (by rw [hpre]; simp [sanitise])
      rw [hpre] at heq
      simp at heq
    · by_contra hcon
      rw [not_or] at hcon
      obtain ⟨hcnt, hadj⟩ := hcon
      simp only [not_forall, not_lt] at hadj
      obtain ⟨ks, s, t, ms, hspl, hsh⟩ := hadj
      have hthr : 3 ≤ (a.toList.splitOn '.').length := by
        have := hid.two
        omega
      obtain ⟨l, hl, hne, hmap⟩ := hid.hyphen_for_dot hspl hthr hsh
      exact hne (hsame l hl hmap)
  · rintro ⟨hlone, hdots⟩ b hb hsli
    have hb' := isValidAppId_iff.mp hb
    have hmap := appCgroupSlice_eq_iff.mp hsli
    have hjoin : ['.'].intercalate (b.toList.splitOn '.') = b.toList := intercalate_splitOn '.'
    rw [← String.toList_inj, ← hjoin]
    rw [← hjoin] at hmap
    rcases eq_or_adjacent (splitOn_ne_nil _ _) hb'.labels hid.labels hlone hmap with
      heq | ⟨hmore, ks, s, t, ms, hspl, hsh⟩
    · exact heq
    · have htwo := hb'.two
      rcases hdots with hcnt | hlong
      · omega
      · have := hlong ks s t ms hspl
        omega

/-- An id of two plain labels has a slice of its own. -/
theorem appCgroupSlice_unique_iff_plain :
    isValidAppId "com.example" = true ∧
      ∀ b, isValidAppId b = true → appCgroupSlice "com.example" = appCgroupSlice b →
        "com.example" = b := by
  have hval : isValidAppId "com.example" = true := by decide +kernel
  have hhyp : '-' ∉ "com.example".toList := by decide
  refine ⟨hval, (appCgroupSlice_unique_iff "com.example" hval).mpr ⟨?_, Or.inl (by decide)⟩⟩
  rintro ⟨pre, c, d, post, heq, -, -⟩
  rw [heq] at hhyp
  simp at hhyp

/-- Two valid ids with one slice. -/
theorem appCgroupSlice_shared :
    isValidAppId "com.a-b" = true ∧ isValidAppId "com-a.b" = true ∧
      appCgroupSlice "com.a-b" = appCgroupSlice "com-a.b" ∧ "com.a-b" ≠ "com-a.b" := by
  decide +kernel

end Aether.Core
