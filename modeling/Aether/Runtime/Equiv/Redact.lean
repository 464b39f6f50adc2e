import Aether.Algorithm.Runs
import Aether.Runtime.HostState
import Mathlib.Data.String.Basic

/-!
# What redaction does

The patterns and the values contain no delimiter, so a pass acts on the runs between delimiters one
by one: `cutValue` keeps what stands before the first occurrence of `key=` and replaces the rest.
-/

namespace Aether.Runtime

open Aether.Core Runs List Option

section Pattern

variable {p before after cs key : List Char} {e : Char}

lemma not_infix_of_splitAtPattern (h : splitAtPattern p cs = none) : ¬ p <:+: cs := by
  induction cs with
  | nil =>
    unfold splitAtPattern at h
    split_ifs at h with hp
    rw [infix_nil]
    rintro rfl
    exact hp rfl
  | cons c cs ih =>
    unfold splitAtPattern at h
    split_ifs at h with hp
    rw [ isPrefixOf_iff_prefix] at hp
    rw [map_eq_none_iff] at h
    rw [infix_cons_iff, not_or]
    exact ⟨hp, ih h⟩

lemma of_splitAtPattern (h : splitAtPattern (key ++ [e]) cs = some (before, after)) :
    cs = before ++ (key ++ [e]) ++ after ∧ ¬ key ++ [e] <:+: before ++ key := by
  induction cs generalizing before with
  | nil =>
    unfold splitAtPattern at h
    split_ifs at h with hp
    simp at hp
  | cons c cs ih =>
    unfold splitAtPattern at h
    split_ifs at h with hp
    · rw [ isPrefixOf_iff_prefix] at hp
      simp only [some.injEq, Prod.mk.injEq] at h
      obtain ⟨rfl, rfl⟩ := h
      obtain ⟨rest, hrest⟩ := hp
      constructor
      · rw [← hrest, drop_left, nil_append]
      · intro hsub
        have hlen := hsub.length_le
        simp at hlen
    · rw [ isPrefixOf_iff_prefix] at hp
      obtain ⟨⟨before', after'⟩, hspl, heq⟩ := map_eq_some_iff.mp h
      simp only [Prod.mk.injEq] at heq
      obtain ⟨rfl, rfl⟩ := heq
      obtain ⟨rfl, hfst⟩ := ih hspl
      refine ⟨rfl, ?_⟩
      rw [cons_append, infix_cons_iff, not_or]
      refine ⟨fun hpre => hp (hpre.trans ?_), hfst⟩
      exact ⟨e :: after', by simp⟩

lemma splitAtPattern_append (hfst : ¬ key ++ [e] <:+: before ++ key) (after : List Char) :
    splitAtPattern (key ++ [e]) (before ++ (key ++ [e]) ++ after) = some (before, after) := by
  induction before with
  | nil =>
    obtain ⟨c, cs, hcs⟩ : ∃ c cs, key ++ [e] = c :: cs := exists_cons_of_ne_nil (by simp)
    have hpre : (key ++ [e]).isPrefixOf (c :: cs ++ after) = true := by
      rw [ isPrefixOf_iff_prefix, hcs]
      exact prefix_append _ _
    rw [nil_append, hcs, cons_append]
    unfold splitAtPattern
    rw [hcs, cons_append] at hpre
    rw [if_pos hpre]
    simp
  | cons c before ih =>
    rw [cons_append, infix_cons_iff, not_or] at hfst
    have hnot : ¬ (key ++ [e]).isPrefixOf (c :: (before ++ (key ++ [e]) ++ after)) = true := by
      rw [ isPrefixOf_iff_prefix]
      intro hpre
      -- an occurrence at the front would end before the one that is given
      have hoth : c :: (before ++ key) <+: c :: (before ++ (key ++ [e]) ++ after) :=
        ⟨e :: after, by simp⟩
      exact hfst.1 (prefix_of_prefix_length_le hpre hoth (by simp))
    rw [cons_append, cons_append]
    unfold splitAtPattern
    rw [if_neg hnot, ih hfst.2, map_some]

lemma find_eq (p cs : List Char) :
    ByteText.find Char.utf8Size p cs = (splitAtPattern p cs).map fun r => Str.len r.1 := by
  induction cs with
  | nil =>
    unfold ByteText.find splitAtPattern
    cases p with
    | nil => rfl
    | cons c p => simp
  | cons c cs ih =>
    unfold ByteText.find splitAtPattern
    by_cases hp : p <+: c :: cs
    · have hp' : p.isPrefixOf (c :: cs) = true := isPrefixOf_iff_prefix.mpr hp
      rw [if_pos hp, if_pos hp']
      rfl
    · have hp' : ¬ p.isPrefixOf (c :: cs) = true := by rwa [ isPrefixOf_iff_prefix]
      rw [if_neg hp, if_neg hp', ih, Option.map_map, Option.map_map]
      congr 1
      funext r
      exact Nat.add_comm _ _

end Pattern

def cutValue (key run : List Char) : List Char :=
  match splitAtPattern (key ++ ['=']) run with
  | none => run
  | some (before, _) => before ++ key ++ "=[REDACTED]".toList

section Cut

variable {key run before : List Char}

lemma cutValue_of_absent (h : ¬ key ++ ['='] <:+: run) : cutValue key run = run := by
  unfold cutValue
  cases hspl : splitAtPattern (key ++ ['=']) run with
  | none => rfl
  | some parts =>
    obtain ⟨heq, -⟩ := of_splitAtPattern (hspl.trans (congrArg some (Prod.mk.eta).symm))
    exact absurd ⟨parts.1, parts.2, heq.symm⟩ h

lemma cutValue_append (hfst : ¬ key ++ ['='] <:+: before ++ key) (after : List Char) :
    cutValue key (before ++ (key ++ ['=']) ++ after) = before ++ key ++ "=[REDACTED]".toList := by
  unfold cutValue
  rw [splitAtPattern_append hfst]

lemma exists_of_infix (h : key ++ ['='] <:+: run) :
    ∃ before after, run = before ++ (key ++ ['=']) ++ after ∧
      ¬ key ++ ['='] <:+: before ++ key := by
  cases hspl : splitAtPattern (key ++ ['=']) run with
  | none => exact absurd h (not_infix_of_splitAtPattern hspl)
  | some parts => exact ⟨parts.1, parts.2, of_splitAtPattern hspl⟩

lemma clean_cutValue (hkey : Clean isDelimiter key) (hrun : Clean isDelimiter run) :
    Clean isDelimiter (cutValue key run) := by
  by_cases h : key ++ ['='] <:+: run
  · obtain ⟨before, after, rfl, hfst⟩ := exists_of_infix h
    rw [cutValue_append hfst]
    have hbef : Clean isDelimiter before := hrun.of_infix ⟨[], key ++ '=' :: after, by simp⟩
    have hnew : Clean isDelimiter "=[REDACTED]".toList := clean_of_all (by decide)
    exact (hbef.append hkey).append hnew
  · rw [cutValue_of_absent h]
    exact hrun

end Cut

section Pass

variable {key cs before after : List Char}

lemma cutValue_bracket (key : List Char) : cutValue key [']'] = [']'] := by
  apply cutValue_of_absent
  intro hsub
  have hmem : '=' ∈ [']'] := hsub.subset (by simp)
  simp at hmem

lemma mapRuns_of_splitAtPattern (hkey : Clean isDelimiter key)
    (hspl : splitAtPattern (key ++ ['=']) cs = some (before, after)) :
    mapRuns isDelimiter (cutValue key) cs = before ++ key ++ "=[REDACTED".toList ++
      mapRuns isDelimiter (cutValue key) (']' :: after.dropWhile fun c => !isDelimiter c) := by
  obtain ⟨rfl, hfst⟩ := of_splitAtPattern hspl
  -- the run that is being read when the occurrence begins
  obtain ⟨pre, run, hrun, hsuf, heq, hfix⟩ :=
    exists_mapFrom_append (f := cutValue key) (clean_nil (d := isDelimiter)) before
  rw [nil_append] at hsuf hfix
  have hbef : pre ++ run = before := by
    apply hfix
    intro r hr
    apply cutValue_of_absent
    intro hsub
    exact hfst ((hsub.trans hr).trans (prefix_append _ _).isInfix)
  -- the value, and where it ends
  have hcln : Clean isDelimiter (after.takeWhile fun c => !isDelimiter c) := clean_takeWhile after
  obtain ⟨post, hpost⟩ :=
    exists_mapFrom_dropWhile (d := isDelimiter) (f := cutValue key) after
  have haft : after = (after.takeWhile fun c => !isDelimiter c) ++
      after.dropWhile fun c => !isDelimiter c := takeWhile_append_dropWhile.symm
  generalize (after.takeWhile fun c => !isDelimiter c) = value at hcln haft
  generalize (after.dropWhile fun c => !isDelimiter c) = rest at hpost haft ⊢
  have hmid : Clean isDelimiter (key ++ ['='] ++ value) :=
    (hkey.append (clean_singleton (by decide))).append hcln
  have hcut : cutValue key (run ++ (key ++ ['='] ++ value)) =
      run ++ key ++ "=[REDACTED]".toList := by
    rw [← append_assoc, cutValue_append]
    intro hsub
    apply hfst
    obtain ⟨front, rfl⟩ := hsuf
    exact hsub.trans ⟨front, [], by simp⟩
  have hbra : mapRuns isDelimiter (cutValue key) (']' :: rest) = ']' :: post := by
    rw [mapRuns, ← singleton_append, mapFrom_append_clean (clean_singleton (by decide)), hpost,
      nil_append, cutValue_bracket]
    rfl
  rw [hbra, haft, mapRuns, append_assoc, ← append_assoc (key ++ ['=']), heq,
    mapFrom_append_clean hmid, hpost, hcut, ← hbef]
  simp

lemma mapRuns_of_splitAtPattern_none (hspl : splitAtPattern (key ++ ['=']) cs = none) :
    mapRuns isDelimiter (cutValue key) cs = cs := by
  apply mapRuns_eq_self
  intro r hr
  apply cutValue_of_absent
  intro hsub
  exact not_infix_of_splitAtPattern hspl (hsub.trans hr)

lemma length_rest_lt (hne : key ≠ [])
    (hspl : splitAtPattern (key ++ ['=']) cs = some (before, after)) :
    (']' :: after.dropWhile fun c => !isDelimiter c).length < cs.length := by
  obtain ⟨rfl, -⟩ := of_splitAtPattern hspl
  have hrest := (List.dropWhile_suffix (fun c => !isDelimiter c) (l := after)).length_le
  have hpos := List.length_pos_iff.mpr hne
  simp only [List.length_append, List.length_cons, List.length_nil]
  omega

lemma redactKey_eq (hkey : Clean isDelimiter key) (hne : key ≠ []) :
    ∀ (fuel : ℕ) (cs : List Char), cs.length ≤ fuel →
      redactKey key fuel cs = mapRuns isDelimiter (cutValue key) cs := by
  intro fuel
  induction fuel with
  | zero =>
    intro cs hcs
    have hnone : splitAtPattern (key ++ ['=']) [] = none := by simp [splitAtPattern]
    rw [length_eq_zero_iff.mp (Nat.le_zero.mp hcs)]
    exact (mapRuns_of_splitAtPattern_none hnone).symm
  | succ fuel ih =>
    intro cs hcs
    unfold redactKey
    cases hspl : splitAtPattern (key ++ ['=']) cs with
    | none => exact (mapRuns_of_splitAtPattern_none hspl).symm
    | some parts =>
      have hlt := length_rest_lt hne hspl
      rw [mapRuns_of_splitAtPattern hkey hspl, ← ih _ (by omega)]
      rfl

end Pass

section Loop

variable {key : String} {done rest : Str} {before after : List Char}

lemma replaceValue_eq (key : String) (done before after : Str) :
    replaceValue key (done ++ (before ++ (key.toList ++ ['=']) ++ after)) (done.len + before.len) =
      some (done ++ before ++ key.toList ++ "=[REDACTED]".toList ++
        after.dropWhile fun c => !isDelimiter c) := by
  generalize hval : (after.takeWhile fun c => !isDelimiter c) = value
  generalize hrest : (after.dropWhile fun c => !isDelimiter c) = tail
  have haft : after = value ++ tail := by
    rw [← hval, ← hrest, takeWhile_append_dropWhile]
  have hsta : done.len + before.len + Str.len (key ++ "=").toList =
      Str.len (done ++ before ++ (key.toList ++ ['='])) := by
    simp [Nat.add_assoc]
  have htext : done ++ (before ++ (key.toList ++ ['=']) ++ after) =
      done ++ before ++ (key.toList ++ ['=']) ++ after := by
    simp
  -- the end of the value, whether or not a delimiter follows
  have hend : ((after.findP isDelimiter).map
        (Str.len (done ++ before ++ (key.toList ++ ['='])) + ·)).getD
        (Str.len (done ++ before ++ (key.toList ++ ['=']) ++ after)) =
      Str.len (done ++ before) + Str.len (key.toList ++ ['='] ++ value) := by
    rw [Str.findP, ByteText.findP_eq]
    split_ifs with hany
    · rw [hval, map_some, getD_some]
      simp [Str.len, Nat.add_assoc]
    · have hall : value = after := by
        rw [← hval, takeWhile_eq_self_iff]
        simpa using hany
      rw [map_none, getD_none, hall]
      simp [Str.len, Nat.add_assoc]
  have hpar : done ++ before ++ (key.toList ++ ['=']) ++ after =
      done ++ before ++ (key.toList ++ ['='] ++ value) ++ tail := by
    rw [haft]
    simp
  unfold replaceValue
  simp only [hsta, htext, Str.sliceFrom_append, bind_eq_bind, bind_some, hend]
  rw [hpar, ← Str.len_append, Str.replaceRange_append]
  simp

lemma redactLoop_eq (hkey : Clean isDelimiter key.toList) (hne : key.toList ≠ []) :
    ∀ (fuel : ℕ) (done rest : Str), rest.length < fuel →
      redactLoop key fuel (done ++ rest) done.len =
        some (done ++ mapRuns isDelimiter (cutValue key.toList) rest) := by
  intro fuel
  induction fuel with
  | zero => intro done rest hfuel; omega
  | succ fuel ih =>
    intro done rest hfuel
    have hpat : (key ++ "=").toList = key.toList ++ ['='] := by simp
    unfold redactLoop
    rw [Str.sliceFrom_append, bind_eq_bind, bind_some, Str.find, hpat, find_eq]
    cases hspl : splitAtPattern (key.toList ++ ['=']) rest with
    | none =>
      rw [mapRuns_of_splitAtPattern_none hspl]
      rfl
    | some parts =>
      obtain ⟨before, after⟩ := parts
      have hlt := length_rest_lt hne hspl
      obtain ⟨hrest, -⟩ := of_splitAtPattern hspl
      rw [mapRuns_of_splitAtPattern hkey hspl]
      -- the search goes on at the bracket that ends the replacement
      have hnext : done ++ before ++ key.toList ++ "=[REDACTED]".toList ++
            (after.dropWhile fun c => !isDelimiter c) =
          (done ++ before ++ key.toList ++ "=[REDACTED".toList) ++
            (']' :: after.dropWhile fun c => !isDelimiter c) := by
        simp
      have hoff : done.len + Str.len before + Str.len key.toList + Str.len "[REDACTED]".toList =
          Str.len (done ++ before ++ key.toList ++ "=[REDACTED".toList) := by
        have hlen : Str.len "[REDACTED]".toList = Str.len "=[REDACTED".toList := by decide
        rw [Str.len_append, Str.len_append, Str.len_append, hlen]
      have hrep := replaceValue_eq key done before after
      rw [← hrest] at hrep
      simp only [map_some, hrep, bind_some]
      rw [hnext, hoff, ih _ _ (by omega)]
      simp

end Loop

structure IsKey (key : List Char) : Prop where
  clean : Clean isDelimiter key
  ne_nil : key ≠ []
  no_equals : '=' ∉ key

lemma isKey_of_mem {key : String} (h : key ∈ sensitiveKeys) : IsKey key.toList := by
  have hall : sensitiveKeys.all (fun key => key.toList.all (fun c => !isDelimiter c) &&
      !key.toList.isEmpty && !key.toList.contains '=') = true := by
    decide
  have hkey := all_eq_true.mp hall key h
  simp only [Bool.and_eq_true, Bool.not_eq_true', isEmpty_eq_false_iff] at hkey
  obtain ⟨⟨hcln, hne⟩, hequ⟩ := hkey
  exact ⟨clean_of_all hcln, hne, by simpa using hequ⟩

def cutValues (keys : List String) (run : List Char) : List Char :=
  keys.foldl (fun run key => cutValue key.toList run) run

section Keys

variable {keys : List String} (hkeys : ∀ key ∈ keys, IsKey key.toList)

include hkeys

lemma foldl_redactKey_eq (cs : List Char) :
    keys.foldl (fun cs key => redactKey key.toList cs.length cs) cs =
      mapRuns isDelimiter (cutValues keys) cs := by
  induction keys generalizing cs with
  | nil => exact (mapRuns_eq_self fun _ _ => rfl).symm
  | cons key keys ih =>
    have hkey := hkeys key mem_cons_self
    have hrest : ∀ key ∈ keys, IsKey key.toList := fun key h => hkeys key (mem_cons_of_mem _ h)
    rw [foldl_cons, redactKey_eq hkey.clean hkey.ne_nil _ _ le_rfl, ih hrest]
    exact mapFrom_comp (fun run hrun => clean_cutValue hkey.clean hrun) clean_nil cs

lemma foldlM_redactLoop_eq (text : Str) :
    keys.foldlM (fun result key => redactLoop key (result.length + 1) result 0) text =
      some (keys.foldl (fun cs key => redactKey key.toList cs.length cs) text) := by
  induction keys generalizing text with
  | nil => rfl
  | cons key keys ih =>
    have hkey := hkeys key mem_cons_self
    have hrest : ∀ key ∈ keys, IsKey key.toList := fun key h => hkeys key (mem_cons_of_mem _ h)
    have hloop := redactLoop_eq hkey.clean hkey.ne_nil (text.length + 1) [] text (by omega)
    rw [nil_append, ← redactKey_eq hkey.clean hkey.ne_nil _ _ le_rfl] at hloop
    rw [foldlM_cons, foldl_cons]
    show (redactLoop key (text.length + 1) text 0 >>= _) = _
    rw [show (0 : ℕ) = Str.len [] from rfl, hloop]
    exact ih hrest _

end Keys

lemma redactSensitive_eq (cs : List Char) :
    redactSensitive cs = mapRuns isDelimiter (cutValues sensitiveKeys) cs :=
  foldl_redactKey_eq (fun _ h => isKey_of_mem h) cs

lemma redactText_eq (input : Str) : redactText input = some (redactSensitive input) :=
  foldlM_redactLoop_eq (fun _ h => isKey_of_mem h) input

lemma len_toList (s : String) : Str.len s.toList = s.utf8ByteSize := by
  have hlen : ∀ cs : List Char, Str.len cs = String.utf8Len cs := by
    intro cs
    induction cs with
    | nil => rfl
    | cons c cs ih => exact (Nat.add_comm _ _).trans (congrArg (· + c.utf8Size) ih)
  rw [hlen, ← String.utf8ByteSize_ofList, String.ofList_toList]

lemma takeBytes_eq (cs : List Char) (n : ℕ) :
    takeBytes cs n = ByteText.takeBytes Char.utf8Size cs n := by
  induction cs generalizing n with
  | nil => cases n <;> rfl
  | cons c cs ih =>
    cases n with
    | zero => rfl
    | succ n =>
      unfold takeBytes ByteText.takeBytes
      rw [ih]
      rfl

lemma slice_zero (s : Str) (n : ℕ) : s.slice 0 n = ByteText.takeBytes Char.utf8Size s n := by
  have hdrop : ByteText.dropBytes Char.utf8Size s 0 = some s := by cases s <;> rfl
  rw [Str.slice, ByteText.slice, if_pos (Nat.zero_le n), hdrop, bind_some, Nat.sub_zero]

lemma sanitizeText_eq (detail : String) :
    sanitizeText detail.toList = (sanitizeDetail detail).map String.toList := by
  unfold sanitizeText sanitizeDetail
  rw [len_toList]
  split_ifs with hlong
  · rw [slice_zero, ← takeBytes_eq]
    cases takeBytes detail.toList 497 with
    | none => rfl
    | some cut =>
      rw [bind_eq_bind, bind_some, redactText_eq]
      simp
  · rw [redactText_eq]
    simp

/-- The text is short enough, or the cut at 497 bytes is not inside a character. -/
def Recordable (detail : String) : Prop :=
  detail.utf8ByteSize ≤ 500 ∨ Str.IsBoundary detail.toList 497

lemma recordable_iff (detail : String) :
    Recordable detail ↔ Str.len detail.toList ≤ 500 ∨
      (ByteText.takeBytes Char.utf8Size detail.toList 497).isSome := by
  rw [Recordable, len_toList, ByteText.takeBytes_isSome_iff, Str.IsBoundary]

lemma recordable_of_length {detail : String} (h : detail.length ≤ 125) : Recordable detail := by
  have hlen : ∀ cs : List Char, Str.len cs ≤ 4 * cs.length := by
    intro cs
    induction cs with
    | nil => exact Nat.le_refl 0
    | cons c cs ih =>
      have hsize : c.utf8Size ≤ 4 := Char.utf8Size_le_four c
      have hcons : Str.len (c :: cs) = c.utf8Size + Str.len cs := rfl
      rw [length_cons]
      omega
  have hbs := hlen detail.toList
  rw [String.length_toList] at hbs
  exact (recordable_iff detail).mpr (.inl (by omega))

lemma sanitizeDetail_isSome_iff (detail : String) :
    (sanitizeDetail detail).isSome ↔ Recordable detail := by
  unfold sanitizeDetail Recordable
  split_ifs with hlong
  · rw [isSome_map, takeBytes_eq, ByteText.takeBytes_isSome_iff]
    simp [hlong, Str.IsBoundary]
  · simp [Nat.not_lt.mp hlong]

lemma Recordable.exists_sanitizeDetail {detail : String} (hd : Recordable detail) :
    ∃ detail', sanitizeDetail detail = some detail' :=
  isSome_iff_exists.mp ((sanitizeDetail_isSome_iff detail).mpr hd)

lemma record_eq (log : AuditLog) (now : UInt64) (sessionId : String)
    (eventType : AuditEventType) (detail : String) (success : Bool) (component : String) :
    log.record now sessionId eventType detail success component =
      (sanitizeDetail detail).map fun detail =>
        log.makeRoom.push ⟨now, sessionId, eventType, detail, success, component⟩ := by
  rw [AuditLog.record, sanitizeText_eq]
  cases sanitizeDetail detail with
  | none => rfl
  | some detail => simp

lemma record_isSome_iff (log : AuditLog) (now : UInt64) (sessionId : String)
    (eventType : AuditEventType) (detail : String) (success : Bool) (component : String) :
    (log.record now sessionId eventType detail success component).isSome ↔ Recordable detail := by
  rw [record_eq, isSome_map, sanitizeDetail_isSome_iff]

section Value

variable {p key : List Char}

lemma exists_before_eq {text u before after : List Char} (hp : '=' ∉ p)
    (heq : text ++ ['='] ++ u = before ++ (p ++ ['=']) ++ after)
    (h : ¬ p ++ ['='] <:+: text ++ ['=']) : ∃ gap, before = text ++ ['='] ++ gap := by
  rw [append_assoc before, append_eq_append_iff] at heq
  rcases heq with ⟨gap, hgap, -⟩ | ⟨overlap, htext, hpat⟩
  · exact ⟨gap, hgap⟩
  rcases eq_nil_or_concat' overlap with rfl | ⟨front, last, rfl⟩
  · exact ⟨[], by rw [htext, append_nil, append_nil]⟩
  exfalso
  have hlast : last = '=' := by
    rw [← append_assoc] at htext
    exact (append_inj' htext rfl).2 |> singleton_inj.mp |>.symm
  subst hlast
  -- the pattern and the overlap begin at the same place
  rcases prefix_or_prefix_of_prefix ⟨after, hpat⟩ (prefix_append (front ++ ['=']) u)
    with hsh | hlong
  · rw [htext] at h
    exact h (hsh.isInfix.trans (suffix_append _ _).isInfix)
  · rcases prefix_concat_iff.mp hlong with hsame | hin
    · rw [htext, hsame] at h
      exact h (suffix_append _ _).isInfix
    · exact hp (hin.subset (by simp))

lemma cutValue_cases (hp : '=' ∉ p) (key left : List Char) :
    (∃ out, ∀ u, cutValue p (left ++ (key ++ ['=']) ++ u) = out) ∨
      p ≠ key ∧ ∀ u, ∃ u',
        cutValue p (left ++ (key ++ ['=']) ++ u) = left ++ (key ++ ['=']) ++ u' := by
  by_cases h : p ++ ['='] <:+: left ++ (key ++ ['='])
  · left
    obtain ⟨before, after, heq, hfst⟩ := exists_of_infix h
    refine ⟨before ++ p ++ "=[REDACTED]".toList, ?_⟩
    intro u
    rw [heq, append_assoc _ after, cutValue_append hfst]
  · right
    constructor
    · rintro rfl
      exact h (suffix_append _ _).isInfix
    · intro u
      by_cases hu : p ++ ['='] <:+: left ++ (key ++ ['=']) ++ u
      · obtain ⟨before, after, heq, hfst⟩ := exists_of_infix hu
        rw [← append_assoc left] at h heq
        obtain ⟨gap, rfl⟩ := exists_before_eq hp heq h
        refine ⟨gap ++ p ++ "=[REDACTED]".toList, ?_⟩
        rw [← append_assoc left, heq, cutValue_append hfst]
        simp
      · exact ⟨u, cutValue_of_absent hu⟩

lemma cutValues_value {keys : List String} {key : String}
    (hkeys : ∀ key ∈ keys, '=' ∉ key.toList) (hkey : key ∈ keys) (left u₁ u₂ : List Char) :
    cutValues keys (left ++ (key.toList ++ ['=']) ++ u₁) =
      cutValues keys (left ++ (key.toList ++ ['=']) ++ u₂) := by
  induction keys generalizing u₁ u₂ with
  | nil => cases hkey
  | cons p keys ih =>
    have hp := hkeys p mem_cons_self
    have hrest : ∀ key ∈ keys, '=' ∉ key.toList :=
      fun key h => hkeys key (mem_cons_of_mem _ h)
    unfold cutValues
    rw [foldl_cons, foldl_cons]
    rcases cutValue_cases hp key.toList left with ⟨out, hout⟩ | ⟨hne, hkp⟩
    · rw [hout, hout]
    · -- the pass of the key itself is still to come
      have hlat : key ∈ keys := by
        rcases mem_cons.mp hkey with rfl | hmem
        · exact absurd rfl hne
        · exact hmem
      obtain ⟨u₁', h₁⟩ := hkp u₁
      obtain ⟨u₂', h₂⟩ := hkp u₂
      rw [h₁, h₂]
      exact ih hrest hlat u₁' u₂'

lemma redactSensitive_value {key : String} (hkey : key ∈ sensitiveKeys) (a b : List Char)
    {v₁ v₂ : List Char} (hv₁ : Clean isDelimiter v₁) (hv₂ : Clean isDelimiter v₂) :
    redactSensitive (a ++ (key.toList ++ ['=']) ++ v₁ ++ b) =
      redactSensitive (a ++ (key.toList ++ ['=']) ++ v₂ ++ b) := by
  obtain ⟨pre, left, right, post, hmid⟩ :=
    exists_mapRuns_middle (d := isDelimiter) (f := cutValues sensitiveKeys) a b
  have hpat : Clean isDelimiter (key.toList ++ ['=']) :=
    (isKey_of_mem hkey).clean.append (clean_singleton (by decide))
  have hrun : ∀ v, Clean isDelimiter v → redactSensitive (a ++ (key.toList ++ ['=']) ++ v ++ b) =
      pre ++ cutValues sensitiveKeys (left ++ (key.toList ++ ['=']) ++ (v ++ right)) ++ post := by
    intro v hv
    have h := hmid _ (hpat.append hv)
    rw [← redactSensitive_eq] at h
    simpa only [append_assoc] using h
  have hequ : ∀ key ∈ sensitiveKeys, '=' ∉ key.toList := fun _ h => (isKey_of_mem h).no_equals
  rw [hrun v₁ hv₁, hrun v₂ hv₂, cutValues_value hequ hkey left (v₁ ++ right) (v₂ ++ right)]

/-- Two details that differ in a value only are sanitized to the same text, and the loops end on
every text. -/
theorem sanitizeText_hides_value {key : String} (hkey : key ∈ sensitiveKeys) (a b : Str)
    {v₁ v₂ : Str} (hv₁ : ∀ c ∈ v₁, isDelimiter c = false) (hv₂ : ∀ c ∈ v₂, isDelimiter c = false)
    (hlen₁ : Str.len (a ++ (key.toList ++ ['=']) ++ v₁ ++ b) ≤ 500)
    (hlen₂ : Str.len (a ++ (key.toList ++ ['=']) ++ v₂ ++ b) ≤ 500) :
    (∃ out, sanitizeText (a ++ (key.toList ++ ['=']) ++ v₁ ++ b) = some out ∧
        sanitizeText (a ++ (key.toList ++ ['=']) ++ v₂ ++ b) = some out) ∧
      (∀ k ∈ sensitiveKeys, ∀ (text : Str) (fuel : ℕ), text.length < fuel →
        ∃ out, redactLoop k fuel text 0 = some out) ∧
      ∀ input, ∃ out, redactText input = some out := by
  refine ⟨⟨redactSensitive (a ++ (key.toList ++ ['=']) ++ v₁ ++ b), ?_, ?_⟩, ?_, ?_⟩
  · rw [sanitizeText, if_neg (Nat.not_lt.mpr hlen₁), redactText_eq]
  · rw [sanitizeText, if_neg (Nat.not_lt.mpr hlen₂), redactText_eq,
      redactSensitive_value hkey a b hv₁ hv₂]
  · intro k hk text fuel hfuel
    have hk := isKey_of_mem hk
    exact ⟨_, redactLoop_eq hk.clean hk.ne_nil fuel [] text hfuel⟩
  · intro input
    exact ⟨_, redactText_eq input⟩

theorem sanitizeText_hides_password :
    ∃ out, sanitizeText ("user=a ".toList ++ ("password".toList ++ ['=']) ++ "hunter2".toList ++
        ", ok".toList) = some out ∧
      sanitizeText ("user=a ".toList ++ ("password".toList ++ ['=']) ++ "token=x".toList ++
        ", ok".toList) = some out :=
  have hlen₁ : Str.len ("user=a ".toList ++ ("password".toList ++ ['=']) ++ "hunter2".toList ++
      ", ok".toList) ≤ 500 := by decide
  have hlen₂ : Str.len ("user=a ".toList ++ ("password".toList ++ ['=']) ++ "token=x".toList ++
      ", ok".toList) ≤ 500 := by decide
  (sanitizeText_hides_value (by decide) _ _ (clean_of_all (by decide)) (clean_of_all (by decide))
    hlen₁ hlen₂).1

end Value

end Aether.Runtime
