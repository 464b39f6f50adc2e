import Aether.Agentd.Intent

/-!
# When `parse_file_intent` panics

Two stages cut between two things that are searched for independently, and they panic iff the second
stands before the end of the first: `writeStage_eq_none_iff`, `renameStage_eq_none_iff`.
-/

namespace Aether.Agentd

open Aether.Core
open Aether.Core.Str
open Stages

variable {original text : Str}

variable {quote : String} {lower : Str} {lastFile : Option Str}

lemma quotedBy_ne_none (hlen : len quote.toList = 1) : quotedBy text quote ≠ none := by
  unfold quotedBy
  cases hsta : find text quote with
  | none => simp
  | some start =>
    have hcut : Str.IsBoundary text (start + 1) := by
      rw [← hlen]
      exact (ByteText.isBoundary_of_find hsta).2
    dsimp only
    cases hrest : sliceFrom text (start + 1) with
    | none => exact absurd hcut (sliceFrom_eq_none_iff.mp hrest)
    | some rest =>
      cases hlast : find rest quote with
      | none => simp [hlast]
      | some last =>
        have hend : Str.IsBoundary text (start + 1 + last) :=
          isBoundary_add hrest (ByteText.isBoundary_of_find hlast).1
        have hsli : slice text (start + 1) (start + 1 + last) ≠ none := by
          rw [Ne, slice_eq_none_iff, not_not]
          exact ⟨Nat.le_add_right .., hcut, hend⟩
        simpa [hlast] using hsli

lemma extractQuotedContent_ne_none : extractQuotedContent text ≠ none :=
  firstAnswer_ne_none ⟨quotedBy_ne_none rfl, quotedBy_ne_none rfl⟩

lemma quotedBy_ne_nil : quotedBy text quote ≠ some (some []) := by
  unfold quotedBy
  cases find text quote with
  | none => simp
  | some start =>
    dsimp only
    cases sliceFrom text (start + 1) with
    | none => simp
    | some rest =>
      cases hlast : find rest quote with
      | none => simp [hlast]
      | some last =>
        have hbla : trim ([] : Str) = [] := rfl
        simp only [Option.bind_some, hlast, ne_eq, Option.map_eq_some_iff, not_exists, not_and]
        intro content _ hcont
        split_ifs at hcont with htrim
        cases hcont
        exact htrim hbla

lemma extractQuotedContent_ne_nil : extractQuotedContent text ≠ some (some []) := by
  intro h
  have hmem := mem_of_firstAnswer h
  simp only [List.mem_cons, List.not_mem_nil, or_false] at hmem
  rcases hmem with hmem | hmem
  · exact quotedBy_ne_nil hmem.symm
  · exact quotedBy_ne_nil hmem.symm

lemma listedFolder_ne_none : listedFolder (toAsciiLowercase original) original ≠ none := by
  unfold listedFolder
  cases hidx : find (toAsciiLowercase original) " in " with
  | none => simp
  | some idx =>
    have hcut : sliceFrom original (idx + 4) ≠ none := sliceFrom_find_ne_none hidx rfl
    simpa using hcut

lemma listStage_ne_none : listStage (toAsciiLowercase original) original ≠ none := by
  unfold listStage
  split
  · rw [Ne, Option.map_eq_none_iff]
    exact listedFolder_ne_none
  · simp

lemma readStage_ne_none : readStage (toAsciiLowercase original) original ≠ none := by
  unfold readStage
  split_ifs
  · cases (findFilePaths original).head? with
    | some p => simp
    | none =>
      change readAfter _ _ ≠ none
      unfold readAfter
      cases hidx : find (toAsciiLowercase original) "read" with
      | none => simp
      | some idx =>
        have hcut : sliceFrom original (idx + 4) ≠ none := sliceFrom_find_ne_none hidx rfl
        simpa using hcut
  · simp

lemma createAfter_ne_none {marker : String} :
    createAfter (toAsciiLowercase original) original marker ≠ none := by
  unfold createAfter
  cases hidx : find (toAsciiLowercase original) marker with
  | none => simp
  | some idx => simpa using sliceFrom_find_ne_none hidx rfl

lemma createStage_ne_none : createStage (toAsciiLowercase original) original ≠ none := by
  unfold createStage
  split_ifs
  · cases (findFilePaths original).head? with
    | some p => simpa using extractQuotedContent_ne_none
    | none => exact firstAnswer_ne_none ⟨createAfter_ne_none, createAfter_ne_none⟩
  · simp

lemma showMyFilesStage_ne_none : showMyFilesStage lower ≠ none := by
  unfold showMyFilesStage
  split_ifs <;> simp

lemma searchStage_ne_none : searchStage lower ≠ none := by
  unfold searchStage
  split_ifs <;> simp

lemma projectStage_ne_none : projectStage lower ≠ none := by
  unfold projectStage
  split_ifs <;> simp

lemma firstAnswer_stagesBeforeWrite_ne_none (original : Str) :
    firstAnswer (stagesBeforeWrite (toAsciiLowercase original) original) ≠ none :=
  firstAnswer_ne_none ⟨listStage_ne_none, showMyFilesStage_ne_none, searchStage_ne_none,
    projectStage_ne_none, readStage_ne_none, createStage_ne_none⟩

lemma moveTarget_ne_none : moveTarget (toAsciiLowercase original) original ≠ none := by
  unfold moveTarget
  cases hinto : find (toAsciiLowercase original) " into " with
  | some idx =>
    have hcut : sliceFrom original (idx + 6) ≠ none := sliceFrom_find_ne_none hinto rfl
    simpa using hcut
  | none =>
    cases hto : rfind (toAsciiLowercase original) " to " with
    | some idx =>
      have hcut : sliceFrom original (idx + 4) ≠ none := sliceFrom_rfind_ne_none hto rfl
      simpa using hcut
    | none => simp

lemma movePronounStage_ne_none :
    movePronounStage (toAsciiLowercase original) original lastFile ≠ none := by
  unfold movePronounStage
  split
  · cases lastFile with
    | none => simp
    | some last => simpa using moveTarget_ne_none
  · simp

lemma moveToStage_ne_none : moveToStage (toAsciiLowercase original) original ≠ none := by
  unfold moveToStage
  split
  · rw [Ne, Option.map_eq_none_iff]
    exact moveTarget_ne_none
  · simp

lemma movePathsStage_ne_none : movePathsStage original ≠ none := by
  unfold movePathsStage
  split <;> simp

lemma moveStage_ne_none : moveStage (toAsciiLowercase original) original lastFile ≠ none := by
  unfold moveStage
  split_ifs
  · exact firstAnswer_ne_none
      ⟨movePronounStage_ne_none, moveToStage_ne_none, movePathsStage_ne_none⟩
  · simp

lemma deleteStage_ne_none : deleteStage lower original ≠ none := by
  unfold deleteStage
  split_ifs <;> simp

def WriteBackwards (lower original : Str) : Prop :=
  extractQuotedContent original = some none ∧ findFilePaths original ≠ [] ∧
    ∃ writeIdx intoIdx, find lower "write" = some writeIdx ∧ find lower "into" = some intoIdx ∧
      intoIdx < writeIdx + 5

def RenameBackwards (lower original : Str) : Prop :=
  (findFilePaths original).length < 2 ∧
    ∃ renameIdx toIdx, find lower "rename" = some renameIdx ∧ find lower " to " = some toIdx ∧
      toIdx < renameIdx + 6

lemma unquotedContent_eq_none_iff {content : Str} :
    unquotedContent (toAsciiLowercase original) original content = none ↔
      ∃ writeIdx intoIdx, find (toAsciiLowercase original) "write" = some writeIdx ∧
        find (toAsciiLowercase original) "into" = some intoIdx ∧ intoIdx < writeIdx + 5 := by
  unfold unquotedContent
  cases hwr : find (toAsciiLowercase original) "write" with
  | none => simp
  | some writeIdx =>
    cases hinto : find (toAsciiLowercase original) "into" with
    | none => simp
    | some intoIdx =>
      have hcut := slice_between_eq_none_iff hwr hinto (n := 5) rfl
      simpa using hcut

lemma writeStage_eq_none_iff :
    writeStage (toAsciiLowercase original) original = none ↔
      WriteBackwards (toAsciiLowercase original) original := by
  unfold writeStage WriteBackwards
  split_ifs with hcon
  · cases hquo : extractQuotedContent original with
    | none => exact absurd hquo extractQuotedContent_ne_none
    | some quoted =>
      cases hpath : (findFilePaths original).getLast? with
      | none => simp [List.getLast?_eq_none_iff.mp hpath]
      | some p =>
        have hpat : findFilePaths original ≠ [] := by
          intro hnil
          rw [hnil] at hpath
          cases hpath
        cases quoted with
        | none => simp [hpat, unquotedContent_eq_none_iff]
        | some content =>
          have hcont : content ≠ [] := by
            rintro rfl
            exact extractQuotedContent_ne_nil hquo
          simp [hcont]
  · -- Where `write` is found, the text contains it.
    simp only [false_iff]
    rintro ⟨-, -, writeIdx, -, hwr, -⟩
    exact hcon (contains_of_find hwr)

lemma renameAround_eq_none_iff :
    renameAround (toAsciiLowercase original) original = none ↔
      ∃ renameIdx toIdx, find (toAsciiLowercase original) "rename" = some renameIdx ∧
        find (toAsciiLowercase original) " to " = some toIdx ∧ toIdx < renameIdx + 6 := by
  unfold renameAround
  cases hren : find (toAsciiLowercase original) "rename" with
  | none => simp
  | some renameIdx =>
    cases hto : find (toAsciiLowercase original) " to " with
    | none => simp
    | some toIdx =>
      have hcut := slice_between_eq_none_iff hren hto (n := 6) rfl
      have hrest : sliceFrom original (toIdx + 4) ≠ none := sliceFrom_find_ne_none hto rfl
      dsimp only
      cases hsli : slice original (renameIdx + 6) toIdx with
      | none => simpa using hcut.mp hsli
      | some fromPart =>
        have hle : ¬ toIdx < renameIdx + 6 := by
          rw [← hcut, hsli]
          simp
        simpa [hrest] using hle

lemma renameStage_eq_none_iff :
    renameStage (toAsciiLowercase original) original = none ↔
      RenameBackwards (toAsciiLowercase original) original := by
  unfold renameStage RenameBackwards
  split_ifs with hcon
  · rcases hpat : findFilePaths original with _ | ⟨source, _ | ⟨target, paths⟩⟩
    · simp [renameAround_eq_none_iff]
    · simp [renameAround_eq_none_iff]
    · simp
  · simp only [false_iff]
    rintro ⟨-, renameIdx, -, hren, -⟩
    exact hcon (contains_of_find hren)

/-- The stage that writes or the one that renames is reached, and cuts backwards. -/
def CutsBackwards (lower original : Str) : Prop :=
  firstAnswer (stagesBeforeWrite lower original) = some none ∧ WriteBackwards lower original ∨
    firstAnswer (stagesBeforeWrite lower original ++ [writeStage lower original]) = some none ∧
      RenameBackwards lower original

lemma parseFileIntent_eq_none_iff :
    parseFileIntent (toAsciiLowercase original) original lastFile = none ↔
      CutsBackwards (toAsciiLowercase original) original := by
  have hspl : ∀ (before : List (Option (Option Intent))) (w r m d : Option (Option Intent)),
      before ++ [w, r, m, d] = before ++ [w] ++ [r, m, d] := by simp
  have haft : firstAnswer [moveStage (toAsciiLowercase original) original lastFile,
      deleteStage (toAsciiLowercase original) original] ≠ none :=
    firstAnswer_ne_none ⟨moveStage_ne_none, deleteStage_ne_none⟩
  have hbef := firstAnswer_stagesBeforeWrite_ne_none original
  rw [parseFileIntent, hspl, firstAnswer_append_eq_none_iff, firstAnswer_append_eq_none_iff,
    firstAnswer_singleton_eq_none_iff, firstAnswer_cons_eq_none_iff, writeStage_eq_none_iff,
    renameStage_eq_none_iff, CutsBackwards]
  simp only [hbef, haft, and_false, or_false, false_or]

/-!
## When `parse_intents_with_file` panics
-/

open Option

variable {upper : Str} {words targets : List Str} {pronoun : Bool} {ctx : SystemContext}
  {lastApp referent : Option Str} {idx : ℕ}

lemma closeIntents_eq_none_iff :
    closeIntents upper pronoun targets idx referent = none ↔
      targets ≠ [] ∧ ¬ Str.IsBoundary upper idx := by
  unfold closeIntents
  split_ifs with hemp
  · have htar : targets = [] := by
      simp only [Bool.and_eq_true, decide_eq_true_eq] at hemp
      exact hemp.1
    simp [htar]
  · rw [mapM_eq_none_iff]
    simp only [map_eq_none_iff, Str.sliceFrom_eq_none_iff]
    constructor
    · rintro ⟨t, ht, hcut⟩
      exact ⟨List.ne_nil_of_mem ht, hcut⟩
    · rintro ⟨htar, hcut⟩
      obtain ⟨t, ht⟩ := List.exists_mem_of_ne_nil targets htar
      exact ⟨t, ht, hcut⟩

lemma intentsAt_eq_none_iff :
    intentsAt upper words pronoun ctx lastApp idx = none ↔
      words.getD idx [] = "CLOSE".toList ∧ collectTargets words idx ≠ [] ∧
        ¬ Str.IsBoundary upper idx := by
  unfold intentsAt
  by_cases hclo : words.getD idx [] = "CLOSE".toList
  · simp only [hclo, if_true, true_and]
    exact closeIntents_eq_none_iff
  · simp only [hclo, if_false, false_and, iff_false]
    split_ifs <;> simp

/-- The index of a `CLOSE` among the words is inside a character, as an index of bytes. -/
def ClosesInsideCharacter (upper : Str) : Prop :=
  ∃ idx, (cleanedWords upper)[idx]? = some "CLOSE".toList ∧
    collectTargets (cleanedWords upper) idx ≠ [] ∧ ¬ Str.IsBoundary upper idx

lemma verbIntents_eq_none_iff :
    verbIntents upper (cleanedWords upper) pronoun ctx lastApp = none ↔
      ClosesInsideCharacter upper := by
  rw [verbIntents, map_eq_none_iff, mapM_eq_none_iff]
  simp only [intentsAt_eq_none_iff, List.mem_range]
  constructor
  · rintro ⟨idx, hidx, hclo, hrest⟩
    refine ⟨idx, ?_, hrest⟩
    rw [List.getD_eq_getElem?_getD, List.getElem?_eq_getElem hidx, getD_some] at hclo
    rw [List.getElem?_eq_getElem hidx, hclo]
  · rintro ⟨idx, hclo, hrest⟩
    obtain ⟨hidx, -⟩ := List.getElem?_eq_some_iff.mp hclo
    refine ⟨idx, hidx, ?_, hrest⟩
    rw [List.getD_eq_getElem?_getD, hclo, getD_some]

lemma actionIntents_eq_none_iff :
    actionIntents upper lower ctx lastApp = none ↔ ClosesInsideCharacter upper := by
  rw [actionIntents, map_eq_none_iff, verbIntents_eq_none_iff]

/-- The parser returns iff the text has no words, asks for the windows, or neither cuts a request
about files backwards nor, where it comes to the verbs, cuts the text inside a character. -/
theorem parseIntentsWithFile_isSome_iff (table : UpperTable) (text : Str) (ctx : SystemContext)
    (lastApp lastFile : Option Str) :
    (parseIntentsWithFile table text ctx lastApp lastFile).isSome ↔
      cleanedWords (Str.toUppercase table text) = [] ∨
      asksWindowList (Str.toUppercase table text) (Str.toAsciiLowercase text) = true ∨
      ¬ CutsBackwards (Str.toAsciiLowercase text) text ∧
        (parseFileIntent (Str.toAsciiLowercase text) text lastFile = some none →
          parseSystemIntent (Str.toAsciiLowercase text) = none →
          ¬ ClosesInsideCharacter (Str.toUppercase table text)) := by
  unfold parseIntentsWithFile parseUpper
  by_cases hwor : cleanedWords (Str.toUppercase table text) = []
  · simp [hwor]
  by_cases hasks : asksWindowList (Str.toUppercase table text) (Str.toAsciiLowercase text) = true
  · simp [hwor, hasks]
  simp only [hwor, hasks, if_false, false_or, Bool.false_eq_true]
  -- What is left are the file request, the system question and the verbs, in this order.
  rw [← @parseFileIntent_eq_none_iff text lastFile]
  rcases hsta : parseFileIntent (Str.toAsciiLowercase text) text lastFile with _ | _ | intent
  · simp
  · cases hsys : parseSystemIntent (Str.toAsciiLowercase text) with
    | some intent => simp
    | none =>
      simp only [reduceCtorEq, not_false_eq_true, true_and, forall_const]
      rw [← ne_none_iff_isSome, Ne, actionIntents_eq_none_iff]
  · simp

/-- The parser panics, whatever the table says outside ASCII: ` to ` before `rename`, `into` before
`write`, and `close` as the second word of a text whose first character takes two bytes. -/
theorem parseIntentsWithFile_panics :
    (∀ table, parseIntentsWithFile table "go to rename".toList .empty none none = none) ∧
    (∀ table, parseIntentsWithFile table "into x write foo.txt".toList .empty none none = none) ∧
    (∀ table, table.upper 'é' = ['É'] →
      parseIntentsWithFile table "éa close calculator".toList .empty none none = none) := by
  refine ⟨fun table => ?_, fun table => ?_, fun table hupp => ?_⟩
  · rw [parseIntentsWithFile, Str.toUppercase_of_ascii table (by decide +kernel)]
    exact isNone_iff_eq_none.mp (by decide +kernel)
  · rw [parseIntentsWithFile, Str.toUppercase_of_ascii table (by decide +kernel)]
    exact isNone_iff_eq_none.mp (by decide +kernel)
  · have hspl : "éa close calculator".toList = 'é' :: "a close calculator".toList := by
      decide +kernel
    have hfst : Str.toUppercase table "éa close calculator".toList =
        'É' :: "A CLOSE CALCULATOR".toList := by
      rw [hspl, Str.toUppercase, List.flatMap_cons, hupp, ← Str.toUppercase,
        Str.toUppercase_of_ascii table (by decide +kernel)]
      decide +kernel
    rw [parseIntentsWithFile, hfst]
    exact isNone_iff_eq_none.mp (by decide +kernel)

end Aether.Agentd
