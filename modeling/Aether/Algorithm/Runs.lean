import Mathlib.Data.List.Infix
import Mathlib.Data.List.TakeWhile

/-!
# Runs between delimiters

A list is cut at its delimiters, and a function is applied to each run between them; the delimiters
stay.  `mapFrom` carries the part of the current run that has been read.
-/

namespace Aether.Runs

open List

variable {α : Type*} (d : α → Bool) (f : List α → List α)

def Clean (run : List α) : Prop := ∀ c ∈ run, d c = false

def mapFrom : (run : List α) → List α → List α
  | run, [] => f run
  | run, c :: cs => if d c then f run ++ c :: mapFrom [] cs else mapFrom (run ++ [c]) cs

def mapRuns (cs : List α) : List α := mapFrom d f [] cs

variable {d f} {run : List α}

lemma clean_nil : Clean d [] := fun _ hc => absurd hc not_mem_nil

lemma clean_of_all (h : run.all (fun c => !d c) = true) : Clean d run := by
  intro c hc
  simpa using all_eq_true.mp h c hc

lemma Clean.append {run' : List α} (h : Clean d run) (h' : Clean d run') :
    Clean d (run ++ run') := by
  intro c hc
  rcases mem_append.mp hc with hc | hc
  · exact h c hc
  · exact h' c hc

lemma Clean.of_infix {run' : List α} (h : Clean d run) (hsub : run' <:+: run) : Clean d run' :=
  fun c hc => h c (hsub.subset hc)

lemma clean_singleton {c : α} (hc : d c = false) : Clean d [c] := by
  intro c' hc'
  rw [mem_singleton.mp hc']
  exact hc

lemma clean_takeWhile (cs : List α) : Clean d (cs.takeWhile fun c => !d c) := by
  intro c hc
  simpa using mem_takeWhile_imp hc

lemma mapFrom_append_clean {m : List α} (hm : Clean d m) (run cs : List α) :
    mapFrom d f run (m ++ cs) = mapFrom d f (run ++ m) cs := by
  induction m generalizing run with
  | nil => rw [nil_append, append_nil]
  | cons c m ih =>
    have hc : d c = false := hm c mem_cons_self
    have hrest : Clean d m := fun c' hc' => hm c' (mem_cons_of_mem _ hc')
    rw [cons_append, mapFrom, if_neg (by simp [hc]), ih hrest, append_assoc,
      singleton_append]

lemma mapFrom_clean {m : List α} (hm : Clean d m) (run : List α) :
    mapFrom d f run m = f (run ++ m) := by
  have h := mapFrom_append_clean (f := f) hm run []
  rw [append_nil] at h
  rw [h, mapFrom]

lemma mapFrom_append_cons {c : α} (hc : d c = true) (run xs ys : List α) :
    mapFrom d f run (xs ++ c :: ys) = mapFrom d f run xs ++ c :: mapFrom d f [] ys := by
  induction xs generalizing run with
  | nil => rw [nil_append, mapFrom, mapFrom, if_pos hc]
  | cons x xs ih =>
    rw [cons_append, mapFrom, mapFrom]
    split_ifs with hx
    · rw [ih, append_assoc, cons_append]
    · rw [ih]

lemma mapFrom_comp {g : List α → List α} (hf : ∀ run, Clean d run → Clean d (f run))
    (hrun : Clean d run) (cs : List α) :
    mapFrom d g [] (mapFrom d f run cs) = mapFrom d (fun r => g (f r)) run cs := by
  induction cs generalizing run with
  | nil =>
    rw [mapFrom, mapFrom, mapFrom_clean (hf run hrun), nil_append]
  | cons c cs ih =>
    rw [mapFrom, mapFrom]
    split_ifs with hc
    · rw [mapFrom_append_cons hc, mapFrom_clean (hf run hrun), nil_append, ih clean_nil]
    · rw [ih (hrun.append (clean_singleton (by simpa using hc)))]

lemma exists_mapFrom_eq (cs : List α) :
    ∃ rest post, Clean d rest ∧ ∀ run, mapFrom d f run cs = f (run ++ rest) ++ post := by
  induction cs with
  | nil => exact ⟨[], [], clean_nil, fun run => by rw [mapFrom, append_nil, append_nil]⟩
  | cons c cs ih =>
    cases hc : d c with
    | true =>
      refine ⟨[], c :: mapFrom d f [] cs, clean_nil, ?_⟩
      intro run
      rw [mapFrom, if_pos hc, append_nil]
    | false =>
      obtain ⟨rest, post, hrest, heq⟩ := ih
      refine ⟨c :: rest, post, (clean_singleton hc).append hrest, ?_⟩
      intro run
      rw [mapFrom, if_neg (by simp [hc]), heq, append_assoc, singleton_append]

lemma exists_mapFrom_append (hrun : Clean d run) (xs : List α) :
    ∃ pre run', Clean d run' ∧ run' <:+ run ++ xs ∧
      (∀ cs, mapFrom d f run (xs ++ cs) = pre ++ mapFrom d f run' cs) ∧
      ((∀ r, r <:+: run ++ xs → f r = r) → pre ++ run' = run ++ xs) := by
  induction xs generalizing run with
  | nil =>
    refine ⟨[], run, hrun, by rw [append_nil], fun cs => rfl, fun _ => ?_⟩
    rw [nil_append, append_nil]
  | cons c xs ih =>
    cases hc : d c with
    | true =>
      obtain ⟨pre, run', hcln, hsuf, heq, hfixed⟩ := ih clean_nil
      refine ⟨f run ++ c :: pre, run', hcln, ?_, ?_, ?_⟩
      · exact hsuf.trans ⟨run ++ [c], by simp⟩
      · intro cs
        rw [cons_append, mapFrom, if_pos hc, heq, append_assoc, cons_append]
      · intro hfix
        have hself : f run = run := hfix run (prefix_append _ _).isInfix
        have hxs : pre ++ run' = xs := hfixed fun r hr => by
          refine hfix r (hr.trans ?_)
          exact ⟨run ++ [c], [], by simp⟩
        rw [hself, append_assoc, cons_append, hxs]
    | false =>
      have hnext : Clean d (run ++ [c]) := hrun.append (clean_singleton hc)
      obtain ⟨pre, run', hcln, hsuf, heq, hfixed⟩ := ih hnext
      rw [append_assoc, singleton_append] at hsuf hfixed
      refine ⟨pre, run', hcln, hsuf, ?_, hfixed⟩
      intro cs
      rw [cons_append, mapFrom, if_neg (by simp [hc]), heq]

lemma exists_mapFrom_of_head {cs : List α} (hcs : ∀ c ∈ cs.head?, d c = true) :
    ∃ post, ∀ run, mapFrom d f run cs = f run ++ post := by
  cases cs with
  | nil => exact ⟨[], fun run => by rw [mapFrom, append_nil]⟩
  | cons c cs =>
    have hc : d c = true := hcs c rfl
    exact ⟨c :: mapFrom d f [] cs, fun run => by rw [mapFrom, if_pos hc]⟩

lemma exists_mapFrom_dropWhile (cs : List α) :
    ∃ post, ∀ run, mapFrom d f run (cs.dropWhile fun c => !d c) = f run ++ post := by
  apply exists_mapFrom_of_head
  intro c hc
  have hnot := head?_dropWhile_not (fun c => !d c) cs
  rw [Option.mem_def.mp hc] at hnot
  simpa using hnot

lemma mapRuns_eq_self {cs : List α} (hfix : ∀ r, r <:+: cs → f r = r) : mapRuns d f cs = cs := by
  obtain ⟨pre, run', -, hsuf, heq, hfixed⟩ :=
    exists_mapFrom_append (f := f) (clean_nil (d := d)) cs
  rw [nil_append] at hsuf hfixed
  have happ := heq []
  rw [append_nil] at happ
  rw [mapRuns, happ, mapFrom, hfix run' hsuf.isInfix, hfixed hfix]

lemma exists_mapRuns_middle (xs ys : List α) :
    ∃ pre left right post, ∀ m, Clean d m →
      mapRuns d f (xs ++ m ++ ys) = pre ++ f (left ++ m ++ right) ++ post := by
  obtain ⟨pre, left, -, -, hleft, -⟩ := exists_mapFrom_append (f := f) (clean_nil (d := d)) xs
  obtain ⟨right, post, -, hri⟩ := exists_mapFrom_eq (d := d) (f := f) ys
  refine ⟨pre, left, right, post, ?_⟩
  intro m hm
  rw [mapRuns, append_assoc, hleft, mapFrom_append_clean hm, hri]
  simp only [append_assoc]

end Aether.Runs
