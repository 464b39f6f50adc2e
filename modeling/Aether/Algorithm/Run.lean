import Mathlib.Data.List.Basic
import Mathlib.Data.List.Induction

/-!
# Runs of a state machine

`none` is a step that does not return.  `Always P`: no step is lost and every state of the run
satisfies `P`.  For a machine whose steps all return, a run is `List.foldl`; `Sometime C`: some step
of it meets `C`.
-/

namespace Aether.Run

open List

variable {σ ι : Type*} (step : σ → ι → Option σ)

def exec : σ → List ι → Option σ
  | s, [] => some s
  | s, i :: is => (step s i).bind fun s' => exec s' is

def Always (P : σ → Prop) : σ → List ι → Prop
  | s, [] => P s
  | s, i :: is => P s ∧ ∃ s', step s i = some s' ∧ Always P s' is

/-- Every step is taken from a state and with an input that meet `C`. -/
def Along (C : σ → ι → Prop) : σ → List ι → Prop
  | _, [] => True
  | s, i :: is => C s i ∧ ∀ s', step s i = some s' → Along C s' is

variable {step}

variable {s : σ} {is : List ι} {P I : σ → Prop} {C : σ → ι → Prop}

lemma exec_concat {i : ι} :
    exec step s (is ++ [i]) = (exec step s is).bind fun s' => step s' i := by
  induction is generalizing s with
  | nil => simp [exec]
  | cons j is ih =>
    rw [cons_append, exec, exec, Option.bind_assoc]
    exact congrArg _ (funext fun s' => ih)

lemma exec_map {κ : Type*} (f : κ → ι) (ks : List κ) :
    exec step s (ks.map f) = exec (fun s k => step s (f k)) s ks := by
  induction ks generalizing s with
  | nil => rfl
  | cons k ks ih => exact congrArg _ (funext fun s' => ih)

lemma exec_invariant (hinv : ∀ s i s', I s → step s i = some s' → I s') (hs : I s) {s' : σ}
    (h : exec step s is = some s') : I s' := by
  induction is generalizing s with
  | nil =>
    cases h
    exact hs
  | cons i is ih =>
    obtain ⟨t, ht, hrest⟩ := Option.bind_eq_some_iff.mp h
    exact ih (hinv s i t hs ht) hrest

lemma always_iff_prefix :
    Always step P s is ↔ ∀ is', is' <+: is → ∃ s', exec step s is' = some s' ∧ P s' := by
  induction is generalizing s with
  | nil =>
    constructor
    · intro h is' hpre
      obtain rfl := prefix_nil.mp hpre
      exact ⟨s, rfl, h⟩
    · intro h
      obtain ⟨s', hs', hP⟩ := h [] (prefix_refl _)
      cases hs'
      exact hP
  | cons i is ih =>
    constructor
    · rintro ⟨hs, t, ht, hrest⟩ is' hpre
      cases is' with
      | nil => exact ⟨s, rfl, hs⟩
      | cons j js =>
        obtain ⟨rfl, hjs⟩ := cons_prefix_cons.mp hpre
        obtain ⟨s', hs', hP⟩ := ih.mp hrest js hjs
        exact ⟨s', by rw [exec, ht]; exact hs', hP⟩
    · intro h
      obtain ⟨s₀, hs₀, hP₀⟩ := h [] nil_prefix
      cases hs₀
      obtain ⟨s₁, hs₁, -⟩ := h [i] (by simp)
      obtain ⟨t, ht, -⟩ := Option.bind_eq_some_iff.mp hs₁
      refine ⟨hP₀, t, ht, ih.mpr fun js hjs => ?_⟩
      obtain ⟨s', hs', hP⟩ := h (i :: js) (cons_prefix_cons.mpr ⟨rfl, hjs⟩)
      rw [exec, ht, Option.bind_some] at hs'
      exact ⟨s', hs', hP⟩

/-- **Invariance rule**: a property from which every step returns in a state with it. -/
theorem always_of_step (hstep : ∀ s i, P s → ∃ s', step s i = some s' ∧ P s') (hs : P s)
    (is : List ι) : Always step P s is := by
  induction is generalizing s with
  | nil => exact hs
  | cons i is ih =>
    obtain ⟨s', hs', hP⟩ := hstep s i hs
    exact ⟨hs, s', hs', ih hP⟩

/-- **Exactness rule**: if, in states satisfying the invariant `I` and the property `P`, a step
returns in a state with `P` iff it meets `C`, then `P` holds throughout a run iff all its steps
meet `C`. -/
theorem always_iff_along (hinv : ∀ s i s', I s → step s i = some s' → I s')
    (hstep : ∀ s i, I s → P s → ((∃ s', step s i = some s' ∧ P s') ↔ C s i)) (hI : I s) (hP : P s)
    (is : List ι) : Always step P s is ↔ Along step C s is := by
  induction is generalizing s with
  | nil => exact ⟨fun _ => trivial, fun _ => hP⟩
  | cons i is ih =>
    constructor
    · rintro ⟨-, t, ht, hrest⟩
      have hPt : P t := by
        cases is with
        | nil => exact hrest
        | cons => exact hrest.1
      refine ⟨(hstep s i hI hP).mp ⟨t, ht, hPt⟩, fun t' ht' => ?_⟩
      cases ht.symm.trans ht'
      exact (ih (hinv s i t hI ht) hPt).mp hrest
    · rintro ⟨hC, hrest⟩
      obtain ⟨t, ht, hPt⟩ := (hstep s i hI hP).mpr hC
      exact ⟨hP, t, ht, (ih (hinv s i t hI ht) hPt).mpr (hrest t ht)⟩

lemma along_congr {D : σ → ι → Prop} (hinv : ∀ s i s', I s → step s i = some s' → I s')
    (h : ∀ s i, I s → (C s i ↔ D s i)) (hI : I s) (is : List ι) :
    Along step C s is ↔ Along step D s is := by
  induction is generalizing s with
  | nil => exact Iff.rfl
  | cons i is ih =>
    refine and_congr (h s i hI) (forall_congr' fun s' => ?_)
    exact imp_congr_right fun hs' => ih (hinv s i s' hI hs')

/-- Every state that is reached satisfies `P`. -/
def Throughout (step : σ → ι → Option σ) (P : σ → Prop) (s : σ) (is : List ι) : Prop :=
  ∀ is' s', is' <+: is → exec step s is' = some s' → P s'

lemma throughout_cons_iff {i : ι} :
    Throughout step P s (i :: is) ↔ P s ∧ ∀ s', step s i = some s' → Throughout step P s' is := by
  constructor
  · intro h
    refine ⟨h [] s nil_prefix rfl, fun t ht js s' hjs hs' => ?_⟩
    exact h (i :: js) s' (cons_prefix_cons.mpr ⟨rfl, hjs⟩) (by rw [exec, ht]; exact hs')
  · rintro ⟨hs, hrest⟩ is' s' hpre hs'
    cases is' with
    | nil =>
      cases hs'
      exact hs
    | cons j js =>
      obtain ⟨rfl, hjs⟩ := cons_prefix_cons.mp hpre
      obtain ⟨t, ht, hexec⟩ := Option.bind_eq_some_iff.mp hs'
      exact hrest t ht js s' hjs hexec

/-- **Exactness rule** for reached states: if, in states satisfying the invariant `I` and the
property `P`, a step keeps `P` (or does not return) iff it meets `C`, then `P` holds throughout a
run iff all its steps meet `C`. -/
theorem throughout_iff_along (hinv : ∀ s i s', I s → step s i = some s' → I s')
    (hstep : ∀ s i, I s → P s → ((∀ s', step s i = some s' → P s') ↔ C s i)) (hI : I s) (hP : P s)
    (is : List ι) : Throughout step P s is ↔ Along step C s is := by
  induction is generalizing s with
  | nil =>
    refine iff_of_true ?_ trivial
    intro is' s' hpre hs'
    obtain rfl := prefix_nil.mp hpre
    cases hs'
    exact hP
  | cons i is ih =>
    rw [throughout_cons_iff, Along]
    constructor
    · rintro ⟨-, hrest⟩
      have hnext : ∀ t, step s i = some t → P t := fun t ht =>
        hrest t ht [] t nil_prefix rfl
      exact ⟨(hstep s i hI hP).mp hnext,
        fun t ht => (ih (hinv s i t hI ht) (hnext t ht)).mp (hrest t ht)⟩
    · rintro ⟨hC, hrest⟩
      have hnext := (hstep s i hI hP).mpr hC
      exact ⟨hP, fun t ht => (ih (hinv s i t hI ht) (hnext t ht)).mpr (hrest t ht)⟩

section Total

variable {next : σ → ι → σ}

/-- `Along` for a machine whose steps all return. -/
def Steps (next : σ → ι → σ) (C : σ → ι → Prop) (s : σ) (is : List ι) : Prop :=
  ∀ pre i post, is = pre ++ i :: post → C (pre.foldl next s) i

/-- **Induction rule**: what holds at the start and is kept by every step that meets `C` holds at
the end. -/
theorem Steps.invariant (hsts : Steps next C s is) (hstep : ∀ s i, C s i → I s → I (next s i))
    (hs : I s) : I (is.foldl next s) := by
  induction is generalizing s with
  | nil => exact hs
  | cons i is ih =>
    have hfst : C s i := hsts [] i is rfl
    refine ih (fun pre j post heq => ?_) (hstep s i hfst hs)
    exact hsts (i :: pre) j post (by rw [heq, cons_append])

lemma steps_concat_iff {i : ι} :
    Steps next C s (is ++ [i]) ↔ Steps next C s is ∧ C (is.foldl next s) i := by
  constructor
  · intro h
    refine ⟨fun pre j post heq => ?_, h is i [] rfl⟩
    exact h pre j (post ++ [i]) (by rw [heq, append_assoc, cons_append])
  · rintro ⟨hsts, hlast⟩ pre j post heq
    rcases eq_nil_or_concat' post with rfl | ⟨post, k, rfl⟩
    · obtain ⟨rfl, hij⟩ := append_inj' heq rfl
      obtain rfl := (cons.inj hij).1
      exact hlast
    · rw [← cons_append, ← append_assoc] at heq
      obtain ⟨rfl, -⟩ := append_inj' heq rfl
      exact hsts pre j post rfl

lemma exists_step_of_foldl (hs : ¬ P s) (hend : P (is.foldl next s)) :
    ∃ pre i post, is = pre ++ i :: post ∧ ¬ P (pre.foldl next s) ∧
      P (next (pre.foldl next s) i) := by
  induction is generalizing s with
  | nil => exact absurd hend hs
  | cons i is ih =>
    by_cases hi : P (next s i)
    · exact ⟨[], i, is, rfl, hs, hi⟩
    · obtain ⟨pre, j, post, rfl, hbef, haft⟩ := ih hi hend
      exact ⟨i :: pre, j, post, rfl, hbef, haft⟩

lemma Steps.of_append {is' : List ι} (hsts : Steps next C s (is ++ is')) :
    Steps next C s is := by
  intro pre i post heq
  exact hsts pre i (post ++ is') (by rw [heq, append_assoc, cons_append])

/-- **Exactness rule**: if, in states satisfying the invariant `I` and the property `P`, a step
keeps `P` iff it meets `C`, then `P` holds in all states of a run iff all its steps meet `C`.  The
steps may be restricted by `C₀`. -/
theorem forall_prefix_iff_steps {C₀ : σ → ι → Prop} (hsts : Steps next C₀ s is)
    (hinv : ∀ s i, C₀ s i → I s → I (next s i))
    (hstep : ∀ s i, C₀ s i → I s → P s → (P (next s i) ↔ C s i)) (hI : I s) (hP : P s) :
    (∀ pre, pre <+: is → P (pre.foldl next s)) ↔ Steps next C s is := by
  constructor
  · rintro hall pre i post rfl
    have hIpre : I (pre.foldl next s) := hsts.of_append.invariant hinv hI
    have hbef : P (pre.foldl next s) := hall pre ⟨i :: post, rfl⟩
    have haft : P (next (pre.foldl next s) i) := by
      have hnext := hall (pre ++ [i]) ⟨post, by simp⟩
      rwa [foldl_append] at hnext
    exact (hstep _ i (hsts pre i post rfl) hIpre hbef).mp haft
  · rintro hC pre ⟨rest, rfl⟩
    have hboth : Steps next (fun s i => C₀ s i ∧ C s i) s pre := fun pre' i post heq =>
      ⟨hsts.of_append pre' i post heq, hC.of_append pre' i post heq⟩
    refine (hboth.invariant (I := fun s => I s ∧ P s) ?_ ⟨hI, hP⟩).2
    rintro t i ⟨h₀, hCi⟩ ⟨hIt, hPt⟩
    exact ⟨hinv t i h₀ hIt, (hstep t i h₀ hIt hPt).mpr hCi⟩

lemma exists_split_cons_iff {i : ι} {Q : List ι → ι → List ι → Prop} :
    (∃ pre j post, i :: is = pre ++ j :: post ∧ Q pre j post) ↔
      Q [] i is ∨ ∃ pre j post, is = pre ++ j :: post ∧ Q (i :: pre) j post := by
  constructor
  · rintro ⟨_ | ⟨k, pre⟩, j, post, heq, hQ⟩
    · cases heq
      exact .inl hQ
    · obtain ⟨rfl, rfl⟩ := cons.inj heq
      exact .inr ⟨pre, j, post, rfl, hQ⟩
  · rintro (hQ | ⟨pre, j, post, rfl, hQ⟩)
    · exact ⟨[], i, is, rfl, hQ⟩
    · exact ⟨i :: pre, j, post, rfl, hQ⟩

def Sometime (next : σ → ι → σ) (C : σ → ι → Prop) (s : σ) (is : List ι) : Prop :=
  ∃ pre i post, is = pre ++ i :: post ∧ C (pre.foldl next s) i

lemma sometime_cons_iff {i : ι} :
    Sometime next C s (i :: is) ↔ C s i ∨ Sometime next C (next s i) is :=
  exists_split_cons_iff

lemma not_sometime_iff : ¬ Sometime next C s is ↔ Steps next (fun s i => ¬ C s i) s is := by
  simp only [Sometime, Steps, not_exists, not_and]

end Total

/-!
## Machines with outputs

Two machines that take related states to equal outputs and related states have the same outputs.
-/

variable {τ ο : Type*}

def outputs (step : σ → ι → ο × σ) : σ → List ι → List ο
  | _, [] => []
  | s, i :: is => (step s i).1 :: outputs step (step s i).2 is

def after (step : σ → ι → ο × σ) (s : σ) (i : ι) : σ := (step s i).2

variable {step : σ → ι → ο × σ}

lemma steps_cons_iff {next : σ → ι → σ} {i : ι} :
    Steps next C s (i :: is) ↔ C s i ∧ Steps next C (next s i) is := by
  constructor
  · intro h
    refine ⟨h [] i is rfl, fun pre j post heq => ?_⟩
    exact h (i :: pre) j post (by rw [heq, List.cons_append])
  · rintro ⟨hfst, hrest⟩ pre j post heq
    cases pre with
    | nil =>
      cases heq
      exact hfst
    | cons k pre =>
      obtain ⟨rfl, htail⟩ := List.cons.inj heq
      exact hrest pre j post htail

lemma steps_of_forall_outputs {P : ο → Prop} (h : ∀ o ∈ outputs step s is, P o) :
    Steps (after step) (fun s i => P (step s i).1) s is := by
  induction is generalizing s with
  | nil =>
    intro pre i post heq
    exact absurd heq (by simp)
  | cons i is ih =>
    rw [steps_cons_iff]
    exact ⟨h _ (List.mem_cons_self ..), ih fun o ho => h o (List.mem_cons_of_mem _ ho)⟩

/-- **Simulation**: related states have equal outputs and related successors. -/
theorem outputs_eq {step' : τ → ι → ο × τ} {R : σ → τ → Prop} (hstep : ∀ s t i, C s i → R s t →
      (step s i).1 = (step' t i).1 ∧ R (step s i).2 (step' t i).2) {t : τ}
    (hsts : Steps (after step) C s is) (hR : R s t) : outputs step s is = outputs step' t is := by
  induction is generalizing s t with
  | nil => rfl
  | cons i is ih =>
    obtain ⟨hfst, hrest⟩ := steps_cons_iff.mp hsts
    obtain ⟨hout, hR'⟩ := hstep s t i hfst hR
    rw [outputs, outputs, hout]
    exact congrArg _ (ih hrest hR')

end Aether.Run

/-!
## Machines with a part of the state per key

In a `Local` machine the inputs of one key are answered as if the others had not been there.
-/

namespace Aether.Keyed

variable {σ ι ο κ ν : Type*} (step : σ → ι → ο × σ)

def next (s : σ) (i : ι) : σ := (step s i).2

def trace : σ → List ι → List (ι × ο)
  | _, [] => []
  | s, i :: is => (i, (step s i).1) :: trace (next step s i) is

@[simp] lemma trace_cons (s : σ) (i : ι) (is : List ι) :
    trace step s (i :: is) = (i, (step s i).1) :: trace step (next step s i) is := rfl

lemma trace_concat (s : σ) (is : List ι) (i : ι) :
    trace step s (is ++ [i]) = trace step s is ++ [(i, (step (is.foldl (next step) s) i).1)] := by
  induction is generalizing s with
  | nil => rfl
  | cons j is ih =>
    rw [List.cons_append, trace_cons, ih, trace_cons, List.cons_append, List.foldl_cons]

structure Local (key : ι → κ) (view : σ → κ → ν) : Prop where
  answer : ∀ s t i, view s (key i) = view t (key i) → (step s i).1 = (step t i).1
  own : ∀ s t i, view s (key i) = view t (key i) →
    view (next step s i) (key i) = view (next step t i) (key i)
  frame : ∀ s i k, key i ≠ k → view (next step s i) k = view s k

variable {step}

/-- **Independence of the keys**: the inputs of one key are answered as in the run that has only
them, from any state that keeps the same for this key. -/
theorem Local.filter_trace [DecidableEq κ] {key : ι → κ} {view : σ → κ → ν}
    (h : Local step key view) {k : κ} {s t : σ} (hview : view s k = view t k) (is : List ι) :
    (trace step s is).filter (fun p => key p.1 = k)
      = trace step t (is.filter fun i => key i = k) := by
  induction is generalizing s t with
  | nil => rfl
  | cons i is ih =>
    by_cases hk : key i = k
    · subst hk
      have hans : (step s i).1 = (step t i).1 := h.answer s t i hview
      have hrest := ih (h.own s t i hview)
      simp [hans, hrest]
    · -- the machine moves on, but not in what it keeps for `k`
      have hrest := ih ((h.frame s i k hk).trans hview)
      simp [hk, hrest]

end Aether.Keyed

/-!
## The last write of a history

As a computation over the events (`current`), and as a property of the history (`Last`).
-/

namespace Aether.LastWrite

open List

variable {ε α : Type*} (effect : ε → Option (Option α))

def current (before : Option α) (history : List ε) : Option α :=
  history.foldl (fun value e => (effect e).getD value) before

def Last (history : List ε) (a : α) : Prop :=
  ∃ pre e post, history = pre ++ e :: post ∧ effect e = some (some a) ∧
    ∀ e' ∈ post, effect e' = none

variable {effect}

lemma append_eq_append_cons_iff {l l' pre post : List ε} {x : ε} :
    l ++ l' = pre ++ x :: post ↔ (∃ rest, l = pre ++ x :: rest ∧ post = rest ++ l') ∨
      ∃ mid, pre = l ++ mid ∧ l' = mid ++ x :: post := by
  rw [append_eq_append_iff]
  constructor
  · rintro (⟨mid, rfl, h⟩ | ⟨rest, rfl, h⟩)
    · exact .inr ⟨mid, rfl, h⟩
    · cases rest with
      | nil => exact .inr ⟨[], by simp, by simpa using h.symm⟩
      | cons y rest =>
        obtain ⟨rfl, rfl⟩ := cons.inj h
        exact .inl ⟨rest, rfl, rfl⟩
  · rintro (⟨rest, rfl, rfl⟩ | ⟨mid, rfl, h⟩)
    · exact .inr ⟨x :: rest, rfl, rfl⟩
    · exact .inl ⟨mid, rfl, h⟩

lemma current_concat (before : Option α) (history : List ε) (e : ε) :
    current effect before (history ++ [e]) = (effect e).getD (current effect before history) := by
  rw [current, foldl_append]
  rfl

lemma last_concat_iff {history : List ε} {e : ε} {a : α} :
    Last effect (history ++ [e]) a ↔
      effect e = some (some a) ∨ effect e = none ∧ Last effect history a := by
  constructor
  · rintro ⟨pre, e', post, heq, hwr, hpost⟩
    -- the write is the last event itself, or one of the history before it
    rcases eq_nil_or_concat' post with rfl | ⟨post, last, rfl⟩
    · obtain ⟨-, hlast⟩ := append_inj' heq rfl
      obtain rfl := (cons.inj hlast).1
      exact Or.inl hwr
    · rw [← cons_append, ← append_assoc] at heq
      obtain ⟨rfl, hlast⟩ := append_inj' heq rfl
      obtain rfl := (cons.inj hlast).1
      refine Or.inr ⟨hpost e (by simp), pre, e', post, rfl, hwr, ?_⟩
      intro e'' he''
      exact hpost e'' (mem_append_left _ he'')
  · rintro (hwr | ⟨hnone, pre, e', post, rfl, hwr, hpost⟩)
    · exact ⟨history, e, [], rfl, hwr, by simp⟩
    · refine ⟨pre, e', post ++ [e], by simp, hwr, ?_⟩
      intro e'' he''
      rcases mem_append.mp he'' with he'' | he''
      · exact hpost e'' he''
      · rw [mem_singleton.mp he'']
        exact hnone

lemma current_eq_some_iff {history : List ε} {a : α} :
    current effect none history = some a ↔ Last effect history a := by
  induction history using reverseRecOn with
  | nil =>
    refine iff_of_false (by simp [current]) ?_
    rintro ⟨pre, e, post, heq, -⟩
    exact absurd heq (by simp)
  | append_singleton history e ih =>
    rw [current_concat, last_concat_iff]
    cases heff : effect e with
    | none => simpa using ih
    | some value => simp

end Aether.LastWrite
