import Aether.Algorithm.Command

/-!
# Bounded retries

`Tries` is what a whole run adds to the log, attempt by attempt (`exists_tries`).  What an attempt
does may depend on the log before it.
-/

namespace Aether.Retry

open Command

variable {E σ ε α : Type}

def retry (attempt : ℕ → Command σ ε α) (again : ℕ → ε → Bool) :
    (fuel n : ℕ) → Command σ ε (Except ε α)
  | 0, _ => panicked
  | fuel + 1, n => Command.attempt (attempt n) >>= fun result =>
    match result with
    | .ok a => pure (.ok a)
    | .error e => if again n e then retry attempt again fuel (n + 1) else pure (.error e)

/-- The attempts from number `n` on, after `log`: their result and what they add to the log. -/
inductive Tries (Segment : List E → ℕ → Except ε α → List E → Prop) (again : ℕ → ε → Bool) :
    List E → ℕ → Except ε α → List E → Prop
  | ok {log new : List E} {n : ℕ} {a : α} (h : Segment log n (.ok a) new) :
      Tries Segment again log n (.ok a) new
  | stop {log new : List E} {n : ℕ} {e : ε} (h : Segment log n (.error e) new)
      (hstop : again n e = false) : Tries Segment again log n (.error e) new
  | again {log new rest : List E} {n : ℕ} {e : ε} {r : Except ε α}
      (h : Segment log n (.error e) new) (hagain : again n e = true)
      (hrest : Tries Segment again (log ++ new) (n + 1) r rest) :
      Tries Segment again log n r (new ++ rest)

variable {Segment : List E → ℕ → Except ε α → List E → Prop} {again : ℕ → ε → Bool}
variable {attempt : ℕ → Command (List E) ε α} {log new : List E} {n : ℕ} {r : Except ε α}

lemma Tries.forall_mem {P : E → Prop}
    (hP : ∀ log n r new, Segment log n r new → ∀ e ∈ new, P e)
    (h : Tries Segment again log n r new) : ∀ e ∈ new, P e := by
  induction h with
  | ok hseg => exact hP _ _ _ _ hseg
  | stop hseg _ => exact hP _ _ _ _ hseg
  | again hseg _ _ ih =>
    rw [List.forall_mem_append]
    exact ⟨hP _ _ _ _ hseg, ih⟩

lemma Tries.map {F : Type} {Segment' : List F → ℕ → Except ε α → List F → Prop}
    {g : List E → List F} (hg : ∀ l l', g (l ++ l') = g l ++ g l')
    (hseg : ∀ log n r new, Segment log n r new → Segment' (g log) n r (g new))
    (h : Tries Segment again log n r new) : Tries Segment' again (g log) n r (g new) := by
  induction h with
  | ok h => exact .ok (hseg _ _ _ _ h)
  | stop h hstop => exact .stop (hseg _ _ _ _ h) hstop
  | again h hagain _ ih =>
    rw [hg] at ih ⊢
    exact .again (hseg _ _ _ _ h) hagain ih

lemma Tries.unique {r' : Except ε α} {new' : List E}
    (hseg : ∀ {log n r new r' new'}, Segment log n r new → Segment log n r' new' →
      r = r' ∧ new = new')
    (h : Tries Segment again log n r new) (h' : Tries Segment again log n r' new') :
    r = r' ∧ new = new' := by
  induction h generalizing r' new' with
  | ok h =>
    cases h' with
    | ok h' => exact hseg h h'
    | stop h' => cases (hseg h h').1
    | again h' => cases (hseg h h').1
  | stop h hstop =>
    cases h' with
    | ok h' => cases (hseg h h').1
    | stop h' => exact hseg h h'
    | again h' hagain =>
      cases (hseg h h').1
      rw [hstop] at hagain
      cases hagain
  | again h hagain _ ih =>
    cases h' with
    | ok h' => cases (hseg h h').1
    | stop h' hstop =>
      cases (hseg h h').1
      rw [hstop] at hagain
      cases hagain
    | again h' _ hrest =>
      obtain ⟨he, rfl⟩ := hseg h h'
      cases he
      obtain ⟨rfl, rfl⟩ := ih hrest
      exact ⟨rfl, rfl⟩

/-- **Bounded retries** return, if an attempt that is repeated has a number below `last` and the
fuel is enough for that many. -/
theorem exists_tries {last : ℕ}
    (hatt : ∀ log n, ∃ r new, Command.attempt (attempt n) log = (.ok r, log ++ new) ∧
      Segment log n r new)
    (hlast : ∀ n e, again n e = true → n < last) (fuel n : ℕ) (log : List E) (hn : n ≤ last)
    (hfuel : last < fuel + n) :
    ∃ r new, retry attempt again fuel n log = (.ok r, log ++ new) ∧
      Tries Segment again log n r new := by
  induction fuel generalizing n log with
  | zero => omega
  | succ fuel ih =>
    obtain ⟨result, new, hrun, hseg⟩ := hatt log n
    rw [retry, bind_apply_of_eq hrun]
    rcases result with e | a
    · cases haga : again n e with
      | true =>
        have hlt := hlast n e haga
        obtain ⟨r, rest, hrest, htri⟩ := ih (n + 1) (log ++ new) hlt (by omega)
        refine ⟨r, new ++ rest, ?_, .again hseg haga htri⟩
        simp only [haga, if_true, hrest, List.append_assoc]
      | false =>
        refine ⟨_, new, ?_, .stop hseg haga⟩
        simp [haga]
    · exact ⟨_, new, rfl, .ok hseg⟩

end Aether.Retry
