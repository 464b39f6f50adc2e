import Mathlib.Data.Set.Basic

/-!
# When a fallible computation returns

Equations `… = .ok b` for the constructs of a `do` block over `Except`, so that the conditions of a
function with early returns are read off by `simp only`.
-/

namespace Aether.Except

universe u v

variable {ε ε' : Type u} {α β : Type v}

variable {x : Except ε α} {f : α → Except ε β} {b : β} {c : Prop} {e : ε}

lemma bind_eq_ok_iff : x >>= f = .ok b ↔ ∃ a, x = .ok a ∧ f a = .ok b := by
  cases x with
  | error e => simp [bind, Except.bind]
  | ok a => simp [bind, Except.bind]

lemma map_eq_ok_iff {f : α → β} : x.map f = .ok b ↔ ∃ a, x = .ok a ∧ f a = b := by
  cases x with
  | error e => simp [Except.map]
  | ok a => simp [Except.map]

lemma mapError_eq_ok_iff {f : ε → ε'} {a : α} : x.mapError f = .ok a ↔ x = .ok a := by
  cases x with
  | error e => exact ⟨fun h => (nomatch h), fun h => (nomatch h)⟩
  | ok b =>
    show Except.ok b = .ok a ↔ _
    rw [Except.ok.injEq, Except.ok.injEq]

lemma pure_eq_ok_iff {a b : α} : (pure a : Except ε α) = .ok b ↔ a = b := by
  simp [pure, Except.pure]

lemma ite_throw_eq_ok_iff [Decidable c] {x : Except ε β} :
    (if c then throw e >>= f else x) = .ok b ↔ ¬ c ∧ x = .ok b := by
  by_cases hc : c
  · rw [if_pos hc]
    simp [hc, bind_eq_ok_iff, throw, throwThe, MonadExceptOf.throw]
  · simp [hc]

lemma ite_throw_unit_eq_ok_iff [Decidable c] :
    (if c then throw e else pure () : Except ε Unit) = .ok () ↔ ¬ c := by
  by_cases hc : c
  · rw [if_pos hc]
    exact iff_of_false (by simp [throw, throwThe, MonadExceptOf.throw]) (not_not.mpr hc)
  · rw [if_neg hc]
    exact iff_of_true rfl hc

end Aether.Except

/-!
## Commands that fail or panic and keep their state

What was written before an error stays written; `attempt` makes an error a value.  `Holds m s Q`:
`Q` holds of the outcome and the final state of `m` from `s`; `Preserves I m`: every run of `m`
keeps `I`, however it ends; `FailsWith P m`: `m` fails only as `P` allows, where `none` is a panic.
-/

namespace Aether

inductive Outcome (ε α : Type) where
  | ok (a : α)
  | error (e : ε)
  | panic
  deriving DecidableEq

def Command (σ ε α : Type) : Type := σ → Outcome ε α × σ

namespace Command

variable {σ ε α β : Type}

instance : Monad (Command σ ε) where
  pure a := fun s => (.ok a, s)
  bind m f := fun s =>
    match m s with
    | (.ok a, s') => f a s'
    | (.error e, s') => (.error e, s')
    | (.panic, s') => (.panic, s')

def fail (e : ε) : Command σ ε α := fun s => (.error e, s)

def panicked : Command σ ε α := fun s => (.panic, s)

def peek (f : σ → α) : Command σ ε α := fun s => (.ok (f s), s)

def update (f : σ → σ) : Command σ ε Unit := fun s => (.ok (), f s)

def emit (e : α) : Command (List α) ε Unit := fun log => (.ok (), log ++ [e])

def require (x : Except ε α) : Command σ ε α := fun s =>
  match x with
  | .ok a => (.ok a, s)
  | .error e => (.error e, s)

def attempt (m : Command σ ε α) : Command σ ε (Except ε α) := fun s =>
  match m s with
  | (.ok a, s') => (.ok (.ok a), s')
  | (.error e, s') => (.ok (.error e), s')
  | (.panic, s') => (.panic, s')

def mapError {ε' : Type} (f : ε → ε') (m : Command σ ε α) : Command σ ε' α := fun s =>
  match m s with
  | (.ok a, s') => (.ok a, s')
  | (.error e, s') => (.error (f e), s')
  | (.panic, s') => (.panic, s')

def Holds (m : Command σ ε α) (s : σ) (Q : Outcome ε α → σ → Prop) : Prop := Q (m s).1 (m s).2

variable {m m' : Command σ ε α} {s : σ} {Q R : Outcome ε α → σ → Prop} {f : α → Command σ ε β}
  {c : Prop} {a : α} {s' : σ}

lemma Holds.mono {Q' : Outcome ε α → σ → Prop} (h : Holds m s Q) (hQ : ∀ o s', Q o s' → Q' o s') :
    Holds m s Q' :=
  hQ _ _ h

lemma Holds.and (hQ : Holds m s Q) (hR : Holds m s R) :
    Holds m s fun o s' => Q o s' ∧ R o s' := ⟨hQ, hR⟩

@[simp] lemma pure_apply (a : α) (s : σ) : (pure a : Command σ ε α) s = (.ok a, s) := rfl

@[simp] lemma fail_apply (e : ε) (s : σ) : (fail e : Command σ ε α) s = (.error e, s) := rfl

@[simp] lemma update_apply (f : σ → σ) (s : σ) :
    (update f : Command σ ε Unit) s = (.ok (), f s) := rfl

@[simp] lemma require_ok_bind (a : α) (k : α → Command σ ε β) :
    (require (.ok a) >>= k : Command σ ε β) = k a := rfl

@[simp] lemma require_error_bind (e : ε) (k : α → Command σ ε β) :
    (require (.error e) >>= k : Command σ ε β) = fail e := rfl

@[simp] lemma peek_bind_apply (f : σ → α) (k : α → Command σ ε β) (s : σ) :
    (peek f >>= k) s = k (f s) s := rfl

@[simp] lemma update_bind_apply (f : σ → σ) (k : Unit → Command σ ε β) (s : σ) :
    (update f >>= k) s = k () (f s) := rfl

@[simp] lemma mapError_apply_snd {ε' : Type} (f : ε → ε') (m : Command σ ε α) (s : σ) :
    (mapError f m s).2 = (m s).2 := by
  unfold mapError
  rcases m s with ⟨a | e | -, s'⟩
  · rfl
  · rfl
  · rfl

lemma bind_apply (m : Command σ ε α) (f : α → Command σ ε β) (s : σ) :
    (m >>= f) s =
      match m s with
      | (.ok a, s') => f a s'
      | (.error e, s') => (.error e, s')
      | (.panic, s') => (.panic, s') :=
  rfl

lemma bind_apply_of_ok (hm : (m s).1 = .ok a) (f : α → Command σ ε β) :
    (m >>= f) s = f a (m s).2 := by
  rw [bind_apply]
  rcases hms : m s with ⟨a' | e | -, s'⟩ <;> rw [hms] at hm
  · cases hm
    rfl
  · cases hm
  · cases hm

lemma bind_apply_of_eq (hm : m s = (.ok a, s')) (f : α → Command σ ε β) :
    (m >>= f) s = f a s' := by
  rw [bind_apply, hm]

lemma bind_pure_snd (m : Command σ ε α) (f : α → β) (s : σ) :
    ((m >>= fun a => pure (f a)) s).2 = (m s).2 := by
  rw [bind_apply]
  rcases m s with ⟨a | e | -, s'⟩
  · rfl
  · rfl
  · rfl

lemma attempt_apply_of_require {x : Except ε α} (hm : m s = require x s') :
    attempt m s = (.ok x, s') := by
  rw [attempt, hm]
  cases x with
  | error e => rfl
  | ok a => rfl

lemma bind_apply_eq_ok_iff {b : β} :
    (m >>= f) s = (.ok b, s') ↔ ∃ a s₁, m s = (.ok a, s₁) ∧ f a s₁ = (.ok b, s') := by
  rw [bind_apply]
  rcases m s with ⟨a | e | -, s₁⟩
  · refine ⟨fun h => ⟨a, s₁, rfl, h⟩, ?_⟩
    rintro ⟨a', s', heq, h⟩
    obtain ⟨ha, rfl⟩ := Prod.mk.inj heq
    cases ha
    exact h
  · simp
  · simp

/-- **Sequencing**: the first command ends in a value from which the second one holds, or in the
failure of the whole. -/
theorem Holds.bind {Q : Outcome ε β → σ → Prop} (hm : Holds m s R)
    (hok : ∀ a s', R (.ok a) s' → Holds (f a) s' Q)
    (herr : ∀ e s', R (.error e) s' → Q (.error e) s')
    (hpan : ∀ s', R .panic s' → Q .panic s') : Holds (m >>= f) s Q := by
  unfold Holds at hm ⊢
  rw [bind_apply]
  rcases hms : m s with ⟨a | e | -, s'⟩ <;> rw [hms] at hm
  · exact hok a s' hm
  · exact herr e s' hm
  · exact hpan s' hm

lemma holds_peek_bind {f : σ → β} {k : β → Command σ ε α} (h : Holds (k (f s)) s Q) :
    Holds (peek f >>= k) s Q := h

lemma holds_update_bind {f : σ → σ} {k : Unit → Command σ ε α} (h : Holds (k ()) (f s) Q) :
    Holds (update f >>= k) s Q := h

lemma Holds.attempt {Q : Outcome ε (Except ε α) → σ → Prop} (h : Holds m s fun o s' =>
      match o with
      | .ok a => Q (.ok (.ok a)) s'
      | .error e => Q (.ok (.error e)) s'
      | .panic => Q .panic s') : Holds (attempt m) s Q := by
  unfold Holds at h ⊢
  unfold Command.attempt
  rcases hms : m s with ⟨a | e | -, s'⟩ <;> rw [hms] at h
  · exact h
  · exact h
  · exact h

def Preserves (I : σ → Prop) (m : Command σ ε α) : Prop := ∀ s, I s → I (m s).2

variable {I : σ → Prop}

lemma Preserves.holds (h : Preserves I m) (hs : I s) : Holds m s fun _ s' => I s' := h s hs

lemma preserves_pure (a : α) : Preserves I (pure a : Command σ ε α) := fun _ hs => hs

lemma preserves_fail (e : ε) : Preserves I (fail e : Command σ ε α) := fun _ hs => hs

lemma preserves_peek (f : σ → α) : Preserves I (peek f : Command σ ε α) := fun _ hs => hs

lemma preserves_require (x : Except ε α) : Preserves I (require x : Command σ ε α) := by
  cases x with
  | ok a => exact preserves_pure a
  | error e => exact preserves_fail e

lemma preserves_update {f : σ → σ} (hf : ∀ s, I s → I (f s)) :
    Preserves I (update f : Command σ ε Unit) := hf

lemma Preserves.and {J : σ → Prop} (hI : Preserves I m) (hJ : Preserves J m) :
    Preserves (fun s => I s ∧ J s) m := fun s hs =>
  ⟨hI s hs.1, hJ s hs.2⟩

lemma Preserves.bind (hm : Preserves I m) (hf : ∀ a, Preserves I (f a)) :
    Preserves I (m >>= f) := fun _ hs =>
  Holds.bind (Q := fun _ s' => I s') (hm.holds hs) (fun a s' hs' => hf a s' hs')
    (fun _ _ hs' => hs') fun _ hs' => hs'

lemma Preserves.holds_bind {Q : Outcome ε β → σ → Prop} (hm : Preserves I m) (hs : I s)
    (hQ : ∀ o s', I s' → Q o s') (hf : ∀ a s', I s' → Holds (f a) s' Q) : Holds (m >>= f) s Q :=
  (hm.holds hs).bind hf (fun e => hQ (.error e)) (hQ .panic)

lemma Preserves.attempt (hm : Preserves I m) : Preserves I (attempt m) := fun s hs => by
  refine Holds.attempt (Q := fun _ s' => I s') ((hm.holds hs).mono fun o s' hs' => ?_)
  rcases o with a | e | -
  · exact hs'
  · exact hs'
  · exact hs'

lemma Preserves.mapError {ε' : Type} (hm : Preserves I m) (f : ε → ε') :
    Preserves I (mapError f m) := by
  intro s hs
  rw [mapError_apply_snd]
  exact hm s hs

lemma Preserves.ite [Decidable c] (hm : Preserves I m) (hm' : Preserves I m') :
    Preserves I (if c then m else m') := by
  by_cases hc : c
  · rwa [if_pos hc]
  · rwa [if_neg hc]

def FailsWith (P : Option ε → Prop) (m : Command σ ε α) : Prop :=
  ∀ s, (∀ e, (m s).1 = .error e → P (some e)) ∧ ((m s).1 = .panic → P none)

variable {P : Option ε → Prop}

lemma failsWith_pure (a : α) : FailsWith P (pure a : Command σ ε α) := fun _ => ⟨nofun, nofun⟩

lemma failsWith_peek (f : σ → α) : FailsWith P (peek f : Command σ ε α) :=
  fun _ => ⟨nofun, nofun⟩

lemma failsWith_update (f : σ → σ) : FailsWith P (update f : Command σ ε Unit) :=
  fun _ => ⟨nofun, nofun⟩

lemma failsWith_panicked (hP : P none) : FailsWith P (panicked : Command σ ε α) :=
  fun _ => ⟨nofun, fun _ => hP⟩

lemma failsWith_fail {e : ε} (he : P (some e)) : FailsWith P (fail e : Command σ ε α) := by
  refine fun s => ⟨fun e' heq => ?_, nofun⟩
  cases heq
  exact he

lemma failsWith_attempt (hP : P none) (m : Command σ ε α) : FailsWith P (attempt m) := by
  refine fun s => ⟨fun e heq => ?_, fun _ => hP⟩
  unfold attempt at heq
  rcases hms : m s with ⟨a | e' | -, s'⟩ <;> rw [hms] at heq
  · cases heq
  · cases heq
  · cases heq

lemma FailsWith.bind (hm : FailsWith P m) (hf : ∀ a, FailsWith P (f a)) :
    FailsWith P (m >>= f) := by
  intro s
  rw [bind_apply]
  rcases hms : m s with ⟨a | e' | -, s'⟩
  · exact hf a s'
  · refine ⟨fun e heq => ?_, nofun⟩
    obtain rfl := Outcome.error.inj heq
    exact (hm s).1 e' (by rw [hms])
  · exact ⟨nofun, fun _ => (hm s).2 (by rw [hms])⟩

/-- **Sequencing** where the errors of the first command need no more than `P`. -/
theorem FailsWith.holds_bind {Q : Outcome ε β → σ → Prop} (hfail : FailsWith P m)
    (hm : Holds m s R) (hok : ∀ a s', R (.ok a) s' → Holds (f a) s' Q)
    (herr : ∀ e s', P (some e) → Q (.error e) s') (hpan : ∀ s', Q .panic s') :
    Holds (m >>= f) s Q := by
  have hboth : Holds m s fun o s' => R o s' ∧ ∀ e, o = .error e → P (some e) :=
    ⟨hm, (hfail s).1⟩
  exact hboth.bind (fun a s' h => hok a s' h.1) (fun e s' h => herr e s' (h.2 e rfl))
    fun s' _ => hpan s'

lemma FailsWith.ite [Decidable c] (hm : FailsWith P m) (hm' : FailsWith P m') :
    FailsWith P (if c then m else m') := by
  by_cases hc : c
  · rwa [if_pos hc]
  · rwa [if_neg hc]

abbrev NoPanic (m : Command σ ε α) : Prop := FailsWith (· ≠ none) m

lemma NoPanic.attempt_apply (hm : NoPanic m) (s : σ) : ∃ r, attempt m s = (.ok r, (m s).2) := by
  unfold attempt
  rcases hms : m s with ⟨a | e | -, s'⟩
  · exact ⟨.ok a, rfl⟩
  · exact ⟨.error e, rfl⟩
  · exact absurd rfl ((hm s).2 (congrArg Prod.fst hms))

end Command

end Aether

/-!
## Programs that make calls

The world may answer a call as it likes, given the calls before it.
-/

namespace Aether.Calls

variable {C ε : Type} {R : C → Type}

def World (C : Type) (R : C → Type) : Type := List C → (c : C) → R c

def call (w : World C R) (c : C) : Command (List C) ε (R c) := fun log =>
  (.ok (w log c), log ++ [c])

def All (P : C → Prop) (log : List C) : Prop := ∀ c ∈ log, P c

lemma all_nil (P : C → Prop) : All P [] := by simp [All]

lemma All.concat {P : C → Prop} {log : List C} (hlog : All P log) {c : C} (h : P c) :
    All P (log ++ [c]) := by
  intro c' hc'
  rcases List.mem_append.mp hc' with hmem | hmem
  · exact hlog c' hmem
  · rwa [List.mem_singleton.mp hmem]

lemma preserves_call {I : List C → Prop} (w : World C R) {c : C}
    (h : ∀ log, I log → I (log ++ [c])) :
    Command.Preserves I (call w c : Command (List C) ε (R c)) := h

end Aether.Calls
