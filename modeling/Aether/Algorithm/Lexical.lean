import Aether.Algorithm.FileTree

/-!
# Paths resolved lexically

`.` says nothing and `..` takes the last name away.  What a path does to a directory is how many
names it takes away and which it then adds (`climb`).
-/

namespace Aether.Lexical

open List

universe u

variable {N : Type u}

def resolveStep (dir : List N) : Part N → List N
  | .here => dir
  | .up => dir.dropLast
  | .name n => dir ++ [n]

def resolve (dir : List N) (parts : List (Part N)) : List N :=
  parts.foldl resolveStep dir

variable (dir : List N) (parts : List (Part N)) (base : List N)

@[simp] lemma resolve_nil : resolve dir [] = dir := rfl

lemma resolve_append (l₁ l₂ : List (Part N)) :
    resolve dir (l₁ ++ l₂) = resolve (resolve dir l₁) l₂ :=
  foldl_append

lemma resolve_concat (part : Part N) :
    resolve dir (parts ++ [part]) = resolveStep (resolve dir parts) part :=
  foldl_append

lemma resolve_names (ns : List N) : resolve dir (ns.map Part.name) = dir ++ ns := by
  induction ns using reverseRecOn with
  | nil => simp
  | append_singleton ns n ih =>
    rw [map_append, map_singleton, resolve_concat, ih, resolveStep, append_assoc]

def climbStep (c : ℕ × List N) : Part N → ℕ × List N
  | .here => c
  | .up => if c.2.isEmpty then (c.1 + 1, []) else (c.1, c.2.dropLast)
  | .name n => (c.1, c.2 ++ [n])

def climb (parts : List (Part N)) : ℕ × List N :=
  parts.foldl climbStep (0, [])

@[simp] lemma climb_nil : climb ([] : List (Part N)) = (0, []) := rfl

lemma climb_concat (part : Part N) : climb (parts ++ [part]) = climbStep (climb parts) part :=
  foldl_append

lemma resolve_eq :
    resolve dir parts = dir.take (dir.length - (climb parts).1) ++ (climb parts).2 := by
  induction parts using reverseRecOn with
  | nil => simp
  | append_singleton parts part ih =>
    rw [resolve_concat, climb_concat, ih]
    obtain ⟨u, ns⟩ := climb parts
    cases part with
    | here => rfl
    | name n => simp [resolveStep, climbStep]
    | up =>
      rcases eq_nil_or_concat' ns with rfl | ⟨ns, n, rfl⟩
      · simp only [resolveStep, climbStep, append_nil, isEmpty_nil, if_true,
          dropLast_eq_take, take_take, length_take]
        congr 1
        omega
      · simp [resolveStep, climbStep, ← append_assoc]

lemma isPrefix_take_append_iff (l ns : List N) (k : ℕ) :
    l <+: l.take k ++ ns ↔ l.drop k <+: ns := by
  constructor
  · intro h
    have h' : l.take k ++ l.drop k <+: l.take k ++ ns := by rwa [take_append_drop]
    exact (prefix_append_right_inj _).mp h'
  · intro h
    have h' : l.take k ++ l.drop k <+: l.take k ++ ns := (prefix_append_right_inj _).mpr h
    rwa [take_append_drop] at h'

lemma isPrefix_resolve_iff (parts : List (Part N)) :
    base <+: resolve base parts ↔
      base.drop (base.length - (climb parts).1) <+: (climb parts).2 := by
  rw [resolve_eq, isPrefix_take_append_iff]

lemma resolve_eq_self_iff (parts : List (Part N)) :
    resolve base parts = base ↔ (climb parts).2 = base.drop (base.length - (climb parts).1) := by
  rw [resolve_eq]
  constructor
  · intro h
    have h' : base.take (base.length - (climb parts).1) ++ (climb parts).2 =
        base.take (base.length - (climb parts).1) ++
          base.drop (base.length - (climb parts).1) := by rw [h, take_append_drop]
    exact append_cancel_left h'
  · intro h
    rw [h, take_append_drop]

def Below (base dir : List N) : Prop := base <+: dir ∧ dir ≠ base

instance [DecidableEq N] (base dir : List N) : Decidable (Below base dir) := by
  unfold Below; infer_instance

lemma below_resolve_iff (parts : List (Part N)) :
    Below base (resolve base parts) ↔
      Below (base.drop (base.length - (climb parts).1)) (climb parts).2 := by
  rw [Below, Below, isPrefix_resolve_iff, Ne, Ne, resolve_eq_self_iff]

lemma isPrefix_resolve_child_iff (d : N) (parts : List (Part N)) :
    base <+: resolve (base ++ [d]) parts ↔
      base.drop (base.length - ((climb parts).1 - 1)) <+: (climb parts).2 := by
  rw [resolve_eq]
  generalize climb parts = c
  obtain ⟨u, ns⟩ := c
  rcases Nat.eq_zero_or_pos u with rfl | hu
  · have htake : (base ++ [d]).take ((base ++ [d]).length - 0) = base ++ [d] := by simp
    rw [htake, append_assoc]
    simp
  · -- The first `..` takes the child away.
    have hlen : (base ++ [d]).length - u = base.length - (u - 1) := by simp; omega
    have htake : (base ++ [d]).take (base.length - (u - 1)) = base.take (base.length - (u - 1)) :=
      take_append_of_le_length (Nat.sub_le ..)
    rw [hlen, htake, isPrefix_take_append_iff]

end Aether.Lexical
