import Aether.Algorithm.Command
import Aether.Update.Planning
import Mathlib.Data.List.Pairwise
import Mathlib.Data.Prod.Lex

/-!
# Printing, parsing and comparing versions

A printed version is read back as it was (`ParsedVersion.parse_display`).  The requirement of a
decision is a function of the parsed versions alone (`VersionPolicy.requirement_evaluate`).
-/

namespace Aether.Update

open Aether.Core (Str)

namespace ParsedVersion

def numbersText (v : ParsedVersion) : Str :=
  ['.'].intercalate
    [Nat.toDigits 10 v.major.toNat, Nat.toDigits 10 v.minor.toNat, Nat.toDigits 10 v.patch.toNat]

lemma toList_display (v : ParsedVersion) :
    v.display.toList = v.numbersText ++ (v.pre.map ('-' :: ·)).getD [] := by
  have hnum : (s!"{v.major}.{v.minor}.{v.patch}").toList = v.numbersText := by
    simp [numbersText, ToString.toString, List.intercalate_cons_cons]
  unfold display
  cases v.pre with
  | none => simpa using hnum
  | some pre => simp [hnum]

lemma not_mem_toDigits {c : Char} (hc : c.isDigit = false) (n : ℕ) : c ∉ Nat.toDigits 10 n := by
  intro hmem
  rw [Nat.isDigit_of_mem_toDigits (by decide) (by decide) hmem] at hc
  cases hc

lemma dash_not_mem_numbersText (v : ParsedVersion) : '-' ∉ v.numbersText := by
  have hdash := not_mem_toDigits (c := '-') (by decide)
  simp [numbersText, List.intercalate_cons_cons, hdash]

lemma splitOn_numbersText (v : ParsedVersion) :
    v.numbersText.splitOn '.' = [Nat.toDigits 10 v.major.toNat, Nat.toDigits 10 v.minor.toNat,
      Nat.toDigits 10 v.patch.toNat] := by
  have hdot := not_mem_toDigits (c := '.') (by decide)
  refine List.splitOn_intercalate '.' ?_ (List.cons_ne_nil _ _)
  simp [hdot]

lemma pre_of_parse {raw : String} {v : ParsedVersion} (h : parse raw = some v) :
    v.pre.all isPrerelease = true := by
  unfold parse at h
  split at h
  next core pre _ =>
  split at h
  · simp only [Option.bind_eq_bind, Option.bind_eq_some_iff] at h
    obtain ⟨major, -, minor, -, patch, -, h⟩ := h
    split_ifs at h with hpre
    cases h
    exact hpre
  · cases h

lemma parse_display {v : ParsedVersion} (hpre : v.pre.all isPrerelease = true) :
    parse v.display = some v := by
  obtain ⟨major, minor, patch, pre⟩ := v
  have hdash := dash_not_mem_numbersText ⟨major, minor, patch, pre⟩
  have hspl := splitOn_numbersText ⟨major, minor, patch, pre⟩
  unfold parse
  rw [toList_display]
  cases pre with
  | none =>
    rw [Option.map_none, Option.getD_none, List.append_nil, Str.splitOnce_of_not_mem hdash]
    simp only [hspl, Str.parseU32_toDigits]
    rfl
  | some pre =>
    rw [Option.map_some, Option.getD_some, Str.splitOnce_append_cons hdash]
    simp only [hspl, Str.parseU32_toDigits]
    exact if_pos hpre

variable {v w : ParsedVersion}

lemma numericCmp_eq_eq_iff :
    v.numericCmp w = .eq ↔ v.major = w.major ∧ v.minor = w.minor ∧ v.patch = w.patch := by
  rw [numericCmp, Ordering.then_eq_eq, Ordering.then_eq_eq, Std.compare_eq_iff_eq,
    Std.compare_eq_iff_eq, Std.compare_eq_iff_eq, and_assoc]

lemma swap_numericCmp (v w : ParsedVersion) : (v.numericCmp w).swap = w.numericCmp v := by
  have hswap (m n : UInt32) : (compare m n).swap = compare n m :=
    Std.OrientedOrd.eq_swap.symm
  rw [numericCmp, Ordering.swap_then, Ordering.swap_then, hswap, hswap, hswap, numericCmp]

end ParsedVersion

def VersionRequirement.swap : VersionRequirement → VersionRequirement
  | .upgrade => .downgrade
  | .downgrade => .upgrade
  | .same => .same
  | .prerelease => .prerelease

def requirementOf (installed target : ParsedVersion) : VersionRequirement :=
  match installed.numericCmp target with
  | .lt => .upgrade
  | .gt => .downgrade
  | .eq => if installed.pre = target.pre then .same else .prerelease

lemma requirementOf_eq_same_or_prerelease_iff (v w : ParsedVersion) :
    (requirementOf v w = .same ∨ requirementOf v w = .prerelease) ↔ v.numericCmp w = .eq := by
  unfold requirementOf
  cases v.numericCmp w with
  | lt => simp
  | gt => simp
  | eq => by_cases hpre : v.pre = w.pre <;> simp [hpre]

lemma requirementOf_swap (v w : ParsedVersion) :
    requirementOf w v = (requirementOf v w).swap := by
  rw [requirementOf, ← ParsedVersion.swap_numericCmp, requirementOf]
  cases v.numericCmp w with
  | lt => rfl
  | gt => rfl
  | eq => by_cases hpre : v.pre = w.pre <;> simp [hpre, eq_comm, VersionRequirement.swap]

namespace VersionPolicy

variable (policy : VersionPolicy) (action : UpdateAction)

lemma requirement_compareVersions (v w : ParsedVersion) :
    (policy.compareVersions action v w).requirement = requirementOf v w := by
  unfold compareVersions requirementOf
  cases v.numericCmp w with
  | lt => rfl
  | gt => cases policy.allowDowngrade <;> rfl
  | eq =>
    by_cases hpre : v.pre = w.pre
    · rw [if_neg (by simp [hpre]), if_pos hpre]
      cases action <;> rfl
    · rw [if_pos (by simp [hpre]), if_neg hpre]
      cases policy.allowPrerelease <;> rfl

variable {s t : String} {v w : ParsedVersion}

lemma requirement_evaluate (hs : ParsedVersion.parse s = some v)
    (ht : ParsedVersion.parse t = some w) :
    (policy.evaluate action s t).requirement = requirementOf v w := by
  rw [evaluate, hs, ht]
  exact requirement_compareVersions policy action v w

/-- **Printing, parsing and comparing agree**: an accepted version is printed as a text that is
parsed as the same version; the requirement depends on the parsed versions only, not on the texts,
the policy or the action; it is the same version or a pre-release exactly if the numbers are equal;
and exchanging the versions exchanges upgrade and downgrade. -/
theorem evaluate_of_parse (hs : ParsedVersion.parse s = some v)
    (ht : ParsedVersion.parse t = some w) :
    ParsedVersion.parse v.display = some v ∧
      (∀ policy' action' s' t', ParsedVersion.parse s' = some v → ParsedVersion.parse t' = some w →
        (VersionPolicy.evaluate policy' action' s' t').requirement =
          (policy.evaluate action s t).requirement) ∧
      ((policy.evaluate action s t).requirement = .same ∨
          (policy.evaluate action s t).requirement = .prerelease ↔
        v.major = w.major ∧ v.minor = w.minor ∧ v.patch = w.patch) ∧
      (policy.evaluate action t s).requirement = (policy.evaluate action s t).requirement.swap := by
  rw [requirement_evaluate policy action hs ht, requirement_evaluate policy action ht hs]
  refine ⟨ParsedVersion.parse_display (ParsedVersion.pre_of_parse hs), ?_, ?_, ?_⟩
  · intro policy' action' s' t' hs' ht'
    exact requirement_evaluate policy' action' hs' ht'
  · rw [requirementOf_eq_same_or_prerelease_iff, ParsedVersion.numericCmp_eq_eq_iff]
  · exact requirementOf_swap v w

/-- A leading zero is not printed, and the suffix is compared only when the numbers are equal. -/
theorem evaluate_of_parse_leading_zero :
    ParsedVersion.parse (ParsedVersion.display ⟨1, 4, 0, some ['r', 'c', '.', '1']⟩) =
        some ⟨1, 4, 0, some ['r', 'c', '.', '1']⟩ ∧
      (VersionPolicy.evaluate ⟨false, false⟩ .upgradeOsImage "1.4.0" "01.4.0-rc.1").requirement =
        (VersionPolicy.evaluate ⟨false, false⟩ .upgradeOsImage
          "01.4.0-rc.1" "1.4.0").requirement.swap :=
  have hs : ParsedVersion.parse "01.4.0-rc.1" = some ⟨1, 4, 0, some ['r', 'c', '.', '1']⟩ := by
    decide +kernel
  have ht : ParsedVersion.parse "1.4.0" = some ⟨1, 4, 0, none⟩ := by decide +kernel
  have h := evaluate_of_parse ⟨false, false⟩ .upgradeOsImage hs ht
  ⟨h.1, h.2.2.2⟩

end VersionPolicy

/-!
## No rollback through updates

A decision that allows an update without allowing downgrades never lowers the numbers of a version.
-/

open Security (SignedUpdate)

namespace ParsedVersion

def numbers (v : ParsedVersion) : ℕ ×ₗ ℕ ×ₗ ℕ :=
  toLex (v.major.toNat, toLex (v.minor.toNat, v.patch.toNat))

lemma numericCmp_eq_gt_iff {v w : ParsedVersion} :
    v.numericCmp w = .gt ↔ w.numbers < v.numbers := by
  simp only [numericCmp, numbers, Prod.Lex.lt_iff, ofLex_toLex, ← UInt32.lt_iff_toNat_lt,
    UInt32.toNat_inj, Ordering.then_eq_gt, Ordering.then_eq_eq, Std.compare_eq_gt,
    Std.compare_eq_iff_eq]
  constructor
  · rintro ((hmaj | ⟨hmaj, hmin⟩) | ⟨⟨hmaj, hmin⟩, hpat⟩)
    · exact .inl hmaj
    · exact .inr ⟨hmaj.symm, .inl hmin⟩
    · exact .inr ⟨hmaj.symm, .inr ⟨hmin.symm, hpat⟩⟩
  · rintro (hmaj | ⟨hmaj, hmin | ⟨hmin, hpat⟩⟩)
    · exact .inl (.inl hmaj)
    · exact .inl (.inr ⟨hmaj.symm, hmin⟩)
    · exact .inr ⟨⟨hmaj.symm, hmin.symm⟩, hpat⟩

end ParsedVersion

variable {policy : VersionPolicy} {action : UpdateAction}

lemma VersionPolicy.le_of_compareVersions {installed target : ParsedVersion}
    (hpol : policy.allowDowngrade = false)
    (h : (policy.compareVersions action installed target).allowed = true) :
    installed.numbers ≤ target.numbers := by
  rw [← not_lt, ← ParsedVersion.numericCmp_eq_gt_iff]
  intro hgt
  -- a decrease is a downgrade, and its decision is to deny
  unfold compareVersions at h
  rw [hgt, hpol] at h
  cases h

lemma VersionPolicy.of_allowed {installed target : String}
    (hpol : policy.allowDowngrade = false)
    (h : (policy.evaluate action installed target).allowed = true) :
    ∃ v w, ParsedVersion.parse installed = some v ∧ ParsedVersion.parse target = some w ∧
      v.numbers ≤ w.numbers := by
  rw [evaluate] at h
  cases hv : ParsedVersion.parse installed with
  | none =>
    rw [hv] at h
    cases h
  | some v =>
    cases hw : ParsedVersion.parse target with
    | none =>
      rw [hv, hw] at h
      cases h
    | some w =>
      rw [hv, hw] at h
      exact ⟨v, w, rfl, rfl, le_of_compareVersions hpol h⟩

lemma allowed_of_planFromSignedUpdate {update : SignedUpdate} {installed : Option String}
    {plan : PlannedUpdate} (h : planFromSignedUpdate update installed policy = .ok plan) :
    ∃ action, (policy.evaluate action (installed.getD "0.0.0") plan.version).allowed = true := by
  rw [planFromSignedUpdate] at h
  simp only [Except.ite_throw_eq_ok_iff, Except.pure_eq_ok_iff] at h
  obtain ⟨-, -, -, hall, rfl⟩ := h
  exact ⟨_, by simpa using hall⟩

/-- No version has smaller numbers than one before it. -/
def NoDecrease (versions : List ParsedVersion) : Prop :=
  versions.Pairwise fun v w => v.numbers ≤ w.numbers

/-- Without downgrades, every accepted version can be parsed, and along the accepted plans the
numbers never decrease, also from the version installed at the start. -/
theorem acceptedPlans_no_rollback (policy : VersionPolicy) (hpolicy : policy.allowDowngrade = false)
    (installed : Option String) (updates : List SignedUpdate) :
    ∃ versions : List ParsedVersion,
      (acceptedPlans policy installed updates).map (fun plan => ParsedVersion.parse plan.version) =
        versions.map some ∧
      NoDecrease versions ∧
      ∀ v, ParsedVersion.parse (installed.getD "0.0.0") = some v → NoDecrease (v :: versions) := by
  induction updates generalizing installed with
  | nil => exact ⟨[], rfl, List.Pairwise.nil, fun v _ => List.pairwise_singleton ..⟩
  | cons update updates ih =>
    cases hplan : planFromSignedUpdate update installed policy with
    | error e =>
      rw [acceptedPlans, hplan]
      exact ih installed
    | ok plan =>
      obtain ⟨action, hall⟩ := allowed_of_planFromSignedUpdate hplan
      obtain ⟨v, w, hv, hw, hle⟩ := VersionPolicy.of_allowed hpolicy hall
      obtain ⟨versions, hver, -, hrest⟩ := ih (some plan.version)
      have hfrom : NoDecrease (w :: versions) := hrest w hw
      refine ⟨w :: versions, ?_, hfrom, fun v' hv' => ?_⟩
      · rw [acceptedPlans, hplan]
        simp only [List.map_cons, hw, hver]
      · cases hv.symm.trans hv'
        refine List.pairwise_cons.mpr ⟨fun u hu => ?_, hfrom⟩
        rcases List.mem_cons.mp hu with rfl | hu
        · exact hle
        · exact hle.trans ((List.pairwise_cons.mp hfrom).1 u hu)

def modelUpdate (version : String) : SignedUpdate where
  header := ⟨Security.updateMagic, .agentModel, "model-base", version, 1, 1, "ops"⟩
  payload := [0]
  signature := []

theorem acceptedPlans_no_rollback_model :
    (acceptedPlans ⟨false, true⟩ (some "1.2.0")
        (["1.1.9", "1.10.0-rc.1", "+1.9.4", "1.10.0", "2"].map modelUpdate)).map (·.version) =
      ["1.10.0-rc.1", "1.10.0"] ∧
    ∃ versions : List ParsedVersion,
      (acceptedPlans ⟨false, true⟩ (some "1.2.0")
          (["1.1.9", "1.10.0-rc.1", "+1.9.4", "1.10.0", "2"].map modelUpdate)).map
            (fun plan => ParsedVersion.parse plan.version) = versions.map some ∧
      NoDecrease versions ∧
      ∀ v, ParsedVersion.parse ((some "1.2.0").getD "0.0.0") = some v →
        NoDecrease (v :: versions) :=
  ⟨by decide +kernel, acceptedPlans_no_rollback ⟨false, true⟩ rfl (some "1.2.0") _⟩

end Aether.Update
