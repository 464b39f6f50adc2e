import Aether.Core.Manifest

/-!
# Sandbox audits (`aether-sandbox-policy/src/lib.rs`)

The primitives that a plan requests, the audit of a launch, and the comparison of the two.
-/

namespace Aether.Sandbox

open Aether.Core

inductive SandboxPrimitive where
  | noNewPrivs
  | userNamespace
  | mountNamespace
  | networkNamespace
  | pidNamespace
  | ipcNamespace
  | dropCapabilities
  | installSeccomp
  | createCgroupSlice
  | writeCgroupLimits
  | execChild
  deriving DecidableEq

inductive PrimitiveStatus where
  | applied
  | skipped
  | failed
  deriving DecidableEq

structure PrimitiveAudit where
  primitive : SandboxPrimitive
  status : PrimitiveStatus
  returnCode : Int32
  reason : String
  deriving DecidableEq

namespace PrimitiveAudit

def isFailed (r : PrimitiveAudit) : Bool := r.status = .failed

end PrimitiveAudit

def namespacePrimitive : LinuxNamespace → Option SandboxPrimitive
  | .user => some .userNamespace
  | .mount => some .mountNamespace
  | .network => some .networkNamespace
  | .pid => some .pidNamespace
  | .ipc => some .ipcNamespace
  | .uts | .cgroup => none

def primitivesFor (plan : SandboxPlan) : List SandboxPrimitive :=
  (if plan.noNewPrivs then [.noNewPrivs] else []) ++
    plan.namespaces.filterMap namespacePrimitive ++
    (if plan.capabilities.isEmpty then [] else [.dropCapabilities]) ++
    (if plan.seccomp.isSome then [.installSeccomp] else []) ++
    [.createCgroupSlice, .writeCgroupLimits, .execChild]

structure SandboxAudit where
  plan : SandboxPlan
  rows : List PrimitiveAudit
  timestampMs : UInt64
  service : String
  deriving DecidableEq

namespace SandboxAudit

def new (plan : SandboxPlan) (service : String) (timestampMs : UInt64) : SandboxAudit :=
  { plan, rows := [], timestampMs, service }

def record (a : SandboxAudit) (row : PrimitiveAudit) : SandboxAudit :=
  { a with rows := a.rows ++ [row] }

end SandboxAudit

structure SandboxDiff where
  missing : List SandboxPrimitive
  unexpected : List SandboxPrimitive
  failed : List SandboxPrimitive
  deriving DecidableEq

namespace SandboxDiff

def empty : SandboxDiff := ⟨[], [], []⟩

def isClean (d : SandboxDiff) : Bool :=
  d.missing.isEmpty && d.unexpected.isEmpty && d.failed.isEmpty

def addRequested (rows : List PrimitiveAudit) (d : SandboxDiff) (p : SandboxPrimitive) :
    SandboxDiff :=
  match rows.find? fun r => r.primitive = p with
  | none => { d with missing := d.missing ++ [p] }
  | some r => if r.isFailed then { d with failed := d.failed ++ [p] } else d

def addRecorded (requested : List SandboxPrimitive) (d : SandboxDiff) (r : PrimitiveAudit) :
    SandboxDiff :=
  if r.primitive ∈ requested then d else { d with unexpected := d.unexpected ++ [r.primitive] }

end SandboxDiff

def diffPlanVsAudit (plan : SandboxPlan) (audit : SandboxAudit) : SandboxDiff :=
  let requested := primitivesFor plan
  let diff := requested.foldl (SandboxDiff.addRequested audit.rows) SandboxDiff.empty
  audit.rows.foldl (SandboxDiff.addRecorded requested) diff

def nullEnforcerApply (plan : SandboxPlan) (service : String) (nowMs : UInt64) : SandboxAudit :=
  (primitivesFor plan).foldl
    (fun audit p =>
      audit.record { primitive := p, status := .skipped, returnCode := 0, reason := "null enforcer" })
    (SandboxAudit.new plan service nowMs)

/-!
## What a clean sandbox diff says

A diff is clean iff every requested primitive has a first row that did not fail and no row is
outside the plan (`isClean_iff`), which is weaker than what was applied (`Enforced`).
-/

lemma foldl_addRequested (rows : List PrimitiveAudit) (ps : List SandboxPrimitive)
    (d : SandboxDiff) :
    ps.foldl (SandboxDiff.addRequested rows) d =
      { missing := d.missing ++ ps.filter fun p => (rows.find? fun r => r.primitive = p).isNone
        unexpected := d.unexpected
        failed := d.failed ++ ps.filter fun p =>
          (rows.find? fun r => r.primitive = p).any fun r => r.isFailed } := by
  induction ps generalizing d with
  | nil => simp
  | cons p ps ih =>
    rw [List.foldl_cons, ih, SandboxDiff.addRequested]
    cases hrow : rows.find? fun r => r.primitive = p with
    | none => simp [hrow]
    | some r =>
      cases hfail : r.isFailed with
      | true => simp [hrow, hfail]
      | false => simp [hrow, hfail]

lemma foldl_addRecorded (requested : List SandboxPrimitive) (rows : List PrimitiveAudit)
    (d : SandboxDiff) :
    rows.foldl (SandboxDiff.addRecorded requested) d =
      { d with
        unexpected := d.unexpected ++
          (rows.filter fun r => r.primitive ∉ requested).map fun r => r.primitive } := by
  induction rows generalizing d with
  | nil => simp
  | cons r rows ih =>
    rw [List.foldl_cons, ih, SandboxDiff.addRecorded]
    by_cases hr : r.primitive ∈ requested <;> simp [hr]

variable (plan : SandboxPlan)

lemma diffPlanVsAudit_eq (audit : SandboxAudit) :
    diffPlanVsAudit plan audit =
      { missing := (primitivesFor plan).filter fun p =>
          (audit.rows.find? fun r => r.primitive = p).isNone
        unexpected := (audit.rows.filter fun r => r.primitive ∉ primitivesFor plan).map
          fun r => r.primitive
        failed := (primitivesFor plan).filter fun p =>
          (audit.rows.find? fun r => r.primitive = p).any fun r => r.isFailed } := by
  rw [diffPlanVsAudit, foldl_addRequested, foldl_addRecorded]
  simp [SandboxDiff.empty]

/-- The first row of the primitive is not a failure. -/
def Passed (audit : SandboxAudit) (p : SandboxPrimitive) : Prop :=
  ∃ r, (audit.rows.find? fun r => r.primitive = p) = some r ∧ r.status ≠ .failed

/-- Some row reports the primitive as applied. -/
def Applied (audit : SandboxAudit) (p : SandboxPrimitive) : Prop :=
  ∃ r ∈ audit.rows, r.primitive = p ∧ r.status = .applied

/-- All rows are about requested primitives. -/
def Expected (plan : SandboxPlan) (audit : SandboxAudit) : Prop :=
  ∀ r ∈ audit.rows, r.primitive ∈ primitivesFor plan

/-- Exactly the requested primitives have rows, and each was applied. -/
def Enforced (plan : SandboxPlan) (audit : SandboxAudit) : Prop :=
  (∀ p ∈ primitivesFor plan, Applied audit p) ∧ Expected plan audit

lemma passed_iff {audit : SandboxAudit} {p : SandboxPrimitive} :
    Passed audit p ↔ (audit.rows.find? fun r => r.primitive = p).isNone = false ∧
      ((audit.rows.find? fun r => r.primitive = p).any fun r => r.isFailed) = false := by
  unfold Passed
  cases audit.rows.find? fun r => r.primitive = p with
  | none => simp
  | some r => simp [PrimitiveAudit.isFailed]

/-- **A diff is clean** iff every requested primitive has passed and every row is expected. -/
theorem isClean_iff (audit : SandboxAudit) :
    (diffPlanVsAudit plan audit).isClean ↔
      (∀ p ∈ primitivesFor plan, Passed audit p) ∧ Expected plan audit := by
  rw [diffPlanVsAudit_eq, SandboxDiff.isClean]
  simp only [passed_iff, Expected, Bool.and_eq_true, List.isEmpty_iff, List.map_eq_nil_iff,
    List.filter_eq_nil_iff, Bool.not_eq_true, decide_eq_false_iff_not, not_not]
  constructor
  · rintro ⟨⟨hmis, hexp⟩, hfail⟩
    exact ⟨fun p hp => ⟨hmis p hp, hfail p hp⟩, hexp⟩
  · rintro ⟨hpas, hexp⟩
    exact ⟨⟨fun p hp => (hpas p hp).1, hexp⟩, fun p hp => (hpas p hp).2⟩

/-- The first row of the primitive is a failure. -/
def FirstFailed (audit : SandboxAudit) (p : SandboxPrimitive) : Prop :=
  ∃ r, (audit.rows.find? fun r => r.primitive = p) = some r ∧ r.status = .failed

lemma Applied.passed_iff {audit : SandboxAudit} {p : SandboxPrimitive} (h : Applied audit p) :
    Passed audit p ↔ ¬ FirstFailed audit p := by
  obtain ⟨r, hr, hprim, -⟩ := h
  unfold Passed FirstFailed
  cases hrow : audit.rows.find? fun r => r.primitive = p with
  | none => exact absurd (decide_eq_true hprim) (List.find?_eq_none.mp hrow r hr)
  | some first => simp

/-- **When a clean diff means enforcement**: a row is outside the plan, or the diff is neither clean
although a primitive was only skipped, nor spoilt by the first failure of one when all were applied
in the end. -/
theorem isClean_iff_enforced_iff (plan : SandboxPlan) (audit : SandboxAudit) :
    ((diffPlanVsAudit plan audit).isClean ↔ Enforced plan audit) ↔
      ¬ Expected plan audit ∨
        ¬ ((∀ p ∈ primitivesFor plan, Passed audit p) ∧
          ∃ p ∈ primitivesFor plan, ∀ r ∈ audit.rows, r.primitive = p → r.status ≠ .applied) ∧
        ¬ ((∀ p ∈ primitivesFor plan, Applied audit p) ∧
          ∃ p ∈ primitivesFor plan, FirstFailed audit p) := by
  rw [isClean_iff, Enforced, and_congr_left_iff, or_iff_not_imp_left, not_not]
  refine imp_congr_right fun _ => iff_iff_implies_and_implies.trans ?_
  rw [not_and, not_and]
  refine and_congr (imp_congr_right fun _ => ?_) (imp_congr_right fun happ => ?_)
  · simp [Applied]
  · simp only [not_exists, not_and]
    exact forall₂_congr fun p hp => (happ p hp).passed_iff

lemma rows_foldl_record (row : SandboxPrimitive → PrimitiveAudit) (ps : List SandboxPrimitive)
    (audit : SandboxAudit) :
    (ps.foldl (fun audit p => audit.record (row p)) audit).rows = audit.rows ++ ps.map row := by
  induction ps generalizing audit with
  | nil => simp
  | cons p ps ih =>
    rw [List.foldl_cons, ih]
    simp [SandboxAudit.record]

lemma rows_nullEnforcerApply (service : String) (nowMs : UInt64) :
    (nullEnforcerApply plan service nowMs).rows =
      (primitivesFor plan).map fun p =>
        { primitive := p, status := .skipped, returnCode := 0, reason := "null enforcer" } := by
  rw [nullEnforcerApply, rows_foldl_record]
  rfl

/-- **Nothing applied, nothing reported**: an enforcer that skips everything has a clean diff for
any plan. -/
theorem isClean_nullEnforcer (service : String) (nowMs : UInt64) :
    (diffPlanVsAudit plan (nullEnforcerApply plan service nowMs)).isClean ∧
      ∀ p, ¬ Applied (nullEnforcerApply plan service nowMs) p := by
  rw [isClean_iff]
  refine ⟨⟨?_, ?_⟩, ?_⟩
  · intro p hp
    cases hrow : (nullEnforcerApply plan service nowMs).rows.find? fun r => r.primitive = p with
    | none =>
      rw [rows_nullEnforcerApply, List.find?_eq_none] at hrow
      exact absurd (decide_eq_true rfl) (hrow _ (List.mem_map_of_mem hp))
    | some r =>
      have hmem := List.mem_of_find?_eq_some hrow
      rw [rows_nullEnforcerApply] at hmem
      obtain ⟨q, -, rfl⟩ := List.mem_map.mp hmem
      exact ⟨_, hrow, nofun⟩
  · intro r hr
    rw [rows_nullEnforcerApply] at hr
    obtain ⟨p, hp, rfl⟩ := List.mem_map.mp hr
    exact hp
  · rintro p ⟨r, hr, -, hstat⟩
    rw [rows_nullEnforcerApply] at hr
    obtain ⟨q, -, rfl⟩ := List.mem_map.mp hr
    cases hstat

/-- The strictest profile on an enforcer that skips everything: the diff is clean and nothing was
applied. -/
theorem skipped_launch_is_clean :
    ¬ ((diffPlanVsAudit (planSandbox .restrictedService)
        (nullEnforcerApply (planSandbox .restrictedService) "notes" 0)).isClean ↔
      Enforced (planSandbox .restrictedService)
        (nullEnforcerApply (planSandbox .restrictedService) "notes" 0)) := by
  intro h
  obtain ⟨happ, -⟩ := h.mp (by decide)
  obtain ⟨r, hr, -, hstat⟩ := happ .execChild (by decide)
  have hski : ∀ r ∈ (nullEnforcerApply (planSandbox .restrictedService) "notes" 0).rows,
      r.status ≠ .applied := by decide
  exact hski r hr hstat

end Aether.Sandbox
