import Aether.Update.Equiv.Agent
import Aether.Update.FilesystemEngine

/-!
# Updates of the in-memory engine are atomic

A refused step changes nothing, so the engine is after an update where the completed steps alone
lead (`completes_replay`), and only `Apply`, the last step, touches `active/` (`lookup_of_run`).
-/

namespace Aether.Update

open Agent List AList

namespace FilesystemApplyEngine

variable (sha256Inline : List UInt8 → String) {plan : UpdatePlan} {e e' : FilesystemApplyEngine}
  {step : ApplyStep}

def UnderActive (path : String) : Prop := "active/".toList <+: path.toList

variable {path : String} {steps : List ApplyStep}

lemma ne_stagingPath (h : UnderActive path) (planId : String) : path ≠ stagingPath planId := by
  rintro rfl
  simp [UnderActive, stagingPath, toString] at h

lemma ne_stagedPath (h : UnderActive path) (planId : String) : path ≠ stagedPath planId := by
  rintro rfl
  simp [UnderActive, stagedPath, toString] at h

lemma run_of_error {err : ApplyError} (h : e.run sha256Inline step plan = (.error err, e')) :
    e' = e := by
  cases step with
  | download =>
    rw [run, download] at h
    split at h
    · exact (Prod.mk.inj h).2.symm
    · cases h
  | verify =>
    rw [run, verify] at h
    split at h
    · exact (Prod.mk.inj h).2.symm
    · dsimp only at h
      split at h
      · exact (Prod.mk.inj h).2.symm
      · split_ifs at h
        · exact (Prod.mk.inj h).2.symm
        · cases h
  | stage =>
    rw [run, stage] at h
    split at h
    · exact (Prod.mk.inj h).2.symm
    · cases h
  | snapshot => cases h
  | apply =>
    rw [run, apply] at h
    split at h
    · exact (Prod.mk.inj h).2.symm
    · cases h
  | reboot => cases h

lemma run_snapshot_eq_ok (h : e.run sha256Inline .snapshot plan = (.ok (), e')) :
    e'.fs = e.fs ∧ e'.payloads = e.payloads ∧ e'.expectedSha256 = e.expectedSha256 := by
  rw [run, takeSnapshot] at h
  cases h
  exact ⟨rfl, rfl, rfl⟩

lemma run_download_eq_ok (h : e.run sha256Inline .download plan = (.ok (), e')) :
    ∃ payload, registeredFor e.payloads plan = some payload ∧
      e'.fs = e.fs.insert (stagingPath plan.planId) payload ∧
      e'.expectedSha256 = e.expectedSha256 := by
  rw [run, download] at h
  split at h
  · cases h
  · next payload hpay =>
    cases h
    exact ⟨payload, hpay, rfl, rfl⟩

lemma run_verify_eq_ok (h : e.run sha256Inline .verify plan = (.ok (), e')) :
    ∃ staged, e.fs.lookup (stagingPath plan.planId) = some staged ∧
      registeredFor e.expectedSha256 plan = some (sha256Inline staged) ∧ e'.fs = e.fs := by
  rw [run, verify] at h
  split at h
  · cases h
  · next staged hsta =>
    dsimp only at h
    split at h
    · cases h
    · next expected hexp =>
      split_ifs at h with hhash
      · cases h
      · cases h
        exact ⟨staged, hsta, by rw [hexp, not_not.mp hhash], rfl⟩

lemma run_stage_eq_ok (h : e.run sha256Inline .stage plan = (.ok (), e')) :
    ∃ bytes, e.fs.lookup (stagingPath plan.planId) = some bytes ∧
      e'.fs = (e.fs.erase (stagingPath plan.planId)).insert (stagedPath plan.planId) bytes := by
  rw [run, stage] at h
  split at h
  · cases h
  · next bytes hbs =>
    cases h
    exact ⟨bytes, hbs, rfl⟩

lemma run_apply_eq_ok (h : e.run sha256Inline .apply plan = (.ok (), e')) :
    ∃ bytes, e.fs.lookup (stagedPath plan.planId) = some bytes ∧
      e'.fs = e.fs.insert (activePath plan) bytes := by
  rw [run, apply] at h
  split at h
  · cases h
  · next bytes hbs =>
    cases h
    exact ⟨bytes, hbs, rfl⟩

lemma lookup_of_run (h : e.run sha256Inline step plan = (.ok (), e')) (hstep : step ≠ .apply)
    (hpath : UnderActive path) : e'.fs.lookup path = e.fs.lookup path := by
  cases step with
  | download =>
    obtain ⟨payload, -, hfs, -⟩ := run_download_eq_ok sha256Inline h
    rw [hfs, lookup_insert_ne (ne_stagingPath hpath _)]
  | verify =>
    obtain ⟨staged, -, -, hfs⟩ := run_verify_eq_ok sha256Inline h
    rw [hfs]
  | stage =>
    obtain ⟨bytes, -, hfs⟩ := run_stage_eq_ok sha256Inline h
    rw [hfs, lookup_insert_ne (ne_stagedPath hpath _),
      lookup_erase_ne (ne_stagingPath hpath _)]
  | snapshot => rw [(run_snapshot_eq_ok sha256Inline h).1]
  | apply => exact absurd rfl hstep
  | reboot =>
    rw [run, reboot] at h
    cases h
    rfl

def Completes (plan : UpdatePlan) :
    FilesystemApplyEngine → List ApplyStep → FilesystemApplyEngine → Prop
  | e, [], e' => e' = e
  | e, step :: steps, e' =>
    ∃ e₁, e.run sha256Inline step plan = (.ok (), e₁) ∧ Completes plan e₁ steps e'

lemma Completes.concat {e₁ : FilesystemApplyEngine} (h : Completes sha256Inline plan e steps e₁)
    (hstep : e₁.run sha256Inline step plan = (.ok (), e')) :
    Completes sha256Inline plan e (steps ++ [step]) e' := by
  induction steps generalizing e with
  | nil =>
    obtain rfl : e₁ = e := h
    exact ⟨e', hstep, rfl⟩
  | cons s steps ih =>
    obtain ⟨e₂, hs, hrest⟩ := h
    exact ⟨e₂, hs, ih hrest⟩

lemma replay_concat (calls : List EngineCall) (c : EngineCall) :
    e.replay sha256Inline plan (calls ++ [c])
      = ((e.replay sha256Inline plan calls).run sha256Inline c.step plan).2 := by
  rw [replay, foldl_append]
  rfl

/-- **Refused calls do not count**: the engine is where its completed steps alone lead. -/
theorem completes_replay (calls : List EngineCall)
    (h : ∀ before c after, calls = before ++ c :: after →
      c.result = ((e.replay sha256Inline plan before).run sha256Inline c.step plan).1) :
    Completes sha256Inline plan e (succeeded calls) (e.replay sha256Inline plan calls) := by
  induction calls using reverseRecOn with
  | nil => rfl
  | append_singleton calls c ih =>
    have hbef := ih fun before c' after heq =>
      h before c' (after ++ [c]) (by rw [heq, append_assoc, cons_append])
    have hres := h calls c [] rfl
    rw [succeeded_append, replay_concat]
    rcases hrun : (e.replay sha256Inline plan calls).run sha256Inline c.step plan with ⟨r, e₁⟩
    rw [hrun] at hres
    obtain ⟨step, result⟩ := c
    obtain rfl : result = r := hres
    cases result with
    | error err =>
      rw [succeeded_error, append_nil, run_of_error sha256Inline hrun]
      exact hbef
    | ok u => exact hbef.concat sha256Inline hrun

lemma Completes.lookup (h : Completes sha256Inline plan e steps e')
    (happ : ApplyStep.apply ∉ steps) (hpath : UnderActive path) :
    e'.fs.lookup path = e.fs.lookup path := by
  induction steps generalizing e with
  | nil => rw [show e' = e from h]
  | cons step steps ih =>
    obtain ⟨e₁, hrun, hrest⟩ := h
    have hstep : step ≠ .apply := fun heq => happ (heq ▸ mem_cons_self ..)
    rw [ih hrest fun hmem => happ (mem_cons_of_mem _ hmem),
      lookup_of_run sha256Inline hrun hstep hpath]

def registrationAt (e : FilesystemApplyEngine) (id : String) : Option (List UInt8 × String) :=
  match e.payloads.lookup id, e.expectedSha256.lookup id with
  | some payload, some expected => some (payload, expected)
  | _, _ => none

def registration (e : FilesystemApplyEngine) (plan : UpdatePlan) : Option (List UInt8 × String) :=
  (e.registrationAt plan.planId).orElse fun _ => e.registrationAt plan.target

lemma registration_eq_some {payload : List UInt8} {expected : String}
    (hpay : registeredFor e.payloads plan = some payload)
    (hexp : registeredFor e.expectedSha256 plan = some expected) :
    e.registration plan = some (payload, expected) := by
  have hid := e.registered plan.planId
  rw [← lookup_isSome, ← lookup_isSome] at hid
  unfold registeredFor at hpay hexp
  unfold registration registrationAt
  cases hp : e.payloads.lookup plan.planId with
  | some p =>
    rw [hp] at hpay hid
    obtain ⟨x, hx⟩ := Option.isSome_iff_exists.mp (hid.mp rfl)
    rw [hx] at hexp
    cases hpay
    cases hexp
    simp only [hx]
    rfl
  | none =>
    have hx : e.expectedSha256.lookup plan.planId = none := by
      rw [← Option.not_isSome_iff_eq_none, ← hid, hp]
      decide
    rw [hp] at hpay
    rw [hx] at hexp
    simp only [Option.orElse_none] at hpay hexp
    simp only [hpay, hexp]
    rfl

lemma Completes.applied
    (h : Completes sha256Inline plan e UpdateAgent.applySequence e') :
    ∃ payload expected, e.registration plan = some (payload, expected) ∧
      sha256Inline payload = expected ∧ e'.fs.lookup (activePath plan) = some payload ∧
      ∀ path, UnderActive path → path ≠ activePath plan →
        e'.fs.lookup path = e.fs.lookup path := by
  obtain ⟨e₁, h₁, e₂, h₂, e₃, h₃, e₄, h₄, e₅, h₅, rfl⟩ := h
  obtain ⟨-, hpay, hexp₁⟩ := run_snapshot_eq_ok sha256Inline h₁
  obtain ⟨payload, hpayl, hfs₂, hexp₂⟩ := run_download_eq_ok sha256Inline h₂
  obtain ⟨staged, hsta, hhash, hfs₃⟩ := run_verify_eq_ok sha256Inline h₃
  obtain ⟨bytes, hbs, hfs₄⟩ := run_stage_eq_ok sha256Inline h₄
  obtain ⟨final, hfin, hfs₅⟩ := run_apply_eq_ok sha256Inline h₅
  -- the bytes on the way are always the payload
  rw [hfs₂, lookup_insert] at hsta
  cases hsta
  rw [hfs₃, hfs₂, lookup_insert] at hbs
  cases hbs
  rw [hfs₄, lookup_insert] at hfin
  cases hfin
  rw [hpay] at hpayl
  rw [hexp₂, hexp₁] at hhash
  refine ⟨payload, sha256Inline payload, registration_eq_some hpayl hhash, rfl, ?_, ?_⟩
  · rw [hfs₅, lookup_insert]
  · intro path hpath hne
    rw [hfs₅, lookup_insert_ne hne, lookup_of_run sha256Inline h₄ (by decide) hpath,
      lookup_of_run sha256Inline h₃ (by decide) hpath,
      lookup_of_run sha256Inline h₂ (by decide) hpath,
      lookup_of_run sha256Inline h₁ (by decide) hpath]

end FilesystemApplyEngine

open FilesystemApplyEngine

/-- A failed update leaves `active/` as it was, and one that succeeds changes only the file of the
plan
there, to the payload with the expected hash. -/
structure AppliesAtomically (sha256Inline : List UInt8 → String) (e : FilesystemApplyEngine)
    (a : UpdateAgent UpdatePlan) (nowMs : UInt64) : Prop where
  failed : ∀ err, (a.applyOn sha256Inline e nowMs).1 = some (.error err) → ∀ path,
    UnderActive path → (a.applyOn sha256Inline e nowMs).2.fs.lookup path = e.fs.lookup path
  applied : (a.applyOn sha256Inline e nowMs).1 = some (.ok ()) →
    ∃ plan payload expected, a.status.currentPlan = some plan ∧
      e.registration plan = some (payload, expected) ∧ sha256Inline payload = expected ∧
      (a.applyOn sha256Inline e nowMs).2.fs.lookup (activePath plan) = some payload ∧
      ∀ path, UnderActive path → path ≠ activePath plan →
        (a.applyOn sha256Inline e nowMs).2.fs.lookup path = e.fs.lookup path

lemma not_fallsBack_of_fallbacks {retries : PolicyEngine}
    (h : ∀ entry ∈ retries.policies, entry.2.fallbacks = []) (counts : String → ℕ)
    (step : ApplyStep) : ¬ UpdateAgent.FallsBack retries counts step := by
  rintro ⟨p, hp, -, hfb, -⟩
  obtain ⟨entry, hfind, rfl⟩ := Option.map_eq_some_iff.mp hp
  exact hfb (h entry (mem_of_find?_eq_some hfind))

lemma completes_applyOn (sha256Inline : List UInt8 → String) (e : FilesystemApplyEngine)
    {a : UpdateAgent UpdatePlan} (nowMs : UInt64) {plan : UpdatePlan}
    (hplan : a.status.currentPlan = some plan)
    (hno : ∀ entry ∈ a.retries.policies, entry.2.fallbacks = []) :
    ∃ done, Completes sha256Inline plan e done (a.applyOn sha256Inline e nowMs).2 ∧
      ((a.applyOn sha256Inline e nowMs).1 = some (.ok ()) → done = UpdateAgent.applySequence) ∧
      ((a.applyOn sha256Inline e nowMs).1 ≠ some (.ok ()) →
        ∃ rest, rest ≠ [] ∧ UpdateAgent.applySequence = done ++ rest) := by
  set engine := e.toApplyEngine sha256Inline a.calls.length with heng
  obtain ⟨new, hgr, -, hall, hpart⟩ := UpdateAgent.applySteps_sequenced engine nowMs
    (fun step _ => not_fallsBack_of_fallbacks hno a.retries.counts step)
  have hsta : UpdateAgent.Answered engine plan a.calls.length a.calls := by
    intro before c after heq hmade
    have hlen := congrArg length heq
    rw [length_append, length_cons] at hlen
    omega
  have hans :=
    UpdateAgent.applySteps_answered engine nowMs UpdateAgent.applySequence hplan hsta
  rw [hgr.calls] at hans
  have hout : a.applyOn sha256Inline e nowMs =
      ((UpdateAgent.applySteps engine nowMs UpdateAgent.applySequence a).1,
        e.replay sha256Inline plan new) := by
    rw [UpdateAgent.applyOn, UpdateAgent.apply, ← heng, hplan]
    rcases hrun : UpdateAgent.applySteps engine nowMs UpdateAgent.applySequence a with ⟨r, a'⟩
    rw [hrun] at hgr
    have hcal : a'.calls = a.calls ++ new := hgr.calls
    simp only [hcal, drop_left]
  rw [hout]
  refine ⟨succeeded new, completes_replay sha256Inline new fun before c after heq => ?_, hall,
    hpart⟩
  have hcall := hans (a.calls ++ before) c after (by rw [heq, append_assoc])
    (by rw [length_append]; omega)
  rw [hcall, heng, toApplyEngine, drop_left]

/-- **Updates are atomic**: for every content of the engine, every plan and every set of retry
policies without fallbacks. -/
theorem apply_atomic (sha256Inline : List UInt8 → String) (e : FilesystemApplyEngine)
    (a : UpdateAgent UpdatePlan) (nowMs : UInt64)
    (hno : ∀ entry ∈ a.retries.policies, entry.2.fallbacks = []) :
    AppliesAtomically sha256Inline e a nowMs := by
  cases hplan : a.status.currentPlan with
  | none =>
    have hsame : (a.applyOn sha256Inline e nowMs).2 = e := by
      rw [UpdateAgent.applyOn, hplan]
    have hnotOk : (a.applyOn sha256Inline e nowMs).1 ≠ some (.ok ()) := by
      intro hok
      rw [UpdateAgent.applyOn, hplan] at hok
      obtain ⟨p, hp, hpos, hfb, hroom, -⟩ :=
        (UpdateAgent.applySteps_of_no_plan _ nowMs _ hplan).1.mp hok
      exact not_fallsBack_of_fallbacks hno _ .snapshot ⟨p, hp, hpos, hfb, hroom⟩
    refine ⟨fun err _ path _ => by rw [hsame], fun hok => absurd hok hnotOk⟩
  | some plan =>
    obtain ⟨done, hdone, hall, hpart⟩ := completes_applyOn sha256Inline e nowMs hplan hno
    constructor
    · intro err herr path hpath
      obtain ⟨rest, hrest, hspl⟩ := hpart (by rw [herr]; simp)
      -- `Apply` is the last step and was not completed
      have happ : ApplyStep.apply ∉ done := by
        intro hmem
        obtain ⟨pre, post, rfl⟩ := append_of_mem hmem
        rw [append_assoc, cons_append] at hspl
        have hnil := UpdateAgent.eq_nil_of_applySequence_eq hspl
        exact hrest (append_eq_nil_iff.mp hnil).2
      exact hdone.lookup sha256Inline happ hpath
    · intro hok
      rw [hall hok] at hdone
      obtain ⟨payload, expected, hreg, hhash, hact, hoth⟩ := hdone.applied sha256Inline
      exact ⟨plan, payload, expected, hplan, hreg, hhash, hact, hoth⟩

def osAgent : UpdateAgent UpdatePlan :=
  UpdateAgent.new.installDefaultPolicies.accept UpdatePlan.target ⟨"aether-os", "0.2.0", 7⟩

def osEngine : FilesystemApplyEngine :=
  (new.seedActive "active/aether-os" [0]).registerPayload "aether-os@7" [1, 2, 3] "3"

theorem apply_atomic_os :
    (∀ entry ∈ osAgent.retries.policies, entry.2.fallbacks = []) ∧
      (osAgent.applyOn (fun bytes => toString bytes.length) osEngine 0).1 = some (.ok ()) ∧
      AppliesAtomically (fun bytes => toString bytes.length) osEngine osAgent 0 := by
  have hno : ∀ entry ∈ osAgent.retries.policies, entry.2.fallbacks = [] := by decide
  exact ⟨hno, by decide +kernel, apply_atomic _ osEngine osAgent 0 hno⟩

end Aether.Update
