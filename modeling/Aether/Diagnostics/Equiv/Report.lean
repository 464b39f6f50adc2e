import Aether.Algorithm.Recent
import Aether.Diagnostics.Report
import Mathlib.Algebra.Order.Ring.Unbundled.Rat

/-!
# Which signal decides about a symptom

A rule with a threshold searches the log from its front, so the oldest signal that is still there
decides about the symptom, not the newest.
-/

namespace Aether.Diagnostics

open AgentCore Recent

variable {V : Type*} {signals : List (Signal V)} {subsystem : Subsystem} {tag : String}

def newest (subsystem : Subsystem) (tag : String) (signals : List (Signal V)) :
    Option (Signal V) :=
  signals.reverse.find? (Signal.isFor subsystem tag)

def oldest (subsystem : Subsystem) (tag : String) (log : List (Signal V)) : Option (Signal V) :=
  log.find? (Signal.isFor subsystem tag)

lemma newest_eq_none_iff (subsystem : Subsystem) (tag : String) (signals : List (Signal V)) :
    newest subsystem tag signals = none ↔ oldest subsystem tag signals = none := by
  simp [newest, oldest]

lemma newest_rtake {n : ℕ} (h : ∃ s ∈ signals.rtake n, s.isFor subsystem tag) :
    newest subsystem tag signals = newest subsystem tag (signals.rtake n) := by
  obtain ⟨dropped, hspl⟩ := rtake_suffix signals n
  have hsome : (newest subsystem tag (signals.rtake n)).isSome := by
    rw [newest, List.find?_isSome]
    simpa using h
  rw [newest, ← hspl, List.reverse_append, List.find?_append, hspl]
  exact Option.or_of_isSome hsome

section Present

variable [LinearOrder V] {threshold : V}

/-- The log has a signal of this kind, and the newest one reaches the threshold. -/
def Present (threshold : V) (subsystem : Subsystem) (tag : String) (history log : List (Signal V)) :
    Prop :=
  (∃ s ∈ log, s.isFor subsystem tag) ∧ ∃ s ∈ newest subsystem tag history, threshold ≤ s.value

lemma present_rtake_iff {n : ℕ} : Present threshold subsystem tag signals (signals.rtake n) ↔
    ∃ s ∈ newest subsystem tag (signals.rtake n), threshold ≤ s.value := by
  constructor
  · rintro ⟨hlog, hnew⟩
    rwa [newest_rtake hlog] at hnew
  · rintro ⟨s, hs, hval⟩
    have hlog : ∃ s ∈ signals.rtake n, s.isFor subsystem tag :=
      ⟨s, List.mem_reverse.mp (List.mem_of_find?_eq_some hs), List.find?_some hs⟩
    exact ⟨hlog, s, by rwa [newest_rtake hlog], hval⟩

end Present

def SymptomRule.symptomId : SymptomRule V → String
  | .aboveThreshold _ _ _ symptomId _ => symptomId
  | .anyAlarming _ symptomId _ => symptomId

lemma foldl_ingest (rules : RulesTable V) (signals : List (Signal V)) :
    signals.foldl DiagnosticReport.ingest (.withRules rules) =
      ⟨signals.rtake 256, [], [], rules⟩ := by
  induction signals using List.reverseRecOn with
  | nil => rw [List.rtake_nil, List.foldl_nil, DiagnosticReport.withRules]
  | append_singleton signals signal ih =>
    rw [List.foldl_concat, ih, ← rtake_concat]
    simp only [DiagnosticReport.ingest, List.rtake]

variable [LinearOrder V] [OfScientific V]

lemma matchSignals_id {rule : SymptomRule V} {signals : List (Signal V)} {s : Symptom}
    (h : rule.matchSignals signals = some s) : s.id = rule.symptomId := by
  cases rule with
  | aboveThreshold =>
    obtain ⟨signal, -, hite⟩ := Option.bind_eq_some_iff.mp h
    obtain ⟨-, hs⟩ := Option.ite_none_right_eq_some.mp hite
    cases hs
    rfl
  | anyAlarming =>
    obtain ⟨-, hs⟩ := Option.ite_none_left_eq_some.mp h
    cases hs
    rfl

lemma exists_mem_retainUnseen_iff {seen : List String} {symptoms : List Symptom} {id : String} :
    (∃ s ∈ retainUnseen seen symptoms, s.id = id) ↔ id ∉ seen ∧ ∃ s ∈ symptoms, s.id = id := by
  induction symptoms generalizing seen with
  | nil => simp [retainUnseen]
  | cons s rest ih =>
    rw [retainUnseen]
    split_ifs with hseen
    · rw [ih, List.exists_mem_cons_iff]
      have hid : id ∉ seen → s.id ≠ id := fun hnot heq =>
        hnot (heq ▸ List.contains_iff_mem.mp hseen)
      grind
    · rw [List.exists_mem_cons_iff, ih, List.exists_mem_cons_iff]
      have hid : s.id = id → id ∉ seen := fun heq hmem => hseen (by simpa [heq] using hmem)
      grind

lemma exists_mem_symptoms_iff {r : DiagnosticReport V} {id : String} :
    (∃ s ∈ r.evaluate.symptoms, s.id = id) ↔
      ∃ x ∈ r.rules.symptomRules, x.1.symptomId = id ∧ (x.1.matchSignals r.signals).isSome := by
  rw [DiagnosticReport.evaluate, exists_mem_retainUnseen_iff]
  simp only [List.not_mem_nil, not_false_eq_true, true_and, List.mem_filterMap]
  constructor
  · rintro ⟨s, ⟨x, hx, hmat⟩, rfl⟩
    exact ⟨x, hx, (matchSignals_id hmat).symm, by rw [hmat]; rfl⟩
  · rintro ⟨x, hx, rfl, hsome⟩
    obtain ⟨s, hmat⟩ := Option.isSome_iff_exists.mp hsome
    exact ⟨s, ⟨x, hx, hmat⟩, matchSignals_id hmat⟩

def reportAfter (rules : RulesTable V) (signals : List (Signal V)) : DiagnosticReport V :=
  (signals.foldl DiagnosticReport.ingest (.withRules rules)).evaluate

variable {rules : RulesTable V}

@[simp] lemma signals_reportAfter : (reportAfter rules signals).signals = signals.rtake 256 := by
  rw [reportAfter, foldl_ingest, DiagnosticReport.evaluate]

variable {threshold : V} {id : String} {severity : ObservationSeverity}

lemma isSome_matchSignals_iff {log : List (Signal V)} :
    ((SymptomRule.aboveThreshold subsystem tag threshold id severity).matchSignals log).isSome ↔
      ∃ s ∈ oldest subsystem tag log, threshold ≤ s.value := by
  rw [SymptomRule.matchSignals, oldest]
  cases log.find? (Signal.isFor subsystem tag) <;> simp

/-- A symptom that only one rule emits reflects the present iff the oldest and the newest signal of
the log agree about the threshold. -/
theorem reported_iff_present_iff (pre post : List (SymptomRule V × Symptom)) {symptom : Symptom}
    (hrules : rules.symptomRules =
      pre ++ (.aboveThreshold subsystem tag threshold id severity, symptom) :: post)
    (honly : ∀ x ∈ pre ++ post, x.1.symptomId ≠ id) (signals : List (Signal V)) :
    ((∃ s ∈ (reportAfter rules signals).symptoms, s.id = id) ↔
        Present threshold subsystem tag signals (reportAfter rules signals).signals) ↔
      ∀ old ∈ oldest subsystem tag (reportAfter rules signals).signals,
        ∀ new ∈ newest subsystem tag (reportAfter rules signals).signals,
          (threshold ≤ old.value ↔ threshold ≤ new.value) := by
  have hrep : (∃ s ∈ (reportAfter rules signals).symptoms, s.id = id) ↔
      ((SymptomRule.aboveThreshold subsystem tag threshold id severity).matchSignals
        (signals.rtake 256)).isSome := by
    rw [reportAfter, exists_mem_symptoms_iff, foldl_ingest]
    simp only [hrules]
    constructor
    · rintro ⟨x, hx, hid, hsome⟩
      rcases List.mem_append.mp hx with hpre | hpost
      · exact absurd hid (honly x (List.mem_append_left _ hpre))
      · rcases List.mem_cons.mp hpost with rfl | hpost
        · exact hsome
        · exact absurd hid (honly x (List.mem_append_right _ hpost))
    · intro hsome
      exact ⟨_, List.mem_append_right _ List.mem_cons_self, rfl, hsome⟩
  rw [hrep, isSome_matchSignals_iff, signals_reportAfter, present_rtake_iff]
  have hnone := newest_eq_none_iff subsystem tag (signals.rtake 256)
  cases hold : oldest subsystem tag (signals.rtake 256) with
  | none => simp [hnone.mpr hold]
  | some old =>
    cases hnew : newest subsystem tag (signals.rtake 256) with
    | none => simp [hold, hnew] at hnone
    | some new => simp

def loadPeak : List (Signal ℚ) :=
  [.new .cpu "cpu.load" 0.9 "load", .new .cpu "cpu.load" 0.1 "load"]

theorem reported_iff_present_iff_default :
    (∀ x ∈ (defaultRules : RulesTable ℚ).symptomRules.tail, x.1.symptomId ≠ "cpu_overload") ∧
      (((∃ s ∈ (reportAfter defaultRules loadPeak).symptoms, s.id = "cpu_overload") ↔
          Present 0.85 .cpu "cpu.load" loadPeak (reportAfter defaultRules loadPeak).signals) ↔
        ∀ old ∈ oldest .cpu "cpu.load" (reportAfter defaultRules loadPeak).signals,
          ∀ new ∈ newest .cpu "cpu.load" (reportAfter defaultRules loadPeak).signals,
            (0.85 ≤ old.value ↔ 0.85 ≤ new.value)) := by
  have honly : ∀ x ∈ (defaultRules : RulesTable ℚ).symptomRules.tail,
      x.1.symptomId ≠ "cpu_overload" := by
    decide +kernel
  exact ⟨honly, reported_iff_present_iff [] _ rfl honly loadPeak⟩

/-- The symptom is reported although the last reading is far below the threshold. -/
theorem loadPeak_reported :
    (∃ s ∈ (reportAfter defaultRules loadPeak).symptoms, s.id = "cpu_overload") ∧
      ¬ Present 0.85 .cpu "cpu.load" loadPeak (reportAfter defaultRules loadPeak).signals := by
  constructor
  · decide +kernel
  · rw [Present, not_and]
    intro
    decide +kernel

end Aether.Diagnostics
