import Aether.Proactive.Daemon

/-!
# The proactive loop never acts

The signals that the loop makes of its observations are of the subsystem `other` and have the id of
the observation as their tag.  No default rule looks at such a signal, so no symptom is found and no
action is ever submitted, not even for a full disk (`run_actions`).
-/

namespace Aether.Proactive

open Aether.Core AgentCore Diagnostics Background

abbrev Observes (id : String) : Prop := id.toList.head? = some 'o'

lemma Observes.append {s t : String} (h : Observes s) : Observes (s ++ t) := by
  rw [Observes, String.toList_append, List.head?_append, Option.mem_def.mp h]
  rfl

lemma id_of_observe {id component summary detail : String} {severity : ObservationSeverity}
    {nowMs : UInt64} {data : Option Json} {obs : Observation}
    (h : observe id component summary detail severity nowMs data = some obs) : obs.id = id := by
  obtain ⟨obs', hnew, rfl⟩ := Option.map_eq_some_iff.mp h
  obtain ⟨-, hobs⟩ := Option.ite_none_left_eq_some.mp hnew
  cases hobs
  rfl

lemma observes_of_mem_classify {probe : SystemProbe} {t : Thresholds} {nowMs : UInt64}
    {obs : Observation} (h : obs ∈ classifyToObservations probe t nowMs) : Observes obs.id := by
  simp only [classifyToObservations, List.mem_append, List.mem_filterMap, Option.mem_toList,
    Option.bind_eq_some_iff] at h
  rcases h with (((⟨x, -, h⟩ | ⟨x, -, h⟩) | ⟨x, -, h⟩) | ⟨x, -, h⟩) | ⟨x, -, h⟩
  · obtain ⟨-, hobs⟩ := Option.ite_none_left_eq_some.mp h
    exact id_of_observe hobs ▸ Observes.append (by decide)
  · obtain ⟨-, hobs⟩ := Option.ite_none_left_eq_some.mp h
    exact id_of_observe hobs ▸ by decide
  · obtain ⟨-, hobs⟩ := Option.ite_none_right_eq_some.mp h
    exact id_of_observe hobs ▸ by decide
  · obtain ⟨-, hobs⟩ := Option.ite_none_right_eq_some.mp h
    exact id_of_observe hobs ▸ Observes.append (by decide)
  · obtain ⟨-, hobs⟩ := Option.ite_none_right_eq_some.mp h
    exact id_of_observe hobs ▸ Observes.append (by decide)

variable {V : Type*}

lemma mem_signals_ingest {r : DiagnosticReport V} {signal x : Signal V}
    (h : x ∈ (r.ingest signal).signals) : x ∈ r.signals ∨ x = signal := by
  simp only [DiagnosticReport.ingest] at h
  rcases List.mem_append.mp (List.mem_of_mem_drop h) with h | h
  · exact Or.inl h
  · exact Or.inr (List.mem_singleton.mp h)

lemma rules_ingest (r : DiagnosticReport V) (signal : Signal V) :
    (r.ingest signal).rules = r.rules := by
  rw [DiagnosticReport.ingest]

variable [LinearOrder V] [OfScientific V]

structure Quiet (s : BackgroundState V) : Prop where
  rules : s.report.rules = defaultRules
  signals : ∀ x ∈ s.report.signals, x.subsystem = .other ∧ Observes x.tag

lemma matchSignals_aboveThreshold {signals : List (Signal V)} {subsystem : Subsystem}
    (h : ∀ x ∈ signals, x.subsystem ≠ subsystem) {tag id : String} {threshold : V}
    {severity : ObservationSeverity} :
    (SymptomRule.aboveThreshold subsystem tag threshold id severity).matchSignals signals =
      none := by
  have hnone : signals.find? (Signal.isFor subsystem tag) = none := by
    rw [List.find?_eq_none]
    intro x hx
    simp [Signal.isFor, h x hx]
  rw [SymptomRule.matchSignals, hnone, Option.bind_none]

lemma matchSignals_anyAlarming {signals : List (Signal V)} {tags : List String}
    (h : ∀ x ∈ signals, x.tag ∉ tags) {id : String} {severity : ObservationSeverity} :
    (SymptomRule.anyAlarming tags id severity).matchSignals signals = none := by
  have hnone : (tags.filter fun t => signals.any fun s => s.tag = t && s.isAlarming) = [] := by
    rw [List.filter_eq_nil_iff]
    intro t ht hany
    obtain ⟨x, hx, hxt⟩ := List.any_eq_true.mp hany
    simp only [Bool.and_eq_true, decide_eq_true_eq] at hxt
    exact h x hx (hxt.1 ▸ ht)
  rw [SymptomRule.matchSignals, hnone]
  rfl

lemma Quiet.symptoms_evaluate {s : BackgroundState V} (h : Quiet s) :
    s.report.evaluate.symptoms = [] := by
  have hnone : s.report.rules.symptomRules.filterMap
      (fun x => x.1.matchSignals s.report.signals) = [] := by
    have hsub : ∀ subsystem, subsystem ≠ .other →
        ∀ x ∈ s.report.signals, x.subsystem ≠ subsystem := fun subsystem hne x hx heq =>
      hne (heq ▸ (h.signals x hx).1)
    have htags : ∀ x ∈ s.report.signals, x.tag ∉ ["cpu.load", "memory.oom", "app.crashed"] := by
      intro x hx htag
      have hobs := (h.signals x hx).2
      simp only [List.mem_cons, List.not_mem_nil, or_false] at htag
      rcases htag with htag | htag | htag <;> rw [htag] at hobs <;> exact absurd hobs (by decide)
    rw [h.rules, List.filterMap_eq_nil_iff]
    simp [defaultRules, RulesTable.withThreshold, RulesTable.withRule, RulesTable.withExplanation,
      matchSignals_aboveThreshold (hsub _ _), matchSignals_anyAlarming htags]
  rw [DiagnosticReport.evaluate, hnone]
  rfl

lemma Quiet.handle (render : Json → String) (nowMs : UInt64) {observations : List Observation}
    (hobs : ∀ o ∈ observations, Observes o.id) {p : Progress V} (h : Quiet p.state) :
    Quiet ((observationsToEvents observations).foldl (handleEvent render nowMs) p).state ∧
      ((observationsToEvents observations).foldl (handleEvent render nowMs) p).queue = p.queue := by
  induction observations generalizing p with
  | nil => exact ⟨h, rfl⟩
  | cons o rest ih =>
    have hnext : Quiet (handleEvent render nowMs p
        (.signalUpdate (.new .other o.id (syntheticValue o.severity) o.summary))).state := by
      rw [handleEvent]
      constructor
      · simp only [rules_ingest, h.rules]
      · intro x hx
        rcases mem_signals_ingest hx with hx | rfl
        · exact h.signals x hx
        · exact ⟨rfl, hobs o List.mem_cons_self⟩
    rw [observationsToEvents, List.map_cons, List.foldl_cons]
    obtain ⟨hqui, hq⟩ := ih (fun o' ho' => hobs o' (List.mem_cons_of_mem _ ho')) hnext
    refine ⟨hqui, hq.trans ?_⟩
    rw [handleEvent]

lemma Quiet.tick {l : DaemonLoop V} (h : Quiet l.state) (render : Json → String)
    (probe : SystemProbe) (nowMs : UInt64) (sink : InMemorySink) :
    Quiet (l.tick render probe nowMs sink).1.state ∧
      (l.tick render probe nowMs sink).2.1.actions = sink.actions := by
  have hobs : ∀ o ∈ (if probe.isEmpty then [] else
      classifyToObservations probe l.thresholds nowMs), Observes o.id := by
    intro o ho
    split_ifs at ho
    · cases ho
    · exact observes_of_mem_classify ho
  rw [DaemonLoop.tick, Background.tick]
  generalize (if probe.isEmpty then [] else
    classifyToObservations probe l.thresholds nowMs) = observations at hobs
  have hqui : Quiet (Progress.mk l.state [] []).state := h
  obtain ⟨hst, hq⟩ := hqui.handle render nowMs hobs
  generalize (observationsToEvents observations).foldl (handleEvent render nowMs)
    ⟨l.state, [], []⟩ = p at hst hq
  refine ⟨⟨hst.rules, hst.signals⟩, ?_⟩
  rw [hst.symptoms_evaluate, hq]
  simp [planRecoveryActions]

def run (render : Json → String) (thresholds : Thresholds) (sink : InMemorySink)
    (probes : List (SystemProbe × UInt64)) : DaemonLoop V × InMemorySink :=
  probes.foldl (fun x probe =>
    let out := x.1.tick render probe.1 probe.2 x.2
    (out.1, out.2.1)) (.withThresholds thresholds, sink)

/-- A fresh loop never submits an action, whatever it is shown. -/
theorem run_actions (render : Json → String) (thresholds : Thresholds) (sink : InMemorySink)
    (probes : List (SystemProbe × UInt64)) :
    (run (V := V) render thresholds sink probes).2.actions = sink.actions := by
  have hinv : Quiet (run (V := V) render thresholds sink probes).1.state ∧
      (run (V := V) render thresholds sink probes).2.actions = sink.actions := by
    induction probes using List.reverseRecOn with
    | nil => exact ⟨⟨rfl, by simp [run, DaemonLoop.withThresholds, defaultState,
        DiagnosticReport.new, DiagnosticReport.withRules]⟩, rfl⟩
    | append_singleton probes probe ih =>
      obtain ⟨hqui, hact⟩ := ih
      rw [run, List.foldl_concat]
      obtain ⟨hqui', hact'⟩ := hqui.tick render probe.1 probe.2
        (run (V := V) render thresholds sink probes).2
      exact ⟨hqui', hact'.trans hact⟩
  exact hinv.2

/-- The disk is full, the observation of it is critical, and no action is submitted. -/
theorem fullDisk_unanswered :
    (run (V := ℚ) (fun _ => "") {} {} [({ storagePercent := [("/", 100)] }, 0)]).2.observations.map
        Observation.severity = [.critical] ∧
      (run (V := ℚ) (fun _ => "") {} {}
        [({ storagePercent := [("/", 100)] }, 0)]).2.actions.length = 0 := by
  decide +kernel

end Aether.Proactive
