import Aether.AgentCore.Proposal

/-!
# Diagnostics (`aether-diagnostics/src/lib.rs`)

Signals are collected in a bounded log, and the rules of a table find the symptoms in it.  The
values of the signals are `f32` in the source; here they are a linear order with decimal literals.
-/

namespace Aether.Diagnostics

open AgentCore

inductive Subsystem where
  | cpu
  | memory
  | disk
  | network
  | service
  | app
  | security
  | power
  | fileSystem
  | other
  deriving DecidableEq

structure Signal (V : Type*) where
  subsystem : Subsystem
  tag : String
  value : V
  detail : String

structure Symptom where
  id : String
  subsystem : Subsystem
  severity : ObservationSeverity
  signals : List String

structure Explanation where
  symptomId : String
  cause : String
  fix : String
  requiresConsent : Bool := true

def Explanation.selfHealing (e : Explanation) : Explanation := { e with requiresConsent := false }

inductive SymptomRule (V : Type*) where
  | aboveThreshold (subsystem : Subsystem) (tag : String) (threshold : V) (symptomId : String)
      (severity : ObservationSeverity)
  | anyAlarming (tags : List String) (symptomId : String) (severity : ObservationSeverity)

structure RulesTable (V : Type*) where
  symptomRules : List (SymptomRule V × Symptom) := []
  explanations : List (String × Explanation) := []

variable {V : Type*}

namespace RulesTable

def withRule (t : RulesTable V) (rule : SymptomRule V) (symptom : Symptom) : RulesTable V :=
  { t with symptomRules := t.symptomRules ++ [(rule, symptom)] }

def withExplanation (t : RulesTable V) (e : Explanation) : RulesTable V :=
  { t with explanations := t.explanations ++ [(e.symptomId, e)] }

def explanationFor (t : RulesTable V) (symptomId : String) : Option Explanation :=
  (t.explanations.find? fun e => e.1 = symptomId).map Prod.snd

def withThreshold (t : RulesTable V) (subsystem : Subsystem) (tag : String) (threshold : V)
    (symptomId : String) (severity : ObservationSeverity) : RulesTable V :=
  t.withRule (.aboveThreshold subsystem tag threshold symptomId severity)
    ⟨symptomId, subsystem, severity, [tag]⟩

end RulesTable

section Values

variable [LinearOrder V] [OfScientific V]

def Signal.new (subsystem : Subsystem) (tag : String) (value : V) (detail : String) : Signal V :=
  ⟨subsystem, tag, max 0.0 (min value 1.0), detail⟩

def Signal.isAlarming (s : Signal V) : Bool := 0.5 < s.value

def Signal.isFor (subsystem : Subsystem) (tag : String) (s : Signal V) : Bool :=
  s.subsystem = subsystem && s.tag = tag

def SymptomRule.matchSignals (signals : List (Signal V)) : SymptomRule V → Option Symptom
  | .aboveThreshold subsystem tag threshold symptomId severity =>
    (signals.find? (Signal.isFor subsystem tag)).bind fun s =>
      if threshold ≤ s.value then some ⟨symptomId, subsystem, severity, [tag]⟩ else none
  | .anyAlarming tags symptomId severity =>
    let matching := tags.filter fun t => signals.any fun s => s.tag = t && s.isAlarming
    if matching.isEmpty then none
    else
      let sub := (signals.find? fun s => matching.contains s.tag).elim .other Signal.subsystem
      some ⟨symptomId, sub, severity, matching⟩

def defaultRules : RulesTable V :=
  ({} : RulesTable V)
    |>.withThreshold .cpu "cpu.load" 0.85 "cpu_overload" .warning
    |>.withThreshold .memory "memory.pressure" 0.9 "memory_pressure" .critical
    |>.withThreshold .disk "disk.used_ratio" 0.95 "disk_full" .critical
    |>.withThreshold .service "service.down" 0.5 "service_down" .critical
    |>.withThreshold .app "app.crash_rate" 0.5 "app_crash_loop" .warning
    |>.withRule (.anyAlarming ["cpu.load", "memory.oom", "app.crashed"] "system_unstable" .critical)
      ⟨"system_unstable", .other, .critical, []⟩
    |>.withExplanation (Explanation.selfHealing
      { symptomId := "cpu_overload"
        cause := "A process is using the CPU heavily."
        fix := "Open the taskbar's CPU chip to see the top process." })
    |>.withExplanation (Explanation.selfHealing
      { symptomId := "memory_pressure"
        cause := "Memory is nearly full."
        fix := "Close a few large apps, or restart the most memory-hungry one." })
    |>.withExplanation
      { symptomId := "disk_full"
        cause := "The disk is almost full."
        fix := "Run the disk cleanup, or archive old files." }
    |>.withExplanation (Explanation.selfHealing
      { symptomId := "service_down"
        cause := "A required system service is not running."
        fix := "Restart the service." })
    |>.withExplanation
      { symptomId := "app_crash_loop"
        cause := "An application is repeatedly crashing."
        fix := "Open the app to see the crash report, or uninstall it." }
    |>.withExplanation (Explanation.selfHealing
      { symptomId := "system_unstable"
        cause := "Multiple subsystems are alarming at once."
        fix := "The system is in an unstable state. Consider restarting." })

def retainUnseen (seen : List String) : List Symptom → List Symptom
  | [] => []
  | s :: rest =>
    if seen.contains s.id then retainUnseen seen rest
    else s :: retainUnseen (seen ++ [s.id]) rest

structure DiagnosticReport (V : Type*) where
  signals : List (Signal V)
  symptoms : List Symptom
  explanations : List Explanation
  rules : RulesTable V

namespace DiagnosticReport

def withRules (rules : RulesTable V) : DiagnosticReport V := ⟨[], [], [], rules⟩

def new : DiagnosticReport V := withRules defaultRules

def ingest (r : DiagnosticReport V) (signal : Signal V) : DiagnosticReport V :=
  let signals := r.signals ++ [signal]
  { r with signals := signals.drop (signals.length - 256) }

def evaluate (r : DiagnosticReport V) : DiagnosticReport V :=
  let symptoms := retainUnseen [] (r.rules.symptomRules.filterMap fun x =>
    x.1.matchSignals r.signals)
  { r with symptoms, explanations := symptoms.filterMap fun s => r.rules.explanationFor s.id }

end DiagnosticReport

end Values

end Aether.Diagnostics
