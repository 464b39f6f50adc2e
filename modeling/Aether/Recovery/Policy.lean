import Aether.Diagnostics.Report

/-!
# Recovery plans (`aether-recovery/src/lib.rs`)
-/

namespace Aether.Recovery

open Diagnostics

inductive RecoveryAction where
  | restartService (service reason : String)
  | restartApp (appId reason : String)
  | reconnectNetwork (interface reason : String)
  | resolveDependency (dependency reason : String)
  | freeDiskCache (cache reason : String)
  | dropPageCache (reason : String)
  | killProcess (pid : UInt32) (reason : String)
  | informUser (explanation : Explanation)

namespace RecoveryAction

def subsystem : RecoveryAction → Subsystem
  | restartService _ _ => .service
  | restartApp _ _ => .app
  | reconnectNetwork _ _ => .network
  | freeDiskCache _ _ => .disk
  | dropPageCache _ => .memory
  | resolveDependency _ _ | killProcess _ _ | informUser _ => .other

def summary : RecoveryAction → String
  | restartService name reason | restartApp name reason => s!"Restart `{name}`: {reason}"
  | reconnectNetwork interface reason =>
    let ifName := if interface.isEmpty then "the default network" else interface
    s!"Reconnect {ifName}: {reason}"
  | resolveDependency dependency reason => s!"Resolve `{dependency}`: {reason}"
  | freeDiskCache cache reason => s!"Free `{cache}` cache: {reason}"
  | dropPageCache reason => s!"Drop page cache: {reason}"
  | killProcess pid reason => s!"Kill pid {pid.toNat}: {reason}"
  | informUser explanation => explanation.cause

def requiresConsent : RecoveryAction → Bool
  | killProcess _ _ => true
  | _ => false

end RecoveryAction

structure RecoveryPlan where
  symptomId : String
  actions : List RecoveryAction

structure RecoveryPolicy where
  recipes : List (String × List RecoveryAction)

def RecoveryPolicy.planFor (p : RecoveryPolicy) (symptomId : String) : Option RecoveryPlan :=
  (p.recipes.find? fun x => x.1 = symptomId).map fun x => ⟨x.1, x.2⟩

lemma RecoveryPolicy.symptomId_of_planFor {p : RecoveryPolicy} {id : String} {plan : RecoveryPlan}
    (h : p.planFor id = some plan) : plan.symptomId = id := by
  obtain ⟨x, hx, rfl⟩ := Option.map_eq_some_iff.mp h
  simpa using List.find?_some hx

def defaultPolicy : RecoveryPolicy where
  recipes :=
    [("cpu_overload", [.informUser (Explanation.selfHealing
        { symptomId := "cpu_overload"
          cause := "A process is using the CPU heavily."
          fix := "Open the taskbar's CPU chip to see the top process." })]),
      ("memory_pressure",
        [.dropPageCache "Free kernel page cache to relieve memory pressure."]),
      ("disk_full", [.freeDiskCache "package-manager"
        "Clean the package manager's cache to free disk space."]),
      ("service_down", [.restartService "<auto>" "Service is down; restart to recover."]),
      ("app_crash_loop", [.restartApp "<auto>" "App is in a crash loop; restart to recover."]),
      ("system_unstable",
        [.dropPageCache "Free kernel page cache as part of system recovery.",
          .reconnectNetwork "" "Cycle the network link as part of system recovery."])]

end Aether.Recovery
