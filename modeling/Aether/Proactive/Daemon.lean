import Aether.Algorithm.Checked
import Aether.Background.Agent

/-!
# The proactive daemon (`aether-proactive/src/lib.rs`)

A tick of the loop classifies a probe of the system into observations, hands them to the background
agent as signals and submits the actions that come back.  The ordered maps of a probe are the lists
of their entries.  The sink is the one that keeps everything in memory.
-/

namespace Aether.Proactive

open Aether.Core AgentCore Diagnostics Background

structure SystemProbe where
  storagePercent : List (String × UInt8) := []
  networkReachable : Option Bool := none
  memoryPercent : Option UInt8 := none
  processCpu : List (UInt32 × UInt8) := []
  processMemoryMib : List (UInt32 × UInt64) := []

def SystemProbe.isEmpty (p : SystemProbe) : Bool :=
  p.storagePercent.isEmpty && p.networkReachable.isNone && p.memoryPercent.isNone &&
    p.processCpu.isEmpty && p.processMemoryMib.isEmpty

structure Thresholds where
  storageWarningPct : UInt8 := 85
  storageCriticalPct : UInt8 := 95
  memoryWarningPct : UInt8 := 85
  processCpuWarningPct : UInt8 := 80
  processMemoryWarningMib : UInt64 := 2048

def observe (id component summary detail : String) (severity : ObservationSeverity)
    (nowMs : UInt64) (data : Option Json) : Option Observation :=
  (Observation.new id component summary severity nowMs).map fun obs =>
    { obs with detail := some detail, data }

def observeStorage (t : Thresholds) (nowMs : UInt64) (mount : String) (pct : UInt8) :
    Option Observation :=
  let severity : ObservationSeverity :=
    if t.storageCriticalPct ≤ pct then .critical
    else if t.storageWarningPct ≤ pct then .warning
    else .info
  if severity = .info then none
  else
    observe s!"obs-storage-{mount}" "storage" s!"Mount `{mount}` is {pct.toNat}% full"
      (s!"Storage on `{mount}` is at {pct.toNat}% of capacity " ++
        s!"(warning at {t.storageWarningPct.toNat}%, critical at {t.storageCriticalPct.toNat}%).")
      severity nowMs (some (.obj [("mount", .str mount), ("percent", .ofNat pct.toNat)]))

def observeNetwork (nowMs : UInt64) (reachable : Bool) : Option Observation :=
  if reachable then none
  else
    observe "obs-network-unreachable" "network" "Network is unreachable"
      ("The system cannot reach the network. " ++
        "Check the active interface and the routing table.") .warning nowMs none

def observeMemory (t : Thresholds) (nowMs : UInt64) (pct : UInt8) : Option Observation :=
  if t.memoryWarningPct ≤ pct then
    observe "obs-memory-pressure" "memory" s!"Memory is {pct.toNat}% in use"
      (s!"Resident memory is at {pct.toNat}% (warning at {t.memoryWarningPct.toNat}%). " ++
        "A future proposal may suggest dropping the page cache or closing heavy applications.")
      (if 95 ≤ pct then .critical else .warning) nowMs
      (some (.obj [("percent", .ofNat pct.toNat)]))
  else none

def observeProcessCpu (t : Thresholds) (nowMs : UInt64) (pid : UInt32) (cpu : UInt8) :
    Option Observation :=
  if t.processCpuWarningPct ≤ cpu then
    observe s!"obs-process-cpu-{pid.toNat}" "process"
      s!"Process {pid.toNat} is using {cpu.toNat}% CPU"
      (s!"Process {pid.toNat} is using {cpu.toNat}% CPU. The agent may " ++
        "propose to throttle or restart it.") .warning nowMs
      (some (.obj [("pid", .ofNat pid.toNat), ("percent", .ofNat cpu.toNat)]))
  else none

def observeProcessMemory (t : Thresholds) (nowMs : UInt64) (pid : UInt32) (mib : UInt64) :
    Option Observation :=
  if t.processMemoryWarningMib ≤ mib then
    observe s!"obs-process-memory-{pid.toNat}" "process"
      s!"Process {pid.toNat} is using {mib.toNat} MiB"
      (s!"Process {pid.toNat} is using {mib.toNat} MiB of resident memory " ++
        s!"(warning at {t.processMemoryWarningMib.toNat} MiB). The agent may propose to restart it.")
      .warning nowMs (some (.obj [("pid", .ofNat pid.toNat), ("mib", .ofNat mib.toNat)]))
  else none

def classifyToObservations (probe : SystemProbe) (t : Thresholds) (nowMs : UInt64) :
    List Observation :=
  (probe.storagePercent.filterMap fun x => observeStorage t nowMs x.1 x.2) ++
    (probe.networkReachable.bind (observeNetwork nowMs)).toList ++
    (probe.memoryPercent.bind (observeMemory t nowMs)).toList ++
    (probe.processCpu.filterMap fun x => observeProcessCpu t nowMs x.1 x.2) ++
    probe.processMemoryMib.filterMap fun x => observeProcessMemory t nowMs x.1 x.2

structure InMemorySink where
  observations : List Observation := []
  actions : List ActionItem := []
  started : UInt32 := 0
  finished : UInt32 := 0

structure TickResult where
  observations : ℕ
  actions : ℕ

variable {V : Type*} [LinearOrder V] [OfScientific V]

def syntheticValue : ObservationSeverity → V
  | .info => 0.0
  | .notice => 0.5
  | .warning => 0.8
  | .critical => 0.95

def observationsToEvents (observations : List Observation) : List (AgentEvent V) :=
  observations.map fun o =>
    .signalUpdate (.new .other o.id (syntheticValue o.severity) o.summary)

structure DaemonLoop (V : Type*) where
  state : BackgroundState V
  thresholds : Thresholds

namespace DaemonLoop

def withThresholds (thresholds : Thresholds) : DaemonLoop V := ⟨defaultState, thresholds⟩

def tick (render : Json → String) (l : DaemonLoop V) (probe : SystemProbe) (nowMs : UInt64)
    (sink : InMemorySink) : DaemonLoop V × InMemorySink × TickResult :=
  let observations :=
    if probe.isEmpty then [] else classifyToObservations probe l.thresholds nowMs
  let o := Background.tick render l.state (observationsToEvents observations) nowMs
  ({ l with state := o.state },
    { observations := sink.observations ++ observations
      -- an empty queue is not submitted, which makes no difference for this sink
      actions := sink.actions ++ o.queue
      started := saturatingSucc sink.started
      finished := saturatingSucc sink.finished },
    ⟨observations.length, o.queue.length⟩)

end DaemonLoop

end Aether.Proactive
