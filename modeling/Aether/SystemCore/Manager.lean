import Aether.Algorithm.Checked
import Aether.Algorithm.Command
import Aether.SystemCore.Graph
import Mathlib.Data.List.AList

/-!
# The service manager (`aether-system-core/src/manager.rs`)

The executor may answer every call differently: it is a function of the calls made before, and the
system keeps their list, each with the manager's record of the service at the time of the call.
-/

namespace Aether.SystemCore

open Aether.Core Command

structure ServiceHandle where
  serviceId : String
  pid : UInt32
  deriving DecidableEq

structure ManagedService where
  status : ServiceStatus
  health : HealthStatus
  handle : Option ServiceHandle
  restarts : UInt32
  failures : UInt32
  startedAt : Option UInt64
  deriving DecidableEq

def ManagedService.fresh : ManagedService :=
  { status := .stopped, health := .unhealthy, handle := none, restarts := 0, failures := 0,
    startedAt := none }

def ManagedService.toHealthReport (record : ManagedService) (now : UInt64) (serviceId : String) :
    ServiceHealth :=
  { serviceId, status := record.status, health := record.health,
    pid := record.handle.map fun h => h.pid, restarts := record.restarts,
    failures := record.failures,
    uptimeMs := (record.startedAt.map fun t => if t ≤ now then now - t else 0).getD 0 }

inductive ExecutorAnswer where
  | start (answer : Except AetherError ServiceHandle)
  | stop (handle : ServiceHandle) (answer : Except AetherError Unit)
  | health (handle : ServiceHandle) (answer : Except AetherError HealthStatus)

structure ExecutorCall where
  serviceId : String
  record : Option ManagedService
  answer : ExecutorAnswer

structure ServiceExecutor where
  start : List ExecutorCall → String → Except AetherError ServiceHandle
  stop : List ExecutorCall → ServiceHandle → Except AetherError Unit
  health : List ExecutorCall → ServiceHandle → Except AetherError HealthStatus
  clock : List ExecutorCall → UInt64

abbrev ServiceMap := AList fun _ : String => ManagedService

structure ServiceManager where
  graph : DependencyGraph
  state : ServiceMap

structure ManagedSystem where
  manager : ServiceManager
  calls : List ExecutorCall

abbrev ManagerM (α : Type) := Command ManagedSystem AetherError α

def ServiceManager.new (graph : DependencyGraph) : ServiceManager :=
  ⟨graph, graph.manifests.keys.foldl (fun state id => state.insert id ManagedService.fresh) ∅⟩

def buildManager (fuel : Nat) (manifests : List ServiceManifest) :
    Option (Except AetherError ServiceManager) :=
  (DependencyGraph.new fuel manifests).map fun
    | .error e => .error (.new .invalidInput e.display)
    | .ok graph => .ok (ServiceManager.new graph)

namespace ManagedSystem

def record (s : ManagedSystem) (serviceId : String) : Option ManagedService :=
  s.manager.state.lookup serviceId

def setRecord (s : ManagedSystem) (serviceId : String) (record : ManagedService) :
    ManagedSystem :=
  { s with manager := { s.manager with state := s.manager.state.insert serviceId record } }

def addCall (s : ManagedSystem) (serviceId : String) (answer : ExecutorAnswer) : ManagedSystem :=
  { s with calls := s.calls ++ [⟨serviceId, s.record serviceId, answer⟩] }

end ManagedSystem

namespace ServiceManager

variable (x : ServiceExecutor)

def answered {α : Type} : Except AetherError α → ManagerM α
  | .ok a => return a
  | .error e => fail e

def callStart (serviceId : String) : ManagerM ServiceHandle := do
  let answer ← peek fun s : ManagedSystem => x.start s.calls serviceId
  update fun s => s.addCall serviceId (.start answer)
  answered answer

def callStop (serviceId : String) (handle : ServiceHandle) : ManagerM Unit := do
  let answer ← peek fun s : ManagedSystem => x.stop s.calls handle
  update fun s => s.addCall serviceId (.stop handle answer)
  answered answer

def callHealth (serviceId : String) (handle : ServiceHandle) :
    ManagerM (Except AetherError HealthStatus) := do
  let answer ← peek fun s : ManagedSystem => x.health s.calls handle
  update fun s => s.addCall serviceId (.health handle answer)
  return answer

def getManifest (serviceId : String) : ManagerM ServiceManifest := do
  let found ← peek fun s : ManagedSystem => s.manager.graph.manifest serviceId
  match found with
  | some manifest => return manifest
  | none => fail (.notFound serviceId)

def getRecord (serviceId : String) : ManagerM ManagedService := do
  let found ← peek fun s : ManagedSystem => s.record serviceId
  match found with
  | some record => return record
  | none => fail (.notFound serviceId)

def putRecord (serviceId : String) (record : ManagedService) : ManagerM Unit :=
  update fun s : ManagedSystem => s.setRecord serviceId record

def modifyRecord (serviceId : String) (f : ManagedService → ManagedService) : ManagerM Unit :=
  update fun s : ManagedSystem =>
    match s.record serviceId with
    | some record => s.setRecord serviceId (f record)
    | none => s

def checkDependencies (serviceId : String) : List String → ManagerM Unit
  | [] => return ()
  | dependency :: dependencies => do
    let found ← peek fun s : ManagedSystem => s.record dependency
    if (found.map fun r => r.status) = some .running then checkDependencies serviceId dependencies
    else fail (.serviceFailed serviceId s!"dependency '{dependency}' is not running")

def launch (serviceId : String) (manifest : ServiceManifest) : ManagerM ServiceHandle :=
  if manifest.serviceType = .process ∧ manifest.command = none then
    fail (.invalidInput s!"service '{serviceId}' has no command")
  else callStart x serviceId

def startOne (serviceId : String) : ManagerM Unit := do
  let manifest ← getManifest serviceId
  checkDependencies serviceId manifest.dependencies
  let handle ← launch x serviceId manifest
  let now ← peek fun s : ManagedSystem => x.clock s.calls
  modifyRecord serviceId fun record => { record with
    status := .running, handle := some handle, startedAt := some now, health := .healthy }

def stopHandle (serviceId : String) (record : ManagedService) : ManagerM Unit :=
  match record.handle with
  | none => return ()
  | some handle => do
    putRecord serviceId { record with handle := none }
    callStop x serviceId handle

def stopOne (serviceId : String) : ManagerM Unit := do
  let record ← getRecord serviceId
  stopHandle x serviceId record
  putRecord serviceId { record with
    handle := none, status := .stopped, health := .unhealthy, startedAt := none }

def stopEach : Option AetherError → List String → ManagerM (Option AetherError)
  | firstError, [] => return firstError
  | firstError, serviceId :: ids => do
    let result ← attempt (stopOne x serviceId)
    match result with
    | .ok () => stopEach firstError ids
    | .error e => stopEach (firstError.or (some e)) ids

def stopAll : ManagerM Unit := do
  let order ← peek fun s : ManagedSystem => s.manager.graph.stopOrder
  let firstError ← stopEach x none order
  match firstError with
  | some e => fail e
  | none => return ()

def startEach : List String → ManagerM Unit
  | [] => return ()
  | serviceId :: ids => do
    let result ← attempt (startOne x serviceId)
    match result with
    | .ok () => startEach ids
    | .error _ => do
      let _ ← attempt (stopAll x)
      fail (.serviceFailed serviceId "startup failed; rolled back all services")

def startAll : ManagerM Unit := do
  let order ← peek fun s : ManagedSystem => s.manager.graph.startOrder
  startEach x order

def restartOne (serviceId : String) : ManagerM Unit := do
  stopOne x serviceId
  modifyRecord serviceId fun record => { record with restarts := saturatingSucc record.restarts }
  startOne x serviceId

def recover (serviceId : String) (manifest : ServiceManifest) : ManagerM Bool := do
  let found ← peek fun s : ManagedSystem => s.record serviceId
  if (found.any fun r => manifest.restartLimit ≤ r.restarts) then return false
  else
    modifyRecord serviceId fun record => { record with status := .recovering }
    stopOne x serviceId
    restartOne x serviceId
    return true

def handleFailure (serviceId : String) : ManagerM Bool := do
  let manifest ← getManifest serviceId
  let record ← getRecord serviceId
  putRecord serviceId { record with
    failures := saturatingSucc record.failures, status := .failed, health := .unhealthy,
    handle := none }
  match manifest.restartPolicy with
  | .never => return false
  | .onFailure => recover x serviceId manifest
  | .always => recover x serviceId manifest

def probed (record : ManagedService) (answer : Except AetherError HealthStatus) : ManagedService :=
  let health := match answer with
    | .ok h => h
    | .error _ => .unhealthy
  { record with
    health
    status := if health = .unhealthy ∧ record.status = .running then .failed else record.status }

def probe (serviceId : String) (record : ManagedService) : ManagerM Unit :=
  match record.handle with
  | none => return ()
  | some handle => do
    let answer ← callHealth x serviceId handle
    putRecord serviceId (probed record answer)

def pollEach : List String → ManagerM (List ServiceHealth)
  | [] => return []
  | serviceId :: ids => do
    let found ← peek fun s : ManagedSystem => s.record serviceId
    match found with
    | none => pollEach ids
    | some record => do
      probe x serviceId record
      let now ← peek fun s : ManagedSystem => x.clock s.calls
      let after ← peek fun s : ManagedSystem => s.record serviceId
      let reports ← pollEach ids
      return (after.map fun r => r.toHealthReport now serviceId).toList ++ reports

def pollHealth : ManagerM (List ServiceHealth) := do
  let order ← peek fun s : ManagedSystem => s.manager.graph.startOrder
  pollEach x order

end ServiceManager

inductive ManagerOp where
  | startAll
  | startOne (serviceId : String)
  | stopOne (serviceId : String)
  | stopAll
  | restartOne (serviceId : String)
  | handleFailure (serviceId : String)
  | pollHealth

def ManagerOp.run (x : ServiceExecutor) : ManagerOp → ManagerM Unit
  | .startAll => ServiceManager.startAll x
  | .startOne id => ServiceManager.startOne x id
  | .stopOne id => ServiceManager.stopOne x id
  | .stopAll => ServiceManager.stopAll x
  | .restartOne id => ServiceManager.restartOne x id
  | .handleFailure id => do let _ ← ServiceManager.handleFailure x id
  | .pollHealth => do let _ ← ServiceManager.pollHealth x

def ManagedSystem.step (x : ServiceExecutor) (s : ManagedSystem) (op : ManagerOp) : ManagedSystem :=
  (op.run x s).2

def ManagedSystem.run (x : ServiceExecutor) (s : ManagedSystem) (ops : List ManagerOp) :
    ManagedSystem :=
  ops.foldl (ManagedSystem.step x) s

def ManagedSystem.init (graph : DependencyGraph) : ManagedSystem := ⟨ServiceManager.new graph, []⟩

end Aether.SystemCore
