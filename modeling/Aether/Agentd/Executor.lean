import Aether.Agentd.Intent
import Aether.Algorithm.Command
import Aether.Core.Manifest
import Aether.SystemCore.DeviceCommands

/-!
# The capability policy of the agent daemon (`aether-agentd/src/intent.rs`, `confirmation.rs`)

What every capability is in the terms of `aether-core`, which intents are accepted, and which of
them the user has to confirm.
-/

namespace Aether.Agentd

open Aether.Core

namespace CapabilityId

def asStr : CapabilityId → String
  | .systemStatus => "system.status"
  | .appStatus => "app.status"
  | .appList => "app.list"
  | .appLaunch => "app.launch"
  | .appClose => "app.close"
  | .windowList => "window.list"
  | .windowFocus => "window.focus"
  | .windowMinimize => "window.minimize"
  | .windowMaximize => "window.maximize"
  | .windowClose => "window.close"
  | .windowRestore => "window.restore"
  | .contextGet => "context.get"
  | .fileList => "file.list"
  | .fileSearch => "file.search"
  | .fileRead => "file.read"
  | .fileCreate => "file.create"
  | .fileWrite => "file.write"
  | .fileRename => "file.rename"
  | .fileMove => "file.move"
  | .fileDelete => "file.delete"
  | .systemInfo => "system.info"
  | .systemResources => "system.resources"
  | .systemUptime => "system.uptime"

def fromStr : String → Option CapabilityId
  | "system.status" => some .systemStatus
  | "app.status" => some .appStatus
  | "app.list" => some .appList
  | "app.launch" => some .appLaunch
  | "app.close" => some .appClose
  | "window.list" => some .windowList
  | "window.focus" => some .windowFocus
  | "window.minimize" => some .windowMinimize
  | "window.maximize" => some .windowMaximize
  | "window.close" => some .windowClose
  | "window.restore" => some .windowRestore
  | "context.get" => some .contextGet
  | "file.list" => some .fileList
  | "file.search" => some .fileSearch
  | "file.read" => some .fileRead
  | "file.create" => some .fileCreate
  | "file.write" => some .fileWrite
  | "file.rename" => some .fileRename
  | "file.move" => some .fileMove
  | "file.delete" => some .fileDelete
  | "system.info" => some .systemInfo
  | "system.resources" => some .systemResources
  | "system.uptime" => some .systemUptime
  | _ => none

def capability : CapabilityId → Capability
  | .systemStatus => ⟨.system, "status", .low⟩
  | .appStatus => ⟨.application, "status", .low⟩
  | .appList => ⟨.application, "list", .low⟩
  | .appLaunch => ⟨.application, "launch", .medium⟩
  | .appClose => ⟨.application, "close", .medium⟩
  | .windowList => ⟨.application, "window.list", .low⟩
  | .windowFocus => ⟨.application, "window.focus", .low⟩
  | .windowMinimize => ⟨.application, "window.minimize", .low⟩
  | .windowMaximize => ⟨.application, "window.maximize", .low⟩
  | .windowClose => ⟨.application, "window.close", .medium⟩
  | .windowRestore => ⟨.application, "window.restore", .low⟩
  | .contextGet => ⟨.system, "context", .low⟩
  | .fileList => ⟨.filesystem, "list", .low⟩
  | .fileSearch => ⟨.filesystem, "search", .low⟩
  | .fileRead => ⟨.filesystem, "read", .low⟩
  | .fileCreate => ⟨.filesystem, "create", .medium⟩
  | .fileWrite => ⟨.filesystem, "write", .medium⟩
  | .fileRename => ⟨.filesystem, "rename", .medium⟩
  | .fileMove => ⟨.filesystem, "move", .medium⟩
  | .fileDelete => ⟨.filesystem, "delete", .high⟩
  | .systemInfo => ⟨.system, "info", .low⟩
  | .systemResources => ⟨.system, "resources", .low⟩
  | .systemUptime => ⟨.system, "uptime", .low⟩

def autoExecute (_ : CapabilityId) : Bool := true

def needsTarget : CapabilityId → Bool
  | .appLaunch | .appClose | .appStatus | .windowFocus | .windowMinimize | .windowMaximize
  | .windowClose | .windowRestore => true
  | _ => false

end CapabilityId

structure Rejection where
  text : String
  deriving DecidableEq

def Intent.text (intent : Intent) (key : String) : String :=
  ((intent.arguments.get key).bind Json.asStr).getD ""

def isAppIdChar (c : Char) : Bool := c.isLower || c.isDigit || c = '-' || c = '_'

def validApp : Json → Bool
  | .str s => !(trim s).isEmpty && s.toList.all isAppIdChar
  | _ => false

def hasNull (s : String) : Bool := s.toList.contains '\x00'

def fileRejection (intent : Intent) : Option String :=
  match intent.capability with
  | .fileList =>
    match intent.arguments.get "path" with
    | none => none
    | some (.str s) => if hasNull s then some "MALFORMED_ARGUMENTS: path contains null" else none
    | some _ => some "MALFORMED_ARGUMENTS: 'path' must be string"
  | .fileSearch =>
    let q := intent.text "query"
    if (trim q).isEmpty || 100 < q.utf8ByteSize then
      some "MALFORMED_ARGUMENTS: 'query' must be 1..100 chars"
    else none
  | .fileRead | .fileCreate | .fileDelete =>
    let p := intent.text "path"
    if (trim p).isEmpty then some "MALFORMED_ARGUMENTS: 'path' is required"
    else if hasNull p then some "MALFORMED_ARGUMENTS: path contains null"
    else none
  | .fileWrite =>
    if (trim (intent.text "path")).isEmpty then some "MALFORMED_ARGUMENTS: 'path' is required"
    else if ((intent.arguments.get "content").bind Json.asStr).isNone then
      some "MALFORMED_ARGUMENTS: 'content' must be string"
    else none
  | .fileRename | .fileMove =>
    if (trim (intent.text "from")).isEmpty || (trim (intent.text "to")).isEmpty then
      some "MALFORMED_ARGUMENTS: 'from' and 'to' required"
    else none
  | _ => none

def validate (intent : Intent) : Except Rejection Unit :=
  if (CapabilityId.fromStr intent.capability.asStr).isNone then .error ⟨"UNKNOWN_CAPABILITY"⟩
  else if intent.capability.needsTarget && !validApp ((intent.arguments.get "app").getD .null) then
    .error ⟨"MALFORMED_ARGUMENTS: 'app' must be a registered app id"⟩
  else
    match fileRejection intent with
    | some text => .error ⟨text⟩
    | none => if !intent.capability.autoExecute then .error ⟨"APPROVAL_REQUIRED"⟩ else .ok ()

inductive Confirmation where
  | autoExecute
  | requiresConsent (reason : String)
  | denied (reason : String)
  deriving DecidableEq

def confirmation (capability : Capability) : Confirmation :=
  match capability.riskLevel with
  | .low => .autoExecute
  | .medium => .autoExecute
  | .high | .critical =>
    .requiresConsent s!"{capability.qualifiedName} requires user confirmation"

/-!
## Execution of intents (`aether-agentd/src/intent.rs`, `execute_extended`)

The control plane and the surface server answer as they like, given the requests before.  What is
sent is recorded with its intent and attempt, and so is the failure of an attempt.
-/

open SystemCore (IpcError)
open Command (require)

inductive ActorTrust where
  | trusted
  | untrusted
  deriving DecidableEq

structure IpcRequest where
  serviceId : String
  command : String
  parameters : Json
  actorTrust : ActorTrust

structure IpcResponse where
  ok : Bool
  command : String
  result : Json
  error : Option IpcError

inductive IpcCall where
  | control (request : IpcRequest)
  | surface (request : Json)

def IpcAnswer : IpcCall → Type
  | .control _ => Except String IpcResponse
  | .surface _ => Except String Json

inductive PlanEvent where
  | sent (intent attempt : ℕ) (call : IpcCall)
  | failed (intent attempt : ℕ) (error : String)

def PlanEvent.call? : PlanEvent → Option IpcCall
  | .sent _ _ call => some call
  | .failed _ _ _ => none

abbrev Ipc := Calls.World IpcCall IpcAnswer

abbrev AgentdM := Command (List PlanEvent) String

structure Slot where
  intent : ℕ
  attempt : ℕ

def send (w : Ipc) (slot : Slot) (call : IpcCall) : AgentdM (IpcAnswer call) := fun trace =>
  (.ok (w (trace.filterMap PlanEvent.call?) call), trace ++ [.sent slot.intent slot.attempt call])

variable (w : Ipc) (slot : Slot)

def surfaceCall (request : Json) : AgentdM Json := do
  let answer ← send w slot (.surface request)
  let v ← require answer
  if (v.field "ok").asBool.getD false then return v
  else Command.fail ((v.field "error").asStr.getD "surface error")

def surfaceWindowList : AgentdM Json := surfaceCall w slot (.obj [("op", .str "window.list")])

def windowRequest (op : String) (id : UInt64) : Json :=
  .obj [("op", .str op), ("window_id", .ofNat id.toNat)]

def lowercase (s : String) : Str := Str.toAsciiLowercase s.toList

def findWindow (list : Json) (app : String) : Option UInt64 :=
  ((list.field "windows").asArray.getD []).findSome? fun window =>
    if lowercase ((window.field "app").asStr.getD "") = lowercase app ∨
        lowercase ((window.field "title").asStr.getD "") = lowercase app then
      (window.field "id").asU64
    else none

def surfaceWindowOp (op app : String) (windowId : Option UInt64) : AgentdM Json :=
  match windowId with
  | some id => surfaceCall w slot (windowRequest op id)
  | none => do
    let list ← surfaceWindowList w slot
    match findWindow list app with
    | some id => surfaceCall w slot (windowRequest op id)
    | none => Command.fail s!"no such window for '{app}'"

def surfaceWindowFocus (app : String) (windowId : Option UInt64) : AgentdM Json :=
  surfaceWindowOp w slot "window.focus" app windowId

def surfaceWindowMinimize (app : String) (windowId : Option UInt64) : AgentdM Json :=
  surfaceWindowOp w slot "window.minimize" app windowId

def surfaceWindowMaximize (app : String) (windowId : Option UInt64) : AgentdM Json :=
  surfaceWindowOp w slot "window.maximize" app windowId

def surfaceWindowClose (app : String) (windowId : Option UInt64) : AgentdM Json :=
  match windowId with
  | some id => surfaceCall w slot (windowRequest "window.close" id)
  | none => surfaceCall w slot (.obj [("op", .str "window.close"), ("app_id", .str app)])

def Intent.app (intent : Intent) : String := (intent.arguments.field "app").asStr.getD ""

def controlCommand (intent : Intent) : String × Json :=
  let arguments := intent.arguments
  let ofApp : Json := .obj [("app", arguments.field "app")]
  let ofWindow : Json := .obj [("app", .str intent.app)]
  let fromTo : Json := .obj [("from", arguments.field "from"), ("to", arguments.field "to")]
  match intent.capability with
  | .systemStatus => ("status", .obj [])
  | .appStatus => ("app.status", ofApp)
  | .appList => ("app.list", .obj [])
  | .appLaunch => ("app.launch", ofApp)
  | .appClose => ("app.close", ofApp)
  | .windowList => ("window.list", .obj [])
  | .windowFocus => ("window.focus", ofWindow)
  | .windowMinimize => ("window.minimize", ofWindow)
  | .windowMaximize => ("window.maximize", ofWindow)
  | .windowClose => ("window.close", ofWindow)
  | .windowRestore => ("window.restore", ofWindow)
  | .contextGet => ("context.get", .obj [])
  | .fileList => ("file.list", .obj [("path", (arguments.get "path").getD (.str ""))])
  | .fileSearch => ("file.search", .obj [("query", arguments.field "query")])
  | .fileRead => ("file.read", .obj [("path", arguments.field "path")])
  | .fileCreate => ("file.create", .obj [("path", arguments.field "path"),
      ("content", (arguments.get "content").getD (.str ""))])
  | .fileWrite => ("file.write", .obj [("path", arguments.field "path"),
      ("content", arguments.field "content")])
  | .fileRename => ("file.rename", fromTo)
  | .fileMove => ("file.move", fromTo)
  | .fileDelete => ("file.delete", .obj [("path", arguments.field "path")])
  | .systemInfo => ("system.info", .obj [])
  | .systemResources => ("system.resources", .obj [])
  | .systemUptime => ("system.uptime", .obj [])

def controlRequest (intent : Intent) : IpcRequest :=
  let (command, parameters) := controlCommand intent
  { serviceId := "aether-system-core", command, parameters, actorTrust := .trusted }

def responseResult (response : IpcResponse) : Except String Json :=
  if response.ok then .ok response.result
  else .error ((response.error.map fun e => s!"{e.code}: {e.message}").getD "unknown error")

def surfaceFallback (intent : Intent) : Option (AgentdM Json) :=
  match intent.capability with
  | .windowList => some (surfaceWindowList w slot)
  | .windowFocus => some (surfaceWindowFocus w slot intent.app none)
  | .windowMinimize => some (surfaceWindowMinimize w slot intent.app none)
  | .windowMaximize => some (surfaceWindowMaximize w slot intent.app none)
  | .windowClose => some (surfaceWindowClose w slot intent.app none)
  | .windowRestore => some (surfaceWindowFocus w slot intent.app none)
  | _ => none

def goodResult : Except String IpcResponse → Option Json
  | .ok response => if response.ok then some response.result else none
  | .error _ => none

def executeExtended (intent : Intent) : AgentdM Json := do
  let answer ← send w slot (.control (controlRequest intent))
  match surfaceFallback w slot intent with
  | some fallback =>
    match goodResult answer with
    | some result => return result
    | none => fallback
  | none => require (answer.bind responseResult)

end Aether.Agentd
