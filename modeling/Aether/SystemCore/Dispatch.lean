import Aether.Agentd.Executor
import Aether.Security.Signing

/-!
# The policy gate (`aether-system-core/src/policy.rs`, `aether-security/src/lib.rs`)

Every request of the control plane is mapped to a capability, whose risk decides.  An untrusted
actor is denied before that.
-/

namespace Aether.SystemCore

open Aether.Core
open Agentd (ActorTrust)

inductive Decision where
  | allow
  | deny
  | requireConsent
  deriving DecidableEq

structure PolicyVerdict where
  decision : Decision
  reason : String
  deriving DecidableEq

def PolicyVerdict.isAllow (verdict : PolicyVerdict) : Bool := verdict.decision == .allow

def defaultPermission (capability : Capability) : PolicyVerdict :=
  match capability.riskLevel with
  | .low => ⟨.allow, "low-risk local capability"⟩
  | .medium => ⟨.requireConsent, "medium-risk capability"⟩
  | .high | .critical => ⟨.requireConsent, "elevated-risk capability"⟩

def commandToCapability : String → Option Capability
  | "process.list" => some ⟨.process, "list", .low⟩
  | "process.inspect" => some ⟨.process, "inspect", .low⟩
  | "storage.status" => some ⟨.storage, "status", .low⟩
  | "file.list" => some ⟨.filesystem, "list", .low⟩
  | "file.read" => some ⟨.filesystem, "read", .low⟩
  | "file.search" => some ⟨.filesystem, "search", .low⟩
  | "file.create" => some ⟨.filesystem, "create", .medium⟩
  | "file.write" => some ⟨.filesystem, "write", .medium⟩
  | "file.rename" => some ⟨.filesystem, "rename", .medium⟩
  | "file.move" => some ⟨.filesystem, "move", .medium⟩
  | "file.delete" => some ⟨.filesystem, "delete", .high⟩
  | "system.status" => some ⟨.system, "status", .low⟩
  | "system.info" => some ⟨.system, "info", .low⟩
  | "system.resources" => some ⟨.system, "resources", .low⟩
  | "system.uptime" => some ⟨.system, "uptime", .low⟩
  | "shutdown" | "system.shutdown" => some ⟨.system, "shutdown", .critical⟩
  | "network.status" => some ⟨.network, "status", .low⟩
  | "network.interfaces" => some ⟨.network, "interfaces", .low⟩
  | "sandbox.plan" => some ⟨.system, "sandbox.plan", .low⟩
  | _ => none

def evaluatePolicy (command : String) (trust : ActorTrust) : PolicyVerdict :=
  if trust = .untrusted then ⟨.deny, "untrusted actor: capability denied by policy"⟩
  else
    match commandToCapability command with
    | none => ⟨.allow, "command is not policy-gated"⟩
    | some capability => defaultPermission capability

/-!
## Dispatch of requests and its audit (`aether-system-core/src/main.rs`)

The handlers of `dispatch_inner` are a parameter, except those of `audit.*`: no other one is given
the log.  `none` stands for a panic, of a handler or of `AuditChain::record`.
-/

open Agentd (ActorTrust IpcRequest IpcResponse)
open Security

def actorTrustStr : ActorTrust → String
  | .trusted => "trusted"
  | .untrusted => "untrusted"

def okResponse (command : String) (result : Json) : IpcResponse := ⟨true, command, result, none⟩

def errResponse (command : String) (error : IpcError) : IpcResponse :=
  ⟨false, command, .null, some error⟩

structure Daemon (σ : Type) where
  services : σ
  auditChain : AuditChain

structure DispatchBackend (σ : Type) where
  sha256 : List UInt8 → Digest
  /-- The text of a value. -/
  render : Json → String
  /-- The handlers of all commands but `audit.*`. -/
  handle : σ → IpcRequest → Option (σ × IpcResponse)

variable {σ : Type} (x : DispatchBackend σ)

def auditDetail (capability : String) (args : Json) (ok : Bool) : String :=
  let text := x.render args
  let result := if ok then "success" else "failure"
  let detail := s!"args={text} result={result}"
  s!"capability={capability} {detail}"

def recordAudit (timestampMs : UInt64) (chain : AuditChain) (capability : String) (args : Json)
    (component : String) (ok : Bool) : Option AuditChain :=
  (chain.record x.sha256 timestampMs "ipc.dispatch" component
    (auditDetail x capability args ok)).map Prod.fst

def sanitizeParameters : Json → Json
  | .obj fields =>
    if Json.containsKey fields "content" then
      .obj (Json.insert fields "content" (.str "[REDACTED]"))
    else .obj fields
  | other => other

def isCapability (command : String) : Bool :=
  "app.".toList.isPrefixOf command.toList || "window.".toList.isPrefixOf command.toList ||
    "file.".toList.isPrefixOf command.toList || "system.".toList.isPrefixOf command.toList ||
    "process.".toList.isPrefixOf command.toList || "storage.".toList.isPrefixOf command.toList ||
    command == "context.get"

def auditEntryToJson (entry : AuditEntry) : Json :=
  .obj [("index", .ofNat entry.index.toNat), ("timestamp_ms", .ofNat entry.timestampMs.toNat),
    ("event", .str entry.event), ("component", .str entry.component),
    ("detail", .str entry.detail), ("prev_hash", .str (hexLower entry.prevHash.toList)),
    ("content_hash", .str (hexLower entry.contentHash.toList))]

def chainStatusToJson : ChainStatus → Json
  | .contentMismatch index => failure "content_mismatch" index
  | .brokenLink index => failure "broken_link" index
  | .indexGap index => failure "index_gap" index
where
  failure (kind : String) (index : UInt64) : Json :=
    .obj [("ok", .bool false), ("kind", .str kind), ("index", .ofNat index.toNat)]

def auditRecent (chain : AuditChain) (parameters : Json) : IpcResponse :=
  let n := (((parameters.get "n").bind Json.asU64).map UInt64.toNat).getD 64
  let entries := (chain.recent n).map auditEntryToJson
  okResponse "audit.recent"
    (.obj [("total", .ofNat chain.entries.length), ("returned", .ofNat entries.length),
      ("entries", .arr entries)])

def auditVerify (chain : AuditChain) : IpcResponse :=
  let status :=
    match chain.verifyChain x.sha256 with
    | .ok () => .obj [("ok", .bool true), ("entries", .ofNat chain.entries.length)]
    | .error status => chainStatusToJson status
  okResponse "audit.verify" status

def auditPrune (unixMs : UInt64) (chain : AuditChain) (parameters : Json) :
    AuditChain × IpcResponse :=
  let nowMs := ((parameters.get "now_ms").bind Json.asU64).getD unixMs
  let (chain, dropped) := chain.pruneOlderThan x.sha256 nowMs
  (chain, okResponse "audit.prune"
    (.obj [("now_ms", .ofNat nowMs.toNat), ("dropped", .ofNat dropped),
      ("remaining", .ofNat chain.entries.length)]))

def gateResponse (command : String) (verdict : PolicyVerdict) : IpcResponse :=
  let (code, message) :=
    match verdict.decision with
    | .deny => ("POLICY_DENIED", verdict.reason)
    | .requireConsent => ("REQUIRES_CONFIRMATION", verdict.reason)
    | .allow => ("INTERNAL", "gate_response called for allow verdict")
  let code :=
    if code == "POLICY_DENIED" && containsText verdict.reason "untrusted actor" then
      "POLICY_DENIED_UNTRUSTED"
    else code
  errResponse command ⟨code, message⟩

def denialArgs (req : IpcRequest) : Json :=
  .obj [("command", .str req.command), ("actor_trust", .str (actorTrustStr req.actorTrust))]

def handleCommand (unixMs : UInt64) (d : Daemon σ) (req : IpcRequest) :
    Option (Daemon σ × IpcResponse) :=
  match req.command with
  | "audit.recent" => some (d, auditRecent d.auditChain req.parameters)
  | "audit.verify" => some (d, auditVerify x d.auditChain)
  | "audit.prune" =>
    let (auditChain, response) := auditPrune x unixMs d.auditChain req.parameters
    some ({ d with auditChain }, response)
  | _ => (x.handle d.services req).map fun r => ({ d with services := r.1 }, r.2)

def dispatchInner (unixMs : UInt64) (d : Daemon σ) (req : IpcRequest) :
    Option (Daemon σ × IpcResponse) :=
  let verdict := evaluatePolicy req.command req.actorTrust
  if !verdict.isAllow then do
    let auditChain ←
      recordAudit x unixMs d.auditChain "policy.deny" (denialArgs req) req.serviceId false
    return ({ d with auditChain }, gateResponse req.command verdict)
  else handleCommand x unixMs d req

def dispatch (innerMs auditMs : UInt64) (d : Daemon σ) (req : IpcRequest) :
    Option (Daemon σ × IpcResponse) := do
  let (d, response) ← dispatchInner x innerMs d req
  if isCapability req.command then
    let auditChain ← recordAudit x auditMs d.auditChain req.command
      (sanitizeParameters req.parameters) req.serviceId response.ok
    return ({ d with auditChain }, response)
  return (d, response)

end Aether.SystemCore
