import Aether.Algorithm.Command
import Aether.Core.Str
import Aether.Runtime.Action
import Mathlib.Data.List.AList

/-!
# The audit log of the agent runtime

A bounded ring of entries.  The detail of an entry is truncated and redacted; slicing it at byte 497
panics where that is not a character boundary.
-/

namespace Aether.Runtime

inductive AuditEventType where
  | sessionCreated
  | sessionCompleted
  | sessionFailed
  | sessionCancelled
  | actionRequested
  | actionDenied
  | actionCompleted
  | actionFailed
  | capabilityCheck
  | policyCheck
  | approvalRequested
  | approvalGranted
  | approvalDenied
  deriving DecidableEq

structure AuditEntry where
  timestamp : UInt64
  sessionId : String
  eventType : AuditEventType
  detail : String
  success : Bool
  component : String
  deriving DecidableEq

def takeBytes : List Char → ℕ → Option (List Char)
  | [], n => if n = 0 then some [] else none
  | c :: cs, n =>
    if n = 0 then some []
    else if c.utf8Size ≤ n then (takeBytes cs (n - c.utf8Size)).map (c :: ·)
    else none

def splitAtPattern (pattern : List Char) : List Char → Option (List Char × List Char)
  | [] => if pattern.isEmpty then some ([], []) else none
  | c :: cs =>
    if pattern.isPrefixOf (c :: cs) then some ([], (c :: cs).drop pattern.length)
    else (splitAtPattern pattern cs).map fun r => (c :: r.1, r.2)

def redactKey (key : List Char) : ℕ → List Char → List Char
  | 0, cs => cs
  | fuel + 1, cs =>
    match splitAtPattern (key ++ ['=']) cs with
    | none => cs
    | some (before, after) =>
      let rest := after.dropWhile fun c => !(c == ' ' || c == ',' || c == ')' || c == '"')
      before ++ key ++ "=[REDACTED".toList ++ redactKey key fuel (']' :: rest)

def sensitiveKeys : List String := ["password", "token", "api_key", "secret", "key", "credential"]

def redactSensitive (cs : List Char) : List Char :=
  sensitiveKeys.foldl (fun cs key => redactKey key.toList cs.length cs) cs

def sanitizeDetail (detail : String) : Option String :=
  if 500 < detail.utf8ByteSize then
    (takeBytes detail.toList 497).map fun cs =>
      String.ofList (redactSensitive (cs ++ "...".toList))
  else some (String.ofList (redactSensitive detail.toList))

structure AuditLog where
  entries : List AuditEntry
  capacity : ℕ
  deriving DecidableEq

namespace AuditLog

def new (capacity : ℕ) : AuditLog := ⟨[], capacity⟩

def makeRoom (log : AuditLog) : AuditLog :=
  if log.capacity ≤ log.entries.length then { log with entries := log.entries.drop 1 } else log

def push (log : AuditLog) (entry : AuditEntry) : AuditLog :=
  { log with entries := log.entries ++ [entry] }

end AuditLog

/-!
## Recording a detail, byte by byte (`aether-agent-runtime/src/audit.rs`)

`redact_sensitive` rewrites the text in place at byte offsets.  Here the offsets are those of the
source, and a slice at one that is not a character boundary panics (`none`).  The loop gets as much
fuel as there are characters; `none` is also that this is not enough.  That neither happens, and
that the result is that of `redactSensitive`, is in `Runtime/Equiv/Redact.lean`.
-/

open Aether.Core

def isDelimiter (c : Char) : Bool := c == ' ' || c == ',' || c == ')' || c == '"'

def replaceValue (key : String) (result : Str) (absPos : ℕ) : Option Str := do
  let valueStart := absPos + Str.len (key ++ "=").toList
  let tail ← result.sliceFrom valueStart
  let valueEnd := ((tail.findP isDelimiter).map (valueStart + ·)).getD result.len
  result.replaceRange absPos valueEnd (key ++ "=[REDACTED]").toList

def redactLoop (key : String) : (fuel : ℕ) → (result : Str) → (searchFrom : ℕ) → Option Str
  | 0, _, _ => none
  | fuel + 1, result, searchFrom => do
    let rest ← result.sliceFrom searchFrom
    match rest.find (key ++ "=") with
    | none => some result
    | some pos =>
      let absPos := searchFrom + pos
      let result ← replaceValue key result absPos
      redactLoop key fuel result (absPos + Str.len key.toList + Str.len "[REDACTED]".toList)

def redactText (input : Str) : Option Str :=
  sensitiveKeys.foldlM (fun result key => redactLoop key (result.length + 1) result 0) input

def sanitizeText (detail : Str) : Option Str :=
  if 500 < detail.len then do
    let cut ← detail.slice 0 497
    redactText (cut ++ "...".toList)
  else redactText detail

def AuditLog.record (log : AuditLog) (now : UInt64) (sessionId : String)
    (eventType : AuditEventType) (detail : String) (success : Bool) (component : String) :
    Option AuditLog := do
  let detail ← sanitizeText detail.toList
  return log.makeRoom.push ⟨now, sessionId, eventType, String.ofList detail, success, component⟩

/-!
## Agent sessions
-/

inductive SessionState where
  | created
  | ready
  | thinking
  | planning
  | waitingApproval
  | executing
  | observing
  | completed
  | failed
  | cancelled
  deriving DecidableEq

namespace SessionState

def display : SessionState → String
  | .created => "created"
  | .ready => "ready"
  | .thinking => "thinking"
  | .planning => "planning"
  | .waitingApproval => "waiting_approval"
  | .executing => "executing"
  | .observing => "observing"
  | .completed => "completed"
  | .failed => "failed"
  | .cancelled => "cancelled"

def isTerminal : SessionState → Bool
  | .completed | .failed | .cancelled => true
  | _ => false

def canTransitionTo : SessionState → SessionState → Bool
  | .created, .ready
  | .ready, .thinking
  | .thinking, .planning
  | .planning, .executing
  | .planning, .waitingApproval
  | .waitingApproval, .executing
  | .waitingApproval, .cancelled
  | .executing, .observing
  | .executing, .failed
  | .observing, .completed
  | .observing, .thinking
  | .observing, .failed => true
  | _, _ => false

end SessionState

inductive ActorType where
  | human
  | system
  | agent
  deriving DecidableEq

structure SessionActor where
  actorType : ActorType
  identity : String
  deriving DecidableEq

structure AgentSession where
  id : Uuid
  state : SessionState
  actor : SessionActor
  createdAt : UInt64
  updatedAt : UInt64
  requestCount : ℕ
  actionCount : ℕ
  observationCount : ℕ
  errorCount : ℕ
  cancelled : Bool
  deriving DecidableEq

namespace AgentSession

def new (id : Uuid) (now : UInt64) (actor : SessionActor) : AgentSession :=
  { id, state := .created, actor, createdAt := now, updatedAt := now, requestCount := 0,
    actionCount := 0, observationCount := 0, errorCount := 0, cancelled := false }

def transition (s : AgentSession) (newState : SessionState) :
    Except String (UInt64 → AgentSession) :=
  if s.state.isTerminal then
    .error s!"Cannot transition from terminal state {s.state.display}"
  else if !s.state.canTransitionTo newState then
    .error s!"Invalid transition: {s.state.display} -> {newState.display}"
  else .ok fun now => { s with state := newState, updatedAt := now }

def isActive (s : AgentSession) : Bool := !s.state.isTerminal

def markError (s : AgentSession) : AgentSession := { s with errorCount := s.errorCount + 1 }

end AgentSession

/-!
## The action validator

Schema, capabilities, policy and the need for confirmation.  The validator reads the action's own
`requestedCapabilities` and `riskLevel`; it does not consult `classifyAction`.
-/

structure ValidationResult where
  valid : Bool
  schemaOk : Bool
  capabilityOk : Bool
  policyOk : Bool
  riskLevel : ActionRisk
  requiresConfirmation : Bool
  errors : List String

structure Validator where
  grantedCapabilities : List String

namespace Validator

def schemaError (action : Action) : Option String :=
  if action.sessionId.isEmpty then some "Action missing session ID"
  else if action.reason.isEmpty then some "Action missing reason"
  else
    match action.variant with
    | .applicationLaunch applicationId =>
      if applicationId.isEmpty then some "Application launch missing application_id" else none
    | .fileRead path => if path.isEmpty then some "File action missing path" else none
    | .fileList path => if path.isEmpty then some "File action missing path" else none
    | .fileDelete path =>
      if path.isEmpty then some "File delete missing path"
      else if path = "/" ∨ path = "/root" ∨ path = "/etc" then
        some "Refusing to delete system directory"
      else none
    | _ => none

def missingCapabilities (v : Validator) (action : Action) : List String :=
  action.requestedCapabilities.filter fun cap => !v.grantedCapabilities.contains cap

def containsStr (s pattern : String) : Bool :=
  (s.toList.tails).any fun t => pattern.toList.isPrefixOf t

def policyOk (action : Action) : Bool :=
  let name := action.actionName
  !(containsStr name "sh " || containsStr name "bash " || containsStr name "exec")

def needsConfirmation (risk : ActionRisk) : Bool :=
  match risk with
  | .high | .critical => true
  | .low | .medium => false

def validate (v : Validator) (action : Action) : ValidationResult :=
  let schema := schemaError action
  let missing := v.missingCapabilities action
  let policy := policyOk action
  { valid := schema.isNone && missing.isEmpty && policy
    schemaOk := schema.isNone
    capabilityOk := missing.isEmpty
    policyOk := policy
    riskLevel := action.riskLevel
    requiresConfirmation := needsConfirmation action.riskLevel
    errors := schema.toList ++ missing.map (fun cap => s!"Missing capability: {cap}") ++
      if policy then [] else ["Policy violation: raw shell execution blocked"] }

end Validator

/-!
## The state of the agent runtime host

The records of `host.rs` and the environment of a host: the drawn UUIDs, the clocks, the executor's
answers and the iteration orders of its hash maps, each a function of how often it was consulted.
The host keeps these numbers, and the list of the executor's calls.
-/

inductive HostState where
  | starting
  | ready
  | running
  | stopping
  | stopped
  | failed
  deriving DecidableEq

namespace HostState

def display : HostState → String
  | .starting => "STARTING"
  | .ready => "READY"
  | .running => "RUNNING"
  | .stopping => "STOPPING"
  | .stopped => "STOPPED"
  | .failed => "FAILED"

def isAccepting : HostState → Bool
  | .ready | .running => true
  | _ => false

def allowed : HostState → HostState → Bool
  | .starting, .ready
  | .ready, .running
  | .running, .stopping
  | .running, .failed
  | .ready, .failed
  | .starting, .failed
  | .stopping, .stopped => true
  | _, _ => false

end HostState

structure RequestActor where
  actorType : ActorType
  identity : String
  deriving DecidableEq

structure UserRequest where
  id : Uuid
  sessionId : String
  actor : RequestActor
  input : String
  timestamp : UInt64
  metadata : Json

inductive ApprovalStatus where
  | pending
  | approved
  | denied
  | expired
  deriving DecidableEq

structure ApprovalRequest where
  id : Uuid
  sessionId : String
  actionId : String
  actionName : String
  riskLevel : String
  reason : String
  status : ApprovalStatus
  createdAt : UInt64
  resolvedAt : Option UInt64
  deriving DecidableEq

structure PendingApproval where
  action : Action
  request : UserRequest
  approval : ApprovalRequest

structure HostSessionRecord where
  session : AgentSession
  requests : List Uuid
  actions : List Uuid
  ordinal : ℕ

inductive AgentEvent where
  | sessionCreated (sessionId actor : String)
  | sessionCompleted (sessionId : String)
  | sessionFailed (sessionId reason : String)
  | sessionCancelled (sessionId : String)
  | actionRequested (sessionId actionId actionName riskLevel : String)
  | actionDenied (sessionId actionId reason : String)
  | approvalRequested (sessionId actionId actionName riskLevel : String)
  | approvalGranted (sessionId actionId : String)
  | approvalDenied (sessionId actionId reason : String)
  | actionCompleted (sessionId actionId : String) (durationMs : UInt64)
  | actionFailed (sessionId actionId error : String)

structure RequestOutcome where
  requestId : String
  sessionId : String
  actionId : Option String
  success : Bool
  observation : Option Observation
  error : Option String
  durationMs : UInt64
  pendingApprovalId : Option String
  sessionState : SessionState

structure World where
  uuid : ℕ → Uuid
  systemTime : ℕ → UInt64
  nowMs : ℕ → UInt64
  execute : ℕ → Action → Except AgentError ExecutionResult
  order : ℕ → List Uuid → List Uuid
  order_perm : ∀ n l, (order n l).Perm l
  showUuid : Uuid → String
  parseUuid : String → Except String Uuid
  parse_show : ∀ u, parseUuid (showUuid u) = .ok u

structure Cursor where
  uuids : ℕ
  times : ℕ
  clocks : ℕ
  orders : ℕ
  deriving DecidableEq

structure ExecutorCall where
  sessionId : Uuid
  action : Action
  hostState : HostState
  granted : List String

abbrev UuidMap (β : Type) := AList fun _ : Uuid => β

structure Host where
  id : Uuid
  state : HostState
  audit : AuditLog
  events : List AgentEvent
  sessions : UuidMap HostSessionRecord
  validator : Validator
  grantedCapabilities : List String
  maxSessions : ℕ
  publishedEventCount : ℕ
  nextSessionOrdinal : ℕ
  controlPort : UInt16
  surfacePort : UInt16
  pendingApprovals : UuidMap PendingApproval
  maxPendingApprovals : ℕ
  cursor : Cursor
  calls : List ExecutorCall

abbrev HostM (α : Type) := Command Host AgentError α

end Aether.Runtime
