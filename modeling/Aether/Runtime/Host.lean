import Aether.Runtime.HostState

/-!
# The agent runtime host

The operations of `AgentRuntimeHost` that create sessions, submit actions and resolve approvals.
What was written before an error or a panic stays written.
-/

namespace Aether.Runtime

open Aether.Core Command

namespace Host

variable (w : World)

def newUuid : HostM Uuid := do
  let n ← peek fun h : Host => h.cursor.uuids
  update fun h => { h with cursor := { h.cursor with uuids := n + 1 } }
  return w.uuid n

def systemTime : HostM UInt64 := do
  let n ← peek fun h : Host => h.cursor.times
  update fun h => { h with cursor := { h.cursor with times := n + 1 } }
  return w.systemTime n

def clock : HostM UInt64 := do
  let n ← peek fun h : Host => h.cursor.clocks
  update fun h => { h with cursor := { h.cursor with clocks := n + 1 } }
  return w.nowMs n

def iterate (keys : List Uuid) : HostM (List Uuid) := do
  let n ← peek fun h : Host => h.cursor.orders
  update fun h => { h with cursor := { h.cursor with orders := n + 1 } }
  return w.order n keys

def recordAudit (sessionId : String) (eventType : AuditEventType) (detail : String)
    (success : Bool) : HostM Unit := do
  let now ← systemTime w
  update fun h : Host => { h with audit := h.audit.makeRoom }
  match sanitizeDetail detail with
  | none => panicked
  | some detail =>
    update fun h : Host => { h with
      audit := h.audit.push ⟨now, sessionId, eventType, detail, success, "host"⟩ }

def publish (event : AgentEvent) : HostM Unit :=
  update fun h : Host => { h with
    events := h.events ++ [event]
    publishedEventCount := h.publishedEventCount + 1 }

def ensureAccepting : HostM Unit := do
  let state ← peek fun h : Host => h.state
  if !state.isAccepting then
    fail (.internal s!"host is {state.display}; not accepting work")

def transitionState (next : HostState) (reason : String) : HostM Unit := do
  let state ← peek fun h : Host => h.state
  if !state.allowed next then
    fail (.internal s!"invalid host transition {state.display} -> {next.display} ({reason})")
  else update fun h : Host => { h with state := next }

def getSession (sessionId : Uuid) : HostM HostSessionRecord := do
  let found ← peek fun h : Host => h.sessions.lookup sessionId
  match found with
  | some rec => return rec
  | none => fail (.notFound s!"session {w.showUuid sessionId}")

def putSession (sessionId : Uuid) (record : HostSessionRecord) : HostM Unit :=
  update fun h : Host => { h with sessions := h.sessions.insert sessionId record }

def modifySession (sessionId : Uuid) (f : HostSessionRecord → HostSessionRecord) : HostM Unit := do
  let found ← peek fun h : Host => h.sessions.lookup sessionId
  match found with
  | some rec => putSession sessionId (f rec)
  | none => return ()

def transitionSession (sessionId : Uuid) (record : HostSessionRecord) (next : SessionState) :
    HostM Unit :=
  match record.session.transition next with
  | .error e => fail (.session e)
  | .ok session => do
    let now ← systemTime w
    putSession sessionId { record with session := session now }

def advanceSession (sessionId : Uuid) (next : SessionState) : HostM Unit := do
  let record ← getSession w sessionId
  let state := record.session.state
  if state.isTerminal then
    fail (.session s!"session {w.showUuid sessionId} already terminal ({state.display})")
  else if record.session.cancelled then
    fail (.cancellation s!"session {w.showUuid sessionId} cancelled")
  else if state = next then return ()
  else if !state.canTransitionTo next then
    fail (.session s!"invalid session transition {state.display} -> {next.display}")
  else transitionSession w sessionId record next

def advanceSessionIfNot (sessionId : Uuid) (next : SessionState) : HostM Unit := do
  let record ← getSession w sessionId
  if record.session.state = next ∨ record.session.state.isTerminal then return ()
  else advanceSession w sessionId next

def completeSession (sessionId : Uuid) : HostM Unit := do
  let record ← getSession w sessionId
  transitionSession w sessionId record .completed
  recordAudit w (w.showUuid sessionId) .sessionCompleted "session completed" true
  publish (.sessionCompleted (w.showUuid sessionId))

def recordAction (sessionId actionId : Uuid) : HostM Unit :=
  modifySession sessionId fun rec => { rec with
    actions := if actionId ∈ rec.actions then rec.actions else rec.actions ++ [actionId]
    session := { rec.session with actionCount := rec.session.actionCount + 1 } }

def recordRequest (sessionId requestId : Uuid) : HostM Unit :=
  modifySession sessionId fun rec => { rec with
    requests := rec.requests ++ [requestId]
    session := { rec.session with
      requestCount := rec.session.requestCount + 1
      observationCount := rec.session.observationCount + 1 } }

def recordSessionError (sessionId : Uuid) : HostM Unit :=
  modifySession sessionId fun rec => { rec with session := rec.session.markError }

def sessionState (sessionId : Uuid) : HostM (Option SessionState) :=
  peek fun h : Host => (h.sessions.lookup sessionId).map fun rec => rec.session.state

def admitSession (sessionId : Uuid) (record : HostSessionRecord) : HostM Unit := do
  putSession sessionId record
  let state ← peek fun h : Host => h.state
  if state = .ready then transitionState .running "first session created"

def createSession (actor : SessionActor) : HostM Uuid := do
  ensureAccepting
  let count ← peek fun h : Host => h.sessions.entries.length
  let maxSessions ← peek fun h : Host => h.maxSessions
  if maxSessions ≤ count then
    fail (.internal s!"max sessions ({maxSessions}) reached")
  else
    let now ← systemTime w
    let id ← newUuid w
    let ordinal ← peek fun h : Host => h.nextSessionOrdinal
    update fun h : Host => { h with nextSessionOrdinal := ordinal + 1 }
    match (AgentSession.new id now actor).transition .ready with
    | .error e => fail (.session e)
    | .ok session =>
      let readyAt ← systemTime w
      recordAudit w (w.showUuid id) .sessionCreated s!"actor={actor.identity}" true
      publish (.sessionCreated (w.showUuid id) actor.identity)
      admitSession id ⟨session readyAt, [], [], ordinal⟩
      return id

def newRequest (sessionId : Uuid) (actor : RequestActor) (action : Action) : HostM UserRequest := do
  let now ← systemTime w
  let id ← newUuid w
  return { id, sessionId := w.showUuid sessionId, actor, input := action.reason, timestamp := now,
           metadata := .obj [("action", .str action.actionName)] }

def callExecutor (sessionId : Uuid) (action : Action) :
    HostM (Except AgentError ExecutionResult) := do
  let n ← peek fun h : Host => h.calls.length
  update fun h : Host => { h with
    calls := h.calls ++ [⟨sessionId, action, h.state, h.validator.grantedCapabilities⟩] }
  return w.execute n action

def settleOk (sessionId : Uuid) (action : Action) (request : UserRequest) (durationMs : UInt64)
    (result : ExecutionResult) : HostM RequestOutcome := do
  recordAudit w (w.showUuid sessionId) .actionCompleted
    s!"action={action.actionName} dur_ms={result.durationMs}" true
  publish (.actionCompleted (w.showUuid sessionId) (w.showUuid action.id) result.durationMs)
  advanceSession w sessionId .observing
  completeSession w sessionId
  let state ← sessionState sessionId
  return { requestId := w.showUuid request.id, sessionId := w.showUuid sessionId,
           actionId := some (w.showUuid action.id), success := result.success,
           observation := some result.observation, error := none, durationMs,
           pendingApprovalId := none, sessionState := state.getD .completed }

def settleErr (sessionId : Uuid) (action : Action) (request : UserRequest) (durationMs : UInt64)
    (e : AgentError) : HostM RequestOutcome := do
  recordAudit w (w.showUuid sessionId) .actionFailed
    s!"action={action.actionName} err={e.display}" false
  publish (.actionFailed (w.showUuid sessionId) (w.showUuid action.id) e.display)
  let _ ← attempt (advanceSession w sessionId .failed)
  recordSessionError sessionId
  let state ← sessionState sessionId
  return { requestId := w.showUuid request.id, sessionId := w.showUuid sessionId,
           actionId := some (w.showUuid action.id), success := false, observation := none,
           error := some e.display, durationMs, pendingApprovalId := none,
           sessionState := state.getD .failed }

def settle (sessionId : Uuid) (action : Action) (request : UserRequest) (durationMs : UInt64) :
    Except AgentError ExecutionResult → HostM RequestOutcome
  | .ok result => settleOk w sessionId action request durationMs result
  | .error e => settleErr w sessionId action request durationMs e

def executeValidatedAction (sessionId : Uuid) (action : Action) (request : UserRequest) :
    HostM RequestOutcome := do
  advanceSession w sessionId .executing
  recordAudit w (w.showUuid sessionId) .actionRequested
    s!"action={action.actionName} risk={action.riskLevel.debug}" true
  publish (.actionRequested (w.showUuid sessionId) (w.showUuid action.id) action.actionName
    action.riskLevel.debug)
  recordAction sessionId action.id
  let start ← clock w
  let exec ← callExecutor w sessionId action
  let stop ← clock w
  let durationMs := if start ≤ stop then stop - start else 0
  let outcome ← settle w sessionId action request durationMs exec
  recordRequest sessionId request.id
  return outcome

def newApproval (sessionId : Uuid) (action : Action) : HostM ApprovalRequest := do
  let now ← systemTime w
  let id ← newUuid w
  return { id, sessionId := w.showUuid sessionId, actionId := w.showUuid action.id,
           actionName := action.actionName, riskLevel := action.riskLevel.debug,
           reason := if action.reason.isEmpty then "high-risk action requires approval"
             else action.reason,
           status := .pending, createdAt := now, resolvedAt := none }

def removePending (approvalId : Uuid) : HostM (Option PendingApproval) := do
  let found ← peek fun h : Host => h.pendingApprovals.lookup approvalId
  update fun h : Host => { h with pendingApprovals := h.pendingApprovals.erase approvalId }
  return found

def insertPending (approvalId : Uuid) (pending : PendingApproval) : HostM Unit :=
  update fun h : Host => { h with
    pendingApprovals := h.pendingApprovals.insert approvalId pending }

def minByKey (key : Uuid → UInt64) : List Uuid → Option Uuid
  | [] => none
  | id :: ids =>
    match minByKey key ids with
    | none => some id
    | some best => if key id ≤ key best then some id else some best

def evictOldestPendingApproval : HostM Unit := do
  let pending ← peek fun h : Host => h.pendingApprovals
  let ids ← iterate w pending.keys
  let key := fun id => ((pending.lookup id).map fun p => p.approval.createdAt).getD 0
  match minByKey key ids with
  | none => return ()
  | some oldestId =>
    let removed ← removePending oldestId
    match removed with
    | none => return ()
    | some evicted =>
      recordAudit w evicted.approval.sessionId .approvalDenied
        s!"action={evicted.action.actionName} approval_id={w.showUuid oldestId} reason=evicted_by_cap"
        false

def makeRoom : HostM Unit := do
  let count ← peek fun h : Host => h.pendingApprovals.entries.length
  let maxPending ← peek fun h : Host => h.maxPendingApprovals
  if maxPending ≤ count then evictOldestPendingApproval w

def parkAction (sessionId : Uuid) (actor : RequestActor) (action : Action) :
    HostM RequestOutcome := do
  advanceSession w sessionId .waitingApproval
  let approval ← newApproval w sessionId action
  recordAudit w (w.showUuid sessionId) .approvalRequested
    s!"action={action.actionName} approval_id={w.showUuid approval.id}" true
  publish (.approvalRequested (w.showUuid sessionId) (w.showUuid action.id) action.actionName
    action.riskLevel.debug)
  let request ← newRequest w sessionId actor action
  makeRoom w
  insertPending approval.id ⟨action, request, approval⟩
  return { requestId := w.showUuid request.id, sessionId := w.showUuid sessionId, actionId := none,
           success := false, observation := none, error := some "action requires approval",
           durationMs := 0, pendingApprovalId := some (w.showUuid approval.id),
           sessionState := .waitingApproval }

def rejectAction (sessionId : Uuid) (action : Action) (errors : List String) :
    HostM RequestOutcome := do
  let _ ← attempt (advanceSession w sessionId .failed)
  recordAudit w (w.showUuid sessionId) .actionDenied ("; ".intercalate errors) false
  publish (.actionDenied (w.showUuid sessionId) (w.showUuid action.id) ("; ".intercalate errors))
  fail (.validation ("; ".intercalate errors))

def beginAction (sessionId : Uuid) : HostM Unit := do
  advanceSessionIfNot w sessionId .ready
  advanceSession w sessionId .thinking
  advanceSession w sessionId .planning

def submitAction (sessionId : Uuid) (actor : RequestActor) (action : Action) :
    HostM RequestOutcome := do
  ensureAccepting
  beginAction w sessionId
  let result ← peek fun h : Host => h.validator.validate action
  recordAudit w (w.showUuid sessionId) .capabilityCheck
    s!"action={action.actionName} valid={result.valid}" result.valid
  recordAudit w (w.showUuid sessionId) .policyCheck s!"action={action.actionName}" true
  if !result.valid then rejectAction w sessionId action result.errors
  else if result.requiresConfirmation then parkAction w sessionId actor action
  else
    let request ← newRequest w sessionId actor action
    executeValidatedAction w sessionId action request

def approveRequest (approvalId : Uuid) : HostM (Option RequestOutcome) := do
  let removed ← removePending approvalId
  match removed with
  | none => return none
  | some pending =>
    match w.parseUuid pending.approval.sessionId with
    | .error e => fail (.session s!"bad session id: {e}")
    | .ok sessionId =>
      recordAudit w (w.showUuid sessionId) .approvalGranted
        s!"action={pending.action.actionName} approval_id={w.showUuid approvalId}" true
      publish (.approvalGranted (w.showUuid sessionId) (w.showUuid pending.action.id))
      let outcome ← executeValidatedAction w sessionId pending.action pending.request
      return some outcome

def denyRequest (approvalId : Uuid) (reason : String) : HostM Bool := do
  let removed ← removePending approvalId
  match removed with
  | none => return false
  | some pending =>
    let _ ← systemTime w
    match w.parseUuid pending.approval.sessionId with
    | .error e => fail (.session s!"bad session id: {e}")
    | .ok sessionId =>
      recordAudit w (w.showUuid sessionId) .approvalDenied
        s!"action={pending.action.actionName} approval_id={w.showUuid approvalId} reason={reason}"
        false
      publish (.approvalDenied (w.showUuid sessionId) (w.showUuid pending.action.id) reason)
      let _ ← attempt (advanceSession w sessionId .cancelled)
      recordSessionError sessionId
      return true

def cancelAction (sessionId actionId : Uuid) : HostM Bool := do
  let record ← getSession w sessionId
  if actionId ∈ record.actions then
    putSession sessionId { record with actions := record.actions.filter (· ≠ actionId) }
    recordAudit w (w.showUuid sessionId) .actionDenied
      s!"action_id={w.showUuid actionId} cancelled" true
    publish (.actionDenied (w.showUuid sessionId) (w.showUuid actionId) "cancelled")
    return true
  else return false

def cancelSession (sessionId : Uuid) : HostM Bool := do
  let record ← getSession w sessionId
  putSession sessionId { record with actions := [] }
  if record.session.state.isTerminal then return false
  else
    putSession sessionId { record with
      actions := []
      session := { record.session with cancelled := true, state := .cancelled } }
    recordAudit w (w.showUuid sessionId) .sessionCancelled "session cancelled by host" true
    publish (.sessionCancelled (w.showUuid sessionId))
    return true

def grantCapabilities (caps : List String) : HostM Unit :=
  update fun h : Host => { h with grantedCapabilities := caps, validator := ⟨caps⟩ }

def cancelSessions : List Uuid → HostM Unit
  | [] => return ()
  | id :: ids => do
    let _ ← attempt (cancelSession w id)
    cancelSessions ids

def stop : HostM Unit := do
  let state ← peek fun h : Host => h.state
  if state = .stopped then return ()
  else
    transitionState .stopping "stop requested"
    let keys ← peek fun h : Host => h.sessions.keys
    let ids ← iterate w keys
    cancelSessions w ids
    transitionState .stopped "host stopped"

def markFailed (reason : String) : HostM Unit := do
  recordAudit w "host" .sessionFailed reason false
  publish (.sessionFailed "host" reason)
  update fun h : Host => { h with state := .failed }

def activeSessionCount (h : Host) : UInt32 :=
  UInt32.ofNat (h.sessions.entries.countP fun e => e.2.session.isActive)

def starting (caps : List String) (controlPort surfacePort : UInt16) : Host :=
  { id := w.uuid 0, state := .starting, audit := AuditLog.new 4096, events := [], sessions := ∅,
    validator := ⟨caps⟩, grantedCapabilities := [], maxSessions := 64, publishedEventCount := 0,
    nextSessionOrdinal := 0, controlPort, surfacePort, pendingApprovals := ∅,
    maxPendingApprovals := 64, cursor := ⟨1, 0, 0, 0⟩, calls := [] }

def start (caps : List String) (controlPort surfacePort : UInt16) : Host :=
  (transitionState .ready "host initialised" (starting w caps controlPort surfacePort)).2

end Host

inductive HostOp where
  | createSession (actor : SessionActor)
  | submitAction (sessionId : Uuid) (actor : RequestActor) (action : Action)
  | approveRequest (approvalId : Uuid)
  | denyRequest (approvalId : Uuid) (reason : String)
  | cancelAction (sessionId actionId : Uuid)
  | cancelSession (sessionId : Uuid)
  | grantCapabilities (caps : List String)
  | stop
  | fail (reason : String)

def HostOp.run (w : World) : HostOp → HostM Unit
  | .createSession actor => do let _ ← Host.createSession w actor
  | .submitAction sessionId actor action => do let _ ← Host.submitAction w sessionId actor action
  | .approveRequest approvalId => do let _ ← Host.approveRequest w approvalId
  | .denyRequest approvalId reason => do let _ ← Host.denyRequest w approvalId reason
  | .cancelAction sessionId actionId => do let _ ← Host.cancelAction w sessionId actionId
  | .cancelSession sessionId => do let _ ← Host.cancelSession w sessionId
  | .grantCapabilities caps => Host.grantCapabilities caps
  | .stop => Host.stop w
  | .fail reason => Host.markFailed w reason

def Host.step (w : World) (h : Host) (op : HostOp) : Host := (op.run w h).2

def Host.run (w : World) (h : Host) (ops : List HostOp) : Host := ops.foldl (Host.step w) h

end Aether.Runtime
