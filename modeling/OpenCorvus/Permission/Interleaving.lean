import OpenCorvus.Foundation.ExecutableSystem
import OpenCorvus.Permission.Authority

/-!
# The interleaved permission authority

Any number of processes share one permission ledger.  Their calls of `authorizeAndExecute` advance one transaction at
a time and in any order; in between the operator replies, requests are cancelled or go stale, grants are revoked or
expire, interrupted attempts are reconciled, the deletion of a Session begins, and a process may crash.
-/

namespace OpenCorvus.Permission

open Engine Transaction

/-- What a settlement of a request takes from its caller and from outside the database. -/
structure SettlementInput where
  now : ℤ
  eventID : String
  actorID : Option String
  reason : Option String
  fault : Option WriteFault
deriving DecidableEq

def PermissionDecision.text : PermissionDecision → String
  | .allowOnce => "allow_once"
  | .allowTask => "allow_task"
  | .allowProject => "allow_project"
  | .deny => "deny"

def PermissionDecision.eventType : PermissionDecision → PermissionEventType
  | .deny => .denied
  | .allowOnce => .allowedOnce
  | .allowTask | .allowProject => .grantCreated

def PermissionDecision.scope : PermissionDecision → DecisionScope
  | .allowTask => .task
  | .allowProject => .project
  | .allowOnce | .deny => .invocation

def PermissionRequest.settledEvent (request : PermissionRequest) (eventType : PermissionEventType)
    (scope : DecisionScope) (input : SettlementInput) : LedgerRow :=
  { request.event input.eventID input.now eventType with
    decisionSlot := some request.id, decisionScope := some scope, actorID := input.actorID
    reason := input.reason }

variable (db : PermissionDatabase) (requestID : String)

def requestedRequest : Except PermissionError PermissionRequest := do
  let requested ← getOrThrow (requestedRow db requestID)
    (.error ("Permission request not found: " ++ requestID))
  requestFromRow db requested

def settleDecision (request : PermissionRequest) (eventType : PermissionEventType) (scope : DecisionScope)
    (input : SettlementInput) : PermissionDatabase :=
  persisted db input.fault (appendEvent db request (request.settledEvent eventType scope input))

/-- The operator replies. -/
def replyValidated (decision : PermissionDecision) (input : SettlementInput) :
    Except PermissionError PermissionDatabase := do
  let request ← requestedRequest db requestID
  throwWhen (decision ∉ request.choices) (.error ("Permission decision " ++ decision.text ++
    " is not eligible for request " ++ requestID))
  return settleDecision db request decision.eventType decision.scope input

def settleStale (input : SettlementInput) : Except PermissionError PermissionDatabase := do
  let request ← requestedRequest db requestID
  return settleDecision db request .stale .invocation input

/-- The step of `cancelPendingForSessions` for one pending request. -/
def cancelPending (input : SettlementInput) : Except PermissionError PermissionDatabase := do
  let request ← requestedRequest db requestID
  return settleDecision db request .cancelled .invocation input

def appendFact (source : Option LedgerRow) (missing : PermissionError) (fault : Option WriteFault)
    (fact : PermissionRequest → LedgerRow → LedgerRow) : Except PermissionError PermissionDatabase := do
  let row ← getOrThrow source missing
  let request ← requestFromRow db row
  return persisted db fault (appendEvent db request (fact request row))

variable (grantID : String)

def grantRow : Option LedgerRow :=
  db.ledger.find? fun row => row.id = grantID ∧ row.eventType = .grantCreated

def revoke (input : SettlementInput) : Except PermissionError PermissionDatabase :=
  appendFact db (grantRow db grantID) (.error ("Permission grant not found: " ++ grantID)) input.fault
    fun request grant => { request.event input.eventID input.now .revoked with
      sourceEventID := some grant.id, actorID := input.actorID }

def expire (input : SettlementInput) : Except PermissionError PermissionDatabase :=
  appendFact db (grantRow db grantID) (.error ("Permission grant not found: " ++ grantID)) input.fault
    fun request grant => { request.event input.eventID input.now .expired with
      sourceEventID := some grant.id, actorID := input.actorID, reason := input.reason }

def retireContinuation (input : SettlementInput) : Except PermissionError PermissionDatabase :=
  appendFact db (requestedRow db requestID) (.error ("Permission request not found: " ++ requestID)) input.fault
    fun request _ => { request.event input.eventID input.now .stale with reason := input.reason }

/-- The outcome of a started attempt without a protocol Task is unknown after a restart; its outcome
and its protocol Task were read before. -/
def reconcileInterruptedAttempt (attempt : String) (input : SettlementInput) :
    Except PermissionError PermissionDatabase :=
  appendFact db (executionStart db attempt)
    (.error ("Permission execution start " ++ attempt ++ " not found")) input.fault
    fun request start => { request.event input.eventID input.now .outcomeUnknown with
      attemptID := some attempt, outcomeSlot := some attempt, sourceEventID := some start.id
      reason := some "Runtime restarted before a terminal Tool outcome was recorded" }

def reconcileExecution (attempt : String) (outcome : PermissionEventType) (input : SettlementInput) :
    Except PermissionError PermissionDatabase :=
  appendFact db (db.ledger.find? fun row => row.attemptID = some attempt ∧ row.eventType = .outcomeUnknown)
    (.error ("Unknown permission execution outcome not found: " ++ attempt)) input.fault
    fun request unknown => { request.event input.eventID input.now .executionReconciled with
      attemptID := some attempt, sourceEventID := some unknown.id, actorID := input.actorID
      reason := input.reason, metadata := some (.outcome outcome) }

/-- A call of `authorizeAndExecute` in a process. -/
structure Caller where
  process : ℕ
  invocation : InvocationIdentity
  phase : CallPhase

structure ExecutionStart where
  requestID : String
  attemptID : String
  recovering : Bool
deriving DecidableEq

/-- The shared database, the calls that run, and the callbacks started so far. -/
structure PermissionState where
  db : PermissionDatabase
  callers : List Caller
  starts : List ExecutionStart

inductive PermissionAction where
  /-- A process calls `authorizeAndExecute`, for the first time or as a replay. -/
  | call (process : ℕ) (invocation : InvocationIdentity)
  /-- A call takes its next step. -/
  | advance (caller : ℕ) (input : AdvanceInput)
  /-- A running callback records its protocol Task, having read another one before. -/
  | recordMcpTask (caller : ℕ) (existing : Option McpTask) (task : McpTask) (input : SettlementInput)
  /-- The heartbeat of a running callback. -/
  | renewLease (caller : ℕ) (now : ℤ)
  /-- The settlement of a request releases a waiting call of its process. -/
  | releaseWaiter (caller : ℕ)
  /-- The runtime of a process releases a waiting call. -/
  | pauseWaiter (caller : ℕ)
  | reply (requestID : String) (decision : PermissionDecision) (input : SettlementInput)
  | settleStale (requestID : String) (input : SettlementInput)
  | cancelPending (requestID : String) (input : SettlementInput)
  | revoke (grantID : String) (input : SettlementInput)
  | expire (grantID : String) (input : SettlementInput)
  | retireContinuation (requestID : String) (input : SettlementInput)
  | reconcileInterruptedAttempt (attempt : String) (input : SettlementInput)
  | reconcileExecution (attempt : String) (outcome : PermissionEventType) (input : SettlementInput)
  /-- The deletion of a Session begins. -/
  | beginSessionDeletion (sessionID message : String)
  /-- The deletion of a project deletes the policies of its Sessions. -/
  | deletePolicies (sessionIDs : List String)
  /-- A process ends, with all its calls. -/
  | crash (process : ℕ)
deriving DecidableEq

def CallPhase.suspended : CallPhase → Bool
  | .authorizing _ .waiting | .returned | .threw _ => true
  | _ => false

def PermissionRequest.taskEvent (request : PermissionRequest) (attempt : String)
    (existing : Option McpTask) (task : McpTask) (input : SettlementInput) : LedgerRow :=
  { request.event input.eventID input.now
      (if existing.isSome then .mcpTaskStatus else .mcpTaskCreated) with
    attemptID := some attempt, metadata := some (.task task) }

section System

variable [PermissionIdentity]

def CallPhase.starting : CallPhase → List ExecutionStart
  | .authorized request _ (.owned _ recovering) =>
    [⟨request.id, attemptIdentity request.id, recovering⟩]
  | _ => []

variable (s : PermissionState)

/-- The next step of a call. -/
def PermissionState.advance (i : ℕ) (caller : Caller) (input : AdvanceInput) : PermissionState where
  db := (caller.phase.advance s.db caller.invocation input).1
  callers := s.callers.set i
    { caller with phase := (caller.phase.advance s.db caller.invocation input).2 }
  starts := s.starts ++ caller.phase.starting

def PermissionState.move (i : ℕ) (caller : Caller) (phase : CallPhase) : PermissionState :=
  { s with callers := s.callers.set i { caller with phase := phase } }

/-- Take the database of an operation that answers. -/
def PermissionState.store (write : Except PermissionError PermissionDatabase) : Option PermissionState :=
  match write with
  | .ok db => some { s with db := db }
  | .error _ => none

def recordMcpTask (db : PermissionDatabase) (phase : CallPhase) (existing : Option McpTask)
    (task : McpTask) (input : SettlementInput) : Except PermissionError PermissionDatabase :=
  match phase with
  | .authorized request _ (.executing _ _) => do
    let attempt := attemptIdentity request.id
    throwWhen (existing.any fun found => found.taskID ≠ task.taskID)
      (.error ("Permission execution " ++ attempt ++ " changed MCP task identity from " ++
        (existing.elim "" McpTask.taskID) ++ " to " ++ task.taskID))
    return persisted db input.fault (appendEvent db request (request.taskEvent attempt existing task input))
  | _ => .error (.error "MCP protocol Task may only be recorded inside an admitted Tool execution")

def renewEffectLease (db : PermissionDatabase) (phase : CallPhase) (now : ℤ) :
    Except PermissionError PermissionDatabase :=
  match phase with
  | .authorized request _ (.executing lease _) => do
    let leases ← onEffectLeases (renewControlLeaseInTransaction db.leases
      (lease.claim (attemptIdentity request.id) now) (now + 120000))
    return { db with leases := leases }
  | _ => .error (.error "no callback runs")

def permissionStep : PermissionAction → Option PermissionState
  | .call process invocation =>
    some { s with callers := s.callers ++ [⟨process, invocation, invocation.begin⟩] }
  | .advance i input => do
    let caller ← s.callers[i]?
    if caller.phase.suspended then none else some (s.advance i caller input)
  | .recordMcpTask i existing task input => do
    let caller ← s.callers[i]?
    s.store (recordMcpTask s.db caller.phase existing task input)
  | .renewLease i now => do
    let caller ← s.callers[i]?
    s.store (renewEffectLease s.db caller.phase now)
  | .releaseWaiter i => do
    let caller ← s.callers[i]?
    match caller.phase with
    | .authorizing request .waiting => do
      let settled ← decisionFor s.db request.id
      return s.move i caller (if settled.eventType.denies then .threw (.rejected request.id settled.reason)
          else .authorizing request .settledDecision)
    | _ => none
  | .pauseWaiter i => do
    let caller ← s.callers[i]?
    match caller.phase with
    | .authorizing request .waiting => some (s.move i caller (.threw (.paused request.id)))
    | _ => none
  | .reply requestID decision input => s.store (replyValidated s.db requestID decision input)
  | .settleStale requestID input => s.store (settleStale s.db requestID input)
  | .cancelPending requestID input => s.store (cancelPending s.db requestID input)
  | .revoke grantID input => s.store (revoke s.db grantID input)
  | .expire grantID input => s.store (expire s.db grantID input)
  | .retireContinuation requestID input => s.store (retireContinuation s.db requestID input)
  | .reconcileInterruptedAttempt attempt input =>
    s.store (reconcileInterruptedAttempt s.db attempt input)
  | .reconcileExecution attempt outcome input =>
    s.store (reconcileExecution s.db attempt outcome input)
  | .beginSessionDeletion sessionID message =>
    some { s with
      db := { s.db with fencedSessions := s.db.fencedSessions ++ [(sessionID, message)] } }
  | .deletePolicies sessionIDs =>
    some { s with
      db := { s.db with policies := s.db.policies.filter fun row => row.sessionID ∉ sessionIDs } }
  | .crash process =>
    some { s with callers := s.callers.filter fun caller => caller.process ≠ process }

/-- Nothing was recorded, called or started yet; policies, leases and fences are arbitrary. -/
structure PermissionState.Initial (s : PermissionState) : Prop where
  ledger : s.db.ledger = []
  callers : s.callers = []
  starts : s.starts = []

instance (s : PermissionState) : Decidable s.Initial :=
  decidable_of_iff (s.db.ledger = [] ∧ s.callers = [] ∧ s.starts = [])
    ⟨fun ⟨hledger, hcallers, hstarts⟩ => ⟨hledger, hcallers, hstarts⟩,
      fun ⟨hledger, hcallers, hstarts⟩ => ⟨hledger, hcallers, hstarts⟩⟩

end System

@[reducible] def joinedIdentity : PermissionIdentity where
  requestIdentity project session message toolCall fingerprint :=
    String.intercalate "/" [project, session, message, toolCall, fingerprint]
  attemptIdentity request := "attempt/" ++ request

def toolInvocation : InvocationIdentity where
  projectID := "project"
  activeProjectID := "project"
  sessionID := "session"
  taskID := none
  messageID := "message"
  toolCallID := "call"
  descriptor := some { fingerprint := "tool", projectGrantEligible := true, rest := "" }
  expectedRequestID := none

def faultlessStep (mode : PermissionMode) (eventID : String) : AdvanceInput where
  now := 0
  eventID := eventID
  nextEventID := eventID ++ "+"
  ownerOccurrenceID := eventID ++ "/owner"
  leaseID := eventID ++ "/lease"
  fault := none
  permissionMode := mode
  publicationError := none
  timedOut := false
  callback := .returned

def faultlessSettlement (eventID : String) : SettlementInput where
  now := 0
  eventID := eventID
  actorID := none
  reason := none
  fault := none

def emptyState : PermissionState where
  db := { policies := [], ledger := [], results := [], leases := ⟨[], []⟩, fencedSessions := [] }
  callers := []
  starts := []

def steps (caller : ℕ) (mode : PermissionMode) (eventIDs : List String) : List PermissionAction :=
  eventIDs.map fun eventID => .advance caller (faultlessStep mode eventID)

end OpenCorvus.Permission
