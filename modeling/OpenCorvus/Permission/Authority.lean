import OpenCorvus.Permission.Ledger

/-!
# The permission authority

The call `authorizeAndExecute` as the sequence of its transactions.  A call fixes the policy of its Session, records
its request, obtains a decision, records the start of its attempt, takes the effect lease of the attempt, and runs
the guarded callback.  A call that finds the attempt started answers with the stored outcome, or takes over an
attempt whose protocol Task is still open.
-/

namespace OpenCorvus.Permission

open Engine Transaction

/-- The identities that the source derives by hashing its arguments. -/
class PermissionIdentity where
  /-- The identity of a request: project, Session, message, Tool call and fingerprint. -/
  requestIdentity : String → String → String → String → String → String
  /-- The identity of the attempt of a request. -/
  attemptIdentity : String → String

export PermissionIdentity (requestIdentity attemptIdentity)

structure InvocationPermissionDescriptor where
  fingerprint : String
  projectGrantEligible : Bool
  /-- The text of the provider, the tool, the scope and the summary. -/
  rest : String
deriving DecidableEq

structure InvocationIdentity where
  projectID : String
  /-- `Instance.project.id` -/
  activeProjectID : String
  sessionID : String
  /-- `taskIDForSession` -/
  taskID : Option String
  messageID : String
  toolCallID : String
  /-- No descriptor: the Tool needs no permission. -/
  descriptor : Option InvocationPermissionDescriptor
  /-- The request that a replay continues. -/
  expectedRequestID : Option String
deriving DecidableEq

/-- The owner that the first execution of an attempt, or its recovery, holds. -/
structure EffectLease where
  id : String
  ownerOccurrenceID : String

/-- A replay that meets another Tool call than the one it continues. -/
structure ContinuationMismatch where
  expectedRequestID : String
  resolvedRequestID : Option String
  reason : String
  thrown : String

/-- Where `authorize` stands; every phase is one transaction, up to the wait for the operator. -/
inductive AuthorizePhase where
  | attemptRows
  | attemptResult (succeeded : Bool)
  | requestIdentity
  | pendingRow
  | pendingDecision
  | appendRequested
  | fullAccessDecision
  | fullAccessSettle
  | fullAccessWinner (error : PermissionError)
  | staleCheck
  | exactDecision
  | activeGrants
  | activeGrant (grants : List LedgerRow)
  | appendGrantUsed (grant : LedgerRow)
  | registerWaiter
  | waiting
  | settledDecision

/-- Where the execution of an authorized request stands. -/
inductive ExecutePhase where
  | existingStart
  | appendStart
  | startWinner (error : PermissionError)
  | acquireLease
  | awaitSettlement
  | resolveOutcome
  | resolveTask
  | resolveResult
  | acquireRecoveryLease
  | owned (lease : EffectLease) (recovering : Bool)
  | executing (lease : EffectLease) (recovering : Bool)
  | callbackThrew (lease : EffectLease) (reason : String)
  | abandonLease (lease : EffectLease) (reason : String)
  | appendFailed (lease : EffectLease) (reason : String)
  | complete (lease : EffectLease)

inductive CallPhase where
  | policy
  | insertPolicy (mode : PermissionMode)
  | readPolicy
  | mismatchRequest (mismatch : ContinuationMismatch)
  | mismatchStale (mismatch : ContinuationMismatch) (expected : PermissionRequest)
  | retireMismatch (mismatch : ContinuationMismatch) (expected : PermissionRequest)
  | authorizing (request : PermissionRequest) (phase : AuthorizePhase)
  | authorized (request : PermissionRequest) (authority : LedgerRow) (phase : ExecutePhase)
  /-- The callback of a Tool that needs no permission. -/
  | unguarded
  | returned
  | threw (error : PermissionError)

/-- How a write may fail although nothing is wrong with it. -/
inductive WriteFault where
  /-- The transaction is rolled back. -/
  | aborted
  /-- The transaction commits, and the call sees an error. -/
  | unacknowledged
deriving DecidableEq

/-- How the guarded callback ends. -/
inductive CallbackResult where
  | returned
  | threw (reason : String)
deriving DecidableEq

/-- What a transaction of a call takes from outside the database. -/
structure AdvanceInput where
  now : ℤ
  /-- What `ledgerEventID()` generates. -/
  eventID : String
  /-- What `ledgerEventID()` generates next. -/
  nextEventID : String
  /-- What `Identifier.ascending("call")` generates for the owner, and for the lease. -/
  ownerOccurrenceID : String
  leaseID : String
  fault : Option WriteFault
  /-- `config.permission_mode` -/
  permissionMode : PermissionMode
  /-- The publication of the question raises. -/
  publicationError : Option String
  /-- The wait for the settlement is over. -/
  timedOut : Bool
  callback : CallbackResult
deriving DecidableEq

def persisted (db : PermissionDatabase) (fault : Option WriteFault)
    (write : Except PermissionError PermissionDatabase) : PermissionDatabase :=
  match fault, write with
  | some .aborted, _ => db
  | _, .ok written => written
  | _, .error _ => db

def commit (db : PermissionDatabase) (fault : Option WriteFault)
    (write : Except PermissionError PermissionDatabase) (committed : CallPhase)
    (failed : PermissionError → CallPhase) : PermissionDatabase × CallPhase :=
  (persisted db fault write,
    match fault, write with
    | some .aborted, _ => failed (.database "transaction aborted")
    | some .unacknowledged, .ok _ => failed (.database "commit not acknowledged")
    | none, .ok _ => committed
    | _, .error e => failed e)

section Transactions

variable (db : PermissionDatabase)

def insertPolicyRow (sessionID : String) (mode : PermissionMode) : PermissionDatabase :=
  if db.policies.any fun row => row.sessionID = sessionID then db
  else { db with policies := db.policies ++ [{ sessionID := sessionID, mode := mode }] }

def findPolicy (sessionID : String) : Option PermissionPolicyRow :=
  db.policies.find? fun row => row.sessionID = sessionID

def onEffectLeases {β : Type} : Except ControlLeaseError β → Except PermissionError β
  | .ok result => .ok result
  | .error e => .error (.controlLease e)

def acquireEffectLease (attempt : String) (input : AdvanceInput) :
    Except PermissionError (Option EffectLease × PermissionDatabase) := do
  let (acquired, leases) ← onEffectLeases (acquireControlLeaseInTransaction db.leases
    { target := .effect, targetID := attempt, ownerOccurrenceID := input.ownerOccurrenceID,
      now := input.now, leaseMilliseconds := 120000, leaseID := none, supersedeLeaseID := none,
      generatedID := input.leaseID })
  return (if acquired.acquired then some ⟨acquired.lease.id, input.ownerOccurrenceID⟩ else none,
    { db with leases := leases })

def EffectLease.claim (lease : EffectLease) (attempt : String) (now : ℤ) : ControlLeaseClaim where
  target := .effect
  targetID := attempt
  leaseID := lease.id
  ownerOccurrenceID := lease.ownerOccurrenceID
  now := now

def abandonEffectLease (lease : EffectLease) (attempt : String) (now : ℤ) : PermissionDatabase :=
  { db with leases := (releaseControlLeaseInTransaction db.leases (lease.claim attempt now)).2 }

def appendEffectOutcome (row : LedgerRow) (lease : EffectLease) (attempt : String) (now : ℤ) :
    Except PermissionError PermissionDatabase := do
  let _ ← onEffectLeases (assertControlLeaseInTransaction db.leases (lease.claim attempt now))
  let ledger ← insertLedgerRow db.ledger row
  return abandonEffectLease { db with ledger := ledger } lease attempt now

def retireInlineExecution (ledger : List LedgerRow) (request : PermissionRequest)
    (input : AdvanceInput) : Except PermissionError (List LedgerRow) :=
  match request.owner.mode with
  | .ask => .ok ledger
  | .fullAccess => insertLedgerRow ledger
      { request.event input.nextEventID input.now .stale with
        sourceEventID := some input.eventID
        reason := some "Full-access inline execution committed its durable result" }

def completeExecution (request : PermissionRequest) (attempt : String) (lease : EffectLease)
    (input : AdvanceInput) : Except PermissionError PermissionDatabase := do
  let _ ← onEffectLeases (assertControlLeaseInTransaction db.leases (lease.claim attempt input.now))
  let succeeded ← insertLedgerRow db.ledger
    { request.event input.eventID input.now .executionSucceeded with
      attemptID := some attempt, outcomeSlot := some attempt }
  let ledger ← retireInlineExecution succeeded request input
  return abandonEffectLease
    { db with
      ledger := ledger
      results := if attempt ∈ db.results then db.results else db.results ++ [attempt] }
    lease attempt input.now

end Transactions

def InvocationIdentity.request [PermissionIdentity] (invocation : InvocationIdentity)
    (descriptor : InvocationPermissionDescriptor) (mode : PermissionMode) : PermissionRequest where
  id := requestIdentity invocation.projectID invocation.sessionID invocation.messageID
    invocation.toolCallID descriptor.fingerprint
  owner :=
    { projectID := invocation.projectID, sessionID := invocation.sessionID,
      taskID := invocation.taskID, messageID := invocation.messageID,
      toolCallID := invocation.toolCallID, mode := mode, fingerprint := descriptor.fingerprint,
      projectGrantEligible := descriptor.projectGrantEligible, rest := descriptor.rest }
  choices := choices descriptor.projectGrantEligible invocation.taskID.isSome

def assertRequestIdentity [PermissionIdentity] (db : PermissionDatabase)
    (request : PermissionRequest) : Except PermissionError Unit :=
  match requestedRow db request.id with
  | none => .ok ()
  | some existing => do
    let exact ← requestFromRow db existing
    throwWhen (requestIdentity exact.owner.projectID exact.owner.sessionID exact.owner.messageID
        exact.owner.toolCallID exact.owner.fingerprint ≠ request.id)
      (.identityCollision request.id)
    throwWhen (exact.owner.projectID ≠ request.owner.projectID ∨
        exact.owner.sessionID ≠ request.owner.sessionID ∨
        exact.owner.messageID ≠ request.owner.messageID ∨
        exact.owner.toolCallID ≠ request.owner.toolCallID ∨
        exact.owner.fingerprint ≠ request.owner.fingerprint)
      (.identityCollision request.id)

def attemptEvents (db : PermissionDatabase) (attempt : String) : List LedgerRow :=
  db.ledger.filter fun row => row.attemptID = some attempt

variable (request : PermissionRequest)

def modePhase : AuthorizePhase :=
  match request.owner.mode with
  | .fullAccess => .fullAccessDecision
  | .ask => .staleCheck

def PermissionRequest.requestedEvent (input : AdvanceInput) : LedgerRow :=
  { request.event input.eventID input.now .requested with
    metadata := some (.choices request.choices) }

def PermissionRequest.fullAccessEvent (input : AdvanceInput) : LedgerRow :=
  { request.event input.eventID input.now .allowedOnce with
    decisionSlot := some request.id, actorID := some "full-access-policy" }

def PermissionRequest.grantUsedEvent (grant : LedgerRow) (input : AdvanceInput) : LedgerRow :=
  { request.event input.eventID input.now .grantUsed with
    sourceEventID := some grant.id, decisionScope := grant.decisionScope }

/-- A decision of a request under `ask` authorizes it unless it denies it. -/
def decidedPhase (decision : LedgerRow) : CallPhase :=
  if decision.eventType.denies then .threw (.rejected request.id decision.reason)
  else .authorized request decision .existingStart

/-- One transaction of `authorize`, with the check of the attempt before it. -/
def AuthorizePhase.advance [PermissionIdentity] (db : PermissionDatabase)
    (request : PermissionRequest) (input : AdvanceInput) :
    AuthorizePhase → PermissionDatabase × CallPhase
  | .attemptRows =>
    let attempt := attemptIdentity request.id
    if (attemptEvents db attempt).any fun row => row.requestID ≠ request.id then
      (db, .threw (.identityCollision attempt))
    else
      (db, .authorizing request (.attemptResult ((attemptEvents db attempt).any fun row =>
        row.eventType = .executionSucceeded ∧ row.outcomeSlot = some attempt)))
  | .attemptResult succeeded =>
    if attemptIdentity request.id ∈ db.results ∧ ¬succeeded then
      (db, .threw (.identityCollision (attemptIdentity request.id)))
    else (db, .authorizing request .requestIdentity)
  | .requestIdentity =>
    match assertRequestIdentity db request with
    | .error e => (db, .threw e)
    | .ok _ => (db, .authorizing request .pendingRow)
  | .pendingRow =>
    match requestedRow db request.id with
    | none => (db, .authorizing request .appendRequested)
    | some _ => (db, .authorizing request .pendingDecision)
  | .pendingDecision =>
    match decisionFor db request.id with
    | none => (db, .authorizing request (modePhase request))
    | some _ => (db, .authorizing request .appendRequested)
  | .appendRequested =>
    commit db input.fault (appendEvent db request (request.requestedEvent input))
      (.authorizing request (modePhase request)) .threw
  | .fullAccessDecision =>
    match decisionFor db request.id with
    | some existing => (db, .authorized request existing .existingStart)
    | none => (db, .authorizing request .fullAccessSettle)
  | .fullAccessSettle =>
    commit db input.fault (appendEvent db request (request.fullAccessEvent input))
      (.authorized request (request.fullAccessEvent input) .existingStart)
      fun e => .authorizing request (.fullAccessWinner e)
  | .fullAccessWinner e =>
    match decisionFor db request.id with
    | none => (db, .threw e)
    | some winner => (db, .authorized request winner .existingStart)
  | .staleCheck =>
    match staleFor db request.id with
    | some stale => (db, .threw (.staleContinuation request.id stale.reason))
    | none => (db, .authorizing request .exactDecision)
  | .exactDecision =>
    match decisionFor db request.id with
    | some decision => (db, decidedPhase request decision)
    | none => (db, .authorizing request .activeGrants)
  | .activeGrants =>
    match grantsCreated db request.owner.projectID with
    | [] => (db, .authorizing request .registerWaiter)
    | grants => (db, .authorizing request (.activeGrant grants))
  | .activeGrant grants =>
    match findActiveGrant db request grants with
    | .error e => (db, .threw e)
    | .ok none => (db, .authorizing request .registerWaiter)
    | .ok (some grant) => (db, .authorizing request (.appendGrantUsed grant))
  | .appendGrantUsed grant =>
    commit db input.fault (appendEvent db request (request.grantUsedEvent grant input))
      (.authorized request (request.grantUsedEvent grant input) .existingStart) .threw
  | .registerWaiter =>
    -- The waiter is registered before the decision is read, and the question published after.
    match decisionFor db request.id with
    | some decision =>
      if decision.eventType.denies then (db, .threw (.rejected request.id decision.reason))
      else (db, .authorizing request .settledDecision)
    | none =>
      match input.publicationError with
      | some message => (db, .threw (.error message))
      | none => (db, .authorizing request .waiting)
  | .waiting => (db, .authorizing request .waiting)
  | .settledDecision =>
    match decisionFor db request.id with
    | none => (db, .threw (.error ("Permission request " ++ request.id ++ " resumed without a durable decision")))
    | some settled => (db, decidedPhase request settled)

def PermissionRequest.startEvent (request : PermissionRequest) (attempt : String)
    (authority : LedgerRow) (input : AdvanceInput) : LedgerRow :=
  { request.event input.eventID input.now .executionStarted with
    attemptID := some attempt, sourceEventID := some authority.id }

def PermissionRequest.failedEvent (request : PermissionRequest) (attempt reason : String)
    (input : AdvanceInput) : LedgerRow :=
  { request.event input.eventID input.now .executionFailed with
    attemptID := some attempt, outcomeSlot := some attempt, reason := some reason }

def McpTask.isOpen (task : McpTask) : Bool :=
  task.status = .working ∨ task.status = .inputRequired

def leasePhase (request : PermissionRequest) (authority : LedgerRow) (recovering : Bool) :
    Option EffectLease → CallPhase
  | some lease => .authorized request authority (.owned lease recovering)
  | none => .authorized request authority .awaitSettlement

def takeLease (db : PermissionDatabase) (request : PermissionRequest) (authority : LedgerRow)
    (attempt : String) (recovering : Bool) (input : AdvanceInput) : PermissionDatabase × CallPhase :=
  match acquireEffectLease db attempt input with
  | .error e => (db, .threw e)
  | .ok (lease, leased) =>
    commit db input.fault (.ok leased) (leasePhase request authority recovering lease) .threw

def outcomePhase (request : PermissionRequest) (authority : LedgerRow) (attempt : String)
    (outcome : LedgerRow) : CallPhase :=
  match outcome.eventType with
  | .outcomeUnknown => .threw (.outcomeUnknown attempt)
  | .executionSucceeded => .authorized request authority .resolveResult
  | _ =>
    if outcome.eventType = .executionReconciled ∧ outcome.metadata = some (.outcome .executionSucceeded) then
      .threw (.outcomeUnknown attempt)
    else .threw (.error ("Permission execution " ++ attempt ++ " already ended and cannot be duplicated"))

def ExecutePhase.advance [PermissionIdentity] (db : PermissionDatabase)
    (request : PermissionRequest) (authority : LedgerRow) (input : AdvanceInput) :
    ExecutePhase → PermissionDatabase × CallPhase
  | .existingStart =>
    match executionStart db (attemptIdentity request.id) with
    | some _ => (db, .authorized request authority .resolveOutcome)
    | none => (db, .authorized request authority .appendStart)
  | .appendStart =>
    commit db input.fault
      (appendEvent db request (request.startEvent (attemptIdentity request.id) authority input))
      (.authorized request authority .acquireLease)
      fun e => .authorized request authority (.startWinner e)
  | .startWinner e =>
    match executionStart db (attemptIdentity request.id) with
    | some _ => (db, .authorized request authority .resolveOutcome)
    | none => (db, .threw e)
  | .acquireLease => takeLease db request authority (attemptIdentity request.id) false input
  | .awaitSettlement =>
    match executionOutcome db (attemptIdentity request.id) with
    | some _ => (db, .authorized request authority .resolveOutcome)
    | none =>
      if input.timedOut then
        (db, .threw (.error ("Permission execution " ++ attemptIdentity request.id ++
          " did not settle before Session deletion")))
      else (db, .authorized request authority .awaitSettlement)
  | .resolveOutcome =>
    match executionOutcome db (attemptIdentity request.id) with
    | none => (db, .authorized request authority .resolveTask)
    | some outcome => (db, outcomePhase request authority (attemptIdentity request.id) outcome)
  | .resolveTask =>
    match currentTaskForAttempt db (attemptIdentity request.id) with
    | none => (db, .threw (.outcomeUnknown (attemptIdentity request.id)))
    | some _ => (db, .authorized request authority .acquireRecoveryLease)
  | .resolveResult =>
    if attemptIdentity request.id ∈ db.results then (db, .returned)
    else (db, .threw (.executionAlreadySucceeded request.id (attemptIdentity request.id)))
  | .acquireRecoveryLease => takeLease db request authority (attemptIdentity request.id) true input
  | .owned lease recovering => (db, .authorized request authority (.executing lease recovering))
  | .executing lease _ =>
    match input.callback with
    | .returned => (db, .authorized request authority (.complete lease))
    | .threw reason => (db, .authorized request authority (.callbackThrew lease reason))
  | .callbackThrew lease reason =>
    if (currentTaskForAttempt db (attemptIdentity request.id)).any McpTask.isOpen then
      (db, .authorized request authority (.abandonLease lease reason))
    else (db, .authorized request authority (.appendFailed lease reason))
  | .abandonLease lease reason =>
    commit db input.fault (.ok (abandonEffectLease db lease (attemptIdentity request.id) input.now))
      (.threw (.callback reason)) fun _ => .threw (.callback reason)
  | .appendFailed lease reason =>
    commit db input.fault
      (appendEffectOutcome db (request.failedEvent (attemptIdentity request.id) reason input) lease
        (attemptIdentity request.id) input.now)
      (.threw (.callback reason)) .threw
  | .complete lease =>
    commit db input.fault (completeExecution db request (attemptIdentity request.id) lease input) .returned .threw

def requestPhase [PermissionIdentity] (invocation : InvocationIdentity)
    (descriptor : InvocationPermissionDescriptor) (mode : PermissionMode) : CallPhase :=
  let request := invocation.request descriptor mode
  match invocation.expectedRequestID.filter fun expected => expected ≠ "" ∧ expected ≠ request.id with
  | none => .authorizing request .attemptRows
  | some expected =>
    .mismatchRequest
      { expectedRequestID := expected, resolvedRequestID := some request.id
        reason := "Recovered Tool identity changed: expected permission request " ++ expected ++
          ", resolved " ++ request.id
        thrown := "The Tool identity or input changed after restart" }

def InvocationIdentity.begin (invocation : InvocationIdentity) : CallPhase :=
  if invocation.projectID ≠ invocation.activeProjectID then
    .threw (.error ("Permission invocation project " ++ invocation.projectID ++
      " does not match active project " ++ invocation.activeProjectID))
  else
    match invocation.descriptor with
    | some _ => .policy
    | none =>
      match invocation.expectedRequestID.filter (· ≠ "") with
      | none => .unguarded
      | some expected =>
        .mismatchRequest
          { expectedRequestID := expected, resolvedRequestID := none
            reason := "Recovered Tool is no longer permission-bearing"
            thrown := "The Tool permission classification changed after restart" }

def ContinuationMismatch.staleEvent (mismatch : ContinuationMismatch) (expected : PermissionRequest)
    (input : AdvanceInput) : LedgerRow :=
  { expected.event input.eventID input.now .stale with
    sourceEventID := mismatch.resolvedRequestID, reason := some mismatch.reason }

def ContinuationMismatch.phase (mismatch : ContinuationMismatch) : CallPhase :=
  .threw (.staleContinuation mismatch.expectedRequestID (some mismatch.thrown))

def CallPhase.advance [PermissionIdentity] (db : PermissionDatabase)
    (invocation : InvocationIdentity) (input : AdvanceInput) :
    CallPhase → PermissionDatabase × CallPhase
  | .policy =>
    match invocation.descriptor, findPolicy db invocation.sessionID with
    | some descriptor, some stored => (db, requestPhase invocation descriptor stored.mode)
    | _, _ => (db, .insertPolicy input.permissionMode)
  | .insertPolicy mode =>
    commit db input.fault (.ok (insertPolicyRow db invocation.sessionID mode)) .readPolicy .threw
  | .readPolicy =>
    match invocation.descriptor, findPolicy db invocation.sessionID with
    | some descriptor, some stored => (db, requestPhase invocation descriptor stored.mode)
    | _, _ => (db, .threw (.error ("Permission policy was not persisted for Session " ++ invocation.sessionID)))
  | .mismatchRequest mismatch =>
    match requestedRow db mismatch.expectedRequestID with
    | none => (db, mismatch.phase)
    | some row =>
      match requestFromRow db row with
      | .error e => (db, .threw e)
      | .ok expected => (db, .mismatchStale mismatch expected)
  | .mismatchStale mismatch expected =>
    match staleFor db mismatch.expectedRequestID with
    | some _ => (db, mismatch.phase)
    | none => (db, .retireMismatch mismatch expected)
  | .retireMismatch mismatch expected =>
    commit db input.fault (appendEvent db expected (mismatch.staleEvent expected input)) mismatch.phase .threw
  | .authorizing request phase => phase.advance db request input
  | .authorized request authority phase => phase.advance db request authority input
  | .unguarded => (db, .returned)
  | .returned => (db, .returned)
  | .threw e => (db, .threw e)

end OpenCorvus.Permission
