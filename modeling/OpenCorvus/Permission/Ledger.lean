import OpenCorvus.Engine.ControlLease
import OpenCorvus.Foundation.Transaction
import OpenCorvus.Foundation.UniqueIndex

/-!
# The permission ledger

The append-only ledger of permission requests, decisions, grants and executions, with its unique
indexes, and the queries that read it.  A decision takes the decision slot of its request, the start
of an execution takes its attempt, and the outcome of an execution takes the outcome slot of the
attempt; each can be taken once.
-/

namespace OpenCorvus.Permission

open Engine Transaction UniqueIndex

/-- How the requests of a Session are decided. -/
inductive PermissionMode where
  | fullAccess
  | ask
deriving DecidableEq

inductive PermissionEventType where
  | requested
  | allowedOnce
  | grantCreated
  | grantUsed
  | denied
  | expired
  | revoked
  | cancelled
  | stale
  | executionStarted
  | mcpTaskCreated
  | mcpTaskStatus
  | executionSucceeded
  | executionFailed
  | outcomeUnknown
  | executionReconciled
deriving DecidableEq

/-- `["denied", "cancelled", "stale"].includes(event_type)` -/
def PermissionEventType.denies (type : PermissionEventType) : Bool :=
  type = .denied ∨ type = .cancelled ∨ type = .stale

/-- What the operator may decide. -/
inductive PermissionDecision where
  | allowOnce
  | allowTask
  | allowProject
  | deny
deriving DecidableEq

/-- How far a decision reaches. -/
inductive DecisionScope where
  | invocation
  | task
  | project
deriving DecidableEq

inductive McpTaskStatus where
  | working
  | inputRequired
  | completed
  | failed
  | cancelled
deriving DecidableEq

/-- The protocol Task that an MCP server returned for a Tool call. -/
structure McpTask where
  taskID : String
  status : McpTaskStatus
  /-- The text of all other data. -/
  rest : String
deriving DecidableEq

/-- What an event stores beside its columns. -/
inductive LedgerMetadata where
  | choices (choices : List PermissionDecision)
  | task (task : McpTask)
  | outcome (outcome : PermissionEventType)
deriving DecidableEq

/-- The columns that the canonical row of a request fills, and every other row leaves empty. -/
structure PermissionRequestOwner where
  projectID : String
  sessionID : String
  taskID : Option String
  messageID : String
  toolCallID : String
  mode : PermissionMode
  fingerprint : String
  /-- What `permissionProjectGrantEligible` computes from the stored provider, tool, effect class and
  scope. -/
  projectGrantEligible : Bool
  /-- The text of the policy revision, the provider, the tool, the scope and the summary. -/
  rest : String
deriving DecidableEq

structure LedgerRow where
  id : String
  requestID : String
  owner : Option PermissionRequestOwner
  attemptID : Option String
  eventType : PermissionEventType
  decisionScope : Option DecisionScope
  sourceEventID : Option String
  /-- The request that the row decides. -/
  decisionSlot : Option String
  /-- The attempt that the row ends. -/
  outcomeSlot : Option String
  actorID : Option String
  reason : Option String
  metadata : Option LedgerMetadata
  timeCreated : ℤ
deriving DecidableEq

structure PermissionRequest where
  id : String
  owner : PermissionRequestOwner
  choices : List PermissionDecision

/-- What the authority raises. -/
inductive PermissionError where
  /-- A plain error. -/
  | error (message : String)
  /-- The request was denied. -/
  | rejected (requestID : String) (message : Option String)
  /-- The waiting caller was released with its runtime; the request remains pending. -/
  | paused (requestID : String)
  /-- An identity is bound to other material. -/
  | identityCollision (identity : String)
  | outcomeUnknown (attemptID : String)
  | executionAlreadySucceeded (requestID attemptID : String)
  | staleContinuation (requestID : String) (message : Option String)
  /-- The deletion of the Session has begun. -/
  | sessionDeletion (message : String)
  | controlLease (error : ControlLeaseError)
  /-- A constraint of the database aborts the transaction. -/
  | database (message : String)
  /-- The executed callback raises. -/
  | callback (message : String)

structure PermissionPolicyRow where
  /-- Primary key. -/
  sessionID : String
  mode : PermissionMode

structure PermissionDatabase where
  policies : List PermissionPolicyRow
  ledger : List LedgerRow
  /-- The attempts whose result is stored. -/
  results : List String
  leases : ControlLeaseTables
  /-- Sessions whose deletion has begun, with the message that refuses their writes. -/
  fencedSessions : List (String × String)

def LedgerRow.attemptStart (row : LedgerRow) : Option String :=
  if row.eventType = .executionStarted then row.attemptID else none

def insertLedgerRow (ledger : List LedgerRow) (row : LedgerRow) : Except PermissionError (List LedgerRow) :=
  if decide (row.eventType = .requested) ≠ row.owner.isSome then
    .error (.database "CHECK constraint failed: permission_ledger_request_owner_shape")
  else if Conflicts (fun row : LedgerRow => some row.id) ledger row then
    .error (.database "UNIQUE constraint failed: permission_ledger.id")
  else if Conflicts LedgerRow.decisionSlot ledger row then
    .error (.database "UNIQUE constraint failed: permission_ledger.decision_slot")
  else if Conflicts LedgerRow.attemptStart ledger row then
    .error (.database "UNIQUE constraint failed: index 'permission_ledger_attempt_start_idx'")
  else if Conflicts LedgerRow.outcomeSlot ledger row then
    .error (.database "UNIQUE constraint failed: permission_ledger.outcome_slot")
  else .ok (ledger ++ [row])

def assertSessionDeletionAdmissionInTransaction (db : PermissionDatabase) (sessionID : String) :
    Except PermissionError Unit :=
  match db.fencedSessions.find? fun fenced => fenced.1 = sessionID with
  | none => .ok ()
  | some fenced => .error (.sessionDeletion fenced.2)

def PermissionRequest.event (request : PermissionRequest) (eventID : String) (now : ℤ)
    (eventType : PermissionEventType) : LedgerRow where
  id := eventID
  requestID := request.id
  owner := if eventType = .requested then some request.owner else none
  attemptID := none
  eventType := eventType
  decisionScope := none
  sourceEventID := none
  decisionSlot := none
  outcomeSlot := none
  actorID := none
  reason := none
  metadata := none
  timeCreated := now

def appendEvent (db : PermissionDatabase) (request : PermissionRequest) (row : LedgerRow) :
    Except PermissionError PermissionDatabase := do
  if row.eventType = .requested then
    assertSessionDeletionAdmissionInTransaction db request.owner.sessionID
  let ledger ← insertLedgerRow db.ledger row
  return { db with ledger := ledger }

section Queries

variable (db : PermissionDatabase) (requestID : String)

def decisionFor : Option LedgerRow :=
  db.ledger.find? fun row => row.decisionSlot = some requestID

def staleFor : Option LedgerRow :=
  db.ledger.find? fun row => row.requestID = requestID ∧ row.eventType = .stale

def requestedRow : Option LedgerRow :=
  db.ledger.find? fun row => row.requestID = requestID ∧ row.eventType = .requested

variable (attemptID : String)

def executionStart : Option LedgerRow :=
  db.ledger.find? fun row => row.attemptID = some attemptID ∧ row.eventType = .executionStarted

def executionOutcome : Option LedgerRow :=
  db.ledger.find? fun row => row.outcomeSlot = some attemptID

def mcpTaskEvent : Option LedgerRow :=
  (db.ledger.filter fun row => row.attemptID = some attemptID ∧
    (row.eventType = .mcpTaskCreated ∨ row.eventType = .mcpTaskStatus)).getLast?

def taskFromEvent (row : Option LedgerRow) : Option McpTask :=
  match row.bind (·.metadata) with
  | some (.task task) => some task
  | _ => none

def currentTaskForAttempt : Option McpTask :=
  taskFromEvent (mcpTaskEvent db attemptID)

def choices (projectGrantEligible hasTask : Bool) : List PermissionDecision :=
  [.allowOnce] ++ (if hasTask then [.allowTask] else []) ++
    (if projectGrantEligible then [.allowProject] else []) ++ [.deny]

def requestFromRow (row : LedgerRow) : Except PermissionError PermissionRequest := do
  let missing : PermissionError := .error ("Permission event " ++ row.id ++
    " references missing request " ++ row.requestID)
  let authority ← getOrThrow
    (if row.eventType = .requested then some row else requestedRow db row.requestID) missing
  let owner ← getOrThrow authority.owner missing
  return { id := authority.requestID, owner := owner,
           choices := match authority.metadata with
            | some (.choices choices) => choices
            | _ => choices owner.projectGrantEligible owner.taskID.isSome }

def permissionRequestOwnerBelongsToProject (row : LedgerRow) (projectID : String) : Bool :=
  db.ledger.any fun request => request.requestID = row.requestID ∧ request.eventType = .requested ∧
    request.owner.any fun owner => owner.projectID = projectID

def grantsCreated (projectID : String) : List LedgerRow :=
  (db.ledger.filter fun row => row.eventType = .grantCreated ∧
    permissionRequestOwnerBelongsToProject db row projectID).reverse

def inactiveGrants : List String :=
  (db.ledger.filter fun row => row.eventType = .revoked ∨ row.eventType = .expired).filterMap (·.sourceEventID)

def grantCovers (grant : LedgerRow) (owner : PermissionRequestOwner) (request : PermissionRequest) : Bool :=
  owner.projectID = request.owner.projectID ∧ owner.fingerprint = request.owner.fingerprint ∧
    (grant.decisionScope = some .project ∨ (grant.decisionScope = some .task ∧ request.owner.taskID.any (· ≠ "") ∧
        owner.taskID = request.owner.taskID))

def findActiveGrant (request : PermissionRequest) : List LedgerRow → Except PermissionError (Option LedgerRow)
  | [] => .ok none
  | grant :: rest =>
    if grant.id ∈ inactiveGrants db then findActiveGrant request rest
    else do
      let owner ← requestFromRow db grant
      if grantCovers grant owner.owner request then return some grant
      else findActiveGrant request rest

end Queries

section Specification

variable {ledger ledger' : List LedgerRow} {row : LedgerRow}

structure LedgerIndexes (ledger : List LedgerRow) : Prop where
  decisionSlot : Unique LedgerRow.decisionSlot ledger
  attemptStart : Unique LedgerRow.attemptStart ledger

lemma LedgerIndexes.nil : LedgerIndexes [] := ⟨unique_nil, unique_nil⟩

lemma insertLedgerRow_eq_ok (h : insertLedgerRow ledger row = .ok ledger') :
    ledger' = ledger ++ [row] ∧ ¬Conflicts LedgerRow.decisionSlot ledger row ∧
      ¬Conflicts LedgerRow.attemptStart ledger row := by
  unfold insertLedgerRow at h
  split_ifs at h with hshape hid hdecision hattempt houtcome
  exact ⟨(Except.ok.inj h).symm, hdecision, hattempt⟩

lemma LedgerIndexes.insert (hindexes : LedgerIndexes ledger)
    (h : insertLedgerRow ledger row = .ok ledger') : LedgerIndexes ledger' := by
  obtain ⟨rfl, hdecision, hattempt⟩ := insertLedgerRow_eq_ok h
  exact ⟨hindexes.decisionSlot.concat hdecision, hindexes.attemptStart.concat hattempt⟩

variable {db db' : PermissionDatabase} {request : PermissionRequest}

lemma appendEvent_eq_ok (h : appendEvent db request row = .ok db') :
    insertLedgerRow db.ledger row = .ok db'.ledger ∧ db' = { db with ledger := db'.ledger } := by
  have hinsert : ∀ {db' : PermissionDatabase},
      (do let ledger ← insertLedgerRow db.ledger row
          return { db with ledger := ledger }) = .ok db' →
        insertLedgerRow db.ledger row = .ok db'.ledger ∧
          db' = { db with ledger := db'.ledger } := by
    intro db' hrest
    obtain ⟨_, hledger, hdb⟩ := bind_eq_ok.mp hrest
    cases pure_eq_ok.mp hdb
    exact ⟨hledger, rfl⟩
  unfold appendEvent at h
  split_ifs at h with hrequested
  · have hrest := of_check h
    exact hinsert hrest
  · exact hinsert h

lemma mem_of_decisionFor {requestID : String} (h : decisionFor db requestID = some row) :
    row ∈ db.ledger ∧ row.decisionSlot = some requestID := by
  unfold decisionFor at h
  exact ⟨List.mem_of_find?_eq_some h, by simpa using List.find?_some h⟩

lemma decisionFor_eq_some (hindexes : LedgerIndexes db.ledger) {requestID : String}
    (hrow : row ∈ db.ledger) (hslot : row.decisionSlot = some requestID) :
    decisionFor db requestID = some row := by
  cases hfind : decisionFor db requestID with
  | none =>
    unfold decisionFor at hfind
    have hne := List.find?_eq_none.mp hfind row hrow
    simp [hslot] at hne
  | some =>
    obtain ⟨hother, hotherSlot⟩ := mem_of_decisionFor hfind
    rw [hindexes.decisionSlot.eq_of_key hother hrow hotherSlot hslot]

end Specification

end OpenCorvus.Permission
