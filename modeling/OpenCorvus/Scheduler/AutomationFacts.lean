import OpenCorvus.Engine.ControlLease
import OpenCorvus.Foundation.OrderBy
import OpenCorvus.Foundation.Transaction

/-!
# The facts of the Automations

An Automation is a definition with immutable revisions.  Its fires are logical occurrences; a fire is
attempted physically, and once an attempt has reserved its targets, it has one run for each of them.
Receipts settle attempts and runs.  The state of a fire is reduced from these facts.
-/

namespace OpenCorvus.Scheduler

open EcmaScript Transaction OrderBy Engine

inductive AutomationKind where
  /-- By a recurrence rule, which was normalised when it was stored. -/
  | recurring (recurrence : String)
  /-- Once. -/
  | delay (dueAt : Option ℤ)
deriving DecidableEq

inductive AutomationScope where
  | session
  | project
  | global
deriving DecidableEq

structure AutomationDefinition where
  /-- Primary key, of the revision. -/
  id : String
  definitionID : String
  revision : ℕ
  projectID : Option String
  sessionID : Option String
  kind : AutomationKind
  scope : Option AutomationScope
  /-- The status is not paused. -/
  active : Bool
  timeCreated : ℤ
  /-- The text of all other columns. -/
  rest : String
deriving DecidableEq

structure AutomationDefinitionTombstone where
  id : String
  definitionID : String
  revision : ℕ
deriving DecidableEq

inductive AutomationFireOrigin where
  | scheduled
  | manualApi
  | manualTool
deriving DecidableEq

/-- A logical occurrence. -/
structure AutomationFire where
  /-- Primary key. -/
  id : String
  automationRevisionID : String
  scheduledDueAt : ℤ
  origin : AutomationFireOrigin
  timeCreated : ℤ
deriving DecidableEq

structure AutomationFireAttempt where
  id : String
  fireID : String
  ordinal : ℕ
deriving DecidableEq

/-- How an attempt was settled, in the shapes that the table allows. -/
inductive AutomationAttemptOutcome where
  | reserved
  | retryWait (retryAt : ℤ) (error : String)
  | failed (error : String)
deriving DecidableEq

structure AutomationFireAttemptReceipt where
  /-- Primary key. -/
  attemptID : String
  outcome : AutomationAttemptOutcome
  timeCreated : ℤ
deriving DecidableEq

inductive StoredMissionReservation where
  | none
  | opened (openedEventID : String)
  | closed (closureEventID : String)
deriving DecidableEq

structure AutomationRun where
  id : String
  automationRevisionID : String
  fireID : String
  targetProjectID : Option String
  mission : StoredMissionReservation
  startedAt : ℤ
deriving DecidableEq

/-- Why a run ended without being executed. -/
inductive AutomationDisposition where
  | missionClosed (closureEventID : String)
  | targetDeleted
  | superseded
deriving DecidableEq

/-- How a run was settled, in the shapes that the table allows. -/
inductive AutomationReceiptOutcome where
  | retryWait (retryAt : ℤ) (error : String)
  | succeeded
  | failed (error : String)
  | disposition (reason : AutomationDisposition)
deriving DecidableEq

structure AutomationRunReceipt where
  id : String
  runID : String
  outcome : AutomationReceiptOutcome
  timeCreated : ℤ
deriving DecidableEq

structure AutomationSession where
  id : String
  isMission : Bool
deriving DecidableEq

structure MissionEvent where
  id : String
  aggregateType : String
  aggregateID : String
  type : String
deriving DecidableEq

/-- The tables. -/
structure AutomationDatabase where
  definitions : List AutomationDefinition
  tombstones : List AutomationDefinitionTombstone
  fires : List AutomationFire
  attempts : List AutomationFireAttempt
  attemptReceipts : List AutomationFireAttemptReceipt
  runs : List AutomationRun
  runReceipts : List AutomationRunReceipt
  sessions : List AutomationSession
  events : List MissionEvent
  leases : ControlLeaseTables
deriving DecidableEq

/-- What a projection raises. -/
inductive AutomationError where
  | error (message : String)
deriving DecidableEq

class RecurrenceRules where
  /-- The first occurrence of a normalised rule after an instant. -/
  nextRun : String → ℤ → Option ℤ

class AutomationIdentity where
  deterministicRunSessionID : String → String

export AutomationIdentity (deterministicRunSessionID)

/-- The key of `ORDER BY scheduled_due_at, time_created, id`. -/
def AutomationFire.orderKey (fire : AutomationFire) : ℤ ×ₗ ℤ ×ₗ String :=
  toLex (fire.scheduledDueAt, toLex (fire.timeCreated, fire.id))

/-- The key of `ORDER BY ordinal, id`. -/
def AutomationFireAttempt.orderKey (attempt : AutomationFireAttempt) : ℕ ×ₗ String :=
  toLex (attempt.ordinal, attempt.id)

/-- The key of `ORDER BY started_at, id`. -/
def AutomationRun.orderKey (run : AutomationRun) : ℤ ×ₗ String := toLex (run.startedAt, run.id)

/-- The key of `ORDER BY time_created, id`. -/
def AutomationRunReceipt.orderKey (receipt : AutomationRunReceipt) : ℤ ×ₗ String :=
  toLex (receipt.timeCreated, receipt.id)

section Queries

variable (db : AutomationDatabase)

def AutomationDatabase.findDefinition (id : String) : Option AutomationDefinition :=
  db.definitions.find? fun definition => definition.id = id

def AutomationDatabase.findFire (id : String) : Option AutomationFire :=
  db.fires.find? fun fire => fire.id = id

def AutomationDatabase.attemptsOf (fireID : String) : List AutomationFireAttempt :=
  db.attempts.filter fun attempt => attempt.fireID = fireID

def AutomationDatabase.attemptReceipt (attemptID : String) : Option AutomationFireAttemptReceipt :=
  db.attemptReceipts.find? fun receipt => receipt.attemptID = attemptID

def AutomationDatabase.runsOf (fireID : String) : List AutomationRun :=
  db.runs.filter fun run => run.fireID = fireID

def AutomationDatabase.receiptsOf (runID : String) : List AutomationRunReceipt :=
  db.runReceipts.filter fun receipt => receipt.runID = runID

def AutomationDatabase.retriesOf (runID : String) : List AutomationRunReceipt :=
  (db.receiptsOf runID).filter fun receipt =>
    match receipt.outcome with
    | .retryWait _ _ => true
    | _ => false

def automationLease (definitionID : String) : Option ControlLease :=
  currentControlLeaseInTransaction db.leases .automation definitionID

def AutomationDefinition.IsCurrent (row : AutomationDefinition) : Prop :=
  (∀ candidate ∈ db.definitions, candidate.definitionID = row.definitionID → ¬(row.revision < candidate.revision ∨
        candidate.revision = row.revision ∧ row.id < candidate.id)) ∧
    ∀ tombstone ∈ db.tombstones, tombstone.definitionID = row.definitionID → ¬row.revision ≤ tombstone.revision

instance (row : AutomationDefinition) : Decidable (row.IsCurrent db) :=
  inferInstanceAs (Decidable (_ ∧ _))

def currentAutomationDefinitionsInTransaction : List AutomationDefinition :=
  db.definitions.filter fun row => row.IsCurrent db

end Queries

inductive SchedulerMissionReservation where
  | nonMission
  | active (openedEventID : String)
  | missionClosed (closureEventID : String)

def MissionEvent.IsOf (event : MissionEvent) (id sessionID : String) : Prop :=
  event.id = id ∧ event.aggregateType = "session" ∧ event.aggregateID = sessionID

instance (event : MissionEvent) (id sessionID : String) : Decidable (event.IsOf id sessionID) :=
  inferInstanceAs (Decidable (_ ∧ _ ∧ _))

def missionClosureTypes : List String := ["mission.execution.closing", "mission.execution.closed"]

variable (db : AutomationDatabase)

def openedEvent (id sessionID : String) : Option MissionEvent :=
  db.events.find? fun event => event.IsOf id sessionID ∧ event.type = "mission.execution.opened"

def closureEvent (id sessionID : String) : Option MissionEvent :=
  db.events.find? fun event => event.IsOf id sessionID ∧ event.type ∈ missionClosureTypes

def AutomationDatabase.IsMission (sessionID : String) : Prop :=
  ((db.sessions.find? fun session => session.id = sessionID).map (·.isMission)) = some true

instance (db : AutomationDatabase) (sessionID : String) : Decidable (db.IsMission sessionID) :=
  inferInstanceAs (Decidable (_ = _))

def assertSchedulerMissionReservationInTransaction (sessionID : String) (stored : StoredMissionReservation) :
    Except AutomationError SchedulerMissionReservation :=
  if ¬db.IsMission sessionID then
    match stored with
    | .none => .ok .nonMission
    | _ => .error (.error
      ("Non-Mission Session " ++ sessionID ++ " carries Mission scheduler reservation authority"))
  else
    match stored with
    | .opened id => do
      let opened ← getOrThrow (openedEvent db id sessionID) (.error
        ("Mission Session " ++ sessionID ++ " has invalid active scheduler reservation " ++ id))
      return .active opened.id
    | .closed id => do
      let closure ← getOrThrow (closureEvent db id sessionID) (.error
        ("Mission Session " ++ sessionID ++ " has invalid terminal scheduler reservation " ++ id))
      return .missionClosed closure.id
    | .none => .error (.error ("Mission Session " ++ sessionID ++ " has no exact scheduler reservation authority"))

inductive AutomationRunOutcome where
  | running
  | retryWait
  | succeeded
  | failed
  | disposition
deriving DecidableEq

def runOutcome : Option AutomationReceiptOutcome → AutomationRunOutcome
  | none => .running
  | some (.retryWait _ _) => .retryWait
  | some .succeeded => .succeeded
  | some (.failed _) => .failed
  | some (.disposition _) => .disposition

def AutomationReceiptOutcome.retryAt : AutomationReceiptOutcome → Option ℤ
  | retryWait retryAt _ => some retryAt
  | _ => none

def AutomationReceiptOutcome.error : AutomationReceiptOutcome → Option String
  | retryWait _ error => some error
  | failed error => some error
  | _ => none

def AutomationReceiptOutcome.dispositionOf : AutomationReceiptOutcome → Option AutomationDisposition
  | .disposition reason => some reason
  | _ => none

structure AutomationRunRow where
  run : AutomationRun
  scheduledDueAt : ℤ
  automationID : String
  targetScope : AutomationScope
  projectID : Option String
  sessionID : Option String
  owner : Option String
  outcome : AutomationRunOutcome
  disposition : Option AutomationDisposition
  completedAt : Option ℤ
  error : Option String
  retryAt : Option ℤ

def truthy (value : Option String) : Option String := value.filter fun text => text ≠ ""

def AutomationDefinition.targetScope (definition : AutomationDefinition) : AutomationScope :=
  definition.scope.getD (if (truthy definition.sessionID).isSome then .session else .project)

section Projection

variable [AutomationIdentity] (db : AutomationDatabase)

def AutomationDefinition.runSessionID (definition : AutomationDefinition) (runID : String) : Option String :=
  definition.sessionID <|>
    match definition.kind with
    | .recurring _ =>
      if definition.targetScope = .session then none else some (deterministicRunSessionID runID)
    | .delay _ => none

def AutomationDatabase.lastReceipt (runID : String) : Option AutomationRunReceipt :=
  (orderBy AutomationRunReceipt.orderKey (db.receiptsOf runID)).getLast?

variable (row : AutomationRun)

def automationRunRow (fire : AutomationFire) (definition : AutomationDefinition)
    (receipt : Option AutomationRunReceipt) (lease : Option ControlLease) : AutomationRunRow where
  run := row
  scheduledDueAt := fire.scheduledDueAt
  automationID := definition.definitionID
  targetScope := definition.targetScope
  projectID := row.targetProjectID <|> definition.projectID
  sessionID := definition.runSessionID row.id
  owner := lease.map (·.ownerOccurrenceID)
  outcome := runOutcome (receipt.map (·.outcome))
  disposition := receipt.bind (·.outcome.dispositionOf)
  completedAt := receipt.map (·.timeCreated)
  error := receipt.bind (·.outcome.error)
  retryAt := receipt.bind (·.outcome.retryAt)

/-- The run of a definition with a target Session has the reservation of its Mission, and a closed Mission
has settled it. -/
def assertRunReservation (definition : AutomationDefinition) (receipt : Option AutomationRunReceipt) :
    Except AutomationError Unit :=
  match truthy definition.sessionID with
  | none => .ok ()
  | some sessionID => do
    let reservation ← assertSchedulerMissionReservationInTransaction db sessionID row.mission
    match reservation with
    | .missionClosed closureEventID =>
      throwWhen (receipt.map (·.outcome) ≠ some (.disposition (.missionClosed closureEventID)))
        (.error ("Automation run " ++ row.id ++ " terminal Mission reservation has no exact atomic receipt"))
    | _ => .ok ()

def projectAutomationRunInTransaction : Except AutomationError AutomationRunRow := do
  let fire ← getOrThrow (db.findFire row.fireID)
    (.error ("Automation run " ++ row.id ++ " references missing logical fire " ++ row.fireID))
  let definition ← getOrThrow (db.findDefinition row.automationRevisionID)
    (.error ("Automation run " ++ row.id ++ " references missing definition revision " ++
      row.automationRevisionID))
  let receipt := db.lastReceipt row.id
  assertRunReservation db row definition receipt
  return automationRunRow row fire definition receipt (automationLease db definition.definitionID)

inductive AutomationFireState where
  | scheduled
  | running
  | retryWait
  | succeeded
  | failed
  | partly
  | disposition
deriving DecidableEq

def AutomationFireState.isTerminal : AutomationFireState → Bool
  | succeeded | failed | partly | disposition => true
  | _ => false

structure AutomationFireRunState where
  id : String
  startedAt : ℤ
  outcome : AutomationRunOutcome
  completedAt : Option ℤ
  error : Option String
  retryAt : Option ℤ

inductive AutomationAttemptState where
  | reserved
  | retryWait
  | failed
deriving DecidableEq

def AutomationAttemptOutcome.state : AutomationAttemptOutcome → AutomationAttemptState
  | reserved => .reserved
  | retryWait _ _ => .retryWait
  | failed _ => .failed

def AutomationAttemptOutcome.retryAt : AutomationAttemptOutcome → Option ℤ
  | retryWait retryAt _ => some retryAt
  | _ => none

def AutomationAttemptOutcome.error : AutomationAttemptOutcome → Option String
  | retryWait _ error => some error
  | failed error => some error
  | reserved => none

/-- The attempt was put off, or failed. -/
def AutomationAttemptOutcome.isFailure : AutomationAttemptOutcome → Bool
  | reserved => false
  | _ => true

structure AutomationLatestAttempt where
  outcome : Option AutomationAttemptState
  retryAt : Option ℤ
  error : Option String
  completedAt : Option ℤ

def latestAttemptOf (receipt : Option AutomationFireAttemptReceipt) : AutomationLatestAttempt where
  outcome := receipt.map (·.outcome.state)
  retryAt := receipt.bind (·.outcome.retryAt)
  error := receipt.bind (·.outcome.error)
  completedAt := receipt.map (·.timeCreated)

structure AutomationFireAttemptSummary where
  count : ℕ
  failureCount : ℕ
  latest : Option AutomationLatestAttempt

/-- What the reducer answers. -/
structure AutomationFireReducedState where
  startedAt : ℤ
  completedAt : Option ℤ
  state : AutomationFireState
  attemptCount : ℕ
  attemptFailureCount : ℕ
  retryAt : Option ℤ
  error : Option String

def attemptedState (attempts : AutomationFireAttemptSummary) : AutomationFireState :=
  if attempts.count = 0 then .scheduled
  else if (attempts.latest.bind (·.outcome)) = some .failed then .failed
  else if (attempts.latest.bind (·.outcome)) = some .retryWait then .retryWait
  else .running

def countOutcome (outcome : AutomationRunOutcome) (runs : List AutomationFireRunState) : ℕ :=
  (runs.filter fun run => run.outcome = outcome).length

variable (runs : List AutomationFireRunState)

def executedState : AutomationFireState :=
  if runs.any fun run => run.outcome = .running then .running
  else if runs.any fun run => run.outcome = .retryWait then .retryWait
  else if countOutcome .failed runs = runs.length then .failed
  else if 0 < countOutcome .failed runs then .partly
  else if countOutcome .disposition runs = runs.length then .disposition
  else if countOutcome .succeeded runs + countOutcome .disposition runs = runs.length then .succeeded
  else .running

def memberRetryAt : Option ℤ :=
  (toSorted compare (runs.filterMap fun run =>
    if run.outcome = .retryWait then run.retryAt else none)).head?

def joinedErrors : Option String :=
  let runErrors := runs.filterMap fun run => truthy run.error
  if runErrors = [] then none else some ("; ".intercalate runErrors)

def reduceAutomationFireState (fire : AutomationFire) (runs : List AutomationFireRunState)
    (attempts : AutomationFireAttemptSummary) : AutomationFireReducedState :=
  let state := if runs = [] then attemptedState attempts else executedState runs
  { startedAt := ((runs.map (·.startedAt)).min?).getD fire.timeCreated
    completedAt :=
      if state.isTerminal then
        if runs = [] then attempts.latest.bind (·.completedAt)
        else (runs.map fun run => run.completedAt.getD 0).max?
      else none
    state := state
    attemptCount := attempts.count
    attemptFailureCount := attempts.failureCount
    retryAt :=
      if (attempts.latest.bind (·.outcome)) = some .retryWait then attempts.latest.bind (·.retryAt)
      else memberRetryAt runs
    error := (attempts.latest.bind (·.error)) <|> joinedErrors runs }

def reduceAutomationFireFailureCount (state : AutomationFireState) (attemptFailureCount : ℕ)
    (memberFailureCounts : List ℕ) : ℕ :=
  if state = .scheduled ∨ state = .succeeded ∨ state = .disposition then 0
  else attemptFailureCount + maxOrZero memberFailureCounts

structure AutomationFireProjection where
  id : String
  automationRevisionID : String
  automationID : String
  origin : AutomationFireOrigin
  scheduledDueAt : ℤ
  reduced : AutomationFireReducedState
  runs : List AutomationRunRow

/-- What the reducer reads of a projected run. -/
def AutomationRunRow.fireRunState (run : AutomationRunRow) : AutomationFireRunState where
  id := run.run.id
  startedAt := run.run.startedAt
  outcome := run.outcome
  completedAt := run.completedAt
  error := run.error
  retryAt := run.retryAt

def attemptSummary (attempts : List AutomationFireAttempt) : AutomationFireAttemptSummary where
  count := attempts.length
  failureCount := (attempts.filter fun attempt =>
    (db.attemptReceipt attempt.id).any (·.outcome.isFailure)).length
  latest := attempts.getLast?.map fun attempt => latestAttemptOf (db.attemptReceipt attempt.id)

def projectAutomationFireInTransaction (fire : AutomationFire) :
    Except AutomationError AutomationFireProjection := do
  let definition ← getOrThrow (db.findDefinition fire.automationRevisionID)
    (.error ("Automation fire " ++ fire.id ++ " references missing revision " ++ fire.automationRevisionID))
  let runs ← (orderBy AutomationRun.orderKey (db.runsOf fire.id)).mapM
    (projectAutomationRunInTransaction db)
  let attempts := orderBy AutomationFireAttempt.orderKey (db.attemptsOf fire.id)
  return {
    id := fire.id
    automationRevisionID := fire.automationRevisionID
    automationID := definition.definitionID
    origin := fire.origin
    scheduledDueAt := fire.scheduledDueAt
    reduced := reduceAutomationFireState fire (runs.map (·.fireRunState)) (attemptSummary db attempts)
    runs := runs }

end Projection

end OpenCorvus.Scheduler
