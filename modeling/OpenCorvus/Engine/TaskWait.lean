import OpenCorvus.Engine.TaskRootAcceptance
import OpenCorvus.Foundation.ExecutableSystem

/-!
# Task waits

The registration of a wait by the Tool of an activation, and the wake that materializes a due wait.
With acceptance, which supersedes the waits of a Task, these are the writers of the waits, of their
settlements and of the ingresses.
-/

namespace OpenCorvus.Engine

open EcmaScript Transaction

/-- The columns of a registration that acceptance does not read. -/
structure TaskWaitIntentRow where
  waitID : String
  /-- One registration per Tool call. -/
  toolPartID : String
  reason : String
  inputDigest : String
  creatorActivationID : String
deriving DecidableEq

structure TaskWaitState where
  db : TaskRootDatabase
  intents : List TaskWaitIntentRow
deriving DecidableEq

/-- The identities that the source derives by hashing its arguments. -/
class TaskWaitIdentity where
  /-- The identity of a wait: its Tool call. -/
  taskWaitID : String → String
  /-- The digest of the input: Task, epoch, duration and reason. -/
  scheduledToolInputDigest : String → ℕ → ℤ → String → String

export TaskWaitIdentity (taskWaitID scheduledToolInputDigest)

structure TaskWaitToolOccurrence where
  sessionID : String
  messageID : String
  toolPartID : String
  toolCallID : String

structure CreateTaskWaitInput where
  taskID : String
  projectID : String
  durationMs : ℤ
  reason : String
  occurrence : TaskWaitToolOccurrence
  now : ℤ

inductive TaskWaitStatus where
  | scheduled
  | due
  | settled (disposition : TaskWaitDisposition)
  | terminalInapplicable

structure TaskWaitProjection where
  id : String
  taskID : String
  executionEpoch : ℕ
  dueAt : ℤ
  status : TaskWaitStatus
  ingressID : Option String
  timeCreated : ℤ

def scheduledToolOccurrenceConflict (occurrence : TaskWaitToolOccurrence) (reason : String) : EngineError :=
  .error ("wait Tool occurrence " ++ occurrence.toolPartID ++ " " ++ reason)

section Operations

variable (db : TaskRootDatabase)

/-- The Tool call is its persisted request. -/
def assertScheduledToolOccurrenceInTransaction (occurrence : TaskWaitToolOccurrence) :
    Except EngineError Unit := do
  let conflict := scheduledToolOccurrenceConflict occurrence "does not match its persisted request"
  let request ← getOrThrow (db.toolRequests.find? fun row => row.id = occurrence.toolPartID) conflict
  let message ← getOrThrow (db.findMessage request.messageID) conflict
  throwWhen (request.messageID ≠ occurrence.messageID ∨ message.sessionID ≠ occurrence.sessionID ∨
    request.callID ≠ occurrence.toolCallID ∨ request.tool ≠ "wait") conflict

def projectTaskWaitInTransaction (row : TaskWaitRegistrationRow) (now : ℤ) :
    Except EngineError TaskWaitProjection := do
  let projection (status : TaskWaitStatus) (ingressID : Option String) : TaskWaitProjection :=
    { id := row.id, taskID := row.taskID, executionEpoch := row.executionEpoch, dueAt := row.dueAt,
      status := status, ingressID := ingressID, timeCreated := row.timeCreated }
  match db.findWaitSettlement row.id with
  | some settlement =>
    return projection (.settled settlement.disposition) (some settlement.ingressID)
  | none => do
    let lifecycle ← taskLifecycleProjectionInTransaction db.events row.taskID
    if lifecycle.epoch ≠ row.executionEpoch ∨ lifecycle.status ≠ .active then
      return projection .terminalInapplicable none
    else if row.dueAt ≤ now then return projection .due none
    else return projection .scheduled none

/-- The ingress whose activation makes the Tool call, and the activation. -/
def taskWaitCreator (input : CreateTaskWaitInput) (executionEpoch : ℕ) :
    Except EngineError (String × TaskRootIngressRow) := do
  let owner : EngineError := .error ("Task wait Tool occurrence " ++ input.occurrence.toolPartID ++
    " has no Task-root activation owner")
  let lost : EngineError := .error ("Task wait Tool occurrence " ++ input.occurrence.toolPartID ++
    " lost its exact Task-root frontier")
  let activationID ← getOrThrow
    (((db.findMessage input.occurrence.messageID).bind (·.activationID)).filter (· ≠ "")) owner
  let lease ← getOrThrow (db.activations.leases.find? fun row => row.id = activationID) lost
  let creator ← getOrThrow (db.findIngress lease.targetID) lost
  throwWhen (lease.target ≠ .taskRootIngress ∨ lease.expiresAt ≤ input.now ∨
    creator.taskID ≠ input.taskID ∨ creator.executionEpoch ≠ executionEpoch) lost
  return (activationID, creator)

/-- Insert a registration under the primary key and the lineage trigger of the table. -/
def insertTaskWaitRegistration (task : TaskRow) (creator : TaskRootIngressRow)
    (row : TaskWaitRegistrationRow) : Except EngineError TaskRootDatabase := do
  throwWhen (creator.projectID ≠ task.projectID)
    (.database "engine_task_wait_registration: invalid Tool creator lineage")
  throwWhen (db.waits.any fun other => other.id = row.id)
    (.database "UNIQUE constraint failed: engine_task_wait_registration.id")
  return { db with waits := db.waits ++ [row] }

def ingressesAfter (taskID : String) (executionEpoch sequence : ℕ) : List TaskRootIngressRow :=
  db.ingresses.filter fun row =>
    row.taskID = taskID ∧ row.executionEpoch = executionEpoch ∧ sequence < row.sequence

def TaskRootIngressRow.compareSequence (left right : TaskRootIngressRow) : Ordering :=
  (compare left.sequence right.sequence).then (compare left.id right.id)

def supersedeNewTaskWait (waitID : String) (creator : TaskRootIngressRow) (now : ℤ) :
    Except EngineError TaskRootDatabase :=
  match toSorted TaskRootIngressRow.compareSequence
      (ingressesAfter db creator.taskID creator.executionEpoch creator.sequence) with
  | [] => .ok db
  | newerIngress :: _ =>
    settleTaskWaitForIngressInTransaction db waitID newerIngress.id .superseded now

end Operations

section Create

variable [TaskWaitIdentity] (s : TaskWaitState) (input : CreateTaskWaitInput)

/-- The registration of a Tool call that registered before must not change its input. -/
def replayTaskWait (existing : TaskWaitIntentRow) (row : TaskWaitRegistrationRow) :
    Except EngineError (TaskWaitProjection × TaskWaitState) := do
  throwWhen (row.taskID ≠ input.taskID ∨ existing.reason ≠ input.reason ∨ existing.inputDigest ≠
      scheduledToolInputDigest input.taskID row.executionEpoch input.durationMs input.reason)
    (scheduledToolOccurrenceConflict input.occurrence "changed its immutable input")
  let projection ← projectTaskWaitInTransaction s.db row input.now
  return (projection, s)

/-- Register the wait of a Tool call for the first time. -/
def createNewTaskWait : Except EngineError (TaskWaitProjection × TaskWaitState) := do
  let task ← getOrThrow
    (s.db.tasks.find? fun row => row.id = input.taskID ∧ row.projectID = input.projectID)
    (.error ("Task wait target does not exist in Project: " ++ input.taskID))
  let lifecycle ← taskLifecycleProjectionInTransaction s.db.events input.taskID
  throwWhen (lifecycle.status ≠ .active)
    (.error ("Task " ++ input.taskID ++ " epoch " ++ toString lifecycle.epoch ++
      " cannot register a wait while " ++ lifecycle.status.text))
  let (activationID, creator) ← taskWaitCreator s.db input lifecycle.epoch
  let row : TaskWaitRegistrationRow :=
    { id := taskWaitID input.occurrence.toolPartID, taskID := input.taskID
      executionEpoch := lifecycle.epoch, creatorIngressID := creator.id
      dueAt := input.now + input.durationMs, timeCreated := input.now }
  let inserted ← insertTaskWaitRegistration s.db task creator row
  let settled ← supersedeNewTaskWait inserted row.id creator input.now
  let projection ← projectTaskWaitInTransaction settled row input.now
  return (projection,
    { db := settled
      intents := s.intents ++
        [{ waitID := row.id, toolPartID := input.occurrence.toolPartID, reason := input.reason
           inputDigest := scheduledToolInputDigest input.taskID lifecycle.epoch input.durationMs input.reason
           creatorActivationID := activationID }] })

/-- Register the wait of a Tool call, or replay its registration. -/
def createTaskWait : Except EngineError (TaskWaitProjection × TaskWaitState) := do
  throwWhen (input.durationMs ≤ 0 ∨ MAX_SAFE_INTEGER < input.durationMs.natAbs)
    (.error ("Invalid Task wait duration: " ++ toString input.durationMs))
  assertScheduledToolOccurrenceInTransaction s.db input.occurrence
  match s.intents.find? fun row => row.toolPartID = input.occurrence.toolPartID with
  | none => createNewTaskWait s input
  | some existing => do
    let row ← getOrThrow (s.db.findWait existing.waitID)
      (.database "engine_task_wait_registration: row is missing")
    replayTaskWait s input existing row

end Create

section Due

variable (db : TaskRootDatabase)

def TaskWaitRegistrationRow.compareDue (left right : TaskWaitRegistrationRow) : Ordering :=
  (compare left.dueAt right.dueAt).then (compare left.id right.id)

def dueTaskWaitsInTransaction (taskID : String) (executionEpoch : ℕ) (now : ℤ) : List TaskWaitRegistrationRow :=
  toSorted TaskWaitRegistrationRow.compareDue (db.waits.filter fun wait =>
    wait.taskID = taskID ∧ wait.executionEpoch = executionEpoch ∧ wait.dueAt ≤ now ∧
      (db.findWaitSettlement wait.id).isNone)

def OrchestratorEvent.bare (note : Option String) : OrchestratorEvent where
  note := note
  taskCreation := none
  taskWaitActivity := none
  taskWaitWake := none
  rootMessage := none
  missionAcceptanceResume := none
  coordinationRequest := none
  processRecovery := none
  dispatchInfrastructureFailure := none
  agentLifecycleDelivery := none

def TaskWaitRegistrationRow.wakeEvent (wait : TaskWaitRegistrationRow) : OrchestratorEvent :=
  { OrchestratorEvent.bare (some ("Task wait " ++ wait.id ++ " became due")) with
    taskWaitWake := some { jobID := wait.id, fireID := wait.id, dueAt := wait.dueAt } }

def TaskRootIngressIdentity.ofWait (waitJobID : Option String) : TaskRootIngressIdentity where
  messageID := none
  requestID := none
  recoveryFactID := none
  infrastructureFactID := none
  waitJobID := waitJobID
  lifecycleEventID := none
  taskCreationID := none

def materializeDueTaskWaitInTransaction [TaskRootIdentity] (task : TaskRow) (executionEpoch : ℕ)
    (now : ℤ) : Except EngineError (Option String × TaskRootDatabase) :=
  match dueTaskWaitsInTransaction db task.id executionEpoch now with
  | [] => .ok (none, db)
  | wait :: _ => do
    let (ingress, accepted) ← persistTaskRootIngressInTransaction db task wait.wakeEvent
      (.ofWait (some wait.id)) now
    let settled ← settleTaskWaitForIngressInTransaction accepted wait.id ingress.id
      .dueIngressAccepted now
    return (some ingress.id, settled)

def convergeDueTaskWait [TaskRootIdentity] (taskID : String) (executionEpoch : ℕ) (now : ℤ) :
    Except EngineError TaskRootDatabase := do
  let current ← taskLifecycleProjectionInTransaction db.events taskID
  if current.status ≠ .active ∨ current.epoch ≠ executionEpoch then return db
  else
    match db.findTask taskID with
    | none => return db
    | some task => do
      let (_, materialized) ← materializeDueTaskWaitInTransaction db task executionEpoch now
      return materialized

/-- The identities under which `dispatchTaskLoop` accepts an event: that of a wait is the Fire of the
wake. -/
def dispatchIdentity (event : OrchestratorEvent) (identity : TaskRootIngressIdentity) : TaskRootIngressIdentity :=
  { identity with waitJobID := event.taskWaitWake.map (·.fireID) }

end Due

/-- The transactions that write waits, settlements and ingresses, and all others. -/
inductive TaskWaitAction where
  | createTaskWait (input : CreateTaskWaitInput)
  /-- An acceptance, whoever asks for it. -/
  | accept (input : AcceptTaskRootIngressInput)
  /-- `dispatchTaskLoop` accepts an event that it admits. -/
  | dispatch (taskID : String) (event : OrchestratorEvent) (identity : TaskRootIngressIdentity) (now : ℤ)
  /-- A convergence of the Task materializes a due wait. -/
  | converge (taskID : String) (executionEpoch : ℕ) (now : ℤ)
  /-- The other tables change. -/
  | host (tables : TaskRootDatabase)

def TaskRootDatabase.withOtherTables (db tables : TaskRootDatabase) : TaskRootDatabase :=
  { tables with waits := db.waits, waitSettlements := db.waitSettlements, ingresses := db.ingresses }

def taskWaitStep [TaskRootIdentity] [TaskWaitIdentity] (s : TaskWaitState) : TaskWaitAction → Option TaskWaitState
  | .createTaskWait input => (createTaskWait s input).toOption.map Prod.snd
  | .accept input =>
    (acceptTaskRootIngressInTransaction s.db input).toOption.map fun answer =>
      { s with db := answer.2 }
  | .dispatch taskID event identity now => do
    let task ← s.db.findTask taskID
    let answer ← (persistTaskRootIngressInTransaction s.db task event
      (dispatchIdentity event identity) now).toOption
    return { s with db := answer.2 }
  | .converge taskID executionEpoch now =>
    (convergeDueTaskWait s.db taskID executionEpoch now).toOption.map fun db => { s with db := db }
  | .host tables => some { s with db := s.db.withOtherTables tables }

/-- No wait, settlement or ingress was written yet; the other tables are arbitrary. -/
structure TaskWaitState.Initial (s : TaskWaitState) : Prop where
  waits : s.db.waits = []
  waitSettlements : s.db.waitSettlements = []
  ingresses : s.db.ingresses = []

instance (s : TaskWaitState) : Decidable s.Initial :=
  decidable_of_iff (s.db.waits = [] ∧ s.db.waitSettlements = [] ∧ s.db.ingresses = [])
    ⟨fun ⟨hwaits, hsettlements, hingresses⟩ => ⟨hwaits, hsettlements, hingresses⟩,
      fun ⟨hwaits, hsettlements, hingresses⟩ => ⟨hwaits, hsettlements, hingresses⟩⟩

end OpenCorvus.Engine
