import OpenCorvus.Engine.ControlLease
import OpenCorvus.Engine.TaskRootIngressReducer
import OpenCorvus.Foundation.Transaction
import OpenCorvus.Foundation.UniqueIndex

/-!
# Task lifecycle

The lifecycle of a Task is the append-only log of its protocol events.  This file models the log
with its unique indexes and its deletion trigger, the projection of the current execution epoch, and
the operations that append lifecycle events: open, reopen, request cancellation, end, and delete.
-/

namespace OpenCorvus.Engine

open EcmaScript Transaction

inductive EngineError where
  /-- A plain error. -/
  | error (message : String)
  /-- The Task was deleted and no longer admits commands or projections. -/
  | taskDeleted (taskID : String)
  /-- An ingress is refused. -/
  | taskRootIngress (message code taskID : String)
  /-- The wake of a Task wait does not match a due and unsettled registration. -/
  | taskWaitIngressLineage (message code : String) (waitID : Option String)
  /-- The persisted evidence of an ingress breaks its integrity contract. -/
  | integrity (ingressID message : String)
  /-- An activation can never become current again. -/
  | superseded (ingressID detail : String)
  /-- A control lease operation fails. -/
  | controlLease (error : ControlLeaseError)
  /-- A row is missing. -/
  | notFound (message : String)
  /-- The Host broke its own protocol. -/
  | hostProcessingFault (message : String)
  /-- A constraint or a trigger of the database aborts the transaction. -/
  | database (message : String)
deriving DecidableEq

inductive TaskEventType where
  | opened
  | reopened
  | cancellationRequested
  | completed
  | failed
  | cancelled
  | deleted
deriving DecidableEq

def TaskEventType.isOpen (type : TaskEventType) : Bool := type = .opened ∨ type = .reopened

/-- The event ends an execution epoch. -/
def TaskEventType.isTerminal (type : TaskEventType) : Bool :=
  type = .completed ∨ type = .failed ∨ type = .cancelled

/-- The event asks for the end of an execution epoch. -/
def TaskEventType.isBoundaryRequest (type : TaskEventType) : Bool := type = .cancellationRequested

structure TaskEvent where
  id : String
  type : TaskEventType
  /-- The Task. -/
  aggregateID : String
  seq : ℕ
  emittedAt : ℤ
  /-- The execution epoch in the payload, under `execution_epoch`; a deletion alone writes it under
  `executionEpoch`. -/
  epoch : ℕ
deriving DecidableEq

/-- The positive `execution_epoch` of the payload, if it has one. -/
def TaskEvent.executionEpoch (row : TaskEvent) : Option ℕ :=
  if row.type = .deleted ∨ row.epoch = 0 then none else some row.epoch

/-- The error of an event without a positive `execution_epoch`. -/
def missingExecutionEpoch (row : TaskEvent) : EngineError :=
  .error ("Task lifecycle event " ++ row.id ++ " is missing a positive execution_epoch")

variable (events : List TaskEvent)

def taskDeletedInTransaction (taskID : String) : Bool :=
  events.any fun row => row.aggregateID = taskID ∧ row.type = .deleted

def TaskEvent.openKey (row : TaskEvent) : Option (String × ℕ) :=
  if row.type.isOpen then some (row.aggregateID, row.epoch) else none

def TaskEvent.terminalKey (row : TaskEvent) : Option (String × ℕ) :=
  if row.type.isTerminal then some (row.aggregateID, row.epoch) else none

def TaskEvent.boundaryRequestKey (row : TaskEvent) : Option (String × ℕ) :=
  if row.type.isBoundaryRequest then some (row.aggregateID, row.epoch) else none

def TaskEvent.deletedKey (row : TaskEvent) : Option String :=
  if row.type = .deleted then some row.aggregateID else none

def insertTaskEvent (row : TaskEvent) : Except EngineError (List TaskEvent) :=
  if row.type ≠ .deleted ∧ taskDeletedInTransaction events row.aggregateID then
    .error (.database "protocol_event: deleted Task rejects new lifecycle facts")
  else if UniqueIndex.Conflicts (fun row : TaskEvent => some row.id) events row then
    .error (.database "UNIQUE constraint failed: protocol_event.id")
  else if UniqueIndex.Conflicts TaskEvent.openKey events row then
    .error (.database "UNIQUE constraint failed: index 'protocol_event_task_epoch_open_idx'")
  else if UniqueIndex.Conflicts TaskEvent.terminalKey events row then
    .error (.database "UNIQUE constraint failed: index 'protocol_event_task_epoch_terminal_idx'")
  else if UniqueIndex.Conflicts TaskEvent.boundaryRequestKey events row then
    .error (.database "UNIQUE constraint failed: index 'protocol_event_task_epoch_boundary_request_idx'")
  else if UniqueIndex.Conflicts TaskEvent.deletedKey events row then
    .error (.database "UNIQUE constraint failed: index 'protocol_event_task_deleted_idx'")
  else .ok (events ++ [row])

def nextAggregateSequence (taskID : String) : ℕ :=
  maxOrZero ((events.filter fun row => row.aggregateID = taskID).map (·.seq)) + 1

def appendEventInTransaction (id taskID : String) (type : TaskEventType) (epoch : ℕ) (now : ℤ) :
    Except EngineError (List TaskEvent) :=
  insertTaskEvent events
    { id := id, type := type, aggregateID := taskID, seq := nextAggregateSequence events taskID,
      emittedAt := now, epoch := epoch }

/-- The state of the current execution epoch. -/
inductive TaskLifecycleStatus where
  | active
  | cancelling
  | completed
  | failed
  | cancelled
deriving DecidableEq

def TaskLifecycleStatus.text : TaskLifecycleStatus → String
  | active => "active"
  | cancelling => "cancelling"
  | completed => "completed"
  | failed => "failed"
  | cancelled => "cancelled"

structure TaskLifecycleProjection where
  taskID : String
  epoch : ℕ
  openedEventID : String
  openedAt : ℤ
  status : TaskLifecycleStatus
  requestEventID : Option String
  terminalEventID : Option String
  terminalAt : Option ℤ

def TaskEvent.compareSeq (left right : TaskEvent) : Ordering :=
  (compare left.seq right.seq).then (compare left.id right.id)

/-- The openings, boundary requests and terminals of a Task, in order. -/
def lifecycleRows (taskID : String) : List TaskEvent :=
  toSorted TaskEvent.compareSeq (events.filter fun row => row.aggregateID = taskID ∧ row.type ≠ .deleted)

def epochProjection (taskID : String) (latestOpen : TaskEvent) (sameEpoch : List TaskEvent) :
    TaskLifecycleProjection :=
  let projection : TaskLifecycleProjection :=
    { taskID := taskID, epoch := latestOpen.epoch, openedEventID := latestOpen.id,
      openedAt := latestOpen.emittedAt, status := .active, requestEventID := none,
      terminalEventID := none, terminalAt := none }
  match sameEpoch.filter (·.type.isTerminal) with
  | terminal :: _ =>
    { projection with
      status := if terminal.type = .cancelled then .cancelled
        else if terminal.type = .failed then .failed else .completed
      terminalEventID := some terminal.id
      terminalAt := some terminal.emittedAt }
  | [] =>
    match sameEpoch.filter (·.type.isBoundaryRequest) with
    | request :: _ => { projection with status := .cancelling, requestEventID := some request.id }
    | [] => projection

/-- The first event without a positive `execution_epoch` that the reduction meets: it reads the
openings before the other events. -/
def rowMissingExecutionEpoch (rows : List TaskEvent) : Option TaskEvent :=
  (rows.filter (·.type.isOpen) ++ rows).find? (·.executionEpoch.isNone)

/-- The projection of the latest opened epoch. -/
def reduceTaskLifecycleRows (taskID : String) (rows : List TaskEvent) :
    Except EngineError TaskLifecycleProjection :=
  match toSorted (fun left right => compare right.epoch left.epoch)
      (rows.filter (·.type.isOpen)) with
  | [] => .error (.error ("Task " ++ taskID ++ " has no execution-open lifecycle fact"))
  | latestOpen :: _ =>
    match rowMissingExecutionEpoch rows with
    | some row => .error (missingExecutionEpoch row)
    | none =>
      .ok (epochProjection taskID latestOpen (rows.filter fun row => row.epoch = latestOpen.epoch))

def taskLifecycleProjectionInTransaction (taskID : String) : Except EngineError TaskLifecycleProjection :=
  reduceTaskLifecycleRows taskID (lifecycleRows events taskID)

/-- Open the first execution epoch. -/
def appendTaskOpenedInTransaction (id taskID : String) (now : ℤ) : Except EngineError (List TaskEvent) :=
  appendEventInTransaction events id taskID .opened 1 now

/-- Open the next execution epoch of a Task whose current one has ended. -/
def appendTaskReopenedInTransaction (id taskID : String) (now : ℤ) : Except EngineError (List TaskEvent) := do
  let current ← taskLifecycleProjectionInTransaction events taskID
  throwWhen (current.status = .active ∨ current.status = .cancelling)
    (.error ("Task " ++ taskID ++ " epoch " ++ toString current.epoch ++ " is not terminal"))
  appendEventInTransaction events id taskID .reopened (current.epoch + 1) now

def cancellationRefused (taskID ending : String) : EngineError :=
  .error ("Task " ++ taskID ++ " is already " ++ ending ++
    "; cancellation accepts only an open or cancelled Task.")

def requestTaskCancellationInTransaction (id taskID : String) (now : ℤ) : Except EngineError (List TaskEvent) := do
  let lifecycle ← taskLifecycleProjectionInTransaction events taskID
  match lifecycle.status with
  | .completed => .error (cancellationRefused taskID "completed")
  | .failed => .error (cancellationRefused taskID "failed")
  | .cancelled => .ok events
  | .cancelling => .ok events
  | .active => appendEventInTransaction events id taskID .cancellationRequested lifecycle.epoch now

inductive TerminalTaskIntent where
  | completed
  | failed
  | cancelled (requestEventID : String)

def TerminalTaskIntent.type : TerminalTaskIntent → TaskEventType
  | completed => .completed
  | failed => .failed
  | cancelled _ => .cancelled

def assertTerminalIntent (lifecycle : TaskLifecycleProjection) (taskID : String) :
    TerminalTaskIntent → Except EngineError Unit
  | .cancelled requestEventID =>
    throwWhen (lifecycle.requestEventID ≠ some requestEventID) (.error ("Task " ++ taskID ++
        " cancellation terminal fact must cause from its exact request event"))
  | .completed =>
    throwWhen (lifecycle.status = .cancelling) (.error ("Task " ++ taskID ++
        " has an accepted cancellation; completed cannot supersede it."))
  | .failed =>
    throwWhen (lifecycle.status = .cancelling)
      (.error ("Task " ++ taskID ++ " has an accepted cancellation; failed cannot supersede it."))

/-- End the current epoch; an ended Task keeps its terminal. -/
def writeTerminalTaskInTransaction (id taskID : String) (intent : TerminalTaskIntent) (now : ℤ) :
    Except EngineError (List TaskEvent) := do
  throwWhen (taskDeletedInTransaction events taskID) (.taskDeleted taskID)
  let lifecycle ← taskLifecycleProjectionInTransaction events taskID
  if lifecycle.status = .completed ∨ lifecycle.status = .failed ∨ lifecycle.status = .cancelled then
    .ok events
  else do
    assertTerminalIntent lifecycle taskID intent
    appendEventInTransaction events id taskID intent.type lifecycle.epoch now

def appendTaskDeletedBoundaryInTransaction (id taskID : String) (now : ℤ) : Except EngineError (List TaskEvent) :=
  if taskDeletedInTransaction events taskID then .ok events
  else do
    let lifecycle ← taskLifecycleProjectionInTransaction events taskID
    appendEventInTransaction events id taskID .deleted lifecycle.epoch now

def lifecycleKind : TaskEventType → TaskLifecycleKind
  | .opened => .opened
  | .reopened => .reopened
  | .cancellationRequested => .cancellationRequested
  | .cancelled => .cancelled
  | .completed => .closed
  | .failed => .closed
  | .deleted => .deleted

/-- The lifecycle fact of an event, which needs a positive `execution_epoch`. -/
def lifecycleFact (row : TaskEvent) : Except EngineError TaskLifecycleFact :=
  match row.executionEpoch with
  | none => .error (missingExecutionEpoch row)
  | some epoch =>
    .ok { id := row.id, kind := lifecycleKind row.type, epoch := epoch, sequence := row.seq,
          time := row.emittedAt }

def lifecycleFacts (taskID : String) : Except EngineError (List TaskLifecycleFact) :=
  (toSorted TaskEvent.compareSeq (events.filter fun row => row.aggregateID = taskID)).mapM lifecycleFact

end OpenCorvus.Engine
