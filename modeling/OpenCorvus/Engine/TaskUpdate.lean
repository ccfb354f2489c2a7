import OpenCorvus.Engine.TaskLifecycleLog
import OpenCorvus.Engine.TaskRootDatabase
import OpenCorvus.Foundation.ExecutableSystem

/-!
# The writers of the Task lifecycle

The operations of the Task store that append lifecycle events, each one transaction over the Tasks and the event
log: creation, update to a status, opening for a continuation, request of a cancellation, and deletion.  A
cancellation converges by an update to `cancelled` that names its request.

Columns of a Task that no lifecycle event reads are left out.
-/

namespace OpenCorvus.Engine

open EcmaScript Transaction

structure TaskStore where
  tasks : List TaskRow
  events : List TaskEvent

/-- The statuses that an update may write. -/
inductive TaskStatusIntent where
  | active
  | completed
  | failed
  | cancelled
deriving DecidableEq

/-- `isTerminalTaskIntent` -/
def TaskStatusIntent.terminalType : TaskStatusIntent → Option TaskEventType
  | active => none
  | completed => some .completed
  | failed => some .failed
  | cancelled => some .cancelled

def TaskStatusIntent.text : TaskStatusIntent → String
  | active => "active"
  | completed => "completed"
  | failed => "failed"
  | cancelled => "cancelled"

structure TaskUpdateValues where
  status : Option TaskStatusIntent
  error : Option String
  /-- The values name other columns of the Task. -/
  columns : Bool

/-- What an update takes beside its values. -/
structure TerminalTaskOptions where
  /-- The request that a cancellation names. -/
  cancellationRequest : Option String
  /-- `terminalReason: "interrupted"` -/
  interrupted : Bool
  /-- What the other writes of the transaction raise. -/
  transactionEffect : Option EngineError

inductive TaskUpdateKind where
  | updated
  | unchanged
  | existingTerminal

def TaskLifecycleProjection.ended (lifecycle : TaskLifecycleProjection) : Bool :=
  lifecycle.status = .completed ∨ lifecycle.status = .failed ∨ lifecycle.status = .cancelled

section Operations

variable (store : TaskStore)

def TaskStore.findTask (taskID : String) : Option TaskRow :=
  store.tasks.find? fun row => row.id = taskID

def projectTaskRowInTransaction (row : TaskRow) : Except EngineError TaskLifecycleProjection := do
  throwWhen (taskDeletedInTransaction store.events row.id) (.taskDeleted row.id)
  taskLifecycleProjectionInTransaction store.events row.id

def createTask (id : String) (task : TaskRow) (now : ℤ) : Except EngineError TaskStore := do
  throwWhen (∃ row ∈ store.tasks, row.id = task.id) (.database "UNIQUE constraint failed: engine_task.id")
  let events ← appendTaskOpenedInTransaction store.events id task.id now
  return { tasks := store.tasks ++ [task], events := events }

/-- Reopen an ended Task that is updated to `active`. -/
def reopenForUpdate (id : String) (task : TaskRow) (lifecycle : TaskLifecycleProjection)
    (status : Option TaskStatusIntent) (now : ℤ) : Except EngineError (List TaskEvent) :=
  if status = some .active ∧ lifecycle.ended then do
    throwWhen (task.sessionID.all (· = ""))
      (.error ("Task " ++ task.id ++ " cannot reopen without its root Session identity"))
    appendTaskReopenedInTransaction store.events id task.id now
  else .ok store.events

def writeTaskUpdateInTransaction (id taskID : String) (values : TaskUpdateValues)
    (options : TerminalTaskOptions) (now : ℤ) : Except EngineError (TaskUpdateKind × TaskStore) := do
  let task ← getOrThrow (store.findTask taskID)
    (.error ("task " ++ taskID ++ " not found during updateTask"))
  let lifecycle ← projectTaskRowInTransaction store task
  let events ← reopenForUpdate store id task lifecycle values.status now
  match values.status.bind fun status => status.terminalType.map fun type => (status, type) with
  | none =>
    return (if values.columns ∨ values.status.isSome then .updated else .unchanged,
      { store with events := events })
  | some (status, type) =>
    if lifecycle.ended then return (.existingTerminal, { store with events := events })
    else do
      throwWhen ((type = .completed ∨ type = .failed) ∧ lifecycle.status = .cancelling)
        (.error ("Task " ++ taskID ++ " has an accepted cancellation; " ++ status.text ++ " cannot supersede it."))
      throwWhen (type = .cancelled ∧ lifecycle.requestEventID ≠ options.cancellationRequest)
        (.error ("Task " ++ taskID ++ " cancellation terminal fact must cause from its exact request event"))
      let ended ← appendEventInTransaction events id taskID type lifecycle.epoch now
      match options.transactionEffect with
      | some e => .error e
      | none => return (.updated, { store with events := ended })

def updateTask (id taskID : String) (values : TaskUpdateValues) (options : TerminalTaskOptions)
    (now : ℤ) : Except EngineError (TaskUpdateKind × TaskStore) := do
  throwWhen (values.status.any (·.terminalType.isSome))
    (.error "updateTask cannot write terminal task lifecycle; use terminalTask.")
  writeTaskUpdateInTransaction store id taskID values options now

def nonEmptyString (value : Option String) : Bool := value.any fun text => trim text ≠ ""

def terminalTask (id taskID : String) (status : TaskStatusIntent) (values : TaskUpdateValues)
    (options : TerminalTaskOptions) (now : ℤ) : Except EngineError (TaskUpdateKind × TaskStore) := do
  throwWhen (status = .completed ∧ values.error.isSome)
    (.error "terminalTask completed status must not carry an error.")
  throwWhen ((status = .failed ∨ status = .cancelled) ∧ ¬nonEmptyString values.error)
    (.error ("terminalTask " ++ status.text ++ " status requires a non-empty error."))
  throwWhen (status = .cancelled ∧ options.cancellationRequest = none)
    (.error "terminalTask cancelled status requires a task.cancellation.requested event link.")
  throwWhen (status ≠ .cancelled ∧ options.cancellationRequest.isSome) (.error ("terminalTask " ++ status.text ++
      " status must not carry a cancellation request event link."))
  throwWhen (options.interrupted ∧ status ≠ .failed)
    (.error "terminalTask interrupted terminal reason requires failed status.")
  writeTaskUpdateInTransaction store id taskID { values with status := some status } options now

def openTaskForContinuationInTransaction (id taskID : String) (now : ℤ) :
    Except EngineError TaskStore := do
  let task ← getOrThrow (store.findTask taskID)
    (.error ("task " ++ taskID ++ " not found during continuation open"))
  let lifecycle ← taskLifecycleProjectionInTransaction store.events taskID
  throwWhen (lifecycle.status = .active ∨ lifecycle.status = .cancelling)
    (.error ("task " ++ taskID ++ " must be terminal before continuation open"))
  throwWhen (task.sessionID.all (· = "")) (.error ("task " ++ taskID ++ " has no root Session"))
  let events ← appendTaskReopenedInTransaction store.events id taskID now
  return { store with events := events }

def requestTaskCancellation (id taskID : String) (now : ℤ) : Except EngineError TaskStore := do
  let _ ← getOrThrow (store.findTask taskID) (.notFound ("Task not found: " ++ taskID))
  let events ← requestTaskCancellationInTransaction store.events id taskID now
  return { store with events := events }

def deleteTask (id : String) (task : TaskRow) (now : ℤ) : Except EngineError TaskStore := do
  let events ← appendTaskDeletedBoundaryInTransaction store.events id task.id now
  return { store with events := events }

end Operations

/-- The lifecycle writes, each with the id of the event that it may append and its instant. -/
inductive TaskStoreWrite where
  | createTask (id : String) (task : TaskRow) (now : ℤ)
  | updateTask (id taskID : String) (values : TaskUpdateValues) (options : TerminalTaskOptions) (now : ℤ)
  | terminalTask (id taskID : String) (status : TaskStatusIntent) (values : TaskUpdateValues)
      (options : TerminalTaskOptions) (now : ℤ)
  | openTaskForContinuation (id taskID : String) (now : ℤ)
  | requestTaskCancellation (id taskID : String) (now : ℤ)
  | deleteTask (id : String) (task : TaskRow) (now : ℤ)
  /-- The row of a Task is physically deleted. -/
  | deleteTaskRow (taskID : String)

def taskStoreStep (store : TaskStore) : TaskStoreWrite → Option TaskStore
  | .createTask id task now => (createTask store id task now).toOption
  | .updateTask id taskID values options now =>
    (updateTask store id taskID values options now).toOption.map Prod.snd
  | .terminalTask id taskID status values options now =>
    (terminalTask store id taskID status values options now).toOption.map Prod.snd
  | .openTaskForContinuation id taskID now =>
    (openTaskForContinuationInTransaction store id taskID now).toOption
  | .requestTaskCancellation id taskID now =>
    (Engine.requestTaskCancellation store id taskID now).toOption
  | .deleteTask id task now => (Engine.deleteTask store id task now).toOption
  | .deleteTaskRow taskID =>
    some { store with tasks := store.tasks.filter fun row => row.id ≠ taskID }

end OpenCorvus.Engine
