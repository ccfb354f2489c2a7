import OpenCorvus.Foundation.UniqueIndex
import OpenCorvus.Util.CanonicalDigest

/-!
# Allocations of global creation requests

A request to create a Task or a Chat outside of any Project first reserves an allocation: one row under the kind and
the id of the request, with the contract of the request, what the host resolved for it, and a directory.  Later the
row is bound to the Project that is created there, and at last accepted by a target or rejected with an error.
-/

namespace OpenCorvus.Project

open Transaction Util
open EcmaScript (trim)
open Utf16 (ofString)
open Json (canonicalJSONValue)

/-- What a request creates. -/
inductive GlobalCreationKind where
  | globalTask
  | globalChatStart
deriving DecidableEq

def GlobalCreationKind.text : GlobalCreationKind → String
  | globalTask => "global_task"
  | globalChatStart => "global_chat_start"

def GlobalCreationKind.protocol : GlobalCreationKind → String
  | globalTask => "global-task-project-allocation-v2"
  | globalChatStart => "global-chat-start-request-v2"

structure GlobalCreationAllocation where
  id : String
  kind : GlobalCreationKind
  requestID : String
  requestFingerprint : String
  requestContract : Json
  resolutionSeed : Json
  taskResolution : Option Json
  materializedProjectID : Option String := none
  materializedProjectGeneration : Option String := none
  timeMaterialized : Option ℤ := none
  rejectedError : Option Json := none
  timeRejected : Option ℤ := none
  acceptedProjectID : Option String := none
  acceptedTargetID : Option String := none
  acceptedInitialConfigOverlay : Option Json := none
  timeAccepted : Option ℤ := none
  timeProjectRetained : Option ℤ := none
  directory : String
  timeCreated : ℤ

structure ProjectRow where
  id : String
  generation : String
  worktree : String
  name : Option String := none
  sandboxes : List String := []
  timeCreated : ℤ
  timeUpdated : ℤ
deriving DecidableEq

/-- A Task, as far as an acceptance reads it. -/
structure EngineTaskRow where
  id : String
  projectID : String
  sessionID : String
  requestID : Option String
  globalCreationAllocationID : Option String
  metadata : Option Json

/-- A Session, as far as an acceptance reads it. -/
structure SessionRow where
  id : String
  projectID : String
  kind : String
  metadata : Option Json

structure EngineChannelBindingRow where
  taskID : String
  platform : String
  channel : String
  thread : String
  payload : Json

structure Targets where
  tasks : List EngineTaskRow
  /-- The creation contract of a Task. -/
  contracts : List (String × Json)
  sessions : List SessionRow
  bindings : List EngineChannelBindingRow

/-- The tables. -/
structure CreationDatabase where
  allocations : List GlobalCreationAllocation
  projects : List ProjectRow
  targets : Targets

/-- The errors that an allocation may be rejected with. -/
inductive RejectionName where
  | taskChannelBindingProjectConflict
  | taskChannelBindingGlobalCreationConflict
  | globalCreationAcceptedTargetConflict
deriving DecidableEq

def RejectionName.text : RejectionName → String
  | taskChannelBindingProjectConflict => "TaskChannelBindingProjectConflictError"
  | taskChannelBindingGlobalCreationConflict => "TaskChannelBindingGlobalCreationConflictError"
  | globalCreationAcceptedTargetConflict => "GlobalCreationAcceptedTargetConflictError"

/-- What an operation raises. -/
inductive CreationError where
  | error (message : String)
  /-- `GlobalCreationAllocationConflictError` -/
  | conflict (message : String) (kind : GlobalCreationKind)
      (requestID expectedFingerprint actualFingerprint : String)
  /-- `GlobalCreationAllocatedProjectUnavailableError` -/
  | projectUnavailable (message : String) (kind : GlobalCreationKind)
      (requestID projectID projectGeneration directory : String)
  /-- One of the errors that an allocation may be rejected with. -/
  | rejection (name : RejectionName) (data : Json)
  /-- A value that a schema refuses. -/
  | schema
  /-- A trigger or a constraint of the database. -/
  | database (message : String)

def rejectionName (name : Json) : Option RejectionName :=
  match name with
  | .str units =>
    [RejectionName.taskChannelBindingProjectConflict, .taskChannelBindingGlobalCreationConflict,
      .globalCreationAcceptedTargetConflict].find? fun candidate => ofString candidate.text = units
  | _ => none

/-- `PersistedRejection.parse`: an object of a name and an object of data, and of nothing else. -/
def parseRejection (value : Json) : Except CreationError (RejectionName × Json) := do
  let name ← getOrThrow ((value.field? "name").bind rejectionName) .schema
  let data ← getOrThrow (value.field? "data") .schema
  throwWhen (data.isObject = false ∨ value.hasOnly ["name", "data"] = false) .schema
  return (name, data)

/-- `rejectionError(value)` -/
def rejectionError (value : Option Json) : CreationError :=
  match parseRejection (value.getD .null) with
  | .ok (name, data) => .rejection name data
  | .error refused => refused

/-- `length(trim(column)) > 0` -/
def named (column : Option String) : Bool := column.any fun text => text.toList.any (· ≠ ' ')

variable (row : GlobalCreationAllocation)

/-- The columns of the carrying Project are set together. -/
def GlobalCreationAllocation.projectShape : Bool :=
  (row.materializedProjectID.isNone && row.materializedProjectGeneration.isNone && row.timeMaterialized.isNone) ||
    (named row.materializedProjectID && named row.materializedProjectGeneration && row.timeMaterialized.isSome)

/-- The columns of a rejection are set together. -/
def GlobalCreationAllocation.rejectionShape : Bool :=
  (row.rejectedError.isNone && row.timeRejected.isNone) ||
    (row.rejectedError.any (fun error => ((error.field? "name").bind rejectionName).isSome &&
      (error.field? "data").any Json.isObject) && row.timeRejected.isSome)

/-- The columns of an acceptance are set together. -/
def GlobalCreationAllocation.acceptanceShape : Bool :=
  (row.acceptedProjectID.isNone && row.acceptedTargetID.isNone && row.acceptedInitialConfigOverlay.isNone &&
      row.timeAccepted.isNone) ||
    (named row.acceptedProjectID && named row.acceptedTargetID && row.acceptedInitialConfigOverlay.any Json.isObject &&
      row.timeAccepted.isSome)

def GlobalCreationAllocation.retentionShape : Bool :=
  row.timeProjectRetained.all fun retained =>
    row.materializedProjectID.isSome && (row.acceptedTargetID.isSome || row.rejectedError.isSome) &&
      row.timeMaterialized.any (· ≤ retained)

/-- The check `global_creation_allocation_fact_shape`. -/
def GlobalCreationAllocation.factShape : Bool :=
  named (some row.requestID) && row.requestFingerprint.length = 64 &&
    row.requestContract.isObject &&
    (row.requestContract.field? "protocol").any (·.isText row.kind.protocol) &&
    row.resolutionSeed.isObject &&
    (match row.kind with
      | .globalTask => row.taskResolution.any Json.isObject
      | .globalChatStart => row.taskResolution.isNone) &&
    row.projectShape && row.rejectionShape && row.acceptanceShape &&
    !(row.rejectedError.isSome && row.acceptedTargetID.isSome) &&
    (row.acceptedProjectID.isNone || row.acceptedProjectID = row.materializedProjectID) &&
    row.retentionShape && named (some row.directory)

def checkShape : Except CreationError Unit :=
  throwWhen (row.factShape = false) (.database "CHECK constraint failed: global_creation_allocation_fact_shape")

variable (projects : List ProjectRow)

def GlobalCreationAllocation.carried : Bool :=
  projects.any fun project =>
    row.materializedProjectID = some project.id && row.materializedProjectGeneration = some project.generation

/-- The trigger `global_creation_allocation_project_write_once`. -/
def projectWriteOnce (old new : GlobalCreationAllocation) : Except CreationError Unit :=
  throwWhen (old.materializedProjectID.isSome ∨ old.materializedProjectGeneration.isSome ∨ old.timeMaterialized.isSome ∨
      new.materializedProjectID.isNone ∨ new.materializedProjectGeneration.isNone ∨ new.timeMaterialized.isNone ∨
      new.carried projects = false)
    (.database "global_creation_allocation: carrying Project is append-only")

/-- The trigger `global_creation_allocation_rejection_write_once`. -/
def rejectionWriteOnce (old new : GlobalCreationAllocation) : Except CreationError Unit :=
  throwWhen (old.rejectedError.isSome ∨ old.timeRejected.isSome ∨ new.rejectedError.isNone ∨ new.timeRejected.isNone ∨
      new.acceptedTargetID.isSome)
    (.database "global_creation_allocation: rejection is append-only")

/-- The trigger `global_creation_allocation_acceptance_write_once`. -/
def acceptanceWriteOnce (old new : GlobalCreationAllocation) : Except CreationError Unit :=
  throwWhen (old.acceptedProjectID.isSome ∨ old.acceptedTargetID.isSome ∨ old.acceptedInitialConfigOverlay.isSome ∨
      old.timeAccepted.isSome ∨ new.acceptedProjectID.isNone ∨ new.acceptedTargetID.isNone ∨
      new.acceptedInitialConfigOverlay.isNone ∨ new.timeAccepted.isNone ∨ old.rejectedError.isSome ∨
      new.materializedProjectID ≠ new.acceptedProjectID)
    (.database "global_creation_allocation: aggregate acceptance is append-only")

def GlobalCreationAllocation.acceptedByTask (tasks : List EngineTaskRow) : Bool :=
  tasks.any fun task =>
    row.acceptedTargetID = some task.id && row.acceptedProjectID = some task.projectID &&
      task.requestID = some row.requestID && task.globalCreationAllocationID = some row.id

def globalChatStart (session : SessionRow) (key : String) : Option Json :=
  (session.metadata.bind (·.field? "globalChatStart")).bind (·.field? key)

def GlobalCreationAllocation.acceptedBySession (sessions : List SessionRow) : Bool :=
  sessions.any fun session =>
    row.acceptedTargetID = some session.id && row.acceptedProjectID = some session.projectID &&
      (globalChatStart session "requestID").any (·.isText row.requestID) &&
      (globalChatStart session "version").any (·.isNumber "2") &&
      (globalChatStart session "requestFingerprint").any (·.isText row.requestFingerprint)

/-- The trigger `global_creation_allocation_acceptance_target_update`. -/
def acceptanceTarget (targets : Targets) (new : GlobalCreationAllocation) : Except CreationError Unit :=
  throwWhen (new.acceptedProjectID.isSome ∧
      (match new.kind with
        | .globalTask => new.acceptedByTask targets.tasks
        | .globalChatStart => new.acceptedBySession targets.sessions) = false)
    (.database "global_creation_allocation: accepted target does not match request aggregate")

/-- The trigger `global_creation_allocation_project_retention_write_once`. -/
def retentionWriteOnce (old new : GlobalCreationAllocation) : Except CreationError Unit :=
  throwWhen (old.timeProjectRetained.isSome ∨ new.timeProjectRetained.isNone ∨
      (new.acceptedTargetID.isNone ∧ new.rejectedError.isNone) ∨ new.carried projects = false)
    (.database "global_creation_allocation: Project retention is append-only")

variable (rows : List GlobalCreationAllocation)

/-- `UPDATE global_creation_allocation SET … WHERE …`, with the triggers of the columns that are set. -/
def updateAllocations (selected : GlobalCreationAllocation → Bool)
    (set : GlobalCreationAllocation → GlobalCreationAllocation)
    (before : GlobalCreationAllocation → GlobalCreationAllocation → Except CreationError Unit) :
    Except CreationError (List GlobalCreationAllocation) :=
  rows.mapM fun row =>
    if selected row then do
      before row (set row)
      checkShape (set row)
      return set row
    else .ok row

/-- `INSERT INTO global_creation_allocation`, for a row whose nullable columns are not set. -/
def insertAllocation (row : GlobalCreationAllocation) : Except CreationError (List GlobalCreationAllocation) := do
  checkShape row
  throwWhen (∃ present ∈ rows, present.id = row.id)
    (.database "UNIQUE constraint failed: global_creation_allocation.id")
  throwWhen (∃ present ∈ rows, present.kind = row.kind ∧ present.requestID = row.requestID)
    (.database "UNIQUE constraint failed: global_creation_allocation.kind, global_creation_allocation.request_id")
  throwWhen (∃ present ∈ rows, present.directory = row.directory)
    (.database "UNIQUE constraint failed: global_creation_allocation.directory")
  return rows ++ [row]

/-- `canonicalTaskCreationContract(value)`: an object with the keys of every object sorted. -/
def canonicalTaskCreationContract (value : Json) : Except CreationError Json := do
  throwWhen (value.isObject = false) (.error "Task creation contract root must be an object")
  return value.canonical

/-- `taskCreationContractFingerprint(contract)` -/
def taskCreationContractFingerprint (contract : Json) : String :=
  canonicalDigest "task-creation-request-fingerprint-v1" contract

/-- What a caller asks for. -/
structure CreationRequest where
  kind : GlobalCreationKind
  requestID : String
  requestContract : Json
  resolutionSeed : Json
  taskResolution : Option Json

def assertRequestContract (existing : GlobalCreationAllocation) (input : CreationRequest) :
    Except CreationError GlobalCreationAllocation := do
  let requestContract ← canonicalTaskCreationContract input.requestContract
  let requestFingerprint := taskCreationContractFingerprint requestContract
  let existingContract ← canonicalTaskCreationContract existing.requestContract
  let existingFingerprint := taskCreationContractFingerprint existingContract
  throwWhen (existing.requestFingerprint ≠ existingFingerprint)
    (.error ("Global creation allocation " ++ existing.id ++
      " fingerprint does not match its canonical request contract"))
  throwWhen (canonicalJSONValue requestContract ≠ canonicalJSONValue existingContract)
    (.conflict (input.kind.text ++ " request " ++ input.requestID ++
      " is already allocated with another immutable contract") input.kind input.requestID
      existing.requestFingerprint requestFingerprint)
  return existing

def requested (kind : GlobalCreationKind) (requestID : String) : Option GlobalCreationAllocation :=
  rows.find? fun row => row.kind = kind ∧ row.requestID = requestID

variable (input : CreationRequest)

def find : Except CreationError (Option GlobalCreationAllocation) := do
  let requestID := trim input.requestID
  throwWhen (requestID = "") (.error "Global creation allocation requires a non-empty request ID")
  match requested rows input.kind requestID with
  | some existing => some <$> assertRequestContract existing { input with requestID }
  | none => return none

def allocationID (kind : GlobalCreationKind) (requestID : String) : String :=
  "gca_" ++ Sha256.sha256 (Utf16.toUtf8 (ofString (kind.text ++ "\x00" ++ requestID)))

def reservation (requestID : String) (requestContract : Json) (directory : String) (now : ℤ) :
    GlobalCreationAllocation where
  id := allocationID input.kind requestID
  kind := input.kind
  requestID := requestID
  requestFingerprint := taskCreationContractFingerprint requestContract
  requestContract := requestContract
  resolutionSeed := input.resolutionSeed
  taskResolution := input.taskResolution
  directory := directory
  timeCreated := now

def reserve (directory : String) (now : ℤ) :
    Except CreationError (List GlobalCreationAllocation × GlobalCreationAllocation) := do
  let requestID := trim input.requestID
  throwWhen (requestID = "") (.error "Global creation allocation requires a non-empty request ID")
  let requestContract ← canonicalTaskCreationContract input.requestContract
  match requested rows input.kind requestID with
  | some existing =>
    let existing ← assertRequestContract existing { input with requestID, requestContract }
    return (rows, existing)
  | none =>
    let row := reservation input requestID requestContract directory now
    return (← insertAllocation rows row, row)

structure TargetAuthority where
  /-- `globalTaskAllocationTaskRequest` -/
  taskRequest : Json → Except CreationError Json
  /-- `assertGlobalTaskAcceptedResolution`, of the allocation, the Task's contract and metadata, the metadata of its
  root Session and the initial overlay. -/
  taskResolution : GlobalCreationAllocation → Json → Option Json → Option Json → Json → Except CreationError Unit
  /-- `assertGlobalChatAcceptedSession`, of the allocation, the Session and the initial overlay. -/
  chatSession : GlobalCreationAllocation → SessionRow → Json → Except CreationError Unit

/-- An acceptance. -/
structure AcceptInput where
  allocationID : String
  kind : GlobalCreationKind
  projectID : String
  targetID : String
  acceptedAt : ℤ

/-- A text column counts as true in a condition. -/
def set (column : Option String) : Bool := column.any (· ≠ "")

/-- `metadata?.configOverlay ?? {}` -/
def configOverlay (metadata : Option Json) : Json :=
  match metadata.bind (·.field? "configOverlay") with
  | none | some .null => .obj []
  | some overlay => overlay

/-- The refusal of a target that is another one than the host resolved. -/
def acceptedTargetConflict (allocation : GlobalCreationAllocation) (input : AcceptInput) (message : String) :
    CreationError :=
  .rejection .globalCreationAcceptedTargetConflict (.fields [("message", .text message),
    ("kind", .text input.kind.text), ("requestID", .text allocation.requestID), ("targetID", .text input.targetID)])

def assertChannelClaim (allocation : GlobalCreationAllocation) (input : AcceptInput)
    (bindings : List EngineChannelBindingRow) : Except CreationError Unit :=
  match allocation.requestContract.field? "channel_binding" with
  | some (.obj fields) =>
    let claim := Json.obj fields
    let binding := bindings.find? fun binding =>
      binding.taskID = input.targetID ∧ ofString binding.platform = Json.string (claim.field? "platform") ∧
        ofString binding.channel = Json.string (claim.field? "channel") ∧
        ofString binding.thread = Json.string (claim.field? "thread")
    let payload := match claim.field? "payload" with
      | none | some .null => Json.obj []
      | some payload => payload
    throwWhen (binding.all fun binding => canonicalJSONValue binding.payload ≠ canonicalJSONValue payload)
      (.error ("Global Task allocation " ++ input.allocationID ++ " channel claim does not match its Task"))
  | _ => return

variable (authority : TargetAuthority)

/-- The part of `acceptInTransaction` that checks a Task and binds it; the overlay comes with the rows. -/
def acceptTask (targets : Targets) (allocation : GlobalCreationAllocation) (input : AcceptInput) :
    Except CreationError (Targets × Json) := do
  let expectedRequest ← authority.taskRequest allocation.requestContract
  let mismatch := CreationError.error ("Global Task allocation " ++ input.allocationID ++
    " acceptance does not match its persisted Task aggregate")
  let task ← getOrThrow (targets.tasks.find? fun task => task.id = input.targetID) mismatch
  let (_, contract) ← getOrThrow (targets.contracts.find? fun contract => contract.1 = task.id) mismatch
  let session ← getOrThrow (targets.sessions.find? fun session => session.id = task.sessionID) mismatch
  throwWhen (task.projectID ≠ input.projectID ∨ task.requestID ≠ some allocation.requestID) mismatch
  let actualRequest ← getOrThrow (contract.field? "request") .schema
  throwWhen (canonicalJSONValue actualRequest ≠ canonicalJSONValue expectedRequest) mismatch
  throwWhen (task.globalCreationAllocationID.any (· ≠ allocation.id))
    (.error ("Global Task " ++ input.targetID ++ " is already bound to another creation allocation"))
  let initialConfigOverlay ← (do
      let overlay ← canonicalTaskCreationContract (configOverlay session.metadata)
      authority.taskResolution allocation contract task.metadata session.metadata overlay
      return overlay).mapError fun _ => acceptedTargetConflict allocation input
    ("Global Task allocation " ++ input.allocationID ++ " target " ++ input.targetID ++
      " has another frozen resolution")
  assertChannelClaim allocation input targets.bindings
  if task.globalCreationAllocationID.isNone then do
    throwWhen (∃ present ∈ targets.tasks, present.globalCreationAllocationID = some allocation.id)
      (.database "UNIQUE constraint failed: engine_task.global_creation_allocation_id")
    let tasks := targets.tasks.map fun present =>
      if present.id = input.targetID then { present with globalCreationAllocationID := some allocation.id } else present
    return ({ targets with tasks }, initialConfigOverlay)
  else return (targets, initialConfigOverlay)

/-- The part of `acceptInTransaction` that checks a Session; its value is the overlay. -/
def acceptSession (targets : Targets) (allocation : GlobalCreationAllocation) (input : AcceptInput) :
    Except CreationError Json := do
  let mismatch := CreationError.error ("Global Chat allocation " ++ input.allocationID ++
    " acceptance does not match its persisted Session aggregate")
  let session ← getOrThrow (targets.sessions.find? fun session => session.id = input.targetID) mismatch
  throwWhen (session.projectID ≠ input.projectID) mismatch
  (do
      let overlay ← canonicalTaskCreationContract (configOverlay session.metadata)
      authority.chatSession allocation session overlay
      return overlay).mapError fun _ => acceptedTargetConflict allocation input
    ("Global Chat allocation " ++ input.allocationID ++ " target " ++ input.targetID ++
      " has another frozen identity")

/-- The part of `acceptInTransaction` that checks the target of the kind. -/
def acceptTarget (targets : Targets) (allocation : GlobalCreationAllocation) (input : AcceptInput) :
    Except CreationError (Targets × Json) :=
  match input.kind with
  | .globalTask => acceptTask authority targets allocation input
  | .globalChatStart => (acceptSession authority targets allocation input).map fun overlay => (targets, overlay)

def GlobalCreationAllocation.accepted (row : GlobalCreationAllocation) (input : AcceptInput) (overlay : Json) :
    GlobalCreationAllocation :=
  { row with
    acceptedProjectID := some input.projectID
    acceptedTargetID := some input.targetID
    acceptedInitialConfigOverlay := some overlay
    timeAccepted := some input.acceptedAt }

def GlobalCreationAllocation.hasAcceptance (row : GlobalCreationAllocation) : Bool :=
  set row.acceptedTargetID || set row.acceptedProjectID || row.timeAccepted.isSome

def acceptInTransaction (db : CreationDatabase) (input : AcceptInput) : Except CreationError CreationDatabase := do
  let missing := CreationError.error ("Global " ++ input.kind.text ++ " allocation " ++ input.allocationID ++
    " does not exist")
  let allocation ← getOrThrow (db.allocations.find? fun row => row.id = input.allocationID) missing
  throwWhen (allocation.kind ≠ input.kind) missing
  throwWhen (Json.truthy allocation.rejectedError ∨ allocation.timeRejected.isSome)
    (rejectionError allocation.rejectedError)
  throwWhen (allocation.materializedProjectID ≠ some input.projectID ∨
      set allocation.materializedProjectGeneration = false ∨ allocation.timeMaterialized.isNone)
    (.error ("Global creation allocation " ++ input.allocationID ++ " target is not owned by its carrying Project"))
  if allocation.hasAcceptance then do
    throwWhen (¬(allocation.acceptedProjectID = some input.projectID ∧
        allocation.acceptedTargetID = some input.targetID ∧ allocation.acceptedInitialConfigOverlay.isSome))
      (.error ("Global creation allocation " ++ input.allocationID ++ " is already accepted by another target"))
    return db
  else do
    let (targets, overlay) ← acceptTarget authority db.targets allocation input
    let allocations ← updateAllocations db.allocations (fun row => row.id = input.allocationID)
      (fun row => row.accepted input overlay) fun old new => do
        acceptanceWriteOnce old new
        acceptanceTarget targets new
    return { db with allocations, targets }

structure AcceptedTarget where
  projectID : String
  targetID : String
  acceptedAt : ℤ

def acceptedTarget (row : GlobalCreationAllocation) : Except CreationError (Option AcceptedTarget) :=
  if row.acceptedProjectID.isNone && row.acceptedTargetID.isNone && row.timeAccepted.isNone then return none
  else
    match row.acceptedProjectID.filter (· ≠ ""), row.acceptedTargetID.filter (· ≠ ""), row.timeAccepted with
    | some projectID, some targetID, some acceptedAt => return some ⟨projectID, targetID, acceptedAt⟩
    | _, _, _ => .error (.error ("Global creation allocation " ++ row.kind.text ++ "/" ++ row.requestID ++
        " has a partial acceptance"))

/-- The refusal of a row with only a part of the columns of a rejection. -/
def partialRejection : CreationError := .error "Global creation allocation has a partial rejection"

def throwIfRejected (row : GlobalCreationAllocation) : Except CreationError Unit := do
  if row.rejectedError.isNone && row.timeRejected.isNone then return
  else do
    throwWhen (Json.truthy row.rejectedError = false ∨ row.timeRejected.isNone) partialRejection
    .error (rejectionError row.rejectedError)

inductive ThrownError where
  /-- It has a `toObject`. -/
  | object (value : Json)
  | plain (name message : String)

def ThrownError.serialized : ThrownError → Json
  | object value => value
  | plain name message => .fields [("name", .text name), ("data", .fields [("message", .text message)])]

def serializedRejection (rejection : RejectionName × Json) : Json :=
  .fields [("name", .text rejection.1.text), ("data", rejection.2)]

/-- What a rejection answers. -/
inductive RejectOutcome where
  | rejected
  | accepted
deriving DecidableEq

def reject (rows : List GlobalCreationAllocation) (allocationID : String) (error : ThrownError) (rejectedAt : ℤ) :
    Except CreationError (List GlobalCreationAllocation × RejectOutcome) := do
  let serialized := serializedRejection (← parseRejection error.serialized)
  let allocation ← getOrThrow (rows.find? fun row => row.id = allocationID)
    (.error ("Global creation allocation " ++ allocationID ++ " does not exist"))
  if set allocation.acceptedTargetID then return (rows, .accepted)
  else
    match allocation.rejectedError.filter fun stored => Json.truthy (some stored) with
    | some stored => do
      throwWhen (canonicalJSONValue stored ≠ canonicalJSONValue serialized)
        (.error ("Global creation allocation " ++ allocation.id ++ " has another terminal rejection"))
      return (rows, .rejected)
    | none => do
      let rows ← updateAllocations rows (fun row => row.id = allocationID)
        (fun row => { row with rejectedError := some serialized, timeRejected := some rejectedAt }) rejectionWriteOnce
      return (rows, .rejected)

end OpenCorvus.Project
