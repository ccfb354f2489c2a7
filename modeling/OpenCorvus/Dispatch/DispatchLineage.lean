import OpenCorvus.Dispatch.EngineArtifacts
import OpenCorvus.Foundation.OrderBy

/-!
# Claims of dispatches

A Tool occurrence of an orchestrator, or a member of a collection of it, claims its dispatch before any child Session
exists.  The first claim inserts an immutable lineage; every later one resolves it.  A claim is answered with an
admission, a lease on the lineage, unless its Turn is already durable, it is settled, or another admission is live.
-/

namespace OpenCorvus.Dispatch

open Transaction UniqueIndex OrderBy Engine

/-- A text that is neither missing nor empty. -/
def truthy (text : Option String) : Option String := text.filter (· ≠ "")

structure DispatchLineageOrigin where
  dispatchID : String
  taskID : String
  orchestratorSessionID : String
  orchestratorMessageID : String
  toolPartID : String
  toolCallID : String
  toolName : Option DispatchToolName
  collectionMemberIndex : Option ℕ
  collectionMemberCount : Option ℕ
  targetAgentID : String
  projectedWorkerIdentity : ProjectedWorkerIdentity
  workScope : String
  deliverySliceRevisionIDs : Option (List String)
  workflowBinding : SelectedWorkflowBinding
  workflowNodeID : Option String
  workflowOccurrenceID : Option String
  coordinationActionID : Option String
  continuationOfDispatchID : Option String
  adapterInput : String

namespace DispatchLineageOrigin

variable (origin : DispatchLineageOrigin)

def tool : DispatchToolName := origin.toolName.getD .dispatchAgent

def occurrenceID : String := origin.workflowOccurrenceID.getD origin.dispatchID

def sliceRevisionIDs : List String := origin.deliverySliceRevisionIDs.getD []

def payload (childSessionID : String) (executionEpoch : ℕ) (deliveryOwner : String) (now : ℤ) :
    DispatchLineagePayload where
  dispatchID := origin.dispatchID
  taskID := origin.taskID
  executionEpoch := executionEpoch
  orchestratorSessionID := origin.orchestratorSessionID
  orchestratorMessageID := origin.orchestratorMessageID
  toolPartID := origin.toolPartID
  toolCallID := origin.toolCallID
  toolName := origin.tool
  collectionMemberIndex :=
    if origin.toolName = some .dispatchAgents then origin.collectionMemberIndex else none
  collectionMemberCount :=
    if origin.toolName = some .dispatchAgents then origin.collectionMemberCount else none
  childSessionID := childSessionID
  targetAgentID := origin.targetAgentID
  projectedWorkerIdentity := origin.projectedWorkerIdentity
  workScope := origin.workScope
  deliverySliceRevisionIDs := origin.sliceRevisionIDs
  workflowBinding := origin.workflowBinding
  workflowNodeID := origin.workflowNodeID
  workflowOccurrenceID := origin.occurrenceID
  coordinationActionID := truthy origin.coordinationActionID
  continuationOfDispatchID := truthy origin.continuationOfDispatchID
  deliveryOwner := deliveryOwner
  adapterInput := origin.adapterInput
  timeCreated := now

end DispatchLineageOrigin

structure DispatchProcess where
  occurrenceID : Option String
  liveness : ProcessLivenessMemory

structure ClaimDispatchLineageInput where
  origin : DispatchLineageOrigin
  childSessionID : String
  /-- The instant of the call. -/
  now : ℤ
  /-- The instant at which the closure of the Task is read. -/
  clock : ℤ
  process : DispatchProcess
  /-- The id that `Identifier.ascending("artifact")` would generate. -/
  artifactID : String
  /-- The id that `Identifier.ascending("call")` would generate. -/
  leaseID : String

section Checks

variable (store : DispatchStore)

def DispatchStore.task (taskID : String) : Option EngineTaskRow :=
  store.surroundings.tasks.find? fun task => task.id = taskID

def taskCancellationAuthorityExecutionErrorInTransaction (taskID operation : String) :
    Except DispatchError (Option DispatchError) := do
  let projection ← store.lifecycle taskID
  return if projection.status = .cancelling then
    projection.requestEventID.map fun requestEventID =>
      .executionCancellation (operation ++ " is inapplicable under Task " ++ taskID ++ " cancellation " ++
        requestEventID)
  else none

variable (taskID : String)

def projectTaskRowInTransaction : Except DispatchError (Option ℤ) := do
  throwWhen (taskDeletedInTransaction store.events taskID) (.engine (.taskDeleted taskID))
  let lifecycle ← store.lifecycle taskID
  return lifecycle.terminalAt

structure TaskCompletionClosure where
  ownerID : String
  activationID : String
  expiresAt : ℤ
deriving DecidableEq

def taskCompletionTargetID (epoch : ℕ) : String :=
  "task-completion:" ++ taskID ++ ":" ++ toString epoch

def taskCompletionClosureInTransaction (now : ℤ) : Except DispatchError (Option TaskCompletionClosure) := do
  let lifecycle ← store.lifecycle taskID
  let lease := currentControlLeaseInTransaction store.leases .lifecycle
    (taskCompletionTargetID taskID lifecycle.epoch)
  return (lease.filter fun lease => now < lease.expiresAt ∧ lifecycle.status = .active).map fun lease =>
    ⟨lease.ownerOccurrenceID, lease.id, lease.expiresAt⟩

def dispatchCreatorExecutionEpochInTransaction (origin : DispatchLineageOrigin) : Except DispatchError ℕ :=
  let request := store.surroundings.toolRequests.find? fun request => request.id = origin.toolPartID ∧
    request.messageID = origin.orchestratorMessageID ∧ request.callID = origin.toolCallID ∧
    request.tool = origin.tool.text
  let epoch := do
    let _ ← request
    let message ← store.surroundings.messages.find? fun message =>
      message.id = origin.orchestratorMessageID ∧ message.sessionID = origin.orchestratorSessionID ∧
        message.fromOrchestrator
    let activation ← store.leases.leases.find? fun lease =>
      lease.target = .taskRootIngress ∧ some lease.id = message.activationID
    let ingress ← store.surroundings.ingresses.find? fun ingress =>
      ingress.id = activation.targetID ∧ ingress.taskID = origin.taskID
    return ingress.executionEpoch
  getOrThrow epoch (.error ("Dispatch " ++ origin.dispatchID ++
    " has no exact Task-root creator occurrence for Tool " ++ origin.toolPartID ++ "/" ++ origin.toolCallID))

def assertCurrentDeliverySliceRevisionIDs (revisionIDs : List String) (subject : String) :
    Except DispatchError Unit :=
  let current := ((store.task taskID).map EngineTaskRow.goalRevisionIDs).getD []
  let missing := revisionIDs.filter fun revisionID => revisionID ∉ current
  throwWhen (missing ≠ []) (.error (subject ++
    " Delivery Slice revisions are not current members of Task " ++ taskID ++ ": " ++
    ", ".intercalate missing.eraseDups))

def requireTaskPackageRevisionBinding : Except DispatchError ExpertSquadPackageRevisionBinding :=
  getOrThrow ((store.task taskID).bind EngineTaskRow.creationBinding)
    (.error ("Task " ++ taskID ++ " requires exactly one immutable package revision binding; found 0"))

def DispatchStore.otherWorkflow (binding : SelectedWorkflowBinding) : Option EngineArtifact :=
  (store.artifactsOf taskID).find? fun row => row.workflowBinding.any (· ≠ binding)

def assertTaskWorkflowBindingInTransaction (binding : SelectedWorkflowBinding) : Except DispatchError Unit := do
  let sessionID ← getOrThrow (truthy ((store.task taskID).bind EngineTaskRow.sessionID))
    (.error ("Task " ++ taskID ++ " has no root Session for workflow binding"))
  let session ← getOrThrow (store.surroundings.sessions.find? fun session => session.id = sessionID)
    (.error ("Task " ++ taskID ++ " root Session " ++ sessionID ++ " is missing"))
  let activeProfileID ← getOrThrow session.activeProfileID
    (.error ("Task " ++ taskID ++ " root Session " ++ sessionID ++ " has no frozen active expert squad"))
  throwWhen (activeProfileID ≠ binding.packageRevision.id)
    (.error ("Task " ++ taskID ++ " active expert squad " ++ activeProfileID ++
      " does not match first workflow binding package " ++ binding.packageRevision.id))
  let creationBinding ← requireTaskPackageRevisionBinding store taskID
  throwWhen (creationBinding ≠ binding.packageRevision) (.error ("Task " ++ taskID ++
      " workflow package revision does not match immutable creation package revision binding"))
  throwSome ((store.otherWorkflow taskID binding).map fun row => .taskWorkflowBindingConflict taskID row.id)

def DispatchStore.findAction (taskID actionID : String) : Option AgentCoordinationActionFact :=
  (store.findArtifact taskID actionID).bind EngineArtifact.action

def DispatchStore.findRequest (taskID requestID : String) : Option AgentCoordinationRequestFact :=
  (store.findArtifact taskID requestID).bind EngineArtifact.request

def DispatchStore.findOutcomeOfAction (taskID actionID : String) :
    Option (EngineArtifact × AgentCoordinationActionOutcomeFact) :=
  (store.artifactsOf taskID).findSome? fun row =>
    (row.outcome.filter fun fact => fact.actionID = actionID).map fun fact => (row, fact)

def assertCoordinationDispatchAdmissionInTransaction (actionID : Option String)
    (childSessionID targetAgentID : String) : Except DispatchError Unit :=
  match truthy actionID with
  | none => .ok ()
  | some actionID => do
    let refusal : DispatchError := .error ("Dispatch coordination action " ++ actionID ++
      " is not the exact pending redispatch authority")
    let action ← getOrThrow ((store.findAction taskID actionID).filter fun action =>
      action.action = .redispatchWorker) refusal
    let lifecycle ← store.lifecycle taskID
    throwWhen (action.executionEpoch ≠ lifecycle.epoch ∨
      (store.findOutcomeOfAction taskID actionID).isSome ∨ action.targetSessionID ≠ childSessionID ∨
      action.targetAgent ≠ targetAgentID) refusal
    throwWhen (∀ request ∈ store.findRequest taskID action.requestID, request.sessionID ≠ childSessionID)
      (.error ("Dispatch coordination action " ++ actionID ++ " is not bound to one exact source lineage Session"))

def DispatchLineageRow.ContinuedBy (source : DispatchLineageRow) (origin : DispatchLineageOrigin)
    (childSessionID : String) : Prop :=
  source.payload.childSessionID = childSessionID ∧ source.payload.workflowOccurrenceID = origin.occurrenceID ∧
    source.payload.workflowNodeID = origin.workflowNodeID ∧
    source.payload.targetAgentID = origin.targetAgentID ∧
    source.payload.workflowBinding = origin.workflowBinding

instance (source : DispatchLineageRow) (origin : DispatchLineageOrigin) (childSessionID : String) :
    Decidable (source.ContinuedBy origin childSessionID) := inferInstanceAs (Decidable (_ ∧ _))

def assertDispatchContinuationInTransaction (origin : DispatchLineageOrigin) (childSessionID : String) :
    Except DispatchError Unit :=
  match truthy origin.continuationOfDispatchID with
  | none => do
    throwSome ((truthy origin.coordinationActionID).map fun actionID =>
      .error ("Dispatch coordination action " ++ actionID ++ " has no exact source dispatch"))
    throwWhen (origin.occurrenceID ≠ origin.dispatchID)
      (.error ("Initial dispatch " ++ origin.dispatchID ++ " must own its workflow occurrence identity"))
  | some sourceID => do
    let source ← getOrThrow ((findDispatchLineageByDispatchID store origin.taskID sourceID).filter fun source =>
      source.ContinuedBy origin childSessionID)
      (.error ("Dispatch " ++ origin.dispatchID ++ " does not exactly continue source " ++ sourceID ++
        " and its Session"))
    match truthy origin.coordinationActionID with
    | none => .ok ()
    | some actionID =>
      let request := (store.findAction origin.taskID actionID).bind fun action =>
        store.findRequest origin.taskID action.requestID
      throwWhen (∀ fact ∈ request, fact.dispatchLineageID ≠ source.artifactID)
        (.error ("Dispatch coordination action " ++ actionID ++ " does not own source lineage " ++
          source.artifactID))

/-- The key of `ORDER BY time_created, id`. -/
def DispatchLineageRow.orderKey (row : DispatchLineageRow) : ℤ ×ₗ String :=
  toLex (row.payload.timeCreated, row.artifactID)

def initialWorkflowNodeLineagesInTransaction (taskID workflowID workflowNodeID : String) :
    List DispatchLineageRow :=
  orderBy DispatchLineageRow.orderKey ((store.lineagesOf taskID).filter fun row =>
    row.payload.workflowBinding.workflowID = some workflowID ∧
      row.payload.workflowNodeID = some workflowNodeID ∧ row.payload.IsInitial)

def workflowLineageReferences (lineages : List DispatchLineageRow) : List WorkflowNodeOccurrenceLineageReference :=
  lineages.map fun lineage => ⟨lineage.artifactID, lineage.dispatchID, lineage.payload.childSessionID,
    lineage.payload.workflowOccurrenceID⟩

def assertWorkflowNodeLineageAdmissionInTransaction (origin : DispatchLineageOrigin)
    (childSessionID : String) : Except DispatchError Unit :=
  match origin.workflowBinding with
  | .direct _ => throwWhen (origin.workflowNodeID ≠ none)
    (.error "Direct workflow occurrence cannot name a workflow node")
  | .virtualWorkflow workflowID _ nodes => do
    let nodeID ← getOrThrow ((truthy origin.workflowNodeID).filter fun nodeID =>
      nodes.any fun node => node.nodeID = nodeID)
      (.error ("Workflow " ++ workflowID ++ " does not declare node " ++ origin.workflowNodeID.getD "null"))
    assertTaskWorkflowBindingInTransaction store origin.taskID origin.workflowBinding
    let initial := initialWorkflowNodeLineagesInTransaction store origin.taskID workflowID nodeID
    let conflict : DispatchError := .workflowNodeOccurrenceConflict origin.taskID workflowID nodeID
      (workflowLineageReferences initial)
    throwWhen (1 < initial.length) conflict
    if (truthy origin.continuationOfDispatchID).isSome ∨ (truthy origin.coordinationActionID).isSome then
      throwWhen (∀ authority ∈ initial.head?, ¬(authority.dispatchID = origin.occurrenceID ∧
        authority.payload.workflowOccurrenceID = origin.occurrenceID ∧
        authority.payload.childSessionID = childSessionID))
        (.error ("Task " ++ origin.taskID ++ " workflow " ++ workflowID ++ " node " ++ nodeID ++
          " continuation does not reuse its initial lineage occurrence and Session"))
    else do
      throwWhen (origin.occurrenceID ≠ origin.dispatchID)
        (.error ("Task " ++ origin.taskID ++ " workflow " ++ workflowID ++ " node " ++ nodeID ++
          " initial lineage must own its occurrence identity"))
      throwWhen (initial ≠ []) conflict

def recordDispatchLineage (input : ClaimDispatchLineageInput) :
    Except DispatchError (DispatchLineageRow × DispatchStore) := do
  let origin := input.origin
  let owner ← getOrThrow input.process.occurrenceID (.liveness (.ownerUnavailable
    ("Dispatch " ++ origin.dispatchID ++ " cannot establish its runtime process occurrence")))
  assertCurrentDeliverySliceRevisionIDs store origin.taskID origin.sliceRevisionIDs "Dispatch lineage"
  let executionEpoch ← dispatchCreatorExecutionEpochInTransaction store origin
  let payload := origin.payload input.childSessionID executionEpoch owner input.now
  throwWhen (¬payload.WellFormed) (.error ("Invalid dispatch_lineage artifact " ++ input.artifactID))
  (assertProcessLivenessOwnerInTransaction input.process.liveness store.leases owner
    input.now).1.mapError .liveness
  let cancellation ← taskCancellationAuthorityExecutionErrorInTransaction store origin.taskID
    ("dispatch_agent " ++ origin.targetAgentID ++ " lineage commit")
  throwSome cancellation
  throwWhen (store.task origin.taskID = none) (.error ("Dispatch Task " ++ origin.taskID ++ " does not exist"))
  let timeCompleted ← projectTaskRowInTransaction store origin.taskID
  throwSome (timeCompleted.map fun timeCompleted =>
    .taskDispatchAdmissionClosed origin.taskID timeCompleted origin.dispatchID)
  let completionClosure ← taskCompletionClosureInTransaction store origin.taskID input.clock
  throwSome (completionClosure.map fun closure =>
    .taskCompletionClosureConflict origin.taskID closure.ownerID)
  assertTaskWorkflowBindingInTransaction store origin.taskID origin.workflowBinding
  assertCurrentDeliverySliceRevisionIDs store origin.taskID payload.deliverySliceRevisionIDs "Dispatch lineage"
  assertCoordinationDispatchAdmissionInTransaction store origin.taskID origin.coordinationActionID
    input.childSessionID origin.targetAgentID
  assertDispatchContinuationInTransaction store origin input.childSessionID
  assertWorkflowNodeLineageAdmissionInTransaction store origin input.childSessionID
  let inserted ← insertEngineArtifact store
    ⟨input.artifactID, origin.taskID, .dispatchLineage payload, input.now⟩
  return (⟨input.artifactID, origin.taskID, payload⟩, inserted)

def findDispatchLineageByToolExecution (taskID toolPartID toolCallID : String) :
    Except DispatchError (Option DispatchLineageRow) := do
  let rows := orderBy DispatchLineageRow.orderKey ((store.lineagesOf taskID).filter fun row =>
    row.payload.toolName = .dispatchAgent ∧ row.payload.toolPartID = toolPartID ∧
      row.payload.toolCallID = toolCallID)
  throwWhen (1 < rows.length) (.error ("Dispatch tool execution " ++ toolPartID ++ "/" ++ toolCallID ++
    " has " ++ toString rows.length ++ " immutable lineages"))
  return rows.head?

def findDispatchLineageByCollectionMember (taskID toolPartID toolCallID : String)
    (memberIndex memberCount : Option ℕ) : Except DispatchError (Option DispatchLineageRow) := do
  let rows := orderBy DispatchLineageRow.orderKey ((store.lineagesOf taskID).filter fun row =>
    row.payload.toolName = .dispatchAgents ∧ row.payload.toolPartID = toolPartID ∧
      row.payload.toolCallID = toolCallID ∧ row.payload.collectionMemberIndex = memberIndex ∧
      memberIndex.isSome)
  let member := "Dispatch collection member " ++ toolPartID ++ "/" ++ toolCallID ++ "/" ++
    (memberIndex.map toString).getD "undefined"
  throwWhen (1 < rows.length) (.error (member ++ " has " ++ toString rows.length ++ " immutable lineages"))
  throwSome ((rows.head?.filter fun lineage => lineage.payload.collectionMemberCount ≠ memberCount).map
    fun lineage => .error (member ++ " count drift: " ++
      (lineage.payload.collectionMemberCount.map toString).getD "missing" ++ " != " ++
      (memberCount.map toString).getD "undefined"))
  return rows.head?

def occurrenceLineage (origin : DispatchLineageOrigin) : Except DispatchError (Option DispatchLineageRow) :=
  if origin.toolName = some .dispatchAgents then
    findDispatchLineageByCollectionMember store origin.taskID origin.toolPartID origin.toolCallID
      origin.collectionMemberIndex origin.collectionMemberCount
  else findDispatchLineageByToolExecution store origin.taskID origin.toolPartID origin.toolCallID

end Checks

def dispatchLineageMatchesClaim (lineage : DispatchLineageRow) (origin : DispatchLineageOrigin)
    (childSessionID : String) : Prop :=
  let payload := lineage.payload
  lineage.dispatchID = origin.dispatchID ∧ payload.childSessionID = childSessionID ∧
    payload.orchestratorSessionID = origin.orchestratorSessionID ∧
    payload.orchestratorMessageID = origin.orchestratorMessageID ∧ payload.toolPartID = origin.toolPartID ∧
    payload.toolCallID = origin.toolCallID ∧ payload.toolName = origin.tool ∧
    payload.collectionMemberIndex = origin.collectionMemberIndex ∧
    payload.collectionMemberCount = origin.collectionMemberCount ∧
    payload.targetAgentID = origin.targetAgentID ∧
    payload.projectedWorkerIdentity = origin.projectedWorkerIdentity ∧ payload.workScope = origin.workScope ∧
    payload.deliverySliceRevisionIDs = origin.sliceRevisionIDs ∧
    payload.workflowBinding = origin.workflowBinding ∧ payload.workflowNodeID = origin.workflowNodeID ∧
    payload.workflowOccurrenceID = origin.occurrenceID ∧
    payload.coordinationActionID = origin.coordinationActionID ∧
    payload.continuationOfDispatchID = origin.continuationOfDispatchID ∧
    payload.adapterInput = origin.adapterInput

instance (lineage : DispatchLineageRow) (origin : DispatchLineageOrigin) (childSessionID : String) :
    Decidable (dispatchLineageMatchesClaim lineage origin childSessionID) :=
  inferInstanceAs (Decidable (_ ∧ _))

structure DispatchAdmissionOwner where
  lineageArtifactID : String
  leaseID : String
  ownerOccurrenceID : String
  expiresAt : ℤ

def dispatchAdmissionOwner (lineageArtifactID : String) (lease : ControlLease) : DispatchAdmissionOwner :=
  ⟨lineageArtifactID, lease.id, lease.ownerOccurrenceID, lease.expiresAt⟩

/-- How long an admission lasts. -/
def dispatchAdmissionLeaseMilliseconds : ℤ := 120000

def DispatchAdmissionOwner.claim (owner : DispatchAdmissionOwner) (now : ℤ) : ControlLeaseClaim where
  target := .dispatchAdmission
  targetID := owner.lineageArtifactID
  leaseID := owner.leaseID
  ownerOccurrenceID := owner.ownerOccurrenceID
  now := now

structure DispatchClaim where
  lineage : DispatchLineageRow
  createdNow : Bool
  admission : Option DispatchAdmissionOwner
  currentAdmission : Option DispatchAdmissionOwner

section Claims

variable (store : DispatchStore) (lineage : DispatchLineageRow)

def DispatchStore.acceptedDescriptor : Option WorkerTurnDescriptor :=
  store.descriptors.find? fun descriptor => descriptor.sessionID = lineage.payload.childSessionID ∧
    descriptor.dispatchTurn.any fun turn => turn.currentDispatchID = lineage.dispatchID

def DispatchStore.findSettlement (taskID dispatchID : String) :
    Option (EngineArtifact × DispatchSettlementPayload) :=
  (store.artifactsOf taskID).findSome? fun row =>
    (row.settlement.filter fun payload => payload.dispatchID = dispatchID).map fun payload => (row, payload)

variable (input : ClaimDispatchLineageInput)

def ClaimDispatchLineageInput.acquisition (owner : String) (lineage : DispatchLineageRow) :
    AcquireControlLeaseInput where
  target := .dispatchAdmission
  targetID := lineage.artifactID
  ownerOccurrenceID := owner
  now := input.now
  leaseMilliseconds := dispatchAdmissionLeaseMilliseconds
  leaseID := none
  supersedeLeaseID := none
  generatedID := input.leaseID

/-- The lineage of a claim, and whether it was created now: the one that is inserted, or else the one that the
occurrence has and that the claim repeats. -/
def recordOrResolve : Except DispatchError (DispatchLineageRow × Bool × DispatchStore) :=
  match recordDispatchLineage store input with
  | .ok (lineage, recorded) => .ok (lineage, true, recorded)
  | .error error => do
    let found ← occurrenceLineage store input.origin
    let winner ← getOrThrow found error
    throwWhen (¬dispatchLineageMatchesClaim winner input.origin input.childSessionID)
      (.error ("Dispatch tool occurrence " ++ input.origin.toolPartID ++ "/" ++ input.origin.toolCallID ++
        " claim input drift"))
    return (winner, false, store)

def admitDispatchLineage (owner : String) (lineage : DispatchLineageRow) (createdNow : Bool) :
    Except DispatchError (DispatchClaim × DispatchStore) :=
  if (store.acceptedDescriptor lineage).isSome ∨
      (store.findSettlement lineage.taskID lineage.dispatchID).isSome then
    .ok (⟨lineage, createdNow, none,
      (currentControlLeaseInTransaction store.leases .dispatchAdmission lineage.artifactID).map
        (dispatchAdmissionOwner lineage.artifactID)⟩, store)
  else do
    assertCoordinationDispatchAdmissionInTransaction store input.origin.taskID
      input.origin.coordinationActionID input.childSessionID input.origin.targetAgentID
    let (acquisition, leases) ← (acquireControlLeaseInTransaction store.leases
      (input.acquisition owner lineage)).mapError .lease
    let current := dispatchAdmissionOwner lineage.artifactID acquisition.lease
    return (⟨lineage, createdNow, if acquisition.acquired then some current else none, some current⟩,
      { store with leases := leases })

def claimDispatchLineage : Except DispatchError (DispatchClaim × DispatchStore) := do
  let owner ← getOrThrow input.process.occurrenceID (.liveness (.ownerUnavailable
    ("Dispatch " ++ input.origin.dispatchID ++ " cannot establish its admission owner")))
  let (lineage, createdNow, recorded) ← recordOrResolve store input
  admitDispatchLineage recorded input owner lineage createdNow

def renewDispatchAdmission (owner : DispatchAdmissionOwner) (now : ℤ) : Except DispatchError DispatchStore := do
  let leases ← (renewControlLeaseInTransaction store.leases (owner.claim now)
    (now + dispatchAdmissionLeaseMilliseconds)).mapError .lease
  return { store with leases := leases }

def releaseDispatchAdmission (owner : DispatchAdmissionOwner) (now : ℤ) : Bool × DispatchStore :=
  let answer := releaseControlLeaseInTransaction store.leases (owner.claim now)
  (answer.1, { store with leases := answer.2 })

def WorkerTurnDescriptor.dispatchKey (descriptor : WorkerTurnDescriptor) : Option (String × String) :=
  descriptor.dispatchTurn.map fun turn => (descriptor.sessionID, turn.currentDispatchID)

def persistPrepared (descriptor : WorkerTurnDescriptor) : Except DispatchError DispatchStore := do
  throwWhen (Conflicts (fun descriptor => some descriptor.id) store.descriptors descriptor)
    (.database "UNIQUE constraint failed: worker_turn_descriptor.id")
  throwWhen (Conflicts WorkerTurnDescriptor.dispatchKey store.descriptors descriptor)
    (.database "UNIQUE constraint failed: index 'worker_turn_descriptor_dispatch_idx'")
  return { store with descriptors := store.descriptors ++ [descriptor] }

variable (admission : Option DispatchAdmissionOwner)

def assertDispatchAdmission (now : ℤ) : Except DispatchError Unit :=
  match admission with
  | none => .ok ()
  | some admission => ((assertControlLeaseInTransaction store.leases
      { admission.claim now with targetID := lineage.artifactID }).map fun _ => ()).mapError .lease

def consumeDispatchAdmission (now : ℤ) : Except DispatchError DispatchStore :=
  match admission with
  | none => .ok store
  | some admission => do
    let answer := releaseControlLeaseInTransaction store.leases
      { admission.claim now with targetID := lineage.artifactID }
    throwWhen (answer.1 = false) (.error ("Dispatch admission " ++ admission.leaseID ++ " could not be consumed"))
    return { store with leases := answer.2 }

/-- Consume the admission of a lineage once its Turn is durable; `onAccepted` writes in the transaction. -/
def commitDispatchLineageSession (onAccepted : DispatchStore → Except DispatchError DispatchStore) (now : ℤ) :
    Except DispatchError DispatchStore := do
  assertDispatchAdmission store lineage admission now
  throwWhen (store.acceptedDescriptor lineage = none) (.error ("Dispatch " ++ lineage.dispatchID ++
      " cannot materialize workflow occurrence without its exact durable Turn descriptor"))
  let accepted ← onAccepted store
  consumeDispatchAdmission accepted lineage admission now

def assertFinalOutcome (outcome : DispatchOutcome) : Except DispatchError String := do
  let sessionID ← getOrThrow ((truthy outcome.sessionID).filter fun sessionID =>
      sessionID = lineage.payload.childSessionID)
    (.error ("Dispatch " ++ lineage.dispatchID ++ " outcome Session does not match its durable lineage"))
  match outcome with
  | .coordination _ dispatchLineageID _ =>
    throwWhen (dispatchLineageID ≠ lineage.artifactID)
      (.error ("Dispatch " ++ lineage.dispatchID ++ " coordination outcome lineage identity drift"))
  | _ => pure ()
  return sessionID

def recordDispatchSettlement (taskID dispatchID artifactID : String) (outcome : DispatchOutcome) (now : ℤ) :
    Except DispatchError (EngineArtifact × DispatchSettlementPayload × DispatchStore) := do
  throwWhen (outcome = .accepted) (.error ("Dispatch " ++ dispatchID ++ " accepted outcome is not final"))
  let lineage ← getOrThrow (findDispatchLineageByDispatchID store taskID dispatchID)
    (.error ("Dispatch " ++ dispatchID ++ " has no durable lineage"))
  let sessionID ← assertFinalOutcome lineage outcome
  let payload : DispatchSettlementPayload :=
    ⟨taskID, lineage.artifactID, dispatchID, sessionID, outcome, now⟩
  throwWhen (now ≤ 0) (.error "time_created must be positive")
  match store.findSettlement taskID dispatchID with
  | some (row, existing) =>
    throwWhen (existing.outcome ≠ outcome)
      (.error ("Dispatch " ++ dispatchID ++ " durable settlement outcome drift"))
    return (row, existing, store)
  | none =>
    let row : EngineArtifact := ⟨artifactID, taskID, .dispatchSettlement payload, now⟩
    let inserted ← insertEngineArtifact store row
    return (row, payload, inserted)

def settleDispatchOrReturnExisting (taskID dispatchID artifactID : String) (outcome : DispatchOutcome)
    (now : ℤ) : Except DispatchError (EngineArtifact × DispatchSettlementPayload × DispatchStore) := do
  throwWhen (outcome = .accepted) (.error ("Dispatch " ++ dispatchID ++ " accepted outcome is not final"))
  match store.findSettlement taskID dispatchID with
  | some (row, existing) => return (row, existing, store)
  | none => recordDispatchSettlement store taskID dispatchID artifactID outcome now

end Claims

end OpenCorvus.Dispatch
