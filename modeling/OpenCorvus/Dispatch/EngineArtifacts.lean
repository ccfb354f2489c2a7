import OpenCorvus.Engine.ProcessLiveness
import OpenCorvus.Engine.TaskLifecycle

/-!
# Dispatch lineages, coordination facts and their table

The immutable facts of the dispatches of a Task and of the coordination between its workers and its
orchestrator are artifacts of one table.  The file has their payloads, the partial unique indexes of the table,
and the store that the dispatch and coordination transactions share.
-/

namespace OpenCorvus.Dispatch

open EcmaScript UniqueIndex Engine

/-! ## Workers and workflows -/

structure ExpertSquadPackageRevisionBinding where
  scope : String
  projectID : Option String
  namespaceName : String
  id : String
  version : String
  packageDigest : String
deriving DecidableEq

structure SelectedWorkflowNodeBinding where
  nodeID : String
  agentID : String
  dependsOn : List String
deriving DecidableEq

inductive SelectedWorkflowBinding where
  | direct (packageRevision : ExpertSquadPackageRevisionBinding)
  | virtualWorkflow (workflowID : String) (packageRevision : ExpertSquadPackageRevisionBinding)
      (nodes : List SelectedWorkflowNodeBinding)
deriving DecidableEq

namespace SelectedWorkflowBinding

def packageRevision : SelectedWorkflowBinding → ExpertSquadPackageRevisionBinding
  | direct packageRevision => packageRevision
  | virtualWorkflow _ packageRevision _ => packageRevision

def workflowID : SelectedWorkflowBinding → Option String
  | direct _ => none
  | virtualWorkflow workflowID _ _ => some workflowID

def WellFormed : SelectedWorkflowBinding → Prop
  | direct _ => True
  | virtualWorkflow _ _ nodes => nodes ≠ [] ∧ (nodes.map SelectedWorkflowNodeBinding.nodeID).Nodup

instance (binding : SelectedWorkflowBinding) : Decidable binding.WellFormed := by
  unfold WellFormed
  split <;> infer_instance

end SelectedWorkflowBinding

structure ProjectedWorkerIdentity where
  agentID : String
  baseRole : String
  sessionKind : String
  dispatchAdapterID : String
  projectionHash : String
deriving DecidableEq

structure ProjectedWorkerBinding where
  identity : ProjectedWorkerIdentity
  expertSquadID : String
  workerTurnDescriptorID : String
  workerTurnDescriptorHash : String
deriving DecidableEq

/-! ## Dispatch payloads -/

inductive DispatchToolName where
  | dispatchAgent
  | dispatchAgents
deriving DecidableEq

def DispatchToolName.text : DispatchToolName → String
  | dispatchAgent => "dispatch_agent"
  | dispatchAgents => "dispatch_agents"

structure DispatchLineagePayload where
  dispatchID : String
  taskID : String
  executionEpoch : ℕ
  orchestratorSessionID : String
  orchestratorMessageID : String
  toolPartID : String
  toolCallID : String
  toolName : DispatchToolName
  collectionMemberIndex : Option ℕ
  collectionMemberCount : Option ℕ
  childSessionID : String
  targetAgentID : String
  projectedWorkerIdentity : ProjectedWorkerIdentity
  /-- The work scope, as JSON with its keys in order. -/
  workScope : String
  deliverySliceRevisionIDs : List String
  workflowBinding : SelectedWorkflowBinding
  workflowNodeID : Option String
  workflowOccurrenceID : String
  coordinationActionID : Option String
  continuationOfDispatchID : Option String
  /-- The process occurrence that owns the delivery. -/
  deliveryOwner : String
  /-- The adapter input, as JSON with its keys in order. -/
  adapterInput : String
  timeCreated : ℤ
deriving DecidableEq

def CollectionMember (toolName : DispatchToolName) (index count : Option ℕ) : Prop :=
  match toolName, index, count with
  | .dispatchAgent, none, none => True
  | .dispatchAgents, some index, some count => index < count
  | _, _, _ => False

instance (toolName : DispatchToolName) (index count : Option ℕ) :
    Decidable (CollectionMember toolName index count) := by
  unfold CollectionMember
  split <;> infer_instance

def SelectsNode (binding : SelectedWorkflowBinding) (nodeID : Option String) (targetAgentID : String) : Prop :=
  match binding with
  | .direct _ => nodeID = none
  | .virtualWorkflow _ _ nodes =>
    ∃ node ∈ nodes.find? (fun node => some node.nodeID = nodeID), node.agentID = targetAgentID

instance (binding : SelectedWorkflowBinding) (nodeID : Option String) (targetAgentID : String) :
    Decidable (SelectsNode binding nodeID targetAgentID) := by
  unfold SelectsNode
  split <;> infer_instance

structure DispatchLineagePayload.WellFormed (payload : DispatchLineagePayload) : Prop where
  texts : ∀ text ∈ [payload.dispatchID, payload.taskID, payload.orchestratorSessionID,
    payload.orchestratorMessageID, payload.toolPartID, payload.toolCallID, payload.childSessionID,
    payload.targetAgentID, payload.workflowOccurrenceID, payload.deliveryOwner], text ≠ ""
  optionalTexts : ∀ text ∈ [payload.workflowNodeID, payload.coordinationActionID,
    payload.continuationOfDispatchID], text ≠ some ""
  epoch : IsPositiveSafeInteger payload.executionEpoch
  time : 0 < payload.timeCreated ∧ payload.timeCreated ≤ MAX_SAFE_INTEGER
  target : payload.targetAgentID = payload.projectedWorkerIdentity.agentID
  member : CollectionMember payload.toolName payload.collectionMemberIndex payload.collectionMemberCount
  coordination : payload.coordinationActionID.isSome → payload.continuationOfDispatchID.isSome
  initial : payload.continuationOfDispatchID = none → payload.workflowOccurrenceID = payload.dispatchID
  binding : payload.workflowBinding.WellFormed
  node : SelectsNode payload.workflowBinding payload.workflowNodeID payload.targetAgentID

instance (payload : DispatchLineagePayload) : Decidable payload.WellFormed :=
  decidable_of_iff (_ ∧ _ ∧ _ ∧ _ ∧ _ ∧ _ ∧ _ ∧ _ ∧ _ ∧ _)
    ⟨fun ⟨h1, h2, h3, h4, h5, h6, h7, h8, h9, h10⟩ => ⟨h1, h2, h3, h4, h5, h6, h7, h8, h9, h10⟩,
      fun ⟨h1, h2, h3, h4, h5, h6, h7, h8, h9, h10⟩ => ⟨h1, h2, h3, h4, h5, h6, h7, h8, h9, h10⟩⟩

inductive DispatchOutcome where
  | accepted
  | coordination (sessionID dispatchLineageID text : String)
  | final (sessionID : Option String) (text : String)
deriving DecidableEq

def DispatchOutcome.sessionID : DispatchOutcome → Option String
  | accepted => none
  | coordination sessionID _ _ => some sessionID
  | final sessionID _ => sessionID

structure DispatchSettlementPayload where
  taskID : String
  dispatchLineageID : String
  dispatchID : String
  sessionID : String
  outcome : DispatchOutcome
  timeCreated : ℤ
deriving DecidableEq

/-! ## Coordination facts -/

structure AgentCoordinationWorkerToolInput where
  summary : String
  details : String
  blocking : Bool
  requestedDecision : String
  /-- The evidence locators in their JSON text. -/
  evidenceLocators : Option String
  severity : Option String
deriving DecidableEq

/-- Where a request comes from. -/
inductive AgentCoordinationOrigin where
  | workerHandoff (messageID toolCallID toolPartID : String) (toolInput : AgentCoordinationWorkerToolInput)
  | operatorSteer (operatorMessage : String)
deriving DecidableEq

structure AgentCoordinationRequestFact where
  requestID : String
  taskID : String
  executionEpoch : ℕ
  sessionID : String
  agent : String
  workerBinding : ProjectedWorkerBinding
  origin : AgentCoordinationOrigin
  deliverySliceSubject : Option String
  summary : String
  details : String
  blocking : Bool
  requestedDecision : String
  evidenceLocators : Option String
  severity : String
  createdAt : ℤ
  dispatchLineageID : String
deriving DecidableEq

/-- What the orchestrator may decide. -/
inductive AgentCoordinationDecision where
  | cancelWorker
  | redispatch
  | failTask
  | askUser
  | acknowledgeTerminal
deriving DecidableEq

/-- What is done about a decision. -/
inductive AgentCoordinationActionKind where
  | cancelWorker
  | redispatchWorker
  | failTask
  | askUser
  | acknowledgeTerminal
deriving DecidableEq

structure AgentCoordinationResponseFact where
  responseID : String
  requestID : String
  frontierID : String
  previousFailedOutcomeID : Option String
  actionID : String
  taskID : String
  executionEpoch : ℕ
  orchestratorSessionID : String
  orchestratorMessageID : String
  orchestratorToolCallID : String
  orchestratorToolPartID : String
  decision : AgentCoordinationDecision
  reason : String
  message : Option String
  createdAt : ℤ
deriving DecidableEq

structure AgentCoordinationRedispatchBinding where
  workerBinding : ProjectedWorkerBinding
  sourceDispatchLineageID : String
  sourceDispatchID : String
  workflowBinding : SelectedWorkflowBinding
  workflowNodeID : Option String
  workflowOccurrenceID : String
  deliverySliceRevisionIDs : List String
deriving DecidableEq

structure AgentCoordinationActionFact where
  actionID : String
  requestID : String
  responseID : String
  taskID : String
  executionEpoch : ℕ
  orchestratorSessionID : String
  orchestratorMessageID : String
  orchestratorToolCallID : String
  orchestratorToolPartID : String
  action : AgentCoordinationActionKind
  decision : AgentCoordinationDecision
  targetSessionID : String
  targetAgent : String
  deliverySliceSubject : Option String
  reason : String
  redispatchBinding : Option AgentCoordinationRedispatchBinding
  createdAt : ℤ
deriving DecidableEq

/-- The receipt of the effect of an action, or any other record. -/
inductive AgentCoordinationResult where
  | redispatchWorker (dispatchLineageID dispatchID dispatchSessionID dispatchAgentID workScope : String)
  | askUser (questionID interactionID interactionStatus : String)
  | failTask (taskID terminalEventID : String)
  | acknowledgeTerminal (terminalLifecycleReference terminalIngressID : String)
  | cancelWorker (sessionID summary : String) (cancelled : Bool)
  | record (text : String)
deriving DecidableEq

/-- How an action ended. -/
inductive AgentCoordinationOutcomeStatus where
  | completed
  | failed (error : String)
deriving DecidableEq

structure AgentCoordinationActionOutcomeFact where
  outcomeID : String
  requestID : String
  responseID : String
  actionID : String
  taskID : String
  executionEpoch : ℕ
  action : AgentCoordinationActionKind
  status : AgentCoordinationOutcomeStatus
  result : Option AgentCoordinationResult
  createdAt : ℤ
deriving DecidableEq

/-! ## The table -/

inductive EngineArtifactPayload where
  | dispatchLineage (payload : DispatchLineagePayload)
  | dispatchSettlement (payload : DispatchSettlementPayload)
  | taskCompletionDecision (workflowBinding : SelectedWorkflowBinding)
  | coordinationRequest (fact : AgentCoordinationRequestFact)
  | coordinationResponse (fact : AgentCoordinationResponseFact)
  | coordinationAction (fact : AgentCoordinationActionFact)
  | coordinationOutcome (fact : AgentCoordinationActionOutcomeFact)
  | other (kind : String)
deriving DecidableEq

structure EngineArtifact where
  /-- Primary key. -/
  id : String
  taskID : String
  payload : EngineArtifactPayload
  timeCreated : ℤ
deriving DecidableEq

def EngineArtifact.lineage (row : EngineArtifact) : Option DispatchLineagePayload :=
  match row.payload with
  | .dispatchLineage payload => some payload
  | _ => none

def EngineArtifact.settlement (row : EngineArtifact) : Option DispatchSettlementPayload :=
  match row.payload with
  | .dispatchSettlement payload => some payload
  | _ => none

def EngineArtifact.request (row : EngineArtifact) : Option AgentCoordinationRequestFact :=
  match row.payload with
  | .coordinationRequest fact => some fact
  | _ => none

def EngineArtifact.response (row : EngineArtifact) : Option AgentCoordinationResponseFact :=
  match row.payload with
  | .coordinationResponse fact => some fact
  | _ => none

def EngineArtifact.action (row : EngineArtifact) : Option AgentCoordinationActionFact :=
  match row.payload with
  | .coordinationAction fact => some fact
  | _ => none

def EngineArtifact.outcome (row : EngineArtifact) : Option AgentCoordinationActionOutcomeFact :=
  match row.payload with
  | .coordinationOutcome fact => some fact
  | _ => none

def EngineArtifact.workflowBinding (row : EngineArtifact) : Option SelectedWorkflowBinding :=
  match row.payload with
  | .dispatchLineage payload => some payload.workflowBinding
  | .taskCompletionDecision binding => some binding
  | _ => none

/-! ## Unique indexes -/

def DispatchLineagePayload.IsInitial (payload : DispatchLineagePayload) : Prop :=
  payload.continuationOfDispatchID = none ∧ payload.coordinationActionID = none

instance (payload : DispatchLineagePayload) : Decidable payload.IsInitial := inferInstanceAs (Decidable (_ ∧ _))

namespace EngineArtifact

variable (row : EngineArtifact)

def directToolOccurrenceKey : Option (List String) := do
  let payload ← row.lineage
  if payload.toolName = .dispatchAgent then some [row.taskID, payload.toolPartID, payload.toolCallID]
  else none

def collectionMemberKey : Option (List String) := do
  let payload ← row.lineage
  if payload.toolName = .dispatchAgents then
    payload.collectionMemberIndex.map fun index =>
      [row.taskID, payload.toolPartID, payload.toolCallID, toString index]
  else none

def initialWorkflowNodeKey : Option (List String) := do
  let payload ← row.lineage
  let workflowID ← payload.workflowBinding.workflowID
  let nodeID ← payload.workflowNodeID
  if payload.IsInitial then some [row.taskID, workflowID, nodeID] else none

def dispatchIDKey : Option (List String) :=
  row.lineage.map fun payload => [row.taskID, payload.dispatchID]

def settlementKey : Option (List String) :=
  row.settlement.map fun payload => [row.taskID, payload.dispatchID]

def lineageActionKey : Option (List String) := do
  let payload ← row.lineage
  let actionID ← payload.coordinationActionID
  return [row.taskID, actionID]

def workerOccurrenceKey : Option (List String) := do
  let fact ← row.request
  match fact.origin with
  | .workerHandoff messageID toolCallID _ _ => some [row.taskID, fact.sessionID, messageID, toolCallID]
  | .operatorSteer _ => none

def workerLineageKey : Option (List String) := do
  let fact ← row.request
  match fact.origin with
  | .workerHandoff _ _ _ _ => some [row.taskID, fact.dispatchLineageID]
  | .operatorSteer _ => none

def frontierKey : Option (List String) :=
  row.response.map fun fact => [row.taskID, fact.requestID, fact.frontierID]

def responseToolKey : Option (List String) := row.response.map fun fact => [fact.orchestratorToolPartID]

def actionResponseKey : Option (List String) := row.action.map fun fact => [row.taskID, fact.responseID]

def actionOutcomeKey : Option (List String) := row.outcome.map fun fact => [row.taskID, fact.actionID]

end EngineArtifact

/-- The unique indexes of the table, with their names. -/
def engineArtifactIndexes : List (String × (EngineArtifact → Option (List String))) := [
  ("engine_artifact.id", fun row => some [row.id]),
  ("engine_dispatch_lineage_direct_tool_occurrence_idx", EngineArtifact.directToolOccurrenceKey),
  ("engine_dispatch_lineage_collection_member_idx", EngineArtifact.collectionMemberKey),
  ("engine_dispatch_lineage_initial_workflow_node_idx", EngineArtifact.initialWorkflowNodeKey),
  ("engine_dispatch_lineage_dispatch_id_idx", EngineArtifact.dispatchIDKey),
  ("engine_dispatch_settlement_dispatch_id_idx", EngineArtifact.settlementKey),
  ("engine_dispatch_lineage_coordination_action_idx", EngineArtifact.lineageActionKey),
  ("engine_agent_coordination_worker_occurrence_idx", EngineArtifact.workerOccurrenceKey),
  ("engine_agent_coordination_worker_lineage_idx", EngineArtifact.workerLineageKey),
  ("engine_agent_coordination_frontier_winner_idx", EngineArtifact.frontierKey),
  ("engine_agent_coordination_response_tool_occurrence_idx", EngineArtifact.responseToolKey),
  ("engine_agent_coordination_action_response_idx", EngineArtifact.actionResponseKey),
  ("engine_agent_coordination_action_terminal_idx", EngineArtifact.actionOutcomeKey)]

/-! ## The store -/

structure EngineTaskRow where
  id : String
  /-- The root Session. -/
  sessionID : Option String
  /-- The package that the Task was created with. -/
  creationBinding : Option ExpertSquadPackageRevisionBinding
  /-- The current members of its Goal graph. -/
  goalRevisionIDs : List String
deriving DecidableEq

/-- A Session with its frozen expert squad. -/
structure RootSession where
  id : String
  activeProfileID : Option String
deriving DecidableEq

structure ToolPartRequest where
  id : String
  messageID : String
  callID : String
  tool : String
deriving DecidableEq

structure CreatorMessage where
  id : String
  sessionID : String
  /-- The role is that of the assistant, and the author is the orchestrator. -/
  fromOrchestrator : Bool
  activationID : Option String
deriving DecidableEq

structure TaskRootIngressRow where
  id : String
  taskID : String
  executionEpoch : ℕ
deriving DecidableEq

structure DispatchTurn where
  currentDispatchID : String
  workflowBinding : SelectedWorkflowBinding
  workflowNodeID : Option String
  workflowOccurrenceID : String
  deliverySliceRevisionIDs : List String
deriving DecidableEq

structure WorkerTurnDescriptor where
  id : String
  sessionID : String
  hash : String
  identity : ProjectedWorkerIdentity
  expertSquadID : String
  dispatchTurn : Option DispatchTurn
deriving DecidableEq

/-- What the transactions read of other services. -/
structure DispatchSurroundings where
  tasks : List EngineTaskRow
  sessions : List RootSession
  toolRequests : List ToolPartRequest
  messages : List CreatorMessage
  ingresses : List TaskRootIngressRow
deriving DecidableEq

structure DispatchStore where
  /-- The artifacts, in order of insertion. -/
  artifacts : List EngineArtifact
  events : List TaskEvent
  descriptors : List WorkerTurnDescriptor
  leases : ControlLeaseTables
  surroundings : DispatchSurroundings
deriving DecidableEq

structure WorkflowNodeOccurrenceLineageReference where
  artifactID : String
  dispatchID : String
  childSessionID : String
  workflowOccurrenceID : String

/-- What a transaction raises. -/
inductive DispatchError where
  | error (message : String)
  | engine (error : EngineError)
  | lease (error : ControlLeaseError)
  | liveness (error : ProcessLivenessError)
  /-- The Task has accepted its cancellation. -/
  | executionCancellation (message : String)
  | taskDispatchAdmissionClosed (taskID : String) (timeCompleted : ℤ) (dispatchID : String)
  | taskCompletionClosureConflict (taskID ownerID : String)
  | workflowNodeOccurrenceConflict (taskID workflowID nodeID : String)
      (existing : List WorkflowNodeOccurrenceLineageReference)
  | taskWorkflowBindingConflict (taskID artifactID : String)
  | frontierConflict (requestID frontierID : String)
  | operatorSteerConflict (requestID : String)
  | lineagePendingConflict (dispatchLineageID : String)
  | actionSuperseded (actionID : String)
  | database (message : String)

section Queries

variable (store : DispatchStore)

def DispatchStore.findArtifact (taskID id : String) : Option EngineArtifact :=
  store.artifacts.find? fun row => row.taskID = taskID ∧ row.id = id

def DispatchStore.artifactsOf (taskID : String) : List EngineArtifact :=
  store.artifacts.filter fun row => row.taskID = taskID

def DispatchStore.lifecycle (taskID : String) : Except DispatchError TaskLifecycleProjection :=
  (taskLifecycleProjectionInTransaction store.events taskID).mapError .engine

def conflictingIndex (artifacts : List EngineArtifact) (row : EngineArtifact) : Option String :=
  (engineArtifactIndexes.find? fun index => Conflicts index.2 artifacts row).map Prod.fst

def insertEngineArtifact (row : EngineArtifact) : Except DispatchError DispatchStore :=
  match conflictingIndex store.artifacts row with
  | some index => .error (.database ("UNIQUE constraint failed: " ++ index))
  | none => .ok { store with artifacts := store.artifacts ++ [row] }

structure DispatchLineageRow where
  artifactID : String
  taskID : String
  payload : DispatchLineagePayload

def DispatchLineageRow.dispatchID (row : DispatchLineageRow) : String := row.payload.dispatchID

def dispatchLineageRow (row : EngineArtifact) : Option DispatchLineageRow :=
  row.lineage.map fun payload => ⟨row.id, row.taskID, payload⟩

def DispatchStore.lineagesOf (taskID : String) : List DispatchLineageRow :=
  (store.artifactsOf taskID).filterMap dispatchLineageRow

/-- `findDispatchLineageByDispatchIDInTransaction`. -/
def findDispatchLineageByDispatchID (taskID dispatchID : String) : Option DispatchLineageRow :=
  (store.lineagesOf taskID).find? fun row => row.dispatchID = dispatchID

end Queries

/-! ## Insertions -/

variable {store store' : DispatchStore} {row : EngineArtifact}

def Fresh (artifacts : List EngineArtifact) (row : EngineArtifact) : Prop :=
  ∀ index ∈ engineArtifactIndexes, ¬Conflicts index.2 artifacts row

theorem insertEngineArtifact_eq_ok : insertEngineArtifact store row = .ok store' ↔
    Fresh store.artifacts row ∧ store' = { store with artifacts := store.artifacts ++ [row] } := by
  unfold insertEngineArtifact conflictingIndex Fresh
  cases hindex : engineArtifactIndexes.find? fun index => Conflicts index.2 store.artifacts row with
  | none =>
    have hfresh := List.find?_eq_none.mp hindex
    simp only [decide_eq_true_eq] at hfresh
    rw [Option.map_none, Except.ok.injEq, eq_comm]
    exact (and_iff_right hfresh).symm
  | some index =>
    have hmem := List.mem_of_find?_eq_some hindex
    have hconflicts := List.find?_some hindex
    simp only [decide_eq_true_eq] at hconflicts
    simp only [Option.map_some, reduceCtorEq, false_iff, not_and]
    exact fun hfresh => absurd hconflicts (hfresh index hmem)

def Indexed (artifacts : List EngineArtifact) : Prop :=
  ∀ index ∈ engineArtifactIndexes, Unique index.2 artifacts

lemma indexed_nil : Indexed [] := fun _ _ => unique_nil

/-- They hold after an insertion. -/
lemma Indexed.concat {artifacts : List EngineArtifact} (h : Indexed artifacts) (hrow : Fresh artifacts row) :
    Indexed (artifacts ++ [row]) :=
  fun index hindex => (h index hindex).concat (hrow index hindex)

end OpenCorvus.Dispatch
