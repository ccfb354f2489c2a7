import OpenCorvus.Engine.TaskLifecycle

/-!
# The tables behind Task-root ingresses

The rows of the database that acceptance, reduction and activation of Task-root ingresses read and
write, each with the columns these operations use.  A table is the list of its rows in order of
insertion.
-/

namespace OpenCorvus.Engine

structure TaskRow where
  /-- Primary key. -/
  id : String
  projectID : String
  /-- The root Session of the Task. -/
  sessionID : Option String
deriving DecidableEq

inductive SessionKind where
  | root
  | orchestrator
  | other (name : String)
deriving DecidableEq

structure SessionRow where
  id : String
  parentID : Option String
  projectID : String
  kind : SessionKind
deriving DecidableEq

structure ProtocolEventRow where
  id : String
  aggregateType : String
  aggregateID : String
  /-- The message that the payload names as its input. -/
  inputMessageID : Option String
deriving DecidableEq

structure OrchestratorControlIngress where
  ingressID : Option String
  predecessorID : Option String
deriving DecidableEq

structure AssistantIdentity where
  author : Option String
  /-- The user message it answers. -/
  parentID : String
  acceptedInputMessageIDs : List String
  activationID : Option String
  agent : String
  modelID : String
  providerID : String
deriving DecidableEq

structure AssistantMessage where
  identity : AssistantIdentity
  timeCompleted : Option ℤ
  finish : Option String
  /-- The Provider ended the message with an error. -/
  hasError : Bool
  /-- The text of all other data. -/
  rest : String
deriving DecidableEq

inductive MessageData where
  | user (control : Option OrchestratorControlIngress) (rest : String)
  | assistant (message : AssistantMessage)
deriving DecidableEq

structure MessageRow where
  id : String
  sessionID : String
  timeCreated : ℤ
  data : MessageData
deriving DecidableEq

def MessageData.assistant? : MessageData → Option AssistantMessage
  | .user _ _ => none
  | .assistant message => some message

def MessageData.control? : MessageData → Option OrchestratorControlIngress
  | .user control _ => control
  | .assistant _ => none

def MessageRow.activationID (row : MessageRow) : Option String :=
  row.data.assistant?.bind (·.identity.activationID)

structure ToolInput where
  /-- The input is an object; otherwise it has none of the other entries. -/
  isObject : Bool
  action : Option String
  hasGoal : Bool
  hasGoalID : Bool
  hasUpdates : Bool
  decision : Option String
  /-- The text of the whole input. -/
  text : String
deriving DecidableEq

structure ToolPartRequestRow where
  id : String
  messageID : String
  timeCreated : ℤ
  callID : String
  tool : String
  input : ToolInput
  metadata : Option String
deriving DecidableEq

structure ToolPartOutcomeRow where
  id : String
  requestPartID : String
  completed : Bool
  /-- The text of all other data. -/
  rest : String
deriving DecidableEq

structure PartData where
  type : String
  reason : Option String
  /-- The text of all other data. -/
  rest : String
deriving DecidableEq

structure PartRow where
  id : String
  messageID : String
  timeCreated : ℤ
  data : PartData
deriving DecidableEq

structure ProviderActivityRequestRow where
  id : String
  assistantMessageID : String
deriving DecidableEq

/-- How a Provider call ended. -/
inductive ProviderActivityOutcome where
  | done
  | failed
  | aborted
deriving DecidableEq

structure ProviderActivityOutcomeRow where
  id : String
  requestID : String
  outcome : ProviderActivityOutcome
  /-- The name of the error that the receipt reports. -/
  errorName : Option String
  /-- The text of all other data. -/
  rest : String
deriving DecidableEq

structure ActivityReconciliation where
  ingressID : String
  requestID : Option String
  assistantMessageID : Option String
deriving DecidableEq

/-- A question to the operator, with the outcome that is projected from its settlement. -/
structure InteractionRow where
  id : String
  taskID : Option String
  sessionID : Option String
  outcome : Option InteractionOutcome
  /-- The message of the Tool call that asks. -/
  toolMessageID : Option String
  timeExpires : Option ℤ
  activityReconciliation : Option ActivityReconciliation
deriving DecidableEq

inductive TaskRootMessageKind where
  | operator
  | orchestrator
  | mission
deriving DecidableEq

structure TaskWaitWake where
  jobID : String
  fireID : String
  dueAt : ℤ
deriving DecidableEq

/-- An event for the Orchestrator.  Of an entry whose content nothing here reads, the text stands
for the content. -/
structure OrchestratorEvent where
  note : Option String
  taskCreation : Option String
  taskWaitActivity : Option String
  taskWaitWake : Option TaskWaitWake
  rootMessage : Option (String × TaskRootMessageKind)
  missionAcceptanceResume : Option String
  coordinationRequest : Option String
  processRecovery : Option String
  dispatchInfrastructureFailure : Option String
  agentLifecycleDelivery : Option String
deriving DecidableEq

inductive EngineTaskRootIngressSource where
  | message
  | protocolEvent
  | engineArtifact
  | task
  | inline
deriving DecidableEq

def EngineTaskRootIngressSource.text : EngineTaskRootIngressSource → String
  | message => "message"
  | protocolEvent => "protocol_event"
  | engineArtifact => "engine_artifact"
  | task => "task"
  | inline => "inline"

structure TaskRootIngressPolicyRow where
  id : String
  semanticTurnLimit : ℕ
  activationLimit : ℕ
  absoluteDeadline : Option ℤ
deriving DecidableEq

structure TaskRootIngressRow where
  id : String
  taskID : String
  projectID : String
  executionEpoch : ℕ
  /-- The position in the order of the Task and epoch. -/
  sequence : ℕ
  source : EngineTaskRootIngressSource
  sourceID : String
  inlinePayload : Option OrchestratorEvent
  policyID : String
  timeAccepted : ℤ
deriving DecidableEq

inductive TaskRootIngressDisposition where
  | resolved
  | terminalInapplicable
  | exhausted
  | operatorAbandoned
deriving DecidableEq

structure TaskRootIngressDispositionPayload where
  taskID : String
  ingressID : String
  executionEpoch : ℕ
  disposition : TaskRootIngressDisposition
  evidenceIDs : List String
deriving DecidableEq

inductive EngineArtifactPayload where
  | taskRootIngressDisposition (payload : TaskRootIngressDispositionPayload)
  /-- The gate that made a settled rest state of an ingress visible. -/
  | taskInfrastructureError (operation ingressID state : String) (gateReason : Option String)
  | other (kind : String)
deriving DecidableEq

structure EngineArtifactRow where
  id : String
  taskID : String
  payload : EngineArtifactPayload
deriving DecidableEq

structure TaskWaitRegistrationRow where
  id : String
  taskID : String
  executionEpoch : ℕ
  /-- The ingress whose activation registered the wait. -/
  creatorIngressID : String
  dueAt : ℤ
  timeCreated : ℤ
deriving DecidableEq

inductive TaskWaitDisposition where
  | dueIngressAccepted
  | superseded
deriving DecidableEq

structure TaskWaitSettlementRow where
  /-- Primary key. -/
  waitID : String
  ingressID : String
  disposition : TaskWaitDisposition
  timeCreated : ℤ
deriving DecidableEq

/-- The tables. -/
structure TaskRootDatabase where
  tasks : List TaskRow
  sessions : List SessionRow
  /-- Projects that are being deleted, and admit nothing durable any more. -/
  closedProjects : List String
  /-- Sessions whose deletion has begun, with the message that refuses their writes. -/
  fencedSessions : List (String × String)
  /-- The lifecycle events of Tasks. -/
  events : List TaskEvent
  /-- All other protocol events. -/
  protocolEvents : List ProtocolEventRow
  messages : List MessageRow
  toolRequests : List ToolPartRequestRow
  toolOutcomes : List ToolPartOutcomeRow
  parts : List PartRow
  providerRequests : List ProviderActivityRequestRow
  providerOutcomes : List ProviderActivityOutcomeRow
  interactions : List InteractionRow
  artifacts : List EngineArtifactRow
  waits : List TaskWaitRegistrationRow
  waitSettlements : List TaskWaitSettlementRow
  policies : List TaskRootIngressPolicyRow
  ingresses : List TaskRootIngressRow
  /-- The activation leases. -/
  activations : ControlLeaseTables
deriving DecidableEq

/-- The identities that the source derives by hashing its arguments. -/
class TaskRootIdentity where
  /-- The identity of an ingress: Task, source, and identity of the source. -/
  taskRootIngressID : String → EngineTaskRootIngressSource → String → String
  /-- The identity of a policy: its two limits and its deadline. -/
  taskRootIngressPolicyID : ℕ → ℕ → Option ℤ → String
  /-- The identity of an inline source. -/
  stableInlineSource : OrchestratorEvent → String
  /-- The identity of the disposition of an ingress: Task and ingress. -/
  dispositionArtifactID : String → String → String
  /-- The identity of the gate that shows a rest state: ingress, state, and reason. -/
  taskRootIngressOperatorGateID : String → String → String → String
  /-- The identity of the outcome of a Tool call: its request. -/
  toolOutcomePartIdentity : String → String
  /-- The identity of the receipt of a Provider call: its request. -/
  providerOutcomeIdentity : String → String

export TaskRootIdentity (taskRootIngressID taskRootIngressPolicyID stableInlineSource
  dispositionArtifactID taskRootIngressOperatorGateID toolOutcomePartIdentity
  providerOutcomeIdentity)

namespace TaskRootDatabase

variable (db : TaskRootDatabase)

def findTask (taskID : String) : Option TaskRow := db.tasks.find? fun row => row.id = taskID

def findSession (sessionID : String) : Option SessionRow :=
  db.sessions.find? fun row => row.id = sessionID

def findMessage (messageID : String) : Option MessageRow :=
  db.messages.find? fun row => row.id = messageID

def findPolicy (policyID : String) : Option TaskRootIngressPolicyRow :=
  db.policies.find? fun row => row.id = policyID

def findIngress (ingressID : String) : Option TaskRootIngressRow :=
  db.ingresses.find? fun row => row.id = ingressID

def findWait (waitID : String) : Option TaskWaitRegistrationRow :=
  db.waits.find? fun row => row.id = waitID

def findWaitSettlement (waitID : String) : Option TaskWaitSettlementRow :=
  db.waitSettlements.find? fun row => row.waitID = waitID

def taskDeleted (taskID : String) : Bool := taskDeletedInTransaction db.events taskID

end TaskRootDatabase

end OpenCorvus.Engine
