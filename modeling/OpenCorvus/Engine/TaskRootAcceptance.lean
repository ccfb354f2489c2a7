import OpenCorvus.Engine.TaskRootDatabase

/-!
# Acceptance of Task-root ingresses

Acceptance turns one business input into an ingress row: it checks the epoch and the source, freezes
the policy, assigns the next position in the order of the Task and epoch, and supersedes the waits
of the Task.  The acceptance of a source that was accepted before is a replay and writes nothing.
-/

namespace OpenCorvus.Engine

open EcmaScript Transaction

variable [TaskRootIdentity]

structure AcceptTaskRootIngressInput where
  taskID : String
  executionEpoch : ℕ
  source : EngineTaskRootIngressSource
  sourceID : String
  inlinePayload : Option OrchestratorEvent
  semanticTurnLimit : ℕ
  activationLimit : ℕ
  absoluteDeadline : Option ℤ
  now : ℤ

/-- The limits and the deadline of a policy are positive safe integers. -/
def assertPolicy (input : AcceptTaskRootIngressInput) : Except EngineError Unit := do
  throwWhen (¬IsPositiveSafeInteger input.semanticTurnLimit)
    (.error "Task-root semantic Turn limit must be a positive safe integer")
  throwWhen (¬IsPositiveSafeInteger input.activationLimit)
    (.error "Task-root activation limit must be a positive safe integer")
  throwWhen (input.absoluteDeadline.any fun deadline =>
      deadline ≤ 0 ∨ (MAX_SAFE_INTEGER : ℤ) < deadline)
    (.error "Task-root absolute deadline must be a positive safe integer")

def TaskRootIngressPolicyRow.Agrees (policy : TaskRootIngressPolicyRow)
    (input : AcceptTaskRootIngressInput) : Prop :=
  policy.semanticTurnLimit = input.semanticTurnLimit ∧
    policy.activationLimit = input.activationLimit ∧
    policy.absoluteDeadline = input.absoluteDeadline

instance (policy : TaskRootIngressPolicyRow) (input : AcceptTaskRootIngressInput) :
    Decidable (policy.Agrees input) :=
  inferInstanceAs (Decidable (_ ∧ _ ∧ _))

def AcceptTaskRootIngressInput.policy (input : AcceptTaskRootIngressInput) :
    TaskRootIngressPolicyRow where
  id := taskRootIngressPolicyID input.semanticTurnLimit input.activationLimit input.absoluteDeadline
  semanticTurnLimit := input.semanticTurnLimit
  activationLimit := input.activationLimit
  absoluteDeadline := input.absoluteDeadline

variable (db : TaskRootDatabase)

def ensureTaskRootIngressPolicyInTransaction (input : AcceptTaskRootIngressInput) :
    Except EngineError (String × TaskRootDatabase) := do
  assertPolicy input
  match db.findPolicy input.policy.id with
  | none => .ok (input.policy.id, { db with policies := db.policies ++ [input.policy] })
  | some policy =>
    if policy.Agrees input then .ok (input.policy.id, db)
    else .error (.error ("Task-root policy identity collision: " ++ input.policy.id))

def unknownDueWait (jobID taskID : String) (executionEpoch : ℕ) : EngineError :=
  .taskWaitIngressLineage
    ("Task wait wake " ++ jobID ++ " has no exact registration for Task " ++ taskID ++ " epoch " ++
      toString executionEpoch) "unknown_due_wait" (some jobID)

def exactDueTaskWaitForIngressInTransaction (input : AcceptTaskRootIngressInput) :
    Except EngineError (Option String) :=
  match input.inlinePayload.bind (·.taskWaitWake) with
  | none => .ok none
  | some wake => do
    throwWhen (input.source ≠ .inline ∨ wake.jobID = "" ∨ wake.fireID ≠ wake.jobID ∨
        input.sourceID ≠ wake.jobID ∨ MAX_SAFE_INTEGER < wake.dueAt.natAbs)
      (.taskWaitIngressLineage ("Task wait wake has no exact source/job/Fire identity: " ++
        input.source.text ++ ":" ++ input.sourceID) "malformed_due_identity" (some wake.jobID))
    let wait ← getOrThrow (db.findWait wake.jobID)
      (unknownDueWait wake.jobID input.taskID input.executionEpoch)
    throwWhen (wait.taskID ≠ input.taskID ∨ wait.executionEpoch ≠ input.executionEpoch ∨ wait.dueAt ≠ wake.dueAt)
      (unknownDueWait wake.jobID input.taskID input.executionEpoch)
    throwWhen (input.now < wait.dueAt)
      (.taskWaitIngressLineage ("Task wait wake " ++ wake.jobID ++ " is not due until " ++
        toString wait.dueAt) "not_due" (some wake.jobID))
    throwWhen (db.findWaitSettlement wake.jobID).isSome
      (.taskWaitIngressLineage ("Task wait wake " ++ wake.jobID ++ " is already settled")
        "already_settled" (some wake.jobID))
    return some wake.jobID

def TaskWaitSettlementRow.HasLineage (row : TaskWaitSettlementRow) (wait : TaskWaitRegistrationRow)
    (ingress : TaskRootIngressRow) : Prop :=
  let wake := ingress.inlinePayload.bind (·.taskWaitWake)
  let isWake := ingress.source = .inline ∧ ingress.sourceID = wait.id ∧
    wake.map (·.jobID) = some wait.id
  match row.disposition with
  | .superseded =>
    wait.timeCreated ≤ ingress.timeAccepted ∧ ¬isWake ∧
      (db.findIngress wait.creatorIngressID).any fun creator => creator.sequence < ingress.sequence
  | .dueIngressAccepted =>
    isWake ∧ wake.map (·.fireID) = some wait.id ∧ wake.map (·.dueAt) = some wait.dueAt ∧
      wait.dueAt ≤ ingress.timeAccepted ∧ ingress.timeAccepted ≤ row.timeCreated

instance (db : TaskRootDatabase) (row : TaskWaitSettlementRow) (wait : TaskWaitRegistrationRow)
    (ingress : TaskRootIngressRow) : Decidable (row.HasLineage db wait ingress) := by
  unfold TaskWaitSettlementRow.HasLineage
  cases row.disposition <;> infer_instance

def settleTaskWaitForIngressInTransaction (waitID ingressID : String) (disposition : TaskWaitDisposition) (now : ℤ) :
    Except EngineError TaskRootDatabase := do
  let unrelated : EngineError := .error
    ("Task wait " ++ waitID ++ " cannot settle against unrelated ingress " ++ ingressID)
  let wait ← getOrThrow (db.findWait waitID) unrelated
  let ingress ← getOrThrow (db.findIngress ingressID) unrelated
  throwWhen (wait.taskID ≠ ingress.taskID ∨ wait.executionEpoch ≠ ingress.executionEpoch) unrelated
  match db.findWaitSettlement waitID with
  | some existing => do
    throwWhen (existing.ingressID ≠ ingressID ∨ existing.disposition ≠ disposition)
      (.error ("Task wait " ++ waitID ++ " already has a conflicting settlement"))
    return db
  | none => do
    let row : TaskWaitSettlementRow :=
      { waitID := waitID, ingressID := ingressID, disposition := disposition, timeCreated := now }
    throwWhen (¬row.HasLineage db wait ingress)
      (.database "engine_task_wait_settlement: wait and ingress lineage must match")
    return { db with waitSettlements := db.waitSettlements ++ [row] }

def supersedeCurrentTaskWaitsForIngressInTransaction (ingress : TaskRootIngressRow) (exceptWaitID : Option String)
    (now : ℤ) : Except EngineError TaskRootDatabase :=
  (db.waits.filter fun wait =>
    wait.taskID = ingress.taskID ∧ wait.executionEpoch = ingress.executionEpoch ∧
      (db.findWaitSettlement wait.id).isNone ∧ some wait.id ≠ exceptWaitID).foldlM
    (fun db wait =>
      settleTaskWaitForIngressInTransaction db wait.id ingress.id .superseded now) db

def AcceptTaskRootIngressInput.sourceText (input : AcceptTaskRootIngressInput) : String :=
  "Task-root source " ++ input.source.text ++ ":" ++ input.sourceID

def assertIngressSource (input : AcceptTaskRootIngressInput) (task : TaskRow) : Except EngineError Unit :=
  match input.source with
  | .message => do
    let source ← getOrThrow (db.findMessage input.sourceID)
      (.error ("Task-root ingress source Message does not exist: " ++ input.sourceID))
    throwWhen (task.sessionID.all (· = "") ∨ task.sessionID ≠ some source.sessionID)
      (.error ("Task-root ingress source Message " ++ input.sourceID ++ " is outside Task " ++
        input.taskID ++ " root Session"))
  | .protocolEvent => do
    let source ← getOrThrow
      (((db.events.find? fun row => row.id = input.sourceID).map fun row =>
        ("task", row.aggregateID)).or
        ((db.protocolEvents.find? fun row => row.id = input.sourceID).map fun row =>
          (row.aggregateType, row.aggregateID)))
      (.error ("Task-root ingress source Protocol Event does not exist: " ++ input.sourceID))
    throwWhen (source.1 ≠ "task" ∨ source.2 ≠ input.taskID)
      (.error ("Task-root ingress source Protocol Event " ++ input.sourceID ++ " belongs to " ++
        source.1 ++ ":" ++ source.2))
  | .task =>
    throwWhen (input.sourceID ≠ input.taskID) (.error "Task-root Task source must equal Task identity")
  | .engineArtifact =>
    throwWhen (¬(db.artifacts.find? fun row => row.id = input.sourceID).any fun row =>
        row.taskID = input.taskID)
      (.error ("Task-root ingress Engine Artifact " ++ input.sourceID ++ " is outside Task " ++ input.taskID))
  | .inline => .ok ()

/-- The replay of an accepted source must not change its epoch, payload or policy. -/
def replayTaskRootIngress (input : AcceptTaskRootIngressInput) (existing : TaskRootIngressRow) :
    Except EngineError (TaskRootIngressRow × TaskRootDatabase) := do
  throwWhen (existing.executionEpoch ≠ input.executionEpoch)
    (.error (input.sourceText ++ " was already accepted in epoch " ++ toString existing.executionEpoch))
  throwWhen (existing.inlinePayload ≠ input.inlinePayload)
    (.error (input.sourceText ++ " replay changed its immutable payload"))
  throwWhen (¬(db.findPolicy existing.policyID).any fun policy => policy.Agrees input)
    (.error (input.sourceText ++ " replay changed its immutable policy"))
  return (existing, db)

def latestIngressSequence (taskID : String) (executionEpoch : ℕ) : ℕ :=
  maxOrZero
    ((db.ingresses.filter fun row =>
      row.taskID = taskID ∧ row.executionEpoch = executionEpoch).map (·.sequence))

def insertTaskRootIngress (row : TaskRootIngressRow) : Except EngineError TaskRootDatabase := do
  throwWhen (db.taskDeleted row.taskID) (.database "engine_task_root_ingress: deleted Task rejects new input")
  throwWhen (db.ingresses.any fun other => other.id = row.id)
    (.database "UNIQUE constraint failed: engine_task_root_ingress.id")
  throwWhen (db.ingresses.any fun other =>
      other.taskID = row.taskID ∧ other.executionEpoch = row.executionEpoch ∧ other.sequence = row.sequence)
    (.database "UNIQUE constraint failed: index 'engine_task_root_ingress_sequence_idx'")
  throwWhen (db.ingresses.any fun other =>
      other.taskID = row.taskID ∧ other.source = row.source ∧ other.sourceID = row.sourceID)
    (.database "UNIQUE constraint failed: index 'engine_task_root_ingress_source_idx'")
  return { db with ingresses := db.ingresses ++ [row] }

/-- Accept a source for the first time. -/
def acceptNewTaskRootIngress (input : AcceptTaskRootIngressInput) :
    Except EngineError (TaskRootIngressRow × TaskRootDatabase) := do
  let task ← getOrThrow (db.findTask input.taskID)
    (.error ("Task-root ingress Task does not exist: " ++ input.taskID))
  let lifecycle ← taskLifecycleProjectionInTransaction db.events input.taskID
  throwWhen (lifecycle.epoch ≠ input.executionEpoch)
    (.error (input.sourceText ++ " targets epoch " ++ toString input.executionEpoch ++
      ", current epoch is " ++ toString lifecycle.epoch))
  assertIngressSource db input task
  let dueWaitID ← exactDueTaskWaitForIngressInTransaction db input
  let (policyID, withPolicy) ← ensureTaskRootIngressPolicyInTransaction db input
  let accepted : TaskRootIngressRow :=
    { id := taskRootIngressID input.taskID input.source input.sourceID
      taskID := input.taskID
      projectID := task.projectID
      executionEpoch := input.executionEpoch
      sequence := latestIngressSequence db input.taskID input.executionEpoch + 1
      source := input.source
      sourceID := input.sourceID
      inlinePayload := input.inlinePayload
      policyID := policyID
      timeAccepted := input.now }
  let inserted ← insertTaskRootIngress withPolicy accepted
  let superseded ← supersedeCurrentTaskWaitsForIngressInTransaction inserted accepted dueWaitID
    input.now
  return (accepted, superseded)

/-- Accept a source, or replay its acceptance. -/
def acceptTaskRootIngressInTransaction (input : AcceptTaskRootIngressInput) :
    Except EngineError (TaskRootIngressRow × TaskRootDatabase) := do
  throwWhen (db.taskDeleted input.taskID) (.taskDeleted input.taskID)
  throwWhen (¬IsPositiveSafeInteger input.executionEpoch)
    (.error "Task-root ingress execution epoch must be a positive safe integer")
  throwWhen (trim input.sourceID = "") (.error "Task-root ingress requires an exact source identity")
  throwWhen (decide (input.source = .inline) ≠ input.inlinePayload.isSome)
    (.error "Task-root inline payload exists exactly when source is inline")
  match db.ingresses.find? fun row =>
      row.taskID = input.taskID ∧ row.source = input.source ∧ row.sourceID = input.sourceID with
  | some existing => replayTaskRootIngress db input existing
  | none => acceptNewTaskRootIngress db input

inductive TaskRootIngressSourceKind where
  | taskCreation
  | operatorMessage
  | orchestratorMessage
  | missionMessage
  | missionAcceptanceResume
  | coordinationRequest
  | infrastructureRecovery
  | dispatchInfrastructureFailure
  | agentLifecycleDelivery
  | taskWaitActivity
  | taskWaitWake
  | orchestratorEvent
deriving DecidableEq

def TaskRootIngressSourceKind.text : TaskRootIngressSourceKind → String
  | taskCreation => "task_creation"
  | operatorMessage => "operator_message"
  | orchestratorMessage => "orchestrator_message"
  | missionMessage => "mission_message"
  | missionAcceptanceResume => "mission_acceptance_resume"
  | coordinationRequest => "coordination_request"
  | infrastructureRecovery => "infrastructure_recovery"
  | dispatchInfrastructureFailure => "dispatch_infrastructure_failure"
  | agentLifecycleDelivery => "agent_lifecycle_delivery"
  | taskWaitActivity => "task_wait_activity"
  | taskWaitWake => "task_wait_wake"
  | orchestratorEvent => "orchestrator_event"

def rootMessageSourceKind : TaskRootMessageKind → TaskRootIngressSourceKind
  | .operator => .operatorMessage
  | .orchestrator => .orchestratorMessage
  | .mission => .missionMessage

variable (event : OrchestratorEvent)

def sourceKindCandidates : List TaskRootIngressSourceKind :=
  let candidates : List TaskRootIngressSourceKind :=
    (event.taskCreation.map fun _ => .taskCreation).toList ++
    (event.rootMessage.map fun message => rootMessageSourceKind message.2).toList ++
    (event.missionAcceptanceResume.map fun _ => .missionAcceptanceResume).toList ++
    (event.coordinationRequest.map fun _ => .coordinationRequest).toList ++
    (event.processRecovery.map fun _ => .infrastructureRecovery).toList ++
    (event.dispatchInfrastructureFailure.map fun _ => .dispatchInfrastructureFailure).toList ++
    (event.agentLifecycleDelivery.map fun _ => .agentLifecycleDelivery).toList ++
    (event.taskWaitActivity.map fun _ => .taskWaitActivity).toList ++
    (event.taskWaitWake.map fun _ => .taskWaitWake).toList
  if event.note.any (· ≠ "") ∧ candidates = [] then [.orchestratorEvent] else candidates

def taskRootIngressSourceKind : Except EngineError TaskRootIngressSourceKind :=
  match sourceKindCandidates event with
  | [kind] => .ok kind
  | [] => .error (.error "Task root ingress requires exactly one source kind; received none")
  | candidates => .error (.error ("Task root ingress requires exactly one source kind; received " ++
      ", ".intercalate (candidates.map (·.text))))

/-- The identities that a caller hands over with an event. -/
structure TaskRootIngressIdentity where
  messageID : Option String
  requestID : Option String
  recoveryFactID : Option String
  infrastructureFactID : Option String
  waitJobID : Option String
  lifecycleEventID : Option String
  taskCreationID : Option String

/-- The trimmed identity, unless it is blank. -/
def exactIdentity (identity : Option String) : Option String :=
  (identity.map trim).filter (· ≠ "")

def sourceForEvent (identity : TaskRootIngressIdentity) :
    EngineTaskRootIngressSource × String × Option OrchestratorEvent :=
  match exactIdentity identity.messageID with
  | some messageID => (.message, messageID, none)
  | none =>
  match exactIdentity identity.lifecycleEventID with
  | some lifecycleEventID => (.protocolEvent, lifecycleEventID, none)
  | none =>
  match ((exactIdentity identity.infrastructureFactID).or
      (exactIdentity identity.recoveryFactID)).or (exactIdentity identity.requestID) with
  | some artifactID => (.engineArtifact, artifactID, none)
  | none =>
  match exactIdentity identity.taskCreationID with
  | some taskCreationID => (.task, taskCreationID, none)
  | none =>
    (.inline, (exactIdentity identity.waitJobID).getD (stableInlineSource event), some event)

/-- The limits under which events are accepted. -/
def DEFAULT_TASK_ROOT_INGRESS_POLICY : ℕ × ℕ := (3, 4)

def TaskRootIngressSourceKind.isTerminalConversation (kind : TaskRootIngressSourceKind) : Bool :=
  kind = .operatorMessage ∨ kind = .coordinationRequest

def persistTaskRootIngressInTransaction (db : TaskRootDatabase) (task : TaskRow)
    (event : OrchestratorEvent) (identity : TaskRootIngressIdentity) (now : ℤ) :
    Except EngineError (TaskRootIngressRow × TaskRootDatabase) := do
  throwWhen (task.sessionID.all (· = ""))
    (.taskRootIngress ("Task " ++ task.id ++ " has no root Session") "session_not_bound" task.id)
  let lifecycle ← taskLifecycleProjectionInTransaction db.events task.id
  let sourceKind ← taskRootIngressSourceKind event
  throwWhen (lifecycle.status ≠ .active ∧ ¬sourceKind.isTerminalConversation)
    (.taskRootIngress ("Task " ++ task.id ++ " epoch " ++ toString lifecycle.epoch ++
      " does not accept ordinary ingress while " ++ lifecycle.status.text) "task_terminal" task.id)
  let source := sourceForEvent event identity
  acceptTaskRootIngressInTransaction db
    { taskID := task.id
      executionEpoch := lifecycle.epoch
      source := source.1
      sourceID := source.2.1
      inlinePayload := source.2.2
      semanticTurnLimit := DEFAULT_TASK_ROOT_INGRESS_POLICY.1
      activationLimit := DEFAULT_TASK_ROOT_INGRESS_POLICY.2
      absoluteDeadline := none
      now := now }

def TaskRootIngressRow.sourceKey (row : TaskRootIngressRow) : String × EngineTaskRootIngressSource × String :=
  (row.taskID, row.source, row.sourceID)

def AcceptTaskRootIngressInput.sourceKey (input : AcceptTaskRootIngressInput) :
    String × EngineTaskRootIngressSource × String :=
  (input.taskID, input.source, input.sourceID)

section Specification

variable {db db' : TaskRootDatabase}

variable {now : ℤ} {input : AcceptTaskRootIngressInput} {row : TaskRootIngressRow}

omit [TaskRootIdentity] in
lemma settleTaskWait_eq_ok {waitID ingressID : String} {disposition : TaskWaitDisposition}
    (h : settleTaskWaitForIngressInTransaction db waitID ingressID disposition now = .ok db') :
    ∃ settlements, db' = { db with waitSettlements := settlements } := by
  unfold settleTaskWaitForIngressInTransaction at h
  obtain ⟨_, h⟩ := of_bind h
  obtain ⟨_, h⟩ := of_bind h
  replace h := of_check h
  split at h
  · replace h := of_check h
    exact ⟨db.waitSettlements, (pure_eq_ok.mp h).symm⟩
  · replace h := of_check h
    exact ⟨_, (pure_eq_ok.mp h).symm⟩

omit [TaskRootIdentity] in
lemma supersedeCurrentTaskWaits_eq_ok {ingress : TaskRootIngressRow} {exceptWaitID : Option String}
    (h : supersedeCurrentTaskWaitsForIngressInTransaction db ingress exceptWaitID now = .ok db') :
    ∃ settlements, db' = { db with waitSettlements := settlements } := by
  unfold supersedeCurrentTaskWaitsForIngressInTransaction at h
  generalize db.waits.filter _ = waits at h
  induction waits generalizing db with
  | nil => exact ⟨db.waitSettlements, (pure_eq_ok.mp h).symm⟩
  | cons _ _ ih =>
    rw [List.foldlM_cons] at h
    obtain ⟨_, hnext, hrest⟩ := bind_eq_ok.mp h
    obtain ⟨_, rfl⟩ := settleTaskWait_eq_ok hnext
    obtain ⟨settlements', rfl⟩ := ih hrest
    exact ⟨settlements', rfl⟩

lemma ensureTaskRootIngressPolicy_eq_ok {policyID : String}
    (h : ensureTaskRootIngressPolicyInTransaction db input = .ok (policyID, db')) :
    ∃ policies, db' = { db with policies := db.policies ++ policies } ∧
      ∃ policy, db'.findPolicy policyID = some policy ∧ policy.Agrees input := by
  unfold ensureTaskRootIngressPolicyInTransaction at h
  replace h := of_check h
  split at h
  · rename_i hnone
    cases h
    unfold TaskRootDatabase.findPolicy at hnone ⊢
    refine ⟨_, rfl, input.policy, ?_, ⟨rfl, rfl, rfl⟩⟩
    rw [List.find?_append, hnone]
    simp
  · rename_i policy hpolicy
    split_ifs at h with hagrees
    cases h
    exact ⟨[], by simp, policy, hpolicy, hagrees⟩

omit [TaskRootIdentity] in
lemma insertTaskRootIngress_eq_ok (h : insertTaskRootIngress db row = .ok db') :
    db.taskDeleted row.taskID = false ∧ (∀ other ∈ db.ingresses, other.id ≠ row.id) ∧
      db' = { db with ingresses := db.ingresses ++ [row] } := by
  unfold insertTaskRootIngress at h
  obtain ⟨hdeleted, h⟩ := throwWhen_bind_eq_ok.mp h
  obtain ⟨hid, h⟩ := throwWhen_bind_eq_ok.mp h
  replace h := of_check h
  replace h := of_check h
  refine ⟨by simpa using hdeleted, ?_, (pure_eq_ok.mp h).symm⟩
  simpa using hid

/-- What the first acceptance of a source does to the database. -/
structure AcceptsNew (db : TaskRootDatabase) (input : AcceptTaskRootIngressInput)
    (row : TaskRootIngressRow) (db' : TaskRootDatabase) : Prop where
  notDeleted : db.taskDeleted input.taskID = false
  taskID : row.taskID = input.taskID
  executionEpoch : row.executionEpoch = input.executionEpoch
  sequence : row.sequence = latestIngressSequence db input.taskID input.executionEpoch + 1
  timeAccepted : row.timeAccepted = input.now
  freshID : ∀ other ∈ db.ingresses, other.id ≠ row.id
  currentEpoch : ∃ lifecycle, taskLifecycleProjectionInTransaction db.events input.taskID =
    .ok lifecycle ∧ lifecycle.epoch = input.executionEpoch
  /-- The ingress is appended, its policy is stored, and nothing else changes but settlements. -/
  tables : ∃ policies settlements, db' = { db with
    policies := db.policies ++ policies, ingresses := db.ingresses ++ [row],
    waitSettlements := settlements }
  policy : ∃ policy, db'.findPolicy row.policyID = some policy ∧ policy.Agrees input

lemma acceptNewTaskRootIngress_eq_ok (h : acceptNewTaskRootIngress db input = .ok (row, db')) :
    AcceptsNew db input row db' := by
  unfold acceptNewTaskRootIngress at h
  obtain ⟨_, h⟩ := of_bind h
  obtain ⟨lifecycle, hlifecycle, h⟩ := bind_eq_ok.mp h
  obtain ⟨hepoch, h⟩ := throwWhen_bind_eq_ok.mp h
  replace h := of_check h
  obtain ⟨_, h⟩ := of_bind h
  obtain ⟨⟨_, _⟩, hensure, h⟩ := bind_eq_ok.mp h
  obtain ⟨_, hinserted, h⟩ := bind_eq_ok.mp h
  obtain ⟨_, hsuperseded, h⟩ := bind_eq_ok.mp h
  obtain ⟨policies, rfl, policy, hpolicy, hagrees⟩ := ensureTaskRootIngressPolicy_eq_ok hensure
  obtain ⟨hdeleted, hfresh, rfl⟩ := insertTaskRootIngress_eq_ok hinserted
  obtain ⟨settlements, rfl⟩ := supersedeCurrentTaskWaits_eq_ok hsuperseded
  cases pure_eq_ok.mp h
  rw [not_not] at hepoch
  exact ⟨hdeleted, rfl, rfl, rfl, rfl, hfresh, ⟨lifecycle, hlifecycle, hepoch⟩,
    ⟨policies, settlements, rfl⟩, ⟨policy, hpolicy, hagrees⟩⟩

lemma acceptTaskRootIngress_cases (h : acceptTaskRootIngressInTransaction db input = .ok (row, db')) :
    IsPositiveSafeInteger input.executionEpoch ∧ trim input.sourceID ≠ "" ∧
      decide (input.source = .inline) = input.inlinePayload.isSome ∧
      ((row ∈ db.ingresses ∧ row.sourceKey = input.sourceKey ∧ row.inlinePayload = input.inlinePayload ∧ db' = db) ∨
        (∀ other ∈ db.ingresses, other.sourceKey ≠ input.sourceKey) ∧
          acceptNewTaskRootIngress db input = .ok (row, db')) := by
  unfold acceptTaskRootIngressInTransaction at h
  replace h := of_throwWhen h
  obtain ⟨hepoch, h⟩ := throwWhen_bind_eq_ok.mp h
  obtain ⟨hidentity, h⟩ := throwWhen_bind_eq_ok.mp h
  obtain ⟨hpayload, h⟩ := throwWhen_bind_eq_ok.mp h
  refine ⟨not_not.mp hepoch, hidentity, not_not.mp hpayload, ?_⟩
  split at h
  next existing hexisting =>
    unfold replayTaskRootIngress at h
    replace h := of_throwWhen h
    obtain ⟨hinline, h⟩ := throwWhen_bind_eq_ok.mp h
    replace h := of_throwWhen h
    cases pure_eq_ok.mp h
    have hkey : row.taskID = input.taskID ∧ row.source = input.source ∧ row.sourceID = input.sourceID := by
      simpa using List.find?_some hexisting
    refine .inl ⟨List.mem_of_find?_eq_some hexisting, ?_, not_not.mp hinline, rfl⟩
    simp only [TaskRootIngressRow.sourceKey, AcceptTaskRootIngressInput.sourceKey, hkey]
  next hnone =>
    refine .inr ⟨fun other hother hkey => ?_, h⟩
    have hdiffers := List.find?_eq_none.mp hnone other hother
    simp only [TaskRootIngressRow.sourceKey, AcceptTaskRootIngressInput.sourceKey, Prod.mk.injEq] at hkey
    exact hdiffers (decide_eq_true hkey)

/-- Acceptance is a replay that writes nothing, or the first acceptance of the source. -/
theorem acceptTaskRootIngress_eq_ok (h : acceptTaskRootIngressInTransaction db input = .ok (row, db')) :
    (row ∈ db.ingresses ∧ db' = db) ∨ AcceptsNew db input row db' := by
  obtain ⟨-, -, -, ⟨hold, -, -, hsame⟩ | ⟨-, hnew⟩⟩ := acceptTaskRootIngress_cases h
  · exact .inl ⟨hold, hsame⟩
  · exact .inr (acceptNewTaskRootIngress_eq_ok hnew)

lemma persistTaskRootIngress_accepts {task : TaskRow} {event : OrchestratorEvent}
    {identity : TaskRootIngressIdentity}
    (h : persistTaskRootIngressInTransaction db task event identity now = .ok (row, db')) :
    ∃ input : AcceptTaskRootIngressInput, input.taskID = task.id ∧ input.now = now ∧
      input.inlinePayload = (sourceForEvent event identity).2.2 ∧
      acceptTaskRootIngressInTransaction db input = .ok (row, db') := by
  unfold persistTaskRootIngressInTransaction at h
  replace h := of_check h
  obtain ⟨_, h⟩ := of_bind h
  obtain ⟨_, h⟩ := of_bind h
  replace h := of_check h
  exact ⟨_, rfl, rfl, rfl, h⟩

theorem persistTaskRootIngress_eq_ok {task : TaskRow} {event : OrchestratorEvent}
    {identity : TaskRootIngressIdentity}
    (h : persistTaskRootIngressInTransaction db task event identity now = .ok (row, db')) :
    (row ∈ db.ingresses ∧ db' = db) ∨
      ∃ input : AcceptTaskRootIngressInput, input.now = now ∧ AcceptsNew db input row db' := by
  obtain ⟨input, -, hnow, -, haccept⟩ := persistTaskRootIngress_accepts h
  exact (acceptTaskRootIngress_eq_ok haccept).imp_right fun hnew => ⟨input, hnow, hnew⟩

end Specification

end OpenCorvus.Engine
