import OpenCorvus.Mission.AcceptanceGap

/-!
# The acceptance ledger of a Task

The ledger is a chain of revisions, each an Artifact of the Task that carries a complete gap.  A revision is appended
in one transaction: the caller names the revision it read last, the Task must be active in the named epoch, every
criterion must belong to a responsibility of its workflow, and every criterion of the last revision must reappear
under the transition rules of its state.
-/

namespace OpenCorvus.Mission

open Engine EcmaScript Transaction

structure SelectedWorkflowNodeBinding where
  nodeID : String
  agentID : String
  dependsOn : List String
deriving DecidableEq

inductive SelectedWorkflowBinding where
  | direct (packageRevision : ExpertSquadPackageRevisionBinding)
  | virtualWorkflow (workflowID : String) (packageRevision : ExpertSquadPackageRevisionBinding)
      (nodes : List SelectedWorkflowNodeBinding)
deriving DecidableEq

/-- `binding.package_revision` -/
def SelectedWorkflowBinding.packageRevision : SelectedWorkflowBinding → ExpertSquadPackageRevisionBinding
  | .direct packageRevision => packageRevision
  | .virtualWorkflow _ packageRevision _ => packageRevision

structure TaskAcceptanceLedgerRevision where
  revision : ℕ
  taskID : String
  executionEpoch : ℕ
  previousRevisionArtifactID : Option String
  gap : MissionAcceptanceGap
  timeRecorded : ℕ

structure DispatchLineagePayload where
  taskID : String
  targetAgentID : String
  workflowBinding : SelectedWorkflowBinding
  workflowNodeID : Option String
  timeCreated : ℕ

inductive EngineArtifactPayload where
  | taskAcceptanceLedger (revision : TaskAcceptanceLedgerRevision)
  | dispatchLineage (payload : DispatchLineagePayload)
  | taskCompletionDecision (workflowBinding : SelectedWorkflowBinding)
  | taskPackageRevisionBinding (packageRevision : ExpertSquadPackageRevisionBinding)
  | other (kind content : String)

structure EngineArtifactRow where
  id : String
  taskID : String
  label : String
  payload : EngineArtifactPayload
  /-- The revision at which this version entered the catalog. -/
  catalogRevision : ℕ
  timeCreated : ℕ

/-- The tables that the ledger reads and writes. -/
structure LedgerDatabase where
  artifacts : List EngineArtifactRow
  /-- The last revision that the catalog allocated. -/
  catalogRevision : ℕ
  lifecycle : List TaskEvent

/-- `exactArtifactLabel(label)` -/
def exactArtifactLabel (label : String) : Except LedgerError Unit :=
  throwWhen (stringLength label = 0 ∨ 2048 < stringLength label)
    (.engine (.error "Engine Artifact label must contain 1-2048 characters"))

variable (db : LedgerDatabase)

def allocateCatalogRevision : Except LedgerError ℕ := do
  throwWhen (¬IsPositiveSafeInteger (db.catalogRevision + 1)) (.engine (.error
      "Engine Artifact catalog revision allocation did not return a positive safe integer"))
  return db.catalogRevision + 1

def insertEngineArtifact (id taskID label : String) (payload : EngineArtifactPayload) (timeCreated : ℕ) :
    Except LedgerError LedgerDatabase := do
  let catalogRevision ← allocateCatalogRevision db
  exactArtifactLabel label
  throwWhen (∃ row ∈ db.artifacts, row.id = id)
    (.engine (.database "UNIQUE constraint failed: engine_artifact.id"))
  return { db with
    artifacts := db.artifacts ++
      [{ id := id, taskID := taskID, label := label, payload := payload,
         catalogRevision := catalogRevision, timeCreated := timeCreated }]
    catalogRevision := catalogRevision }

structure TaskAcceptanceLedgerProjection where
  artifactID : String
  revision : TaskAcceptanceLedgerRevision

/-- `TaskAcceptanceLedgerRevisionSchema.parse(revision)` -/
def parseTaskAcceptanceLedgerRevision (revision : TaskAcceptanceLedgerRevision) :
    Except LedgerError TaskAcceptanceLedgerRevision := do
  throwWhen (¬(IsPositiveSafeInteger revision.revision ∧ revision.taskID ≠ "" ∧
      IsPositiveSafeInteger revision.executionEpoch ∧
      revision.previousRevisionArtifactID ≠ some "" ∧
      IsPositiveSafeInteger revision.timeRecorded))
    (.invalid "TaskAcceptanceLedgerRevision")
  let gap ← parseMissionAcceptanceGap revision.gap
  return { revision with gap := gap }

variable (taskID : String)

def EngineArtifactRow.ledgerRevision (row : EngineArtifactRow) : Option TaskAcceptanceLedgerRevision :=
  match row.payload with
  | .taskAcceptanceLedger revision => if row.taskID = taskID then some revision else none
  | _ => none

def taskAcceptanceLedgerRows : List EngineArtifactRow :=
  db.artifacts.filter fun row => (row.ledgerRevision taskID).isSome

def readLatestTaskAcceptanceLedgerInTransaction : Except LedgerError (Option TaskAcceptanceLedgerProjection) :=
  match (taskAcceptanceLedgerRows db taskID).argmax (·.catalogRevision) with
  | none => return none
  | some row =>
    match row.ledgerRevision taskID with
    | none => return none
    | some revision => do
      let parsed ← parseTaskAcceptanceLedgerRevision revision
      return some { artifactID := row.id, revision := parsed }

/-- `requireTaskPackageRevisionBinding(taskID, db)` -/
def requireTaskPackageRevisionBinding : Except LedgerError ExpertSquadPackageRevisionBinding :=
  let rows := db.artifacts.filterMap fun row =>
    match row.payload with
    | .taskPackageRevisionBinding packageRevision =>
      if row.taskID = taskID then some packageRevision else none
    | _ => none
  match rows with
  | [packageRevision] => return packageRevision
  | _ =>
    .error (.packageRevisionBinding ("Task " ++ taskID ++
      " requires exactly one immutable package revision binding; found " ++ toString rows.length)
      taskID rows.length)

def EngineArtifactRow.workflowBinding (taskID : String) (row : EngineArtifactRow) :
    Option (String × SelectedWorkflowBinding) :=
  match row.payload with
  | .dispatchLineage payload =>
    if row.taskID = taskID then some (row.id, payload.workflowBinding) else none
  | .taskCompletionDecision workflowBinding =>
    if row.taskID = taskID then some (row.id, workflowBinding) else none
  | _ => none

def readTaskWorkflowBindingInTransaction : Except LedgerError (Option SelectedWorkflowBinding) :=
  match db.artifacts.filterMap (·.workflowBinding taskID) with
  | [] => return none
  | first :: rest => do
    rest.forM fun row =>
      throwWhen (first.2 ≠ row.2) (.engine (.error ("Task " ++ taskID ++ " workflow artifact " ++ row.1 ++
          " conflicts with immutable binding from " ++ first.1)))
    let creationBinding ← requireTaskPackageRevisionBinding db taskID
    throwWhen (creationBinding ≠ first.2.packageRevision) (.engine (.error ("Task " ++ taskID ++
        " workflow binding conflicts with immutable creation package revision binding")))
    return some first.2

def dispatchLineageByArtifactID (taskID artifactID : String) :
    Except LedgerError (Option DispatchLineagePayload) :=
  match db.artifacts.find? fun row => row.id = artifactID ∧ row.taskID = taskID with
  | none => return none
  | some row =>
    match row.payload with
    | .dispatchLineage payload => do
      throwWhen (payload.taskID ≠ row.taskID)
        (.engine (.error ("Invalid dispatch_lineage artifact " ++ row.id ++ ": payload Task " ++
          payload.taskID ++ " != " ++ row.taskID)))
      throwWhen (payload.timeCreated ≠ row.timeCreated)
        (.engine (.error ("Invalid dispatch_lineage artifact " ++ row.id ++ ": payload time " ++
          toString payload.timeCreated ++ " != " ++ toString row.timeCreated)))
      return some payload
    | _ => return none

def requireCriterionResponsibility (binding : SelectedWorkflowBinding) (criterion : MissionAcceptanceCriterion) :
    Except LedgerError Unit :=
  let refuse (detail : String) : LedgerError :=
    .gapIntegrity taskID ("Acceptance criterion " ++ criterion.criterionID ++ detail)
  match criterion.responsibility with
  | .workflowNode workflowID workflowNodeID =>
    match binding with
    | .direct _ => .error (refuse " workflow responsibility does not match the Task binding.")
    | .virtualWorkflow boundWorkflowID _ nodes => do
      throwWhen (boundWorkflowID ≠ workflowID)
        (refuse " workflow responsibility does not match the Task binding.")
      throwWhen (¬∃ node ∈ nodes, node.nodeID = workflowNodeID)
        (refuse (" references unknown workflow node " ++ workflowNodeID ++ "."))
  | .directDispatch packageRevision agentID dispatchLineageID =>
    match binding with
    | .virtualWorkflow _ _ _ =>
      .error (refuse " direct responsibility does not match the Task package revision.")
    | .direct boundPackageRevision => do
      throwWhen (boundPackageRevision ≠ packageRevision)
        (refuse " direct responsibility does not match the Task package revision.")
      let found ← dispatchLineageByArtifactID db taskID dispatchLineageID
      let lineage ← getOrThrow found
        (refuse (" direct dispatch lineage " ++ dispatchLineageID ++ " does not exist."))
      throwWhen (lineage.taskID ≠ taskID ∨ lineage.targetAgentID ≠ agentID ∨
          lineage.workflowNodeID ≠ none ∨ lineage.workflowBinding ≠ binding)
        (refuse (" direct responsibility does not match immutable dispatch lineage " ++
          dispatchLineageID ++ "."))

def requireCriterionResponsibilities (gap : MissionAcceptanceGap) (binding : Option SelectedWorkflowBinding) :
    Except LedgerError Unit :=
  match binding with
  | none =>
    .error (.gapIntegrity taskID
      ("Task " ++ taskID ++ " has no immutable workflow binding for Mission acceptance repair."))
  | some binding => gap.criteria.forM (requireCriterionResponsibility db taskID binding)

variable (current prior : MissionAcceptanceCriterion)

def hasNewLocatorInRole (role : EvidenceRoleField) : Bool :=
  (current.locators role).any fun locator => locator ∉ prior.locators role

def hasNewLocator : Bool :=
  evidenceRoleFields.any fun role => hasNewLocatorInRole current prior role

def retainsAllLocatorsByRole : Bool :=
  evidenceRoleFields.all fun role =>
    (prior.locators role).all fun locator => locator ∈ current.locators role

def requireSameResponsibility (taskID : String) (prior current : MissionAcceptanceCriterion) :
    Except LedgerError Unit :=
  throwWhen (prior.responsibility ≠ current.responsibility)
    (.gapIntegrity taskID ("Acceptance criterion " ++ prior.criterionID ++
      " cannot change its immutable responsibility."))

/-- What an open criterion may become; `action` is the repair action it had. -/
def requireOpenTransition (taskID : String) (prior : MissionAcceptanceCriterion)
    (action : MissionAcceptanceRepairAction) (current : MissionAcceptanceCriterion) :
    Except LedgerError Unit := do
  throwWhen (¬retainsAllLocatorsByRole current prior)
    (.gapIntegrity taskID ("Acceptance criterion " ++ prior.criterionID ++
      " must retain every prior evidence locator in its original role."))
  match current.state with
  | .opened _ currentAction =>
    throwWhen (¬hasNewLocator current prior ∧ currentAction.identitySHA256 = action.identitySHA256)
      (.gapIntegrity taskID ("Repeated criterion " ++ prior.criterionID ++
        " requires new evidence or a changed canonical repair action."))
  | .accepted =>
    throwWhen (¬hasNewLocatorInRole current prior .resolution)
      (.gapIntegrity taskID ("Acceptance criterion " ++ prior.criterionID ++
        " requires new resolution evidence before it can be accepted."))
  | .blocked =>
    throwWhen (¬hasNewLocatorInRole current prior .irreducibleBlocker)
      (.gapIntegrity taskID ("Acceptance criterion " ++ prior.criterionID ++
        " requires new irreducible-blocker evidence before it can be blocked."))

def reopenRefused (taskID : String) (prior : MissionAcceptanceCriterion) : LedgerError :=
  .gapIntegrity taskID ("Accepted criterion " ++ prior.criterionID ++
    " can reopen only as stale_evidence while retaining prior evidence.")

def requireAcceptedTransition (taskID : String) (prior current : MissionAcceptanceCriterion) :
    Except LedgerError Unit :=
  match current.state with
  | .accepted =>
    throwWhen (prior ≠ current) (.gapIntegrity taskID ("Accepted criterion " ++ prior.criterionID ++
        " must retain its exact immutable evidence and finding."))
  | .blocked => .error (reopenRefused taskID prior)
  | .opened disposition _ => do
    throwWhen (disposition ≠ .staleEvidence ∨ ¬retainsAllLocatorsByRole current prior) (reopenRefused taskID prior)
    throwWhen (¬hasNewLocatorInRole current prior .invalidating)
      (.gapIntegrity taskID ("Accepted criterion " ++ prior.criterionID ++
        " requires new contradictory evidence before reopening."))

/-- The criterion of a gap under an identity; a later entry of the map replaces an earlier one. -/
def currentByID (gap : MissionAcceptanceGap) (criterionID : String) : Option MissionAcceptanceCriterion :=
  gap.criteria.reverse.find? fun criterion => criterion.criterionID = criterionID

def requireCriterionContinuity (taskID : String) (gap : MissionAcceptanceGap)
    (prior : MissionAcceptanceCriterion) : Except LedgerError Unit := do
  let current ← getOrThrow (currentByID gap prior.criterionID)
    (.gapIntegrity taskID ("Acceptance criterion " ++ prior.criterionID ++
      " cannot disappear from the append-only ledger."))
  requireSameResponsibility taskID prior current
  match prior.state with
  | .opened _ action => requireOpenTransition taskID prior action current
  | .accepted => requireAcceptedTransition taskID prior current
  | .blocked =>
    throwWhen (prior ≠ current) (.gapIntegrity taskID ("Irreducibly blocked criterion " ++ prior.criterionID ++
        " must retain its exact evidence-backed state."))

def requireCriterionStateContinuity (taskID : String)
    (previous : Option TaskAcceptanceLedgerProjection) (gap : MissionAcceptanceGap) :
    Except LedgerError Unit :=
  match previous with
  | none => return ()
  | some previous => previous.revision.gap.criteria.forM (requireCriterionContinuity taskID gap)

def validateTaskAcceptanceLedgerTransition (db : LedgerDatabase) (taskID : String)
    (previous : Option TaskAcceptanceLedgerProjection) (gap : MissionAcceptanceGap)
    (workflowBinding : Option SelectedWorkflowBinding) : Except LedgerError MissionAcceptanceGap := do
  let gap ← parseMissionAcceptanceGap gap
  requireCriterionResponsibilities db taskID gap workflowBinding
  requireCriterionStateContinuity taskID previous gap
  return gap

structure AppendLedgerRevisionInput where
  taskID : String
  artifactID : String
  executionEpoch : ℕ
  expectedPreviousArtifactID : Option String
  gap : MissionAcceptanceGap
  now : ℕ

def nextLedgerRevision (input : AppendLedgerRevisionInput)
    (previous : Option TaskAcceptanceLedgerProjection) (gap : MissionAcceptanceGap) :
    TaskAcceptanceLedgerRevision :=
  { revision := (previous.map (·.revision.revision)).getD 0 + 1
    taskID := input.taskID
    executionEpoch := input.executionEpoch
    previousRevisionArtifactID := previous.map (·.artifactID)
    gap := gap
    timeRecorded := input.now }

def appendTaskAcceptanceLedgerRevisionInTransaction (db : LedgerDatabase) (input : AppendLedgerRevisionInput) :
    Except LedgerError (LedgerDatabase × TaskAcceptanceLedgerProjection) := do
  let gap ← parseMissionAcceptanceGap input.gap
  let previous ← readLatestTaskAcceptanceLedgerInTransaction db input.taskID
  throwWhen (previous.map (·.artifactID) ≠ input.expectedPreviousArtifactID)
    (.conflict input.taskID input.expectedPreviousArtifactID (previous.map (·.artifactID))
      ("Task " ++ input.taskID ++ " acceptance ledger changed; query the current Task before resuming."))
  let lifecycle ← (taskLifecycleProjectionInTransaction db.lifecycle input.taskID).mapError .engine
  throwWhen (lifecycle.status ≠ .active ∨ lifecycle.epoch ≠ input.executionEpoch)
    (.gapIntegrity input.taskID ("Task " ++ input.taskID ++
      " acceptance ledger revision targets epoch " ++ toString input.executionEpoch ++
      ", current lifecycle is " ++ lifecycle.status.text ++ " epoch " ++
      toString lifecycle.epoch ++ "."))
  let workflowBinding ← readTaskWorkflowBindingInTransaction db input.taskID
  let _ ← validateTaskAcceptanceLedgerTransition db input.taskID previous gap workflowBinding
  let revision ← parseTaskAcceptanceLedgerRevision (nextLedgerRevision input previous gap)
  let db' ← insertEngineArtifact db input.artifactID input.taskID
    ("acceptance-ledger-r" ++ toString revision.revision) (.taskAcceptanceLedger revision) input.now
  return (db', { artifactID := input.artifactID, revision := revision })

end OpenCorvus.Mission
