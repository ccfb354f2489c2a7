import OpenCorvus.Engine.TaskRootIngressEvidence
import OpenCorvus.Foundation.KeysetPagination

/-!
# Activations of Task-root ingresses

An ingress is activated by a lease.  Its acquisition reads the projection of the ingress and of every earlier one of
its Task and epoch that has no disposition, and is refused unless the ingress is ready and all of these release the
head of line.  The renewal of the lease, and every write of an assistant message in the activation, pass its fence.
-/

namespace OpenCorvus.Engine

open EcmaScript Transaction List KeysetPagination TaskRootIngressRow

abbrev TaskRootIngressFrontierCursor := ℕ ×ₗ String

/-- The key of `ORDER BY sequence ASC, id ASC`. -/
def TaskRootIngressRow.frontierKey (row : TaskRootIngressRow) : TaskRootIngressFrontierCursor :=
  toLex (row.sequence, row.id)

variable (db : TaskRootDatabase)

def frontierRows (taskID : String) (executionEpoch : ℕ) (beforeSequence : Option ℕ) : List TaskRootIngressRow :=
  db.ingresses.filter fun row =>
    row.taskID = taskID ∧ row.executionEpoch = executionEpoch ∧
      (beforeSequence.all fun sequence => row.sequence < sequence) ∧ db.undisposed row

structure TaskRootIngressFrontierPage where
  ingresses : List TaskRootIngressRow
  scannedCount : ℕ
  next : Option TaskRootIngressFrontierCursor

def MAX_SCHEDULING_FRONTIER_PAGE_SIZE : ℕ := 64

def taskRootIngressReconciliationPageInTransaction (taskID : String) (executionEpoch : ℕ)
    (after : Option TaskRootIngressFrontierCursor) (beforeSequence : Option ℕ) (limit : ℕ) :
    Except EngineError TaskRootIngressFrontierPage := do
  throwWhen (limit = 0 ∨ MAX_SCHEDULING_FRONTIER_PAGE_SIZE < limit)
    (.error ("Task-root ingress frontier limit must be between 1 and " ++
      toString MAX_SCHEDULING_FRONTIER_PAGE_SIZE))
  let ingresses := KeysetPagination.page TaskRootIngressRow.frontierKey
    (frontierRows db taskID executionEpoch beforeSequence) limit after
  return { ingresses := ingresses, scannedCount := ingresses.length,
           next := KeysetPagination.next TaskRootIngressRow.frontierKey limit ingresses }

/-- The pages before an ingress, one after the other; the number bounds how many are read. -/
def precedingTaskRootIngresses (db : TaskRootDatabase) (ingress : TaskRootIngressAcceptedFact) :
    ℕ → Option TaskRootIngressFrontierCursor → Except EngineError (List TaskRootIngressRow)
  | 0, _ => .ok []
  | fuel + 1, after => do
    let prior ← taskRootIngressReconciliationPageInTransaction db ingress.taskID
      ingress.executionEpoch after (some ingress.sequence) 32
    if prior.scannedCount = 0 then return []
    match prior.next with
    | none => return prior.ingresses
    | some cursor => do
      let later ← precedingTaskRootIngresses db ingress fuel (some cursor)
      return prior.ingresses ++ later

def blockedByIngress [Collation] (db : TaskRootDatabase) (now : ℤ) (readEvidence : TaskRootIngressEvidenceReader) :
    List TaskRootIngressRow → Except EngineError (Option String)
  | [] => .ok none
  | candidate :: rest => do
    let preceding ← projectTaskRootIngress db candidate.id now readEvidence
    if taskRootIngressReleasesHeadOfLine preceding then blockedByIngress db now readEvidence rest
    else return some candidate.id

def onActivations {β : Type} : Except ControlLeaseError β → Except EngineError β
  | .ok result => .ok result
  | .error e => .error (.controlLease e)

/-- `Project.assertDurableAdmissionOpen`. -/
def assertDurableAdmissionOpen (projectID : String) : Except EngineError Unit :=
  throwWhen (projectID ∈ db.closedProjects)
    (.error ("Project " ++ projectID ++ " durable admission is closed during deletion"))

structure AcquireTaskRootIngressLeaseInput where
  ingressID : String
  ownerOccurrenceID : String
  now : ℤ
  leaseMilliseconds : ℤ
  /-- The id that `Identifier.ascending("activity")` generates. -/
  activationID : String
  /-- What `assertControlOwnerInTransaction` raises, if it raises. -/
  controlOwnerError : Option EngineError

/-- Whether the ingress was activated, and what was seen if it was not. -/
inductive AcquireTaskRootIngressLeaseResult where
  | acquired (activationID : String) (expiresAt : ℤ)
  | refused (projection : TaskRootIngressProjection) (blockedByIngressID : Option String)

/-- The acquisition of the lease of an ingress.  A consumed activation is superseded by name. -/
def AcquireTaskRootIngressLeaseInput.lease [Collation] (input : AcquireTaskRootIngressLeaseInput)
    (facts : TaskRootIngressFacts) : AcquireControlLeaseInput where
  target := .taskRootIngress
  targetID := input.ingressID
  ownerOccurrenceID := input.ownerOccurrenceID
  now := input.now
  leaseMilliseconds := input.leaseMilliseconds
  leaseID := some input.activationID
  supersedeLeaseID := (latestTaskRootIngressLease facts).map (·.id)
  generatedID := input.activationID

/-- Activate a ready ingress whose predecessors all release the head of line. -/
def acquireTaskRootIngressLease [Collation] (db : TaskRootDatabase)
    (input : AcquireTaskRootIngressLeaseInput) (readEvidence : TaskRootIngressEvidenceReader) :
    Except EngineError (AcquireTaskRootIngressLeaseResult × TaskRootDatabase) := do
  throwWhen (input.leaseMilliseconds ≤ 0 ∨ (MAX_SAFE_INTEGER : ℤ) < input.leaseMilliseconds)
    (.error "Task-root lease duration must be a positive safe integer")
  let facts ← taskRootIngressFactsInTransaction db input.ingressID readEvidence
  let task ← getOrThrow (db.findTask facts.ingress.taskID)
    (.error ("Task-root ingress " ++ input.ingressID ++ " references a missing Task"))
  assertDurableAdmissionOpen db task.projectID
  let projection := reduceTaskRootIngressFacts facts input.now
  if projection ≠ .ready then return (.refused projection none, db)
  let preceding ← precedingTaskRootIngresses db facts.ingress (db.ingresses.length + 1) none
  match ← blockedByIngress db input.now readEvidence preceding with
  | some blocking => return (.refused projection (some blocking), db)
  | none => do
    input.controlOwnerError.elim (.ok ()) .error
    let (acquired, activations) ←
      onActivations (acquireControlLeaseInTransaction db.activations (input.lease facts))
    if acquired.acquired then
      return (.acquired acquired.lease.id acquired.lease.expiresAt,
        { db with activations := activations })
    let seen ← projectTaskRootIngress db input.ingressID input.now readEvidence
    return (.refused seen none, db)

structure RenewTaskRootIngressLeaseInput where
  ingressID : String
  activationID : String
  ownerOccurrenceID : String
  now : ℤ
  expiresAt : ℤ

def RenewTaskRootIngressLeaseInput.claim (input : RenewTaskRootIngressLeaseInput) :
    ControlLeaseClaim where
  target := .taskRootIngress
  targetID := input.ingressID
  leaseID := input.activationID
  ownerOccurrenceID := input.ownerOccurrenceID
  now := input.now

/-- Move the expiry of an activation that passes the fence. -/
def renewTaskRootIngressLease (input : RenewTaskRootIngressLeaseInput) : Except EngineError TaskRootDatabase := do
  throwWhen (input.expiresAt ≤ input.now) (.error "Task-root lease renewal must extend into the future")
  let task ← getOrThrow ((db.findIngress input.ingressID).bind fun row => db.findTask row.taskID)
    (.error ("Task-root ingress " ++ input.ingressID ++ " has no Project authority"))
  assertDurableAdmissionOpen db task.projectID
  let fence ← assertTaskRootActivationLeaseFenceInTransaction db input.activationID input.now false
  throwWhen (fence.ingressID ≠ input.ingressID ∨ fence.ownerOccurrenceID ≠ input.ownerOccurrenceID)
    (.error ("Task-root activation fence rejected lease renewal " ++ input.activationID))
  let activations ←
    onActivations (renewControlLeaseInTransaction db.activations input.claim input.expiresAt)
  return { db with activations := activations }

structure AssistantCandidate where
  sessionID : String
  parentID : String
  activationID : String

def MessageRow.isSiblingOf (row : MessageRow) (parentID : String) : Bool :=
  row.data.assistant?.any fun message =>
    message.identity.parentID = parentID ∧
      ¬(message.identity.author = some "compaction" ∧ message.identity.activationID = none)

variable (assistantMessageID : String)

def activitiesSettled : Bool :=
  ((db.providerRequests.filter fun request =>
    request.assistantMessageID = assistantMessageID).all fun request =>
      db.providerOutcomes.any fun outcome => outcome.requestID = request.id) ∧
  (db.toolRequests.filter fun request => request.messageID = assistantMessageID).all fun request =>
    db.toolOutcomes.any fun outcome => outcome.requestPartID = request.id

def hasActivity : Bool :=
  (db.providerRequests.any fun request => request.assistantMessageID = assistantMessageID) ∨
    db.toolRequests.any fun request => request.messageID = assistantMessageID

def assertActivationOrSettlement (activationID : String) (now : ℤ) (allowAcceptedActivitySettlement : Bool) :
    Except EngineError (TaskRootActivationFence × Bool) :=
  match assertTaskRootActivationLeaseFenceInTransaction db activationID now false with
  | .ok fence => .ok (fence, false)
  | .error strictFenceError =>
    if allowAcceptedActivitySettlement then
      (assertTaskRootActivationLeaseFenceInTransaction db activationID now true).map fun fence =>
        (fence, true)
    else .error strictFenceError

def assertAssistantPlace (assistantMessageID activationID : String) (fence : TaskRootActivationFence)
    (sessionID parentID : Option String) : Except EngineError Unit := do
  let outside : EngineError := .error ("Assistant Message " ++ assistantMessageID ++
    " is outside Task-root activation " ++ activationID)
  let task ← getOrThrow (db.findTask fence.taskID) outside
  let sessionID ← getOrThrow sessionID outside
  throwWhen (task.sessionID.all (· = "") ∨ ¬hasOrchestratorAuthority db task sessionID) outside
  let parentID ← getOrThrow parentID outside
  let _ ← assertContinuationParent db sessionID parentID fence.ingressID
    (.error ("Assistant Message " ++ assistantMessageID ++ " has invalid Task-root continuation parent"))
  throwWhen (db.messages.any fun peer =>
      peer.activationID = some activationID ∧ peer.id ≠ assistantMessageID)
    (.integrity fence.ingressID ("Task-root activation " ++ activationID ++ " has multiple assistant Messages"))
  throwWhen (db.messages.any fun peer => peer.isSiblingOf parentID ∧ peer.id ≠ assistantMessageID)
    (.integrity fence.ingressID ("Task-root continuation " ++ parentID ++ " has multiple assistant Messages"))

def assertTaskRootAssistantActivationFenceInTransaction (now : ℤ) (candidate : Option AssistantCandidate)
    (allowAcceptedActivitySettlement : Bool) : Except EngineError Unit :=
  let message := db.findMessage assistantMessageID
  match (candidate.map (·.activationID)).or (message.bind (·.activationID)) with
  | none => .ok ()
  | some activationID => do
    throwWhen (activationID = "") (.error ("Assistant Message " ++ assistantMessageID ++
      " has invalid Task-root activation identity"))
    let (fence, settlementRequired) ←
      assertActivationOrSettlement db activationID now allowAcceptedActivitySettlement
    assertAssistantPlace db assistantMessageID activationID fence
      ((candidate.map (·.sessionID)).or (message.map (·.sessionID)))
      ((candidate.map (·.parentID)).or ((message.bind (·.data.assistant?)).map (·.identity.parentID)))
    throwWhen (settlementRequired ∧
        (¬hasActivity db assistantMessageID ∨ ¬activitiesSettled db assistantMessageID))
      (.error ("Task-root assistant " ++ assistantMessageID ++
        " cannot settle before every accepted activity has an exact outcome"))

def TaskRootIngressHostFaultReason.text : TaskRootIngressHostFaultReason → String
  | evidenceViolation => "evidence_violation"
  | policyDrift => "policy_drift"
  | decisionAmbiguous => "decision_ambiguous"
  | outcomeAmbiguous => "outcome_ambiguous"
  | turnWithoutActivation => "turn_without_activation"
  | interactionAmbiguous => "interaction_ambiguous"

def insertOrReuseExactEngineArtifact (row : EngineArtifactRow) : Except EngineError TaskRootDatabase :=
  match db.artifacts.find? fun other => other.id = row.id with
  | none => .ok { db with artifacts := db.artifacts ++ [row] }
  | some existing =>
    if existing = row then .ok db
    else .error (.error ("Engine Artifact " ++ row.id ++ " exact publication identity drift"))

def EngineArtifactRow.isHostFaultGate (row : EngineArtifactRow) (taskID ingressID : String) : Bool :=
  match row.payload with
  | .taskInfrastructureError operation gatedIngressID state gateReason =>
    row.taskID = taskID ∧ operation = "surface-operator-gated-ingress" ∧
      gatedIngressID = ingressID ∧ state = "host_fault" ∧ gateReason.isSome
  | _ => false

/-- The insert trigger accepts the abandonment: it names the gate of a Host fault of an ingress of
the Task and epoch. -/
def abandonmentHasEvidence (payload : TaskRootIngressDispositionPayload) : Bool :=
  isCanonicalIngressID payload.ingressID ∧
    ((db.findIngress payload.ingressID).any fun ingress =>
      ingress.taskID = payload.taskID ∧ ingress.executionEpoch = payload.executionEpoch) ∧
    payload.evidenceIDs.length = 1 ∧
    payload.evidenceIDs.head?.any fun gateID => db.artifacts.any fun gate =>
      gate.id = gateID ∧ gate.isHostFaultGate payload.taskID payload.ingressID

def recordTaskRootIngressAbandonmentInTransaction [TaskRootIdentity] (db : TaskRootDatabase)
    (payload : TaskRootIngressDispositionPayload) : Except EngineError TaskRootDatabase :=
  match taskRootIngressDispositionInTransaction db payload.taskID payload.ingressID with
  | some existing => do
    throwWhen (existing ≠ payload) (.error ("Task-root ingress " ++ payload.ingressID ++ " disposition drift"))
    return db
  | none => do
    let artifactID := dispositionArtifactID payload.taskID payload.ingressID
    throwWhen (db.artifacts.any fun row => row.id = artifactID)
      (.database "UNIQUE constraint failed: engine_artifact.id")
    throwWhen (¬abandonmentHasEvidence db payload) (.database
      "engine_artifact: Task-root ingress disposition requires exact immutable release evidence")
    return { db with artifacts := db.artifacts ++
      [{ id := artifactID, taskID := payload.taskID,
         payload := .taskRootIngressDisposition payload }] }

/-- The arm of `recordAbsorbingTaskRootIngressDisposition` for a Host fault: show the fault at a
gate, and abandon the ingress for good. -/
def abandonTaskRootIngress [Collation] [TaskRootIdentity] (db : TaskRootDatabase)
    (taskID ingressID : String) (now : ℤ) (readEvidence : TaskRootIngressEvidenceReader) :
    Except EngineError TaskRootDatabase := do
  let facts ← taskRootIngressFactsInTransaction db ingressID readEvidence
  match reduceTaskRootIngressFacts facts now with
  | .hostFault reason => do
    let gateID := taskRootIngressOperatorGateID ingressID "host_fault" reason.text
    let gated ← insertOrReuseExactEngineArtifact db
      { id := gateID, taskID := taskID
        payload := .taskInfrastructureError "surface-operator-gated-ingress" ingressID "host_fault"
          (some reason.text) }
    recordTaskRootIngressAbandonmentInTransaction gated
      { taskID := taskID, ingressID := ingressID, executionEpoch := facts.ingress.executionEpoch,
        disposition := .operatorAbandoned, evidenceIDs := [gateID] }
  | _ => .error (.error ("Task-root ingress " ++ ingressID ++ " disposition raced from host_fault"))

section Specification

variable {db db' : TaskRootDatabase}

variable {taskID ingressID : String} {now : ℤ} {readEvidence : TaskRootIngressEvidenceReader}

lemma mem_frontierRows {executionEpoch : ℕ} {beforeSequence : ℕ} {row : TaskRootIngressRow} :
    row ∈ frontierRows db taskID executionEpoch (some beforeSequence) ↔
      row ∈ db.ingresses ∧ row.taskID = taskID ∧ row.executionEpoch = executionEpoch ∧
        row.sequence < beforeSequence ∧ db.undisposed row = true := by
  simp [frontierRows]

lemma reconciliationPage_eq (taskID : String) (executionEpoch : ℕ)
    (after : Option TaskRootIngressFrontierCursor) (beforeSequence : Option ℕ) :
    taskRootIngressReconciliationPageInTransaction db taskID executionEpoch after beforeSequence 32 =
      .ok { ingresses := KeysetPagination.page TaskRootIngressRow.frontierKey
              (frontierRows db taskID executionEpoch beforeSequence) 32 after
            scannedCount := (KeysetPagination.page TaskRootIngressRow.frontierKey
              (frontierRows db taskID executionEpoch beforeSequence) 32 after).length
            next := KeysetPagination.next TaskRootIngressRow.frontierKey 32
              (KeysetPagination.page TaskRootIngressRow.frontierKey
                (frontierRows db taskID executionEpoch beforeSequence) 32 after) } := rfl

lemma precedingTaskRootIngresses_eq_pages (ingress : TaskRootIngressAcceptedFact) (fuel : ℕ)
    (after : Option TaskRootIngressFrontierCursor) :
    precedingTaskRootIngresses db ingress fuel after = .ok (KeysetPagination.pages TaskRootIngressRow.frontierKey
        (frontierRows db ingress.taskID ingress.executionEpoch (some ingress.sequence)) 32 fuel
          after) := by
  induction fuel generalizing after with
  | zero => rfl
  | succ _ ih =>
    unfold precedingTaskRootIngresses pages
    rw [reconciliationPage_eq]
    cases hpage : page frontierKey
        (frontierRows db ingress.taskID ingress.executionEpoch (some ingress.sequence)) 32 after with
    | nil => rfl
    | cons row rest =>
      cases hnext : next frontierKey 32 (row :: rest) with
      | none => simp [hnext, bind, Except.bind, pure, Except.pure]
      | some => simp [hnext, ih, bind, Except.bind, pure, Except.pure]

theorem precedingTaskRootIngresses_eq (hids : db.ingresses.Pairwise fun row other => row.id ≠ other.id)
    (ingress : TaskRootIngressAcceptedFact) :
    precedingTaskRootIngresses db ingress (db.ingresses.length + 1) none =
      .ok (KeysetPagination.ordered TaskRootIngressRow.frontierKey
        (frontierRows db ingress.taskID ingress.executionEpoch (some ingress.sequence))) := by
  have hkeys : (frontierRows db ingress.taskID ingress.executionEpoch
      (some ingress.sequence)).Pairwise fun row other => row.frontierKey ≠ other.frontierKey := by
    refine (hids.sublist filter_sublist).imp fun hne heq => hne ?_
    unfold frontierKey at heq
    exact congrArg (fun key => (ofLex key).2) heq
  have hall : following frontierKey
      (frontierRows db ingress.taskID ingress.executionEpoch (some ingress.sequence)) none =
        frontierRows db ingress.taskID ingress.executionEpoch (some ingress.sequence) := by
    simp [following]
  have hlength : (frontierRows db ingress.taskID ingress.executionEpoch
      (some ingress.sequence)).length < db.ingresses.length + 1 :=
    Nat.lt_succ_of_le (length_filter_le _ _)
  have hpositive : 0 < 32 := by decide
  rw [precedingTaskRootIngresses_eq_pages,
    pages_eq_ordered hpositive hkeys (by rw [hall]; exact hlength), hall]

lemma releases_of_blockedByIngress [Collation] {candidates : List TaskRootIngressRow}
    (h : blockedByIngress db now readEvidence candidates = .ok none) :
    ∀ candidate ∈ candidates, ∃ projection,
      projectTaskRootIngress db candidate.id now readEvidence = .ok projection ∧
        taskRootIngressReleasesHeadOfLine projection = true := by
  induction candidates with
  | nil => simp
  | cons _ _ ih =>
    unfold blockedByIngress at h
    obtain ⟨projection, hprojection, h⟩ := bind_eq_ok.mp h
    split_ifs at h with hreleases
    · refine forall_mem_cons.mpr ⟨⟨projection, hprojection, hreleases⟩, ih h⟩
    · cases h

lemma onActivations_eq_ok {β : Type} {x : Except ControlLeaseError β} {result : β} :
    onActivations x = .ok result ↔ x = .ok result := by
  cases x <;> simp [onActivations]

structure Activates [Collation] (db : TaskRootDatabase) (input : AcquireTaskRootIngressLeaseInput)
    (readEvidence : TaskRootIngressEvidenceReader) (facts : TaskRootIngressFacts)
    (lease : ControlLease) (activations : ControlLeaseTables) : Prop where
  factsRead : taskRootIngressFactsInTransaction db input.ingressID readEvidence = .ok facts
  ready : reduceTaskRootIngressFacts facts input.now = .ready
  unblocked : ∃ preceding,
    precedingTaskRootIngresses db facts.ingress (db.ingresses.length + 1) none = .ok preceding ∧
      blockedByIngress db input.now readEvidence preceding = .ok none
  target : lease.target = .taskRootIngress
  targetID : lease.targetID = input.ingressID
  named : lease.id ≠ ""
  freshID : ∀ row ∈ db.activations.leases, row.id ≠ lease.id
  leases : activations.leases = db.activations.leases ++ [lease]

theorem acquireTaskRootIngressLease_eq_ok [Collation] {input : AcquireTaskRootIngressLeaseInput}
    {result : AcquireTaskRootIngressLeaseResult}
    (h : acquireTaskRootIngressLease db input readEvidence = .ok (result, db')) :
    (∃ projection blocking, result = .refused projection blocking ∧ db' = db) ∨
      ∃ facts lease activations, Activates db input readEvidence facts lease activations ∧
        result = .acquired lease.id lease.expiresAt ∧
          db' = { db with activations := activations } := by
  unfold acquireTaskRootIngressLease at h
  replace h := of_throwWhen h
  obtain ⟨facts, hfacts, h⟩ := bind_eq_ok.mp h
  obtain ⟨_, h⟩ := of_bind h
  replace h := of_check h
  extract_lets projection at h
  split_ifs at h with hready
  · cases pure_eq_ok.mp h
    exact Or.inl ⟨_, _, rfl, rfl⟩
  rw [not_not] at hready
  obtain ⟨preceding, hpreceding, h⟩ := bind_eq_ok.mp h
  obtain ⟨blocking, hblocking, h⟩ := bind_eq_ok.mp h
  cases blocking with
  | some =>
    cases pure_eq_ok.mp h
    exact Or.inl ⟨_, _, rfl, rfl⟩
  | none =>
    replace h := of_check h
    obtain ⟨⟨_, activations⟩, hacquire, h⟩ := bind_eq_ok.mp h
    rcases acquireControlLease_eq_ok (onActivations_eq_ok.mp hacquire) with
      ⟨current, -, -, rfl, rfl⟩ | ⟨rfl, hleases, -, hnamed, hfresh, -⟩
    · obtain ⟨_, h⟩ := of_bind h
      cases pure_eq_ok.mp h
      exact Or.inl ⟨_, _, rfl, rfl⟩
    · cases pure_eq_ok.mp h
      exact Or.inr ⟨facts, (input.lease facts).lease, activations,
        ⟨hfacts, hready, ⟨preceding, hpreceding, hblocking⟩, rfl, rfl, hnamed, hfresh, hleases⟩, rfl, rfl⟩

theorem renewTaskRootIngressLease_eq_ok {input : RenewTaskRootIngressLeaseInput}
    (h : renewTaskRootIngressLease db input = .ok db') :
    ∃ lease ingress lifecycle policy current activations,
      PassesFence db input.activationID input.now false lease ingress lifecycle policy ∧
        activations.leases = (db.activations.renewed input.claim current input.expiresAt).leases ∧
          db' = { db with activations := activations } := by
  unfold renewTaskRootIngressLease at h
  replace h := of_throwWhen h
  obtain ⟨_, h⟩ := of_bind h
  replace h := of_check h
  obtain ⟨_, hfence, h⟩ := bind_eq_ok.mp h
  replace h := of_throwWhen h
  obtain ⟨activations, hrenew, h⟩ := bind_eq_ok.mp h
  cases pure_eq_ok.mp h
  obtain ⟨lease, ingress, lifecycle, policy, hpasses, -⟩ :=
    assertTaskRootActivationLeaseFence_eq_ok.mp hfence
  obtain ⟨-, current, -, -, hleases⟩ := renewControlLease_eq_ok (onActivations_eq_ok.mp hrenew)
  exact ⟨lease, ingress, lifecycle, policy, current, activations, hpasses, hleases, rfl⟩

def namedActivation (db : TaskRootDatabase) (assistantMessageID : String)
    (candidate : Option AssistantCandidate) : Option String :=
  (candidate.map (·.activationID)).or ((db.findMessage assistantMessageID).bind (·.activationID))

theorem assertTaskRootAssistantActivationFence_eq_ok {assistantMessageID : String}
    {candidate : Option AssistantCandidate} {settlement : Bool} {u : Unit}
    (h : assertTaskRootAssistantActivationFenceInTransaction db assistantMessageID now candidate
      settlement = .ok u) :
    namedActivation db assistantMessageID candidate = none ∨
      ∃ activationID, namedActivation db assistantMessageID candidate = some activationID ∧
        activationID ≠ "" ∧
        (∃ strict lease ingress lifecycle policy,
          PassesFence db activationID now strict lease ingress lifecycle policy ∧
            (strict = true → settlement = true)) ∧
        ∀ peer ∈ db.messages, peer.activationID = some activationID →
          peer.id = assistantMessageID := by
  unfold assertTaskRootAssistantActivationFenceInTransaction at h
  change (match namedActivation db assistantMessageID candidate with | none => _ | some _ => _) =
    Except.ok u at h
  cases hnamed : namedActivation db assistantMessageID candidate with
  | none => exact Or.inl rfl
  | some activationID =>
    rw [hnamed] at h
    obtain ⟨hnonempty, h⟩ := throwWhen_bind_eq_ok.mp h
    obtain ⟨⟨_, _⟩, hfence, h⟩ := bind_eq_ok.mp h
    obtain ⟨hplace, -⟩ := check_bind_eq_ok.mp h
    refine Or.inr ⟨activationID, rfl, hnonempty, ?_, ?_⟩
    · unfold assertActivationOrSettlement at hfence
      split at hfence
      · rename_i strictFence hstrict
        obtain ⟨lease, ingress, lifecycle, policy, hpasses, -⟩ :=
          assertTaskRootActivationLeaseFence_eq_ok.mp hstrict
        exact ⟨false, lease, ingress, lifecycle, policy, hpasses, by simp⟩
      · split_ifs at hfence with hsettlement
        cases hrelaxed : assertTaskRootActivationLeaseFenceInTransaction db activationID now true with
        | error =>
          rw [hrelaxed] at hfence
          cases hfence
        | ok =>
          obtain ⟨lease, ingress, lifecycle, policy, hpasses, -⟩ :=
            assertTaskRootActivationLeaseFence_eq_ok.mp hrelaxed
          exact ⟨true, lease, ingress, lifecycle, policy, hpasses, fun _ => hsettlement⟩
    · unfold assertAssistantPlace at hplace
      obtain ⟨_, hplace⟩ := of_bind hplace
      obtain ⟨_, hplace⟩ := of_bind hplace
      replace hplace := of_throwWhen hplace
      obtain ⟨_, hplace⟩ := of_bind hplace
      obtain ⟨_, hplace⟩ := of_bind hplace
      obtain ⟨hpeers, -⟩ := throwWhen_bind_eq_ok.mp hplace
      simpa using hpeers

def OnlyAbandons (artifacts : List EngineArtifactRow) : Prop :=
  ∀ row ∈ artifacts, ∀ taskID ingressID payload, row.dispositionOf taskID ingressID = some payload →
    payload.disposition = .operatorAbandoned

lemma insertOrReuseExactEngineArtifact_eq_ok {row : EngineArtifactRow}
    (h : insertOrReuseExactEngineArtifact db row = .ok db') :
    ∃ rows ⊆ [row], db' = { db with artifacts := db.artifacts ++ rows } := by
  unfold insertOrReuseExactEngineArtifact at h
  split at h
  · exact ⟨[row], Subset.refl _, (Except.ok.inj h).symm⟩
  · split_ifs at h
    cases h
    exact ⟨[], nil_subset _, by simp⟩

theorem abandonTaskRootIngress_eq_ok [Collation] [TaskRootIdentity]
    (h : abandonTaskRootIngress db taskID ingressID now readEvidence = .ok db') :
    ∃ rows, OnlyAbandons rows ∧ db' = { db with artifacts := db.artifacts ++ rows } := by
  unfold abandonTaskRootIngress at h
  obtain ⟨_, h⟩ := of_bind h
  split at h
  swap
  · cases h
  obtain ⟨_, hgated, h⟩ := bind_eq_ok.mp h
  obtain ⟨gates, hgates, rfl⟩ := insertOrReuseExactEngineArtifact_eq_ok hgated
  have honlyGates : OnlyAbandons gates := by
    intro row hrow taskID' ingressID' payload hpayload
    rw [mem_singleton.mp (hgates hrow)] at hpayload
    cases hpayload
  unfold recordTaskRootIngressAbandonmentInTransaction at h
  split at h
  · replace h := of_throwWhen h
    exact ⟨gates, honlyGates, (pure_eq_ok.mp h).symm⟩
  · replace h := of_throwWhen h
    replace h := of_throwWhen h
    cases pure_eq_ok.mp h
    refine ⟨gates ++ [_], ?_, by rw [append_assoc]⟩
    intro row hrow taskID' ingressID' payload hpayload
    rcases mem_concat.mp hrow with hgate | hdisposition
    · exact honlyGates row hgate taskID' ingressID' payload hpayload
    · rw [hdisposition] at hpayload
      simp only [EngineArtifactRow.dispositionOf, Option.ite_none_right_eq_some, Option.some.injEq] at hpayload
      rw [← hpayload.2]

variable {payload : TaskRootIngressDispositionPayload}

lemma mem_of_disposition (h : taskRootIngressDispositionInTransaction db taskID ingressID = some payload) :
    ∃ row ∈ db.artifacts, row.dispositionOf taskID ingressID = some payload :=
  exists_of_findSome?_eq_some h

lemma disposition_append {rows : List EngineArtifactRow} (hartifacts : db'.artifacts = db.artifacts ++ rows)
    (h : taskRootIngressDispositionInTransaction db taskID ingressID = some payload) :
    taskRootIngressDispositionInTransaction db' taskID ingressID = some payload := by
  unfold taskRootIngressDispositionInTransaction at h ⊢
  rw [hartifacts, findSome?_append, h]
  rfl

end Specification

end OpenCorvus.Engine
