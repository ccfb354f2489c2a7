import Mathlib.Data.List.Infix
import OpenCorvus.Engine.TaskLifecycleLog
import OpenCorvus.Engine.TaskRootAcceptance

/-!
# The facts of a Task-root ingress, and the fence of its activations

What the database says about one ingress: its disposition, the facts that its reduction reads, the
fence that an activation has to pass, and the two frontiers, of the ingresses of one Task and epoch
without a disposition, and of the ingresses of a project that are still current.
-/

namespace OpenCorvus.Engine

open EcmaScript Transaction

def EngineArtifactRow.dispositionOf (row : EngineArtifactRow) (taskID ingressID : String) :
    Option TaskRootIngressDispositionPayload :=
  match row.payload with
  | .taskRootIngressDisposition payload =>
    if row.taskID = taskID ∧ payload.ingressID = ingressID then some payload else none
  | _ => none

variable (db : TaskRootDatabase)

def taskRootIngressDispositionInTransaction (taskID ingressID : String) :
    Option TaskRootIngressDispositionPayload :=
  db.artifacts.findSome? fun row => row.dispositionOf taskID ingressID

def TaskRootDatabase.undisposed (row : TaskRootIngressRow) : Bool :=
  (taskRootIngressDispositionInTransaction db row.taskID row.id).isNone

/-- `MAX(execution_epoch)` over the openings of a Task. -/
def latestOpenedEpoch (events : List TaskEvent) (taskID : String) : Option ℕ :=
  ((events.filter fun row => row.aggregateID = taskID ∧ row.type.isOpen).map (·.epoch)).max?

def currentInProjectFrontier (row : TaskRootIngressRow) : Bool :=
  latestOpenedEpoch db.events row.taskID = some row.executionEpoch ∧
    ¬(db.events.any fun terminal =>
      terminal.aggregateID = row.taskID ∧ terminal.type.isTerminal ∧
        terminal.epoch = row.executionEpoch ∧ row.timeAccepted < terminal.emittedAt) ∧
    db.undisposed row ∧
    ¬(db.events.any fun deleted => deleted.aggregateID = row.taskID ∧ deleted.type = .deleted)

/-- What the conversation and the activities of an ingress say about it. -/
structure TaskRootIngressEvidence where
  turns : List AssistantTurnFact
  decisions : List DecisionFact
  decisionGaps : List DecisionGapFact
  interactions : List InteractionFact
  activityRequests : List ActivityRequestFact
  activityOutcomes : List ActivityOutcomeFact

abbrev TaskRootIngressEvidenceReader :=
  TaskRootDatabase → TaskRootIngressRow → Except EngineError TaskRootIngressEvidence

def EMPTY_EVIDENCE : TaskRootIngressEvidence :=
  { turns := [], decisions := [], decisionGaps := [], interactions := [], activityRequests := [],
    activityOutcomes := [] }

def guardedEvidence (evidence : Except EngineError TaskRootIngressEvidence) :
    Except EngineError (Option String × TaskRootIngressEvidence) :=
  match evidence with
  | .ok evidence => .ok (none, evidence)
  | .error (.integrity _ message) => .ok (some message, EMPTY_EVIDENCE)
  | .error e => .error e

def ControlLease.compareActivated (left right : ControlLease) : Ordering :=
  (compare left.timeActivated right.timeActivated).then (compare left.id right.id)

def activationLeaseFacts (ingressID : String) : List ActivationLeaseFact :=
  (toSorted ControlLease.compareActivated
    (db.activations.ofTarget .taskRootIngress ingressID)).map fun lease =>
      { id := lease.id, targetID := lease.targetID, ownerOccurrenceID := lease.ownerOccurrenceID,
        timeActivated := lease.timeActivated, expiresAt := lease.expiresAt }

def operatorAbandonedFact (disposition : Option TaskRootIngressDispositionPayload) :
    Option OperatorAbandonedFact :=
  disposition.bind fun payload =>
    if payload.disposition = .operatorAbandoned then some ⟨payload.evidenceIDs⟩ else none

def assembleFacts (ingress : TaskRootIngressRow) (policy : TaskRootIngressPolicyRow)
    (integrityViolation : Option String) (evidence : TaskRootIngressEvidence) (lifecycle : List TaskLifecycleFact) :
    TaskRootIngressFacts where
  integrityViolation := integrityViolation
  ingress :=
    { id := ingress.id, taskID := ingress.taskID, executionEpoch := ingress.executionEpoch,
      sequence := ingress.sequence, policyID := ingress.policyID,
      timeAccepted := ingress.timeAccepted }
  policy :=
    { id := policy.id, semanticTurnLimit := policy.semanticTurnLimit,
      activationLimit := policy.activationLimit, absoluteDeadline := policy.absoluteDeadline }
  lifecycle := lifecycle
  leases := activationLeaseFacts db ingress.id
  turns := evidence.turns
  decisions := evidence.decisions
  decisionGaps := evidence.decisionGaps
  interactions := evidence.interactions
  activityRequests := evidence.activityRequests
  activityOutcomes := evidence.activityOutcomes
  operatorAbandoned := operatorAbandonedFact (taskRootIngressDispositionInTransaction db ingress.taskID ingress.id)

/-- Everything durable about an ingress. -/
def taskRootIngressFactsInTransaction (ingressID : String) (readEvidence : TaskRootIngressEvidenceReader) :
    Except EngineError TaskRootIngressFacts := do
  let ingress ← getOrThrow (db.findIngress ingressID)
    (.error ("Task-root ingress not found: " ++ ingressID))
  let policy ← getOrThrow (db.findPolicy ingress.policyID)
    (.error ("Task-root ingress " ++ ingressID ++ " references missing policy " ++ ingress.policyID))
  let (integrityViolation, evidence) ← guardedEvidence (readEvidence db ingress)
  let lifecycle ← lifecycleFacts db.events ingress.taskID
  return assembleFacts db ingress policy integrityViolation evidence lifecycle

def projectTaskRootIngress [Collation] (db : TaskRootDatabase) (ingressID : String) (now : ℤ)
    (readEvidence : TaskRootIngressEvidenceReader) :
    Except EngineError TaskRootIngressProjection := do
  let facts ← taskRootIngressFactsInTransaction db ingressID readEvidence
  return reduceTaskRootIngressFacts facts now

/-- `value.includes("tool")`. -/
def includesTool (value : String) : Bool := "tool".toList <:+: value.toList

/-- The message ends its activation: it is completed, all its requests have an outcome, and it ended
with an error or not with a Tool call. -/
def messageConsumesActivation (row : MessageRow) : Bool :=
  match row.data with
  | .user _ _ => false
  | .assistant message =>
    message.timeCompleted.any (· ≠ 0) ∧
    ¬((db.toolRequests.filter fun request => request.messageID = row.id).any fun request =>
      ¬db.toolOutcomes.any fun outcome => outcome.requestPartID = request.id) ∧
    ¬((db.providerRequests.filter fun request => request.assistantMessageID = row.id).any
      fun request => ¬db.providerOutcomes.any fun outcome => outcome.requestID = request.id) ∧
    (message.hasError ∨ ¬message.finish.any includesTool)

variable (activationID : String)

def activationConsumedInTransaction : Bool :=
  (db.messages.filter fun row => row.activationID = some activationID).any fun row =>
    messageConsumesActivation db row

structure TaskRootActivationFence where
  ingressID : String
  taskID : String
  ownerOccurrenceID : String
  expiresAt : ℤ

def TaskLifecycleProjection.isTerminalConversation (lifecycle : TaskLifecycleProjection)
    (ingress : TaskRootIngressRow) : Bool :=
  lifecycle.terminalAt.any fun terminalAt => terminalAt < ingress.timeAccepted

def fenceDetail (latest : Option ControlLease) (lease : ControlLease) (absoluteDeadline : Option ℤ)
    (consumed : Bool) (lifecycle : TaskLifecycleProjection) (ingress : TaskRootIngressRow) : String :=
  "Task-root activation fence rejected " ++ activationID ++ "; latest=" ++
    (latest.map (·.id)).getD "none" ++ " expiry=" ++ toString lease.expiresAt ++ " deadline=" ++
    (absoluteDeadline.map toString).getD "none" ++ " consumed=" ++ toString consumed ++ " epoch=" ++
    toString lifecycle.epoch ++ "/" ++ toString ingress.executionEpoch ++ " status=" ++
    lifecycle.status.text

/-- The activation is the current one of its ingress, unexpired and within the deadline, not
consumed, and its ingress may still proceed.  The settlement of an activity that was accepted before
may come after the expiry, after the deadline, and after the end of the Task. -/
def assertTaskRootActivationLeaseFenceInTransaction (now : ℤ) (allowAcceptedActivitySettlement : Bool) :
    Except EngineError TaskRootActivationFence := do
  let lease ← getOrThrow
    ((db.activations.leases.find? fun lease => lease.id = activationID).filter fun lease =>
      lease.target = .taskRootIngress)
    (.error ("Task-root activation fence rejected unknown activation " ++ activationID))
  let latest := currentControlLeaseInTransaction db.activations .taskRootIngress lease.targetID
  let ingress ← getOrThrow (db.findIngress lease.targetID)
    (.error ("Task-root activation " ++ activationID ++ " has no accepted ingress"))
  throwWhen (db.taskDeleted ingress.taskID) (.taskDeleted ingress.taskID)
  let lifecycle ← taskLifecycleProjectionInTransaction db.events ingress.taskID
  let policy ← getOrThrow (db.findPolicy ingress.policyID)
    (.error ("Task-root ingress " ++ ingress.id ++ " references missing policy " ++ ingress.policyID))
  let consumed := activationConsumedInTransaction db activationID
  let detail := fenceDetail activationID latest lease policy.absoluteDeadline consumed lifecycle
    ingress
  let isLatest := latest.map (·.id) = some lease.id
  throwWhen (¬isLatest ∨
      (¬allowAcceptedActivitySettlement ∧ lease.expiresAt ≤ now) ∨
      (¬allowAcceptedActivitySettlement ∧
        policy.absoluteDeadline.any fun deadline => deadline ≤ now) ∨
      consumed ∨ lifecycle.epoch ≠ ingress.executionEpoch ∨
      (lifecycle.status ≠ .active ∧ ¬lifecycle.isTerminalConversation ingress ∧
        ¬allowAcceptedActivitySettlement))
    (if consumed ∨ lifecycle.epoch ≠ ingress.executionEpoch ∨ ¬isLatest then
      .superseded ingress.id detail
    else .error detail)
  return { ingressID := ingress.id, taskID := ingress.taskID,
           ownerOccurrenceID := lease.ownerOccurrenceID, expiresAt := lease.expiresAt }

section Specification

variable {db : TaskRootDatabase}

theorem taskRootIngressFacts_eq_ok {ingressID : String}
    {readEvidence : TaskRootIngressEvidenceReader} {facts : TaskRootIngressFacts} :
    taskRootIngressFactsInTransaction db ingressID readEvidence = .ok facts ↔ ∃ ingress policy evidence lifecycle,
        db.findIngress ingressID = some ingress ∧ db.findPolicy ingress.policyID = some policy ∧
          guardedEvidence (readEvidence db ingress) = .ok evidence ∧
            lifecycleFacts db.events ingress.taskID = .ok lifecycle ∧
              facts = assembleFacts db ingress policy evidence.1 evidence.2 lifecycle := by
  unfold taskRootIngressFactsInTransaction
  simp only [bind_eq_ok, getOrThrow_eq_ok, pure_eq_ok]
  constructor
  · rintro ⟨ingress, hingress, policy, hpolicy, evidence, hevidence, lifecycle, hlifecycle, rfl⟩
    exact ⟨ingress, policy, evidence, lifecycle, hingress, hpolicy, hevidence, hlifecycle, rfl⟩
  · rintro ⟨ingress, policy, evidence, lifecycle, hingress, hpolicy, hevidence, hlifecycle, rfl⟩
    exact ⟨ingress, hingress, policy, hpolicy, evidence, hevidence, lifecycle, hlifecycle, rfl⟩

structure PassesFence (db : TaskRootDatabase) (activationID : String) (now : ℤ) (settlement : Bool)
    (lease : ControlLease) (ingress : TaskRootIngressRow) (lifecycle : TaskLifecycleProjection)
    (policy : TaskRootIngressPolicyRow) : Prop where
  leaseFound : db.activations.leases.find? (fun row => row.id = activationID) = some lease
  target : lease.target = .taskRootIngress
  isLatest : (currentControlLeaseInTransaction db.activations .taskRootIngress
    lease.targetID).map (·.id) = some lease.id
  ingressFound : db.findIngress lease.targetID = some ingress
  notDeleted : db.taskDeleted ingress.taskID = false
  lifecycleRead : taskLifecycleProjectionInTransaction db.events ingress.taskID = .ok lifecycle
  policyFound : db.findPolicy ingress.policyID = some policy
  unexpired : settlement = false → now < lease.expiresAt
  withinDeadline : settlement = false → ∀ deadline ∈ policy.absoluteDeadline, now < deadline
  notConsumed : activationConsumedInTransaction db activationID = false
  epoch : lifecycle.epoch = ingress.executionEpoch
  live : settlement = false → lifecycle.status = .active ∨ lifecycle.isTerminalConversation ingress = true

theorem assertTaskRootActivationLeaseFence_eq_ok {activationID : String} {now : ℤ}
    {settlement : Bool} {fence : TaskRootActivationFence} :
    assertTaskRootActivationLeaseFenceInTransaction db activationID now settlement = .ok fence ↔
      ∃ lease ingress lifecycle policy, PassesFence db activationID now settlement lease ingress lifecycle policy ∧
          fence = { ingressID := ingress.id, taskID := ingress.taskID,
                    ownerOccurrenceID := lease.ownerOccurrenceID, expiresAt := lease.expiresAt } := by
  unfold assertTaskRootActivationLeaseFenceInTransaction
  simp only [bind_eq_ok, getOrThrow_eq_ok, throwWhen_eq_ok, pure_eq_ok, Option.filter_eq_some_iff]
  constructor
  · rintro ⟨lease, ⟨hlease, htarget⟩, ingress, hingress, -, hdeleted, lifecycle, hlifecycle, policy,
      hpolicy, -, hguard, rfl⟩
    simp only [not_or, not_and, not_not] at hguard
    obtain ⟨hlatest, hexpiry, hdeadline, hconsumed, hepoch, hlive⟩ := hguard
    refine ⟨lease, ingress, lifecycle, policy, ⟨hlease, of_decide_eq_true htarget, hlatest,
      hingress, by simpa using hdeleted, hlifecycle, hpolicy, ?_, ?_, by simpa using hconsumed,
      hepoch, ?_⟩, rfl⟩
    · intro hsettlement
      exact not_le.mp (hexpiry (by simp [hsettlement]))
    · intro hsettlement deadline hmem
      have hpassed := hdeadline (by simp [hsettlement])
      rw [Option.mem_def] at hmem
      rw [hmem] at hpassed
      simpa using hpassed
    · intro hsettlement
      by_contra hnone
      rw [not_or] at hnone
      have := hlive hnone.1 hnone.2
      rw [hsettlement] at this
      cases this
  · rintro ⟨lease, ingress, lifecycle, policy, h, rfl⟩
    refine ⟨lease, ⟨h.leaseFound, decide_eq_true h.target⟩, ingress, h.ingressFound, (), ?_, lifecycle,
      h.lifecycleRead, policy, h.policyFound, (), ?_, rfl⟩
    · simpa using h.notDeleted
    · rintro (hlatest | hexpired | hpassed | hconsumed | hepoch | ⟨hactive, hconversation, hstrict⟩)
      · exact hlatest h.isLatest
      · have := h.unexpired (by simpa using hexpired.1)
        omega
      · obtain ⟨deadline, hmem, hle⟩ := (Option.any_eq_true _ _).mp hpassed.2
        have := h.withinDeadline (by simpa using hpassed.1) deadline hmem
        have := of_decide_eq_true hle
        omega
      · rw [h.notConsumed] at hconsumed
        cases hconsumed
      · exact hepoch h.epoch
      · rcases h.live (by simpa using hstrict) with hstatus | hterminal
        · exact hactive hstatus
        · exact hconversation hterminal

lemma TaskRootDatabase.findIngress_id {ingressID : String} {ingress : TaskRootIngressRow}
    (h : db.findIngress ingressID = some ingress) : ingress.id = ingressID := by
  unfold findIngress at h
  simpa using List.find?_some h

lemma TaskRootDatabase.findPolicy_id {policyID : String} {policy : TaskRootIngressPolicyRow}
    (h : db.findPolicy policyID = some policy) : policy.id = policyID := by
  unfold findPolicy at h
  simpa using List.find?_some h

end Specification

end OpenCorvus.Engine
