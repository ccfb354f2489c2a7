import OpenCorvus.Foundation.EcmaScript

/-!
# Reduction of a Task-root ingress

The facts that are durable about one Task-root ingress, and the total reduction of these facts to
the ingress's projection at an instant.  The order of the arms of the reduction is part of its
contract: a Host fault wins before any apparent completion.
-/

namespace OpenCorvus.Engine

open EcmaScript

/-! ## Facts -/

structure TaskRootIngressPolicyFact where
  id : String
  semanticTurnLimit : ℕ
  activationLimit : ℕ
  absoluteDeadline : Option ℤ
deriving DecidableEq

structure TaskRootIngressAcceptedFact where
  id : String
  taskID : String
  executionEpoch : ℕ
  sequence : ℕ
  policyID : String
  timeAccepted : ℤ
deriving DecidableEq

inductive TaskLifecycleKind where
  | opened
  | cancellationRequested
  | cancelled
  | closed
  | reopened
  | deleted
deriving DecidableEq

structure TaskLifecycleFact where
  id : String
  kind : TaskLifecycleKind
  epoch : ℕ
  sequence : ℕ
  time : ℤ
deriving DecidableEq

structure ActivationLeaseFact where
  id : String
  targetID : String
  ownerOccurrenceID : String
  timeActivated : ℤ
  expiresAt : ℤ
deriving DecidableEq

inductive AssistantTurnBoundary where
  | toolCalls
  | final
  | providerError
  | wait
deriving DecidableEq

structure AssistantTurnFact where
  id : String
  activationID : String
  predecessorID : String
  timeCompleted : ℤ
  boundary : AssistantTurnBoundary
deriving DecidableEq

structure DecisionFact where
  id : String
  assistantMessageID : String
  command : String
deriving DecidableEq

/-- A Provider boundary without a decision. -/
structure DecisionGapFact where
  id : String
  activationID : String
  assistantMessageID : String
deriving DecidableEq

inductive InteractionOutcome where
  | answered
  | rejected
  | expired
deriving DecidableEq

structure InteractionFact where
  id : String
  ingressID : String
  assistantMessageID : String
  outcome : Option InteractionOutcome
  resumeAt : Option ℤ
  /-- The request whose unknown outcome the operator is asked to reconcile. -/
  activityRequestID : Option String
deriving DecidableEq

/-- Which repetition of an external effect is safe. -/
inductive ActivityIdempotency where
  | transactional
  | stableKey
  | queryRequired
deriving DecidableEq

structure ActivityRequestFact where
  id : String
  activationID : String
  assistantMessageID : String
  idempotency : ActivityIdempotency
deriving DecidableEq

/-- How an external effect ended. -/
inductive ActivityOutcome where
  | completed
  | failed
  | reconciledUnknown
deriving DecidableEq

structure ActivityOutcomeFact where
  id : String
  requestID : String
  outcome : ActivityOutcome
deriving DecidableEq

/-- The operator's decision that an occurrence will never run. -/
structure OperatorAbandonedFact where
  evidenceIDs : List String
deriving DecidableEq

/-- Everything durable about one ingress. -/
structure TaskRootIngressFacts where
  /-- The message of a violated integrity contract, when reading the evidence met one. -/
  integrityViolation : Option String
  ingress : TaskRootIngressAcceptedFact
  policy : TaskRootIngressPolicyFact
  lifecycle : List TaskLifecycleFact
  leases : List ActivationLeaseFact
  turns : List AssistantTurnFact
  decisions : List DecisionFact
  decisionGaps : List DecisionGapFact
  interactions : List InteractionFact
  activityRequests : List ActivityRequestFact
  activityOutcomes : List ActivityOutcomeFact
  operatorAbandoned : Option OperatorAbandonedFact
deriving DecidableEq

/-! ## Projections -/

inductive TaskRootIngressHostFaultReason where
  | evidenceViolation
  | policyDrift
  | decisionAmbiguous
  | outcomeAmbiguous
  | turnWithoutActivation
  | interactionAmbiguous
deriving DecidableEq

/-- Which budget of the ingress is used up. -/
inductive ExhaustedReason where
  | semanticLimit
  | activationLimit
  | deadline
deriving DecidableEq

/-- Which boundary of the Task made the ingress inapplicable. -/
inductive TerminalBoundary where
  | cancelled
  | closed
  | reopened
  | deleted
deriving DecidableEq

inductive TaskRootIngressProjection where
  | hostFault (reason : TaskRootIngressHostFaultReason)
  | exhausted (reason : ExhaustedReason)
  | terminalInapplicable (boundary : TerminalBoundary)
  | resolved (decisionIDs : List String)
  | operatorAbandoned (evidenceIDs : List String)
  | leased (activationID ownerOccurrenceID : String) (expiresAt : ℤ)
  | reconcileRequired (requestIDs : List String)
  | waiting (interactionID : String) (resumeAt : Option ℤ)
  | cancelling (requestEventID : String)
  | ready
deriving DecidableEq

def taskRootIngressReleasesHeadOfLine : TaskRootIngressProjection → Bool
  | .resolved _ => true
  | .terminalInapplicable _ => true
  | .exhausted _ => true
  | .operatorAbandoned _ => true
  | _ => false

section Reduction

variable [Collation] (facts : TaskRootIngressFacts)

/-! ## Readings of the facts -/

def ingressLeases : List ActivationLeaseFact :=
  facts.leases.filter fun lease => lease.targetID = facts.ingress.id

/-- Later activations first, and greater ids first among those of one instant. -/
def compareLatestLease (left right : ActivationLeaseFact) : Ordering :=
  (compare right.timeActivated left.timeActivated).then (localeCompare right.id left.id)

def latestTaskRootIngressLease : Option ActivationLeaseFact :=
  (toSorted compareLatestLease (ingressLeases facts)).head?

def activityOutcomeByRequest (requestID : String) : List ActivityOutcomeFact :=
  facts.activityOutcomes.filter fun outcome => outcome.requestID = requestID

def requestOutstanding (request : ActivityRequestFact) : Bool :=
  (activityOutcomeByRequest facts request.id).length = 0

def completedTurnDecisions : List DecisionFact :=
  facts.decisions.filter fun decision => decision.assistantMessageID ∈ facts.turns.map (·.id)

def validDecisionSet : Option (List DecisionFact) :=
  let decisions := completedTurnDecisions facts
  if decisions.length = 0 then none
  else if (decisions.map (·.assistantMessageID)).dedup.length ≠ 1 then none
  else if 1 < decisions.length ∧ decisions.any (·.command ≠ "dispatch_agent") then none
  else some (toSorted (fun left right => localeCompare left.id right.id) decisions)

/-- The activation has ended its conversation and left no request without an outcome. -/
def activationConsumed (activationID : String) : Bool :=
  if facts.activityRequests.any fun request =>
      request.activationID = activationID ∧ requestOutstanding facts request then false
  else facts.turns.any fun turn =>
    turn.activationID = activationID ∧
      (turn.boundary = .final ∨ turn.boundary = .providerError ∨ turn.boundary = .wait)

/-- The broken write invariant that the evidence shows, if any. -/
def hostFault : Option TaskRootIngressHostFaultReason :=
  if facts.policy.id ≠ facts.ingress.policyID then some .policyDrift
  else if 0 < (completedTurnDecisions facts).length ∧ (validDecisionSet facts).isNone then
    some .decisionAmbiguous
  else if facts.activityOutcomes.any fun outcome =>
      1 < (activityOutcomeByRequest facts outcome.requestID).length then
    some .outcomeAmbiguous
  else if facts.turns.any fun turn => ¬facts.leases.any fun lease => lease.id = turn.activationID then
    some .turnWithoutActivation
  else none

def taskRootIngressSemanticTurnIDs : List String :=
  (facts.turns.filter fun turn =>
    turn.boundary = .final ∧
      ¬(facts.decisions.any fun decision => decision.assistantMessageID = turn.id) ∧
      ¬(facts.interactions.any fun interaction => interaction.assistantMessageID = turn.id)).map
    (·.id)

def taskRootIngressSemanticAttemptIDs : List String :=
  facts.decisionGaps.map (·.id) ++
    (taskRootIngressSemanticTurnIDs facts).filter fun id =>
      id ∉ facts.decisionGaps.map (·.assistantMessageID)

def currentEpoch : ℕ :=
  maxOrZero ((facts.lifecycle.filter fun fact => fact.kind = .opened ∨ fact.kind = .reopened).map (·.epoch))

def deletion : Option TaskLifecycleFact :=
  exactlyOne (facts.lifecycle.filter fun fact => fact.kind = .deleted)

def terminal : Option TaskLifecycleFact :=
  exactlyOne (facts.lifecycle.filter fun fact =>
    fact.epoch = facts.ingress.executionEpoch ∧ (fact.kind = .cancelled ∨ fact.kind = .closed))

def cancellationRequest : Option TaskLifecycleFact :=
  exactlyOne (facts.lifecycle.filter fun fact =>
    fact.epoch = facts.ingress.executionEpoch ∧ fact.kind = .cancellationRequested)

def pendingReconciliationRequests : List String :=
  (facts.interactions.filter fun interaction => interaction.outcome.isNone).filterMap
    fun interaction => interaction.activityRequestID.filter (· ≠ "")

variable (now : ℤ)

def unknownRequests : List ActivityRequestFact :=
  facts.activityRequests.filter fun request =>
    requestOutstanding facts request ∧ request.id ∉ pendingReconciliationRequests facts ∧
      (match latestTaskRootIngressLease facts with
        | none => true
        | some latest =>
          latest.expiresAt ≤ now ∨ activationConsumed facts request.activationID : Bool)

def waitingInteractions : List InteractionFact :=
  facts.interactions.filter fun interaction =>
    interaction.ingressID = facts.ingress.id ∧ interaction.outcome.isNone ∧
      interaction.resumeAt.all fun resumeAt => now < resumeAt

/-! ## The reduction -/

def reduceTaskRootIngressFacts : TaskRootIngressProjection :=
  match facts.operatorAbandoned with
  | some abandoned => .operatorAbandoned abandoned.evidenceIDs
  | none =>
  if facts.integrityViolation.isSome then .hostFault .evidenceViolation else
  match hostFault facts with
  | some fault => .hostFault fault
  | none =>
  if facts.ingress.executionEpoch < currentEpoch facts then .terminalInapplicable .reopened else
  if (deletion facts).isSome then .terminalInapplicable .deleted else
  match (terminal facts).filter fun terminal => facts.ingress.timeAccepted ≤ terminal.time with
  | some terminal => .terminalInapplicable (if terminal.kind = .cancelled then .cancelled else .closed)
  | none =>
  match validDecisionSet facts with
  | some decisions => .resolved (decisions.map (·.id))
  | none =>
  match (latestTaskRootIngressLease facts).filter fun latest =>
      now < latest.expiresAt ∧ ¬activationConsumed facts latest.id with
  | some latest => .leased latest.id latest.ownerOccurrenceID latest.expiresAt
  | none =>
  if 0 < (unknownRequests facts now).length then
    .reconcileRequired (toSorted codeUnitCompare ((unknownRequests facts now).map (·.id))) else
  match cancellationRequest facts with
  | some request => .cancelling request.id
  | none =>
  if facts.policy.absoluteDeadline.any fun deadline => deadline ≤ now then .exhausted .deadline else
  match toSorted (fun left right => localeCompare left.id right.id)
      (waitingInteractions facts now) with
  | [interaction] => .waiting interaction.id interaction.resumeAt
  | _ :: _ :: _ => .hostFault .interactionAmbiguous
  | [] =>
  if facts.policy.semanticTurnLimit ≤ (taskRootIngressSemanticAttemptIDs facts).length then
    .exhausted .semanticLimit else
  if facts.policy.activationLimit ≤ (ingressLeases facts).length then
    .exhausted .activationLimit else
  .ready

/-! ## The reduction in two parts -/

/-- No arm of the reduction that is independent of the clock answers. -/
structure Undecided : Prop where
  notAbandoned : facts.operatorAbandoned = none
  intact : facts.integrityViolation = none
  noFault : hostFault facts = none
  inEpoch : currentEpoch facts ≤ facts.ingress.executionEpoch
  notDeleted : deletion facts = none
  notTerminal : (terminal facts).filter (fun terminal => facts.ingress.timeAccepted ≤ terminal.time) = none
  noDecision : validDecisionSet facts = none

def heldLease : Option ActivationLeaseFact :=
  (latestTaskRootIngressLease facts).filter fun latest =>
    now < latest.expiresAt ∧ ¬activationConsumed facts latest.id

def DeadlinePassed : Prop := ∃ deadline ∈ facts.policy.absoluteDeadline, deadline ≤ now

/-- The arms of the reduction below the requests of unknown outcome. -/
def restProjection : TaskRootIngressProjection :=
  match cancellationRequest facts with
  | some request => .cancelling request.id
  | none =>
  if facts.policy.absoluteDeadline.any fun deadline => deadline ≤ now then .exhausted .deadline else
  match toSorted (fun left right => localeCompare left.id right.id)
      (waitingInteractions facts now) with
  | [interaction] => .waiting interaction.id interaction.resumeAt
  | _ :: _ :: _ => .hostFault .interactionAmbiguous
  | [] =>
  if facts.policy.semanticTurnLimit ≤ (taskRootIngressSemanticAttemptIDs facts).length then
    .exhausted .semanticLimit else
  if facts.policy.activationLimit ≤ (ingressLeases facts).length then
    .exhausted .activationLimit else
  .ready

variable {facts}

/-- The projections that the arms independent of the clock answer with. -/
def TaskRootIngressProjection.Settled : TaskRootIngressProjection → Prop
  | .operatorAbandoned _ => True
  | .hostFault _ => True
  | .terminalInapplicable _ => True
  | .resolved _ => True
  | _ => False

/-- The evidence breaks a write invariant of the Host, and the occurrence is not abandoned. -/
def Faulted (facts : TaskRootIngressFacts) : Prop :=
  facts.operatorAbandoned = none ∧ (facts.integrityViolation.isSome = true ∨ (hostFault facts).isSome = true)

theorem exists_settled_of_not_undecided (h : ¬Undecided facts) :
    ∃ projection : TaskRootIngressProjection, projection.Settled ∧
      (taskRootIngressReleasesHeadOfLine projection = true ↔ ¬Faulted facts) ∧
        ∀ now, reduceTaskRootIngressFacts facts now = projection := by
  unfold Faulted
  unfold reduceTaskRootIngressFacts
  cases habandoned : facts.operatorAbandoned with
  | some abandoned =>
    refine ⟨.operatorAbandoned abandoned.evidenceIDs, trivial, ?_, fun _ => rfl⟩
    simp [taskRootIngressReleasesHeadOfLine]
  | none =>
    by_cases hviolation : facts.integrityViolation.isSome = true
    · simp only [hviolation, if_true]
      refine ⟨.hostFault .evidenceViolation, trivial, ?_, fun _ => rfl⟩
      simp [taskRootIngressReleasesHeadOfLine]
    cases hfault : hostFault facts with
    | some fault =>
      simp only [hviolation]
      refine ⟨.hostFault fault, trivial, ?_, fun _ => rfl⟩
      simp [taskRootIngressReleasesHeadOfLine]
    | none =>
      by_cases hepoch : facts.ingress.executionEpoch < currentEpoch facts
      · simp only [hviolation, hepoch, if_true]
        refine ⟨.terminalInapplicable .reopened, trivial, ?_, fun _ => rfl⟩
        simp [taskRootIngressReleasesHeadOfLine]
      by_cases hdeleted : (deletion facts).isSome = true
      · simp only [hviolation, hepoch, hdeleted, if_true, if_false]
        refine ⟨.terminalInapplicable .deleted, trivial, ?_, fun _ => rfl⟩
        simp [taskRootIngressReleasesHeadOfLine]
      cases hterminal : (terminal facts).filter fun terminal =>
          facts.ingress.timeAccepted ≤ terminal.time with
      | some terminal =>
        simp only [hviolation, hepoch, hdeleted, if_false]
        refine ⟨.terminalInapplicable _, trivial, ?_, fun _ => rfl⟩
        simp [taskRootIngressReleasesHeadOfLine]
      | none =>
        cases hdecision : validDecisionSet facts with
        | some decisions =>
          simp only [hviolation, hepoch, hdeleted, if_false]
          refine ⟨.resolved (decisions.map (·.id)), trivial, ?_, fun _ => rfl⟩
          simp [taskRootIngressReleasesHeadOfLine]
        | none =>
          refine absurd ⟨habandoned, ?_, hfault, not_lt.mp hepoch, ?_, hterminal, hdecision⟩ h
          · simpa using hviolation
          · simpa using hdeleted

theorem reduce_of_undecided (h : Undecided facts) (now : ℤ) : reduceTaskRootIngressFacts facts now =
      match heldLease facts now with
      | some latest => .leased latest.id latest.ownerOccurrenceID latest.expiresAt
      | none =>
        if 0 < (unknownRequests facts now).length then
          .reconcileRequired (toSorted codeUnitCompare ((unknownRequests facts now).map (·.id)))
        else restProjection facts now := by
  unfold reduceTaskRootIngressFacts
  simp only [h.notAbandoned, h.intact, h.noFault, not_lt.mpr h.inEpoch, h.notDeleted,
    h.notTerminal, h.noDecision, Option.isSome_none, Bool.false_eq_true, if_false]
  rfl

theorem boundary_of_reduce {now : ℤ} {boundary : TerminalBoundary}
    (h : reduceTaskRootIngressFacts facts now = .terminalInapplicable boundary) :
    (boundary = .reopened ∧ facts.ingress.executionEpoch < currentEpoch facts) ∨
      (boundary = .deleted ∧ (deletion facts).isSome = true) ∨
        ∃ fact, terminal facts = some fact ∧ facts.ingress.timeAccepted ≤ fact.time ∧
          boundary = if fact.kind = .cancelled then .cancelled else .closed := by
  unfold reduceTaskRootIngressFacts at h
  split at h
  · cases h
  split at h
  · cases h
  split at h
  · cases h
  by_cases hepoch : facts.ingress.executionEpoch < currentEpoch facts
  · rw [if_pos hepoch] at h
    cases h
    exact Or.inl ⟨rfl, hepoch⟩
  rw [if_neg hepoch] at h
  by_cases hdeleted : (deletion facts).isSome = true
  · rw [if_pos hdeleted] at h
    cases h
    exact Or.inr (Or.inl ⟨rfl, hdeleted⟩)
  rw [if_neg hdeleted] at h
  split at h
  · rename_i fact hterminal
    obtain ⟨hfact, htime⟩ := Option.filter_eq_some_iff.mp hterminal
    exact Or.inr (Or.inr ⟨fact, hfact, of_decide_eq_true htime,
      (TaskRootIngressProjection.terminalInapplicable.inj h).symm⟩)
  -- No arm below the terminal answers with an inapplicable projection.
  exfalso
  split at h
  · cases h
  split at h
  · cases h
  split at h
  · cases h
  split at h
  · cases h
  split at h
  · cases h
  split at h
  · cases h
  · cases h
  split_ifs at h

theorem reduce_of_boundary (habandoned : facts.operatorAbandoned = none)
    (hintact : facts.integrityViolation = none) (hfault : hostFault facts = none)
    (hboundary : facts.ingress.executionEpoch < currentEpoch facts ∨
      ∃ fact, terminal facts = some fact ∧ facts.ingress.timeAccepted ≤ fact.time) (now : ℤ) :
    ∃ boundary, reduceTaskRootIngressFacts facts now = .terminalInapplicable boundary := by
  unfold reduceTaskRootIngressFacts
  simp only [habandoned, hintact, hfault, Option.isSome_none, Bool.false_eq_true, if_false]
  by_cases hepoch : facts.ingress.executionEpoch < currentEpoch facts
  · rw [if_pos hepoch]
    exact ⟨_, rfl⟩
  · obtain ⟨fact, hfact, htime⟩ := hboundary.resolve_left hepoch
    rw [if_neg hepoch]
    by_cases hdeleted : (deletion facts).isSome = true
    · rw [if_pos hdeleted]
      exact ⟨_, rfl⟩
    · rw [if_neg hdeleted]
      have hterminal : (terminal facts).filter
          (fun terminal => facts.ingress.timeAccepted ≤ terminal.time) = some fact :=
        Option.filter_eq_some_iff.mpr ⟨hfact, decide_eq_true htime⟩
      rw [hterminal]
      exact ⟨_, rfl⟩

omit [Collation] in
lemma deadlinePassed_iff (now : ℤ) : (facts.policy.absoluteDeadline.any fun deadline => deadline ≤ now) = true ↔
      DeadlinePassed facts now := by
  simp [DeadlinePassed, Option.any_eq_true]

omit [Collation] in
lemma DeadlinePassed.mono {now later : ℤ} (hle : now ≤ later) (h : DeadlinePassed facts now) :
    DeadlinePassed facts later := by
  obtain ⟨deadline, hmem, hdeadline⟩ := h
  exact ⟨deadline, hmem, hdeadline.trans hle⟩

end Reduction

/-! ## How long a projection may rest -/

/-- The period after which an unfinished cancellation is looked at again. -/
def CANCELLATION_RECONCILE_WAKE_MS : ℤ := 15000

/-- The artifact that makes an operator-gated projection visible. -/
inductive TaskRootIngressSurface where
  | infrastructureFact
  | interaction
deriving DecidableEq

/-- Why a projection may rest, and until when. -/
inductive TaskRootIngressWakeClassification where
  | absorbing
  | finiteWake (wakeAt : ℤ)
  | operatorGated (surface : TaskRootIngressSurface)
  | fifoDeferred
deriving DecidableEq

def finiteWake (instant : ℤ) (absoluteDeadline : Option ℤ) : TaskRootIngressWakeClassification :=
  .finiteWake (absoluteDeadline.elim instant fun deadline => min instant deadline)

/-- The deadline, or else a resting class. -/
def deadlineOr (absoluteDeadline : Option ℤ) (fallback : TaskRootIngressWakeClassification) :
    TaskRootIngressWakeClassification :=
  absoluteDeadline.elim fallback .finiteWake

/-- When, or whether, the control plane looks at a projection again. -/
def classifyTaskRootIngressWake (projection : TaskRootIngressProjection)
    (absoluteDeadline : Option ℤ) (now : ℤ) : TaskRootIngressWakeClassification :=
  match projection with
  | .resolved _ | .terminalInapplicable _ | .operatorAbandoned _ => .absorbing
  | .leased _ _ expiresAt => finiteWake expiresAt absoluteDeadline
  | .waiting _ (some resumeAt) => finiteWake resumeAt absoluteDeadline
  | .waiting _ none => deadlineOr absoluteDeadline (.operatorGated .interaction)
  | .cancelling _ => finiteWake (now + CANCELLATION_RECONCILE_WAKE_MS) absoluteDeadline
  | .reconcileRequired _ => deadlineOr absoluteDeadline (.operatorGated .interaction)
  | .hostFault _ => .operatorGated .infrastructureFact
  | .exhausted _ => .operatorGated .infrastructureFact
  | .ready => deadlineOr absoluteDeadline .fifoDeferred

end OpenCorvus.Engine
