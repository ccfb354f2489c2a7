import OpenCorvus.Engine.TaskRootIngressReducer

/-!
# Wakes of a Task-root ingress

The reduction reads the clock through the expiry of the latest activation lease, the resume instants of interactions
and the absolute deadline, and the classification of a projection reports one instant at which to look again.  This
file determines for which facts the projection changes before the reported instant, and for which it becomes ready
although an activity request has no outcome.
-/

namespace OpenCorvus.Engine

open EcmaScript List

variable [Collation] {facts : TaskRootIngressFacts}

/-! ## Requests of unknown outcome -/

/-- The requests without an outcome that nobody is asked to reconcile. -/
def outstandingRequests (facts : TaskRootIngressFacts) : List ActivityRequestFact :=
  facts.activityRequests.filter fun request =>
    requestOutstanding facts request ∧ request.id ∉ pendingReconciliationRequests facts

omit [Collation] in
lemma activationConsumed_of_outstanding {request : ActivityRequestFact}
    (hrequest : request ∈ facts.activityRequests) (hout : requestOutstanding facts request = true) :
    activationConsumed facts request.activationID = false := by
  have hany : (facts.activityRequests.any fun other =>
      other.activationID = request.activationID ∧ requestOutstanding facts other) = true := by
    rw [List.any_eq_true]
    exact ⟨request, hrequest, by simp [hout]⟩
  unfold activationConsumed
  rw [if_pos hany]

variable {now later : ℤ}

lemma unknownRequests_of_unexpired {latest : ActivationLeaseFact}
    (hlatest : latestTaskRootIngressLease facts = some latest) (hnow : now < latest.expiresAt) :
    unknownRequests facts now = [] := by
  unfold unknownRequests
  rw [filter_eq_nil_iff]
  intro request hrequest
  simp only [hlatest, Bool.decide_and, Bool.and_eq_true, not_and, decide_eq_true_eq]
  rintro hout -
  rw [activationConsumed_of_outstanding hrequest hout]
  simpa using hnow

lemma unknownRequests_of_expired
    (h : ∀ latest, latestTaskRootIngressLease facts = some latest → latest.expiresAt ≤ now) :
    unknownRequests facts now = outstandingRequests facts := by
  unfold unknownRequests outstandingRequests
  refine filter_congr fun request _ => ?_
  cases hlatest : latestTaskRootIngressLease facts with
  | none => simp
  | some latest => simp [h latest hlatest]

omit [Collation] in
lemma waitingInteractions_sublist (hle : now ≤ later) :
    (waitingInteractions facts later).Sublist (waitingInteractions facts now) := by
  refine monotone_filter_right _ fun interaction => ?_
  simp only [Bool.decide_and, Bool.and_eq_true, decide_eq_true_eq]
  rintro ⟨hingress, houtcome, hresume⟩
  refine ⟨hingress, houtcome, ?_⟩
  rw [Option.all_eq_true] at hresume ⊢
  intro resumeAt hmem
  exact decide_eq_true (lt_of_le_of_lt hle (of_decide_eq_true (hresume resumeAt hmem)))

/-! ## Facts at rest -/

/-- The reduction reaches the arms below the requests of unknown outcome. -/
structure AtRest (facts : TaskRootIngressFacts) (now : ℤ) : Prop where
  undecided : Undecided facts
  /-- An unexpired latest lease has a consumed activation. -/
  notHeld : ∀ latest, latestTaskRootIngressLease facts = some latest → now < latest.expiresAt →
    activationConsumed facts latest.id = true
  /-- An outstanding request is hidden behind the unexpired latest lease. -/
  hidden : outstandingRequests facts ≠ [] →
    ∃ latest, latestTaskRootIngressLease facts = some latest ∧ now < latest.expiresAt

def UncoversRequest (facts : TaskRootIngressFacts) (now later : ℤ) : Prop :=
  outstandingRequests facts ≠ [] ∧ ∃ latest, latestTaskRootIngressLease facts = some latest ∧
    now < latest.expiresAt ∧ latest.expiresAt ≤ later

lemma AtRest.heldLease_eq (h : AtRest facts now) : heldLease facts now = none := by
  unfold heldLease
  cases hlatest : latestTaskRootIngressLease facts with
  | none => rfl
  | some latest =>
    have hconsumed := h.notHeld latest hlatest
    simp only [Option.filter_eq_none_iff, Option.some.injEq]
    rintro _ rfl
    simpa using hconsumed

lemma AtRest.unknownRequests_eq (h : AtRest facts now) : unknownRequests facts now = [] := by
  by_cases hunexpired : ∃ latest, latestTaskRootIngressLease facts = some latest ∧ now < latest.expiresAt
  · obtain ⟨_, hlatest, hnow⟩ := hunexpired
    exact unknownRequests_of_unexpired hlatest hnow
  · have hexpired : ∀ latest, latestTaskRootIngressLease facts = some latest →
        latest.expiresAt ≤ now := by
      intro latest hlatest
      by_contra hlt
      exact hunexpired ⟨latest, hlatest, not_le.mp hlt⟩
    rw [unknownRequests_of_expired hexpired]
    by_contra hne
    exact hunexpired (h.hidden hne)

lemma AtRest.reduce_eq (h : AtRest facts now) :
    reduceTaskRootIngressFacts facts now = restProjection facts now := by
  rw [reduce_of_undecided h.undecided, h.heldLease_eq, h.unknownRequests_eq]
  rfl

lemma AtRest.mono (h : AtRest facts now) (hle : now ≤ later) (hcovered : ¬UncoversRequest facts now later) :
    AtRest facts later := by
  refine ⟨h.undecided, fun latest hlatest hlt => h.notHeld latest hlatest (hle.trans_lt hlt), ?_⟩
  intro hne
  obtain ⟨latest, hlatest, hnow⟩ := h.hidden hne
  refine ⟨latest, hlatest, ?_⟩
  by_contra hexpired
  exact hcovered ⟨hne, latest, hlatest, hnow, not_lt.mp hexpired⟩

/-- Facts at rest project to `reconcileRequired` once a request is uncovered. -/
lemma AtRest.reduce_of_uncovers (h : AtRest facts now) (huncovers : UncoversRequest facts now later) :
    ∃ requestIDs, reduceTaskRootIngressFacts facts later = .reconcileRequired requestIDs := by
  obtain ⟨hne, _, hlatest, _, hlater⟩ := huncovers
  have hheld : heldLease facts later = none := by
    unfold heldLease
    rw [hlatest, Option.filter_eq_none_iff]
    rintro _ ⟨⟩
    simp [hlater]
  have hexpired : ∀ lease, latestTaskRootIngressLease facts = some lease → lease.expiresAt ≤ later := by
    intro lease hlease
    rw [hlatest, Option.some.injEq] at hlease
    exact hlease ▸ hlater
  have hpos : 0 < (outstandingRequests facts).length := length_pos_iff.mpr hne
  rw [reduce_of_undecided h.undecided, hheld, unknownRequests_of_expired hexpired]
  exact ⟨_, if_pos hpos⟩

lemma not_atRest_cases (hundecided : Undecided facts) (h : ¬AtRest facts now) :
    (∃ latest, latestTaskRootIngressLease facts = some latest ∧ now < latest.expiresAt ∧
        activationConsumed facts latest.id = false) ∨
      (outstandingRequests facts ≠ [] ∧
        ∀ latest, latestTaskRootIngressLease facts = some latest → latest.expiresAt ≤ now) := by
  by_contra hcases
  push Not at hcases
  refine h ⟨hundecided, fun latest hlatest hnow => ?_, fun hne => ?_⟩
  · simpa using hcases.1 latest hlatest hnow
  · exact hcases.2 hne

/-! ## The projections at rest -/

section RestProjection

variable {now : ℤ}

def BudgetSpent (facts : TaskRootIngressFacts) : Prop :=
  facts.policy.semanticTurnLimit ≤ (taskRootIngressSemanticAttemptIDs facts).length ∨
    facts.policy.activationLimit ≤ (ingressLeases facts).length

lemma restProjection_cancelling {request : TaskLifecycleFact}
    (hrequest : cancellationRequest facts = some request) :
    restProjection facts now = .cancelling request.id := by
  unfold restProjection
  rw [hrequest]

section

variable (hrequest : cancellationRequest facts = none)

include hrequest

lemma restProjection_deadline (hpassed : DeadlinePassed facts now) :
    restProjection facts now = .exhausted .deadline := by
  unfold restProjection
  simp only [hrequest, (deadlinePassed_iff now).mpr hpassed, if_true]

section

variable (hpassed : ¬DeadlinePassed facts now)

include hpassed

lemma restProjection_ambiguous (hseveral : 1 < (waitingInteractions facts now).length) :
    restProjection facts now = .hostFault .interactionAmbiguous := by
  obtain ⟨first, second, rest, hsorted⟩ : ∃ first second rest,
      toSorted (fun left right : InteractionFact => localeCompare left.id right.id)
        (waitingInteractions facts now) = first :: second :: rest := by
    rw [← length_toSorted fun left right : InteractionFact => localeCompare left.id right.id] at hseveral
    match htoSorted : toSorted (fun left right : InteractionFact => localeCompare left.id right.id)
        (waitingInteractions facts now) with
    | [] => simp [htoSorted] at hseveral
    | [_] => simp [htoSorted] at hseveral
    | first :: second :: rest => exact ⟨first, second, rest, rfl⟩
  unfold restProjection
  rw [← deadlinePassed_iff] at hpassed
  simp [hrequest, hpassed, hsorted]

lemma restProjection_waiting {interaction : InteractionFact} (hone : waitingInteractions facts now = [interaction]) :
    restProjection facts now = .waiting interaction.id interaction.resumeAt := by
  unfold restProjection
  rw [← deadlinePassed_iff] at hpassed
  simp [hrequest, hpassed, hone]

lemma restProjection_budget (hnone : waitingInteractions facts now = []) (hspent : BudgetSpent facts) :
    ∃ reason, reason ≠ .deadline ∧ restProjection facts now = .exhausted reason := by
  unfold restProjection
  rw [← deadlinePassed_iff] at hpassed
  simp only [hrequest, hpassed, toSorted_eq_nil.mpr hnone, Bool.false_eq_true, if_false]
  by_cases hsemantic : facts.policy.semanticTurnLimit ≤ (taskRootIngressSemanticAttemptIDs facts).length
  · exact ⟨.semanticLimit, by decide, by rw [if_pos hsemantic]⟩
  · have hactivation := hspent.resolve_left hsemantic
    exact ⟨.activationLimit, by decide, by rw [if_neg hsemantic, if_pos hactivation]⟩

lemma restProjection_ready (hnone : waitingInteractions facts now = []) (hunspent : ¬BudgetSpent facts) :
    restProjection facts now = .ready := by
  unfold BudgetSpent at hunspent
  push Not at hunspent
  unfold restProjection
  rw [← deadlinePassed_iff] at hpassed
  simp only [hrequest, hpassed, toSorted_eq_nil.mpr hnone, not_le.mpr hunspent.1,
    not_le.mpr hunspent.2, Bool.false_eq_true, if_false]

end

end

omit [Collation] in
lemma waitingInteractions_cases (facts : TaskRootIngressFacts) (now : ℤ) : waitingInteractions facts now = [] ∨
      (∃ interaction, waitingInteractions facts now = [interaction]) ∨
        1 < (waitingInteractions facts now).length := by
  match waitingInteractions facts now with
  | [] => exact Or.inl rfl
  | [interaction] => exact Or.inr (Or.inl ⟨interaction, rfl⟩)
  | _ :: _ :: _ => exact Or.inr (Or.inr (by simp))

lemma restProjection_ne_reconcileRequired (requestIDs : List String) :
    restProjection facts now ≠ .reconcileRequired requestIDs := by
  cases hrequest : cancellationRequest facts with
  | some => simp [restProjection_cancelling hrequest]
  | none =>
    by_cases hpassed : DeadlinePassed facts now
    · simp [restProjection_deadline hrequest hpassed]
    rcases waitingInteractions_cases facts now with hnone | ⟨_, hone⟩ | hseveral
    · by_cases hspent : BudgetSpent facts
      · obtain ⟨_, -, hreason⟩ := restProjection_budget hrequest hpassed hnone hspent
        simp [hreason]
      · simp [restProjection_ready hrequest hpassed hnone hspent]
    · simp [restProjection_waiting hrequest hpassed hone]
    · simp [restProjection_ambiguous hrequest hpassed hseveral]

end RestProjection

/-! ## Reported wakes -/

def TaskRootIngressWakeClassification.WakesBy (classification : TaskRootIngressWakeClassification)
    (later : ℤ) : Prop :=
  ∃ wakeAt, classification = .finiteWake wakeAt ∧ wakeAt ≤ later

section WakesBy

variable {later : ℤ}

omit [Collation] in
@[simp] lemma wakesBy_finiteWake {instant : ℤ} : (finiteWake instant facts.policy.absoluteDeadline).WakesBy later ↔
      instant ≤ later ∨ DeadlinePassed facts later := by
  unfold finiteWake TaskRootIngressWakeClassification.WakesBy DeadlinePassed
  cases facts.policy.absoluteDeadline <;> simp

omit [Collation] in
@[simp] lemma wakesBy_deadlineOr {fallback : TaskRootIngressWakeClassification} :
    (deadlineOr facts.policy.absoluteDeadline fallback).WakesBy later ↔ DeadlinePassed facts later ∨
        (facts.policy.absoluteDeadline = none ∧ fallback.WakesBy later) := by
  unfold deadlineOr TaskRootIngressWakeClassification.WakesBy DeadlinePassed
  cases facts.policy.absoluteDeadline <;> simp

omit [Collation] in
@[simp] lemma not_wakesBy_operatorGated {surface : TaskRootIngressSurface} :
    ¬(TaskRootIngressWakeClassification.operatorGated surface).WakesBy later := by
  rintro ⟨_, ⟨⟩, -⟩

omit [Collation] in
@[simp] lemma not_wakesBy_fifoDeferred : ¬TaskRootIngressWakeClassification.fifoDeferred.WakesBy later := by
  rintro ⟨_, ⟨⟩, -⟩

end WakesBy

/-! ## Completeness of the reported wakes -/

/-- The changes of the projection between two instants that no reported wake announces. -/
inductive SleptThrough (facts : TaskRootIngressFacts) (now later : ℤ) : Prop where
  /-- A request is uncovered before an unfinished cancellation is looked at again. -/
  | cancelling (rest : AtRest facts now) (requested : (cancellationRequest facts).isSome = true)
      (uncovers : UncoversRequest facts now later)
      (early : later < now + CANCELLATION_RECONCILE_WAKE_MS)
      (notPassed : ¬DeadlinePassed facts later)
  /-- A request is uncovered after the deadline. -/
  | deadline (rest : AtRest facts now) (unrequested : cancellationRequest facts = none)
      (passed : DeadlinePassed facts now) (uncovers : UncoversRequest facts now later)
  /-- Several interactions are pending, and a request is uncovered, the deadline passes, or all but
  one of the interactions reach their resume instant. -/
  | ambiguous (rest : AtRest facts now) (unrequested : cancellationRequest facts = none)
      (notPassed : ¬DeadlinePassed facts now)
      (several : 1 < (waitingInteractions facts now).length)
      (change : UncoversRequest facts now later ∨ DeadlinePassed facts later ∨
        (waitingInteractions facts later).length ≤ 1)
  /-- A request is uncovered while one interaction is pending, before its resume instant. -/
  | waiting (interaction : InteractionFact) (rest : AtRest facts now)
      (unrequested : cancellationRequest facts = none)
      (one : waitingInteractions facts now = [interaction])
      (uncovers : UncoversRequest facts now later) (notPassed : ¬DeadlinePassed facts later)
      (early : ∀ resumeAt ∈ interaction.resumeAt, later < resumeAt)
  /-- A budget is used up, and a request is uncovered or the deadline passes. -/
  | budget (rest : AtRest facts now) (unrequested : cancellationRequest facts = none)
      (notPassed : ¬DeadlinePassed facts now) (noneWaiting : waitingInteractions facts now = [])
      (spent : BudgetSpent facts)
      (change : UncoversRequest facts now later ∨ DeadlinePassed facts later)
  /-- A request is uncovered while the ingress is ready, before the deadline. -/
  | ready (rest : AtRest facts now) (unrequested : cancellationRequest facts = none)
      (noneWaiting : waitingInteractions facts now = []) (unspent : ¬BudgetSpent facts)
      (uncovers : UncoversRequest facts now later) (notPassed : ¬DeadlinePassed facts later)

section Completeness

variable {now later : ℤ}

lemma AtRest.reduce_ne_of_uncovers (h : AtRest facts now) (huncovers : UncoversRequest facts now later) :
    reduceTaskRootIngressFacts facts later ≠ reduceTaskRootIngressFacts facts now := by
  obtain ⟨requestIDs, hlater⟩ := h.reduce_of_uncovers huncovers
  rw [hlater, h.reduce_eq]
  exact (restProjection_ne_reconcileRequired requestIDs).symm

lemma SleptThrough.reduce_ne (h : SleptThrough facts now later) (hle : now ≤ later) :
    reduceTaskRootIngressFacts facts later ≠ reduceTaskRootIngressFacts facts now := by
  cases h with
  | cancelling rest _ uncovers | deadline rest _ _ uncovers | waiting _ rest _ _ uncovers
  | ready rest _ _ _ uncovers => exact rest.reduce_ne_of_uncovers uncovers
  | ambiguous rest unrequested notPassed several change =>
    by_cases huncovers : UncoversRequest facts now later
    · exact rest.reduce_ne_of_uncovers huncovers
    rw [(rest.mono hle huncovers).reduce_eq, rest.reduce_eq,
      restProjection_ambiguous unrequested notPassed several]
    by_cases hpassed : DeadlinePassed facts later
    · rw [restProjection_deadline unrequested hpassed]
      simp
    have hfew := (change.resolve_left huncovers).resolve_left hpassed
    rcases waitingInteractions_cases facts later with hnone | ⟨_, hone⟩ | hseveral
    · by_cases hspent : BudgetSpent facts
      · obtain ⟨_, -, hreason⟩ := restProjection_budget unrequested hpassed hnone hspent
        simp [hreason]
      · simp [restProjection_ready unrequested hpassed hnone hspent]
    · simp [restProjection_waiting unrequested hpassed hone]
    · exact absurd hfew (not_le.mpr hseveral)
  | budget rest unrequested notPassed noneWaiting spent change =>
    by_cases huncovers : UncoversRequest facts now later
    · exact rest.reduce_ne_of_uncovers huncovers
    obtain ⟨_, hne, hreason⟩ :=
      restProjection_budget unrequested notPassed noneWaiting spent
    rw [(rest.mono hle huncovers).reduce_eq, rest.reduce_eq, hreason,
      restProjection_deadline unrequested (change.resolve_left huncovers)]
    simpa using hne.symm

lemma SleptThrough.not_wakesBy (h : SleptThrough facts now later) (hle : now ≤ later) :
    ¬(classifyTaskRootIngressWake (reduceTaskRootIngressFacts facts now)
      facts.policy.absoluteDeadline now).WakesBy later := by
  cases h with
  | cancelling rest requested _ early notPassed =>
    obtain ⟨_, hrequest⟩ := Option.isSome_iff_exists.mp requested
    rw [rest.reduce_eq, restProjection_cancelling hrequest]
    simpa [classifyTaskRootIngressWake, notPassed] using early
  | deadline rest unrequested passed =>
    rw [rest.reduce_eq, restProjection_deadline unrequested passed]
    simp [classifyTaskRootIngressWake]
  | ambiguous rest unrequested notPassed several =>
    rw [rest.reduce_eq, restProjection_ambiguous unrequested notPassed several]
    simp [classifyTaskRootIngressWake]
  | waiting interaction rest unrequested one _ notPassed early =>
    rw [rest.reduce_eq, restProjection_waiting unrequested (fun h => notPassed (h.mono hle)) one]
    cases hresume : interaction.resumeAt with
    | none => simp [classifyTaskRootIngressWake, notPassed]
    | some resumeAt =>
      have := early resumeAt hresume
      simpa [classifyTaskRootIngressWake, notPassed] using this
  | budget rest unrequested notPassed noneWaiting spent =>
    obtain ⟨_, -, hreason⟩ :=
      restProjection_budget unrequested notPassed noneWaiting spent
    rw [rest.reduce_eq, hreason]
    simp [classifyTaskRootIngressWake]
  | ready rest unrequested noneWaiting unspent _ notPassed =>
    rw [rest.reduce_eq, restProjection_ready unrequested (fun h => notPassed (h.mono hle)) noneWaiting unspent]
    simp [classifyTaskRootIngressWake, notPassed]

lemma restProjection_eq (hle : now ≤ later) (hpassed : ¬DeadlinePassed facts later)
    (hwaiting : waitingInteractions facts later = waitingInteractions facts now) :
    restProjection facts later = restProjection facts now := by
  have hnow : ¬DeadlinePassed facts now := fun h => hpassed (h.mono hle)
  rw [← deadlinePassed_iff] at hpassed hnow
  unfold restProjection
  simp only [hpassed, hnow, hwaiting]

lemma reduce_of_held (hundecided : Undecided facts) {latest : ActivationLeaseFact}
    (hlatest : latestTaskRootIngressLease facts = some latest) (hnow : now < latest.expiresAt)
    (hconsumed : activationConsumed facts latest.id = false) :
    reduceTaskRootIngressFacts facts now =
      .leased latest.id latest.ownerOccurrenceID latest.expiresAt := by
  have hheld : heldLease facts now = some latest := by
    unfold heldLease
    simp [hlatest, hnow, hconsumed]
  rw [reduce_of_undecided hundecided, hheld]

lemma reduce_of_expired (hundecided : Undecided facts) (hne : outstandingRequests facts ≠ [])
    (hexpired : ∀ latest, latestTaskRootIngressLease facts = some latest → latest.expiresAt ≤ now) :
    reduceTaskRootIngressFacts facts now =
      .reconcileRequired (toSorted codeUnitCompare ((outstandingRequests facts).map (·.id))) := by
  have hheld : heldLease facts now = none := by
    unfold heldLease
    rw [Option.filter_eq_none_iff]
    intro latest hlatest
    simp [hexpired latest hlatest]
  have hpos : 0 < (outstandingRequests facts).length := length_pos_iff.mpr hne
  rw [reduce_of_undecided hundecided, hheld, unknownRequests_of_expired hexpired]
  simp only [hpos, if_true]

lemma atRest_of_change (hle : now ≤ later)
    (hchange : reduceTaskRootIngressFacts facts later ≠ reduceTaskRootIngressFacts facts now)
    (hwakes : ¬(classifyTaskRootIngressWake (reduceTaskRootIngressFacts facts now)
      facts.policy.absoluteDeadline now).WakesBy later) : AtRest facts now := by
  have hundecided : Undecided facts := by
    by_contra h
    obtain ⟨_, -, -, hprojection⟩ := exists_settled_of_not_undecided h
    exact hchange ((hprojection later).trans (hprojection now).symm)
  by_contra hrest
  rcases not_atRest_cases hundecided hrest with ⟨latest, hlatest, hnow, hconsumed⟩ |
    ⟨hne, hexpired⟩
  · have hprojection := reduce_of_held hundecided hlatest hnow hconsumed
    rw [hprojection, classifyTaskRootIngressWake, wakesBy_finiteWake] at hwakes
    push Not at hwakes
    exact hchange ((reduce_of_held hundecided hlatest hwakes.1 hconsumed).trans hprojection.symm)
  · refine hchange ((reduce_of_expired hundecided hne fun latest hlatest => ?_).trans
      (reduce_of_expired hundecided hne hexpired).symm)
    exact (hexpired latest hlatest).trans hle

lemma sleptThrough_of_uncovers (hrest : AtRest facts now)
    (hwakes : ¬(classifyTaskRootIngressWake (restProjection facts now)
      facts.policy.absoluteDeadline now).WakesBy later)
    (huncovers : UncoversRequest facts now later) : SleptThrough facts now later := by
  cases hrequest : cancellationRequest facts with
  | some =>
    rw [restProjection_cancelling hrequest, classifyTaskRootIngressWake, wakesBy_finiteWake] at hwakes
    push Not at hwakes
    exact .cancelling hrest (by simp [hrequest]) huncovers hwakes.1 hwakes.2
  | none =>
    by_cases hpassed : DeadlinePassed facts now
    · exact .deadline hrest hrequest hpassed huncovers
    rcases waitingInteractions_cases facts now with hnone | ⟨interaction, hone⟩ | hseveral
    · by_cases hspent : BudgetSpent facts
      · exact .budget hrest hrequest hpassed hnone hspent (Or.inl huncovers)
      · rw [restProjection_ready hrequest hpassed hnone hspent, classifyTaskRootIngressWake,
          wakesBy_deadlineOr] at hwakes
        push Not at hwakes
        exact .ready hrest hrequest hnone hspent huncovers hwakes.1
    · rw [restProjection_waiting hrequest hpassed hone] at hwakes
      refine .waiting interaction hrest hrequest hone huncovers ?_ ?_
      · intro hlater
        refine hwakes ?_
        cases interaction.resumeAt <;> simp [classifyTaskRootIngressWake, hlater]
      · intro resumeAt hresume
        rw [Option.mem_def] at hresume
        rw [hresume, classifyTaskRootIngressWake, wakesBy_finiteWake] at hwakes
        push Not at hwakes
        exact hwakes.1
    · exact .ambiguous hrest hrequest hpassed hseveral (Or.inl huncovers)

lemma sleptThrough_of_covered (hle : now ≤ later) (hrest : AtRest facts now)
    (hchange : restProjection facts later ≠ restProjection facts now)
    (hwakes : ¬(classifyTaskRootIngressWake (restProjection facts now)
      facts.policy.absoluteDeadline now).WakesBy later) : SleptThrough facts now later := by
  cases hrequest : cancellationRequest facts with
  | some =>
    exact absurd (by rw [restProjection_cancelling hrequest, restProjection_cancelling hrequest])
      hchange
  | none =>
    by_cases hpassed : DeadlinePassed facts now
    · refine absurd ?_ hchange
      rw [restProjection_deadline hrequest hpassed, restProjection_deadline hrequest (hpassed.mono hle)]
    have hsublist : (waitingInteractions facts later).Sublist (waitingInteractions facts now) :=
      waitingInteractions_sublist hle
    rcases waitingInteractions_cases facts now with hnone | ⟨interaction, hone⟩ | hseveral
    · have hlaterNone : waitingInteractions facts later = [] := by
        rwa [hnone, sublist_nil] at hsublist
      have hlaterPassed : DeadlinePassed facts later := by
        by_contra hlater
        exact hchange (restProjection_eq hle hlater (hlaterNone.trans hnone.symm))
      by_cases hspent : BudgetSpent facts
      · exact .budget hrest hrequest hpassed hnone hspent (Or.inr hlaterPassed)
      · refine absurd ?_ hwakes
        rw [restProjection_ready hrequest hpassed hnone hspent]
        simp [classifyTaskRootIngressWake, hlaterPassed]
    · refine absurd ?_ hwakes
      rw [restProjection_waiting hrequest hpassed hone]
      by_cases hlaterPassed : DeadlinePassed facts later
      · cases interaction.resumeAt <;> simp [classifyTaskRootIngressWake, hlaterPassed]
      -- The interaction must have reached its resume instant, which is reported.
      have hgone : interaction ∉ waitingInteractions facts later := by
        intro hmem
        have hsame : waitingInteractions facts later = waitingInteractions facts now := by
          rw [hone] at hsublist ⊢
          exact hsublist.eq_of_length_le (length_pos_of_mem hmem)
        exact hchange (restProjection_eq hle hlaterPassed hsame)
      have hmem : interaction ∈ waitingInteractions facts now := by simp [hone]
      unfold waitingInteractions at hgone hmem
      simp only [mem_filter, Bool.decide_and, Bool.and_eq_true, decide_eq_true_eq] at hgone hmem
      cases hresume : interaction.resumeAt with
      | none => simp [hresume, hmem] at hgone
      | some resumeAt =>
        have hreached : resumeAt ≤ later := by
          simpa [hresume, hmem] using hgone
        simp [classifyTaskRootIngressWake, hreached]
    · by_cases hlaterPassed : DeadlinePassed facts later
      · exact .ambiguous hrest hrequest hpassed hseveral (Or.inr (Or.inl hlaterPassed))
      · refine .ambiguous hrest hrequest hpassed hseveral (Or.inr (Or.inr ?_))
        by_contra hmany
        refine hchange ?_
        rw [restProjection_ambiguous hrequest hpassed hseveral,
          restProjection_ambiguous hrequest hlaterPassed (not_le.mp hmany)]

end Completeness

/-! ### Examples -/

/-- An ingress with generous budgets, about which nothing else is durable. -/
def acceptedFacts : TaskRootIngressFacts where
  integrityViolation := none
  ingress := { id := "ing_1", taskID := "tsk_1", executionEpoch := 1, sequence := 1,
               policyID := "policy", timeAccepted := 0 }
  policy := { id := "policy", semanticTurnLimit := 8, activationLimit := 8,
              absoluteDeadline := none }
  lifecycle := []
  leases := []
  turns := []
  decisions := []
  decisionGaps := []
  interactions := []
  activityRequests := []
  activityOutcomes := []
  operatorAbandoned := none

/-- A question to the operator that the ingress waits for. -/
def pendingInteraction (id : String) (resumeAt : Option ℤ) : InteractionFact where
  id := id
  ingressID := "ing_1"
  assistantMessageID := "msg_1"
  outcome := none
  resumeAt := resumeAt
  activityRequestID := none

def ambiguousInteractions : TaskRootIngressFacts :=
  { acceptedFacts with
    interactions := [pendingInteraction "int_1" (some 10), pendingInteraction "int_2" none] }

structure HidesOutstanding (facts : TaskRootIngressFacts) (now : ℤ) : Prop where
  undecided : Undecided facts
  notHeld : ∀ latest, latestTaskRootIngressLease facts = some latest → now < latest.expiresAt →
    activationConsumed facts latest.id = true
  unrequested : cancellationRequest facts = none
  notPassed : ¬DeadlinePassed facts now
  noneWaiting : waitingInteractions facts now = []
  unspent : ¬BudgetSpent facts
  outstanding : ∃ request ∈ facts.activityRequests, requestOutstanding facts request = true
  hidden : ∀ request ∈ facts.activityRequests, requestOutstanding facts request = true →
    request.id ∈ pendingReconciliationRequests facts ∨
      ∃ latest, latestTaskRootIngressLease facts = some latest ∧ now < latest.expiresAt

section Ready

variable {now : ℤ}

omit [Collation] in
lemma requestOutstanding_iff {request : ActivityRequestFact} : requestOutstanding facts request = true ↔
      ∀ outcome ∈ facts.activityOutcomes, outcome.requestID ≠ request.id := by
  unfold requestOutstanding activityOutcomeByRequest
  rw [decide_eq_true_eq, length_eq_zero_iff, filter_eq_nil_iff]
  simp

theorem reduce_eq_ready_iff : reduceTaskRootIngressFacts facts now = .ready ↔
      AtRest facts now ∧ cancellationRequest facts = none ∧ ¬DeadlinePassed facts now ∧
        waitingInteractions facts now = [] ∧ ¬BudgetSpent facts := by
  constructor
  · intro hready
    have hundecided : Undecided facts := by
      by_contra h
      obtain ⟨_, hsettled, -, hprojection⟩ := exists_settled_of_not_undecided h
      rw [hprojection now] at hready
      exact (hready ▸ hsettled : TaskRootIngressProjection.ready.Settled)
    have hrest : AtRest facts now := by
      by_contra hrest
      rcases not_atRest_cases hundecided hrest with ⟨_, hlatest, hnow, hconsumed⟩ |
        ⟨hne, hexpired⟩
      · rw [reduce_of_held hundecided hlatest hnow hconsumed] at hready
        cases hready
      · rw [reduce_of_expired hundecided hne hexpired] at hready
        cases hready
    rw [hrest.reduce_eq] at hready
    cases hrequest : cancellationRequest facts with
    | some => simp [restProjection_cancelling hrequest] at hready
    | none =>
      by_cases hpassed : DeadlinePassed facts now
      · simp [restProjection_deadline hrequest hpassed] at hready
      rcases waitingInteractions_cases facts now with hnone | ⟨_, hone⟩ | hseveral
      · refine ⟨hrest, rfl, hpassed, hnone, fun hspent => ?_⟩
        obtain ⟨_, -, hreason⟩ := restProjection_budget hrequest hpassed hnone hspent
        simp [hreason] at hready
      · simp [restProjection_waiting hrequest hpassed hone] at hready
      · simp [restProjection_ambiguous hrequest hpassed hseveral] at hready
  · rintro ⟨hrest, hrequest, hpassed, hnone, hunspent⟩
    rw [hrest.reduce_eq, restProjection_ready hrequest hpassed hnone hunspent]

/-- A ready ingress has an outcome for every activity request unless an outstanding request is
hidden from the reduction. -/
theorem ready_reconciled_iff_not_hidesOutstanding (facts : TaskRootIngressFacts) (now : ℤ) :
    (reduceTaskRootIngressFacts facts now = .ready → ∀ request ∈ facts.activityRequests,
      ∃ outcome ∈ facts.activityOutcomes, outcome.requestID = request.id) ↔
      ¬HidesOutstanding facts now := by
  constructor
  · intro hreconciled hhides
    have hrest : AtRest facts now := by
      refine ⟨hhides.undecided, hhides.notHeld, fun hne => ?_⟩
      obtain ⟨request, hrequest⟩ := exists_mem_of_ne_nil _ hne
      unfold outstandingRequests at hrequest
      simp only [mem_filter, Bool.decide_and, Bool.and_eq_true, decide_eq_true_eq] at hrequest
      exact (hhides.hidden request hrequest.1 (by simpa using hrequest.2.1)).resolve_left
        hrequest.2.2
    have hready := reduce_eq_ready_iff.mpr
      ⟨hrest, hhides.unrequested, hhides.notPassed, hhides.noneWaiting, hhides.unspent⟩
    obtain ⟨request, hrequest, hout⟩ := hhides.outstanding
    obtain ⟨outcome, houtcome, hid⟩ := hreconciled hready request hrequest
    exact requestOutstanding_iff.mp hout outcome houtcome hid
  · intro hhides hready request hrequest
    by_contra hnone
    obtain ⟨hrest, hunrequested, hpassed, hwaiting, hunspent⟩ := reduce_eq_ready_iff.mp hready
    have hout : requestOutstanding facts request = true := by
      rw [requestOutstanding_iff]
      exact fun outcome houtcome hid => hnone ⟨outcome, houtcome, hid⟩
    refine hhides ⟨hrest.undecided, hrest.notHeld, hunrequested, hpassed, hwaiting, hunspent,
      ⟨request, hrequest, hout⟩, fun other hother hotherOut => ?_⟩
    by_cases hpending : other.id ∈ pendingReconciliationRequests facts
    · exact Or.inl hpending
    · have hmem : other ∈ outstandingRequests facts := by
        unfold outstandingRequests
        simp [hother, hotherOut, hpending]
      exact Or.inr (hrest.hidden (ne_nil_of_mem hmem))

end Ready

/-- An expired activation has requested an effect of unknown outcome, and the latest activation has
ended its conversation before its lease expires. -/
def consumedOverUnknown : TaskRootIngressFacts :=
  { acceptedFacts with
    leases := [⟨"cal_1", "ing_1", "a", 0, 10⟩, ⟨"cal_2", "ing_1", "b", 20, 60⟩]
    turns := [⟨"msg_2", "cal_2", "msg_1", 30, .final⟩]
    activityRequests := [⟨"prt_1", "cal_1", "msg_1", .queryRequired⟩] }

omit [Collation] in
/-- The ingress is ready although the request has no outcome. -/
theorem ready_over_unknown_request :
    letI := codePointCollation
    ¬(reduceTaskRootIngressFacts consumedOverUnknown 40 = .ready →
      ∀ request ∈ consumedOverUnknown.activityRequests,
        ∃ outcome ∈ consumedOverUnknown.activityOutcomes, outcome.requestID = request.id) := by
  decide

end OpenCorvus.Engine
