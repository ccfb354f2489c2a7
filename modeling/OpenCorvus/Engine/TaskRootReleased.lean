import OpenCorvus.Engine.TaskRootEvidenceGrowth
import OpenCorvus.Engine.TerminalConversation

/-!
# Ingresses that have released their place

An ingress that once projects to a state that releases the head of line never projects to ready or
leased again, although its projection may still move: a second decision turns a resolved ingress into
a Host fault, and a late outcome turns an ingress that waits for reconciliation into an exhausted one.
-/

namespace OpenCorvus.Engine

open EcmaScript Transaction Session List Option

/-- The ingress is being worked on, or waits to be. -/
def TaskRootIngressProjection.Live : TaskRootIngressProjection → Prop
  | .leased _ _ _ => True
  | .ready => True
  | _ => False

section Reduction

variable [Collation] {facts : TaskRootIngressFacts} {now : ℤ}

omit [Collation] in
lemma TaskRootIngressProjection.Settled.not_live {projection : TaskRootIngressProjection}
    (h : projection.Settled) : ¬projection.Live := by
  intro hlive
  cases projection <;> first | exact h | exact hlive

lemma undecided_of_live (h : (reduceTaskRootIngressFacts facts now).Live) :
    Undecided facts ∧ (heldLease facts now = none →
      reduceTaskRootIngressFacts facts now = .ready ∧ ¬DeadlinePassed facts now ∧
        ¬BudgetSpent facts) := by
  have hundecided : Undecided facts := by
    by_contra hdecided
    obtain ⟨_, hsettled, -, hprojection⟩ := exists_settled_of_not_undecided hdecided
    rw [hprojection now] at h
    exact hsettled.not_live h
  refine ⟨hundecided, fun hfree => ?_⟩
  rw [reduce_of_undecided hundecided, hfree] at h ⊢
  by_cases hunknown : 0 < (unknownRequests facts now).length
  · simp only [hunknown, if_true] at h
    cases h
  simp only [hunknown, if_false] at h ⊢
  have hrequest : cancellationRequest facts = none := by
    by_contra hne
    obtain ⟨_, hrequest⟩ := ne_none_iff_exists'.mp hne
    rw [restProjection_cancelling hrequest] at h
    cases h
  have hpassed : ¬DeadlinePassed facts now := by
    intro hpassed
    rw [restProjection_deadline hrequest hpassed] at h
    cases h
  rcases waitingInteractions_cases facts now with hnone | ⟨_, hone⟩ | hseveral
  · have hunspent : ¬BudgetSpent facts := by
      intro hspent
      obtain ⟨_, -, hreason⟩ := restProjection_budget hrequest hpassed hnone hspent
      rw [hreason] at h
      cases h
    exact ⟨restProjection_ready hrequest hpassed hnone hunspent, hpassed, hunspent⟩
  · rw [restProjection_waiting hrequest hpassed hone] at h
    cases h
  · rw [restProjection_ambiguous hrequest hpassed hseveral] at h
    cases h

lemma cases_of_releases (h : taskRootIngressReleasesHeadOfLine (reduceTaskRootIngressFacts facts now) = true) :
    facts.operatorAbandoned ≠ none ∨ facts.integrityViolation = none ∧
      (facts.ingress.executionEpoch < currentEpoch facts ∨ deletion facts ≠ none ∨
        (∃ fact, terminal facts = some fact ∧ facts.ingress.timeAccepted ≤ fact.time) ∨
        completedTurnDecisions facts ≠ [] ∨
        heldLease facts now = none ∧ (DeadlinePassed facts now ∨ BudgetSpent facts)) := by
  by_cases habandoned : facts.operatorAbandoned = none
  swap
  · exact Or.inl habandoned
  have hsound := not_faulted_of_releases h
  have hintact : facts.integrityViolation = none := by
    by_contra hne
    exact hsound ⟨habandoned, Or.inl (isSome_iff_ne_none.mpr hne)⟩
  have hnoFault : hostFault facts = none := by
    by_contra hne
    exact hsound ⟨habandoned, Or.inr (isSome_iff_ne_none.mpr hne)⟩
  refine Or.inr ⟨hintact, ?_⟩
  by_cases hepoch : currentEpoch facts ≤ facts.ingress.executionEpoch
  swap
  · exact Or.inl (not_le.mp hepoch)
  by_cases hdeletion : deletion facts = none
  swap
  · exact Or.inr (Or.inl hdeletion)
  cases hterminal : (terminal facts).filter fun terminal =>
      facts.ingress.timeAccepted ≤ terminal.time with
  | some fact =>
    obtain ⟨hfact, htime⟩ := filter_eq_some_iff.mp hterminal
    exact Or.inr (Or.inr (Or.inl ⟨fact, hfact, of_decide_eq_true htime⟩))
  | none =>
    by_cases hdecisions : completedTurnDecisions facts = []
    swap
    · exact Or.inr (Or.inr (Or.inr (Or.inl hdecisions)))
    have hundecided : Undecided facts := ⟨habandoned, hintact, hnoFault, hepoch, hdeletion, hterminal,
      validDecisionSet_eq_none hdecisions⟩
    obtain ⟨hrest, -, hbudget⟩ := exhausted_of_releases hundecided h
    exact Or.inr (Or.inr (Or.inr (Or.inr ⟨hrest.heldLease_eq, hbudget.imp_right And.right⟩)))

end Reduction

section LatestActivation

variable [Collation] {db db' : TaskRootDatabase} {ingress : TaskRootIngressRow}

def ControlLease.fact (lease : ControlLease) : ActivationLeaseFact :=
  { id := lease.id, targetID := lease.targetID, ownerOccurrenceID := lease.ownerOccurrenceID,
    timeActivated := lease.timeActivated, expiresAt := lease.expiresAt }

def latestActivation (db : TaskRootDatabase) (ingressID : String) : Option ControlLease :=
  (toSorted (fun left right => compareLatestLease left.fact right.fact) (toSorted ControlLease.compareActivated
      (db.activations.ofTarget .taskRootIngress ingressID))).head?

omit [Collation] in
lemma ingressLeases_assembleFacts (policy : TaskRootIngressPolicyRow)
    (integrityViolation : Option String) (evidence : TaskRootIngressEvidence)
    (lifecycle : List TaskLifecycleFact) :
    ingressLeases (assembleFacts db ingress policy integrityViolation evidence lifecycle) =
      activationLeaseFacts db ingress.id := by
  unfold ingressLeases
  refine filter_eq_self.mpr fun fact hfact => ?_
  change fact ∈ activationLeaseFacts db ingress.id at hfact
  obtain ⟨_, hlease, rfl⟩ := List.mem_map.mp hfact
  obtain ⟨-, -, htargetID⟩ := ControlLeaseTables.mem_ofTarget.mp (mem_toSorted.mp hlease)
  exact decide_eq_true htargetID

lemma latestTaskRootIngressLease_assembleFacts (policy : TaskRootIngressPolicyRow)
    (integrityViolation : Option String) (evidence : TaskRootIngressEvidence)
    (lifecycle : List TaskLifecycleFact) :
    latestTaskRootIngressLease (assembleFacts db ingress policy integrityViolation evidence lifecycle) =
      (latestActivation db ingress.id).map ControlLease.fact := by
  unfold latestTaskRootIngressLease latestActivation
  rw [ingressLeases_assembleFacts]
  change (toSorted compareLatestLease (List.map ControlLease.fact _)).head? = _
  rw [toSorted_map (fun _ _ => rfl), head?_map]

lemma mem_of_latestActivation {ingressID : String} {lease : ControlLease}
    (h : latestActivation db ingressID = some lease) :
    lease ∈ db.activations.ofTarget .taskRootIngress ingressID := by
  have hmem := mem_of_head? h
  exact mem_toSorted.mp (mem_toSorted.mp hmem)

/-- The activations of an ingress are the same ones, and only one that is unexpired and not consumed
may get a new expiry. -/
structure KeepsActivations (db db' : TaskRootDatabase) (now : ℤ) (ingressID : String)
    (touch : ControlLease → ControlLease) : Prop where
  sameIdentity : ∀ lease, (touch lease).SameIdentity lease
  untouched : ∀ lease ∈ db.activations.ofTarget .taskRootIngress ingressID,
    lease.expiresAt ≤ now ∨ activationConsumedInTransaction db lease.id = true → touch lease = lease
  activations : db'.activations.ofTarget .taskRootIngress ingressID =
    (db.activations.ofTarget .taskRootIngress ingressID).map touch

omit [Collation] in
lemma KeepsActivations.of_eq {now : ℤ} {ingressID : String}
    (h : db'.activations.ofTarget .taskRootIngress ingressID =
      db.activations.ofTarget .taskRootIngress ingressID) :
    KeepsActivations db db' now ingressID id :=
  ⟨fun _ => ⟨rfl, rfl, rfl, rfl, rfl⟩, fun _ _ _ => rfl, by rw [h, List.map_id]⟩

variable {now : ℤ} {ingressID : String} {touch : ControlLease → ControlLease}

lemma KeepsActivations.latestActivation_eq (h : KeepsActivations db db' now ingressID touch) :
    latestActivation db' ingressID = (latestActivation db ingressID).map touch := by
  unfold latestActivation
  rw [h.activations, toSorted_map (fun left right => ?_), toSorted_map (fun left right => ?_),
    head?_map]
  · unfold compareLatestLease ControlLease.fact
    rw [(h.sameIdentity left).id, (h.sameIdentity right).id, (h.sameIdentity left).timeActivated,
      (h.sameIdentity right).timeActivated]
  · unfold ControlLease.compareActivated
    rw [(h.sameIdentity left).id, (h.sameIdentity right).id, (h.sameIdentity left).timeActivated,
      (h.sameIdentity right).timeActivated]

omit [Collation] in
lemma KeepsActivations.activationIDs_eq (h : KeepsActivations db db' now ingressID touch) :
    activationIDs db' ingressID = activationIDs db ingressID := by
  unfold activationIDs
  rw [h.activations, List.map_map]
  exact map_congr_left fun lease _ => (h.sameIdentity lease).id

omit [Collation] in
lemma KeepsActivations.length_eq (h : KeepsActivations db db' now ingressID touch) :
    (activationLeaseFacts db' ingressID).length = (activationLeaseFacts db ingressID).length := by
  unfold activationLeaseFacts
  rw [length_map, length_map, length_toSorted, length_toSorted, h.activations, length_map]

end LatestActivation

section Released

variable [Collation] {db db' : TaskRootDatabase} {ingress : TaskRootIngressRow} {clock now : ℤ}

def ActivationOver (db : TaskRootDatabase) (ingressID : String) (now : ℤ) : Prop :=
  ∀ lease, latestActivation db ingressID = some lease →
    lease.expiresAt ≤ now ∨ activationConsumedInTransaction db lease.id = true

inductive Released (db : TaskRootDatabase) (ingress : TaskRootIngressRow) (now : ℤ) : Prop where
  | abandoned (payload : TaskRootIngressDispositionPayload)
      (found : taskRootIngressDispositionInTransaction db ingress.taskID ingress.id = some payload)
      (operator : payload.disposition = .operatorAbandoned)
  | reopened (opening : TaskEvent) (mem : opening ∈ db.events)
      (task : opening.aggregateID = ingress.taskID) (isOpen : opening.type.isOpen = true)
      (later : ingress.executionEpoch < opening.epoch)
  | ended (terminalRow : TaskEvent) (mem : terminalRow ∈ db.events)
      (isTerminal : IsTerminalOf terminalRow ingress.taskID ingress.executionEpoch)
      (accepted : ingress.timeAccepted ≤ terminalRow.emittedAt)
  | decided (decision : Decided db ingress)
  | spent (policy : TaskRootIngressPolicyRow) (found : db.findPolicy ingress.policyID = some policy)
      (unheld : ActivationOver db ingress.id now)
      (budget : DeadlinePassed (conversationFacts db ingress policy []) now ∨
        BudgetSpent (conversationFacts db ingress policy []))

structure SoundTables (db : TaskRootDatabase) (clock : ℤ) : Prop where
  log : TaskEventLog db.events clock
  conversation : ConversationSound db
  noInteractions : db.interactions = []
  namedActivations : ∀ lease ∈ db.activations.leases, lease.target = .taskRootIngress → lease.id ≠ ""

omit [Collation] in
lemma collectEvidence_eq_empty (hinteractions : db.interactions = [])
    (h : activationIDs db ingress.id = []) : collectEvidence db ingress = EMPTY_EVIDENCE := by
  have hmessages : activationMessages db ingress.id = [] := by
    refine eq_nil_iff_forall_not_mem.mpr fun row hrow => ?_
    obtain ⟨-, _, hactivation, -⟩ := mem_activationMessages.mp hrow
    rw [h] at hactivation
    cases hactivation
  have hassistants : activationAssistants db ingress.id = [] := by
    unfold activationAssistants
    rw [hmessages]
    rfl
  have hnone : (collectEvidence db ingress).interactions = [] := interactions_eq_nil hinteractions
  change interactionFacts db ingress ((activationMessages db ingress.id).map (·.id)) = [] at hnone
  unfold collectEvidence EMPTY_EVIDENCE
  simp [hassistants, hmessages, show interactionFacts db ingress [] = [] by simpa [hmessages] using hnone]

variable {evidence : TaskRootIngressEvidence}

omit [Collation] in
lemma evidence_eq (hinteractions : db.interactions = [])
    (h : guardedEvidence (readTaskRootIngressEvidence db ingress) = .ok (none, evidence)) :
    evidence = collectEvidence db ingress := by
  have hread : readTaskRootIngressEvidence db ingress = .ok evidence := by
    unfold guardedEvidence at h
    split at h
    · rename_i found hfound
      cases h
      exact hfound
    · cases h
    · cases h
  unfold readTaskRootIngressEvidence at hread
  split_ifs at hread with hactivations
  · cases hread
    exact (collectEvidence_eq_empty hinteractions hactivations).symm
  · obtain ⟨_, hread⟩ := of_bind hread
    replace hread := of_check hread
    replace hread := of_check hread
    exact (pure_eq_ok.mp hread).symm

variable {projection : TaskRootIngressProjection}

lemma projectTaskRootIngress_eq_ok (hinteractions : db.interactions = [])
    (hstored : db.findIngress ingress.id = some ingress)
    (h : projectTaskRootIngress db ingress.id now readTaskRootIngressEvidence = .ok projection) :
    ∃ policy violation evidence lifecycle, db.findPolicy ingress.policyID = some policy ∧
      lifecycleFacts db.events ingress.taskID = .ok lifecycle ∧
        (violation = none → evidence = collectEvidence db ingress) ∧ projection =
            reduceTaskRootIngressFacts (assembleFacts db ingress policy violation evidence lifecycle)
              now := by
  obtain ⟨_, hfacts, hprojection⟩ := bind_eq_ok.mp h
  obtain ⟨row, policy, ⟨violation, evidence⟩, lifecycle, hrow, hpolicy, hevidence, hlifecycle, rfl⟩ :=
    taskRootIngressFacts_eq_ok.mp hfacts
  obtain rfl : ingress = row := some.inj (hstored.symm.trans hrow)
  refine ⟨policy, violation, evidence, lifecycle, hpolicy, hlifecycle, ?_, (pure_eq_ok.mp hprojection).symm⟩
  rintro rfl
  exact evidence_eq hinteractions hevidence

lemma heldLease_eq_none_iff (h : SoundTables db clock) (policy : TaskRootIngressPolicyRow)
    (lifecycle : List TaskLifecycleFact) :
    heldLease (conversationFacts db ingress policy lifecycle) now = none ↔
      ActivationOver db ingress.id now := by
  unfold heldLease conversationFacts ActivationOver
  rw [latestTaskRootIngressLease_assembleFacts, filter_eq_none_iff]
  have hconsumed : ∀ lease, latestActivation db ingress.id = some lease →
      (activationConsumed (conversationFacts db ingress policy lifecycle) lease.id = true ↔
        activationConsumedInTransaction db lease.id = true) := by
    intro lease hlease
    have hmem := mem_of_latestActivation hlease
    obtain ⟨hrow, htarget, -⟩ := ControlLeaseTables.mem_ofTarget.mp hmem
    exact activationConsumed_iff h.conversation h.noInteractions
      (h.namedActivations lease hrow htarget) (List.mem_map.mpr ⟨lease, hmem, rfl⟩)
  constructor
  · intro hfree lease hlease
    have hnot := hfree lease.fact (by rw [hlease]; rfl)
    by_contra hactive
    rw [not_or, ← hconsumed lease hlease] at hactive
    exact hnot (decide_eq_true ⟨not_le.mp hactive.1, hactive.2⟩)
  · intro hover fact hfact
    obtain ⟨lease, hlease, rfl⟩ := map_eq_some_iff.mp hfact
    intro hheld
    obtain ⟨hunexpired, hunconsumed⟩ := of_decide_eq_true hheld
    rcases hover lease hlease with hexpired | hdone
    · exact absurd hunexpired (not_lt.mpr hexpired)
    · exact hunconsumed ((hconsumed lease hlease).mpr hdone)

omit [Collation] in
lemma exists_terminal_of_terminal {policy : TaskRootIngressPolicyRow} {integrityViolation : Option String}
    {lifecycle : List TaskLifecycleFact} (hlifecycle : lifecycleFacts db.events ingress.taskID = .ok lifecycle)
    {fact : TaskLifecycleFact}
    (h : terminal (assembleFacts db ingress policy integrityViolation evidence lifecycle) = some fact) :
    ∃ terminalRow ∈ db.events, IsTerminalOf terminalRow ingress.taskID ingress.executionEpoch ∧
      terminalRow.emittedAt = fact.time := by
  have hmem := mem_singleton_self fact
  rw [← exactlyOne_eq_some.mp h] at hmem
  obtain ⟨hfact, hends⟩ := mem_filter.mp hmem
  obtain ⟨row, hrow, htask, rfl⟩ := (mem_lifecycleFacts hlifecycle).mp hfact
  obtain ⟨hepoch, hkind⟩ := of_decide_eq_true hends
  exact ⟨row, hrow, ⟨htask, (isTerminal_iff_lifecycleKind row.type).mpr hkind, hepoch⟩, rfl⟩

theorem released_of_releases (h : SoundTables db clock) (habandonments : ∀ payload,
      taskRootIngressDispositionInTransaction db ingress.taskID ingress.id = some payload →
        payload.disposition = .operatorAbandoned) (hstored : db.findIngress ingress.id = some ingress)
    (hproject : projectTaskRootIngress db ingress.id now readTaskRootIngressEvidence = .ok projection)
    (hreleases : taskRootIngressReleasesHeadOfLine projection = true) : Released db ingress now := by
  obtain ⟨policy, violation, _, lifecycle, hpolicy, hlifecycle, hevidence, rfl⟩ :=
    projectTaskRootIngress_eq_ok h.noInteractions hstored hproject
  rcases cases_of_releases hreleases with habandoned | ⟨hintact, hcases⟩
  · cases hfound : taskRootIngressDispositionInTransaction db ingress.taskID ingress.id with
    | none =>
      refine absurd ?_ habandoned
      change operatorAbandonedFact (taskRootIngressDispositionInTransaction db _ _) = none
      rw [hfound]
      rfl
    | some payload => exact .abandoned payload hfound (habandonments payload hfound)
  -- No contract is violated, so that the facts are what the tables show.
  have hviolation : violation = none := hintact
  subst hviolation
  obtain rfl := hevidence rfl
  rcases hcases with hepoch | hdeletion | ⟨_, hfact, htime⟩ | hdecisions | ⟨hfree, hbudget⟩
  · have hopened := (currentEpoch_assembleFacts_le hlifecycle policy none
      (collectEvidence db ingress)).not.mp (not_le.mpr hepoch)
    push Not at hopened
    obtain ⟨opening, hmem, htask, hopen, hlater⟩ := hopened
    exact .reopened opening hmem htask hopen hlater
  · exact absurd (deletion_assembleFacts hlifecycle policy none _) hdeletion
  · obtain ⟨terminalRow, hmem, hterminal, hemitted⟩ := exists_terminal_of_terminal hlifecycle hfact
    exact .ended terminalRow hmem hterminal (by rw [hemitted]; exact htime)
  · exact .decided (completedTurnDecisions_ne_nil_iff.mp hdecisions)
  · exact .spent policy hpolicy ((heldLease_eq_none_iff h policy lifecycle).mp hfree) hbudget

theorem Released.not_live (hreleased : Released db ingress now) (h : SoundTables db clock)
    (hstored : db.findIngress ingress.id = some ingress)
    (hproject : projectTaskRootIngress db ingress.id now readTaskRootIngressEvidence = .ok projection) :
    ¬projection.Live := by
  intro hlive
  obtain ⟨policy, violation, _, lifecycle, hpolicy, hlifecycle, hevidence, rfl⟩ :=
    projectTaskRootIngress_eq_ok h.noInteractions hstored hproject
  obtain ⟨hundecided, hbudget⟩ := undecided_of_live hlive
  have hviolation : violation = none := hundecided.intact
  subst hviolation
  obtain rfl := hevidence rfl
  cases hreleased with
  | abandoned _ found operator =>
    have habandoned : operatorAbandonedFact
        (taskRootIngressDispositionInTransaction db ingress.taskID ingress.id) = none :=
      hundecided.notAbandoned
    rw [found] at habandoned
    simp [operatorAbandonedFact, operator] at habandoned
  | reopened opening mem task isOpen =>
    have hle := (currentEpoch_assembleFacts_le hlifecycle policy none
      (collectEvidence db ingress)).mp hundecided.inEpoch opening mem task isOpen
    omega
  | ended _ mem isTerminal accepted =>
    have hterminal := terminal_assembleFacts h.log hlifecycle mem isTerminal policy none
      (collectEvidence db ingress)
    have hnone := hundecided.notTerminal
    rw [hterminal] at hnone
    exact absurd (decide_eq_true accepted) (filter_eq_none_iff.mp hnone _ rfl)
  | decided decision =>
    exact completedTurnDecisions_ne_nil_iff.mpr decision
      (completedTurnDecisions_eq_nil hundecided.noFault hundecided.noDecision)
  | spent policy' found unheld budget =>
    obtain rfl : policy = policy' := some.inj (hpolicy.symm.trans found)
    obtain ⟨-, hpassed, hspent⟩ := hbudget ((heldLease_eq_none_iff h policy lifecycle).mpr unheld)
    exact budget.elim hpassed hspent

/-- The clock moves on. -/
lemma Released.mono {later : ℤ} (h : Released db ingress now) (hle : now ≤ later) : Released db ingress later := by
  cases h with
  | abandoned payload found operator => exact .abandoned payload found operator
  | reopened opening mem task isOpen later => exact .reopened opening mem task isOpen later
  | ended terminalRow mem isTerminal accepted => exact .ended terminalRow mem isTerminal accepted
  | decided decision => exact .decided decision
  | spent policy found unheld budget =>
    refine .spent policy found ?_ (budget.imp_left fun hpassed => hpassed.mono hle)
    exact fun lease hlease => (unheld lease hlease).imp_left fun hexpired => hexpired.trans hle

structure Keeps (db db' : TaskRootDatabase) (now : ℤ) (ingressID : String) : Prop where
  events : db.events ⊆ db'.events
  dispositions : ∀ taskID ingressID payload,
    taskRootIngressDispositionInTransaction db taskID ingressID = some payload →
      taskRootIngressDispositionInTransaction db' taskID ingressID = some payload
  policies : ∀ policyID policy, db.findPolicy policyID = some policy → db'.findPolicy policyID = some policy
  conversation : ConversationGrows db db'
  activations : ∃ touch, KeepsActivations db db' now ingressID touch

lemma Keeps.activationOver (hkeeps : Keeps db db' now ingress.id) (h : SoundTables db clock)
    (hover : ActivationOver db ingress.id now) : ActivationOver db' ingress.id now := by
  obtain ⟨_, htouch⟩ := hkeeps.activations
  intro lease' hlease'
  rw [htouch.latestActivation_eq] at hlease'
  obtain ⟨lease, hlease, rfl⟩ := map_eq_some_iff.mp hlease'
  have hmem := mem_of_latestActivation hlease
  obtain ⟨hrow, htarget, -⟩ := ControlLeaseTables.mem_ofTarget.mp hmem
  rw [htouch.untouched lease hmem (hover lease hlease)]
  exact (hover lease hlease).imp_right
    (hkeeps.conversation.activationConsumed (h.namedActivations lease hrow htarget))

theorem Released.keeps (hreleased : Released db ingress now) (h : SoundTables db clock)
    (hkeeps : Keeps db db' now ingress.id) (hinteractions' : db'.interactions = []) :
    Released db' ingress now := by
  have hgrows : EvidenceGrows db db' ingress := by
    obtain ⟨_, htouch⟩ := hkeeps.activations
    refine ⟨hkeeps.conversation, ?_⟩
    rw [htouch.activationIDs_eq]
    exact Subset.refl _
  cases hreleased with
  | abandoned payload found operator =>
    exact .abandoned payload (hkeeps.dispositions _ _ payload found) operator
  | reopened opening mem task isOpen later =>
    exact .reopened opening (hkeeps.events mem) task isOpen later
  | ended terminalRow mem isTerminal accepted =>
    exact .ended terminalRow (hkeeps.events mem) isTerminal accepted
  | decided decision => exact .decided (hgrows.decided decision)
  | spent policy found unheld budget =>
    by_cases hdecided : Decided db' ingress
    · exact .decided hdecided
    refine .spent policy (hkeeps.policies _ _ found) (hkeeps.activationOver h unheld) ?_
    refine budget.imp_right fun hspent => ?_
    rcases hspent with hsemantic | hactivation
    · exact Or.inl (hsemantic.trans (hgrows.semanticAttempts_le h.conversation hinteractions' hdecided))
    · obtain ⟨_, htouch⟩ := hkeeps.activations
      refine Or.inr ?_
      unfold conversationFacts at hactivation ⊢
      rw [ingressLeases_assembleFacts] at hactivation ⊢
      rw [htouch.length_eq]
      exact hactivation

end Released

end OpenCorvus.Engine
