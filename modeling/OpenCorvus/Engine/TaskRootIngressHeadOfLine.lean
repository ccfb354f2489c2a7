import Mathlib.Data.List.Perm.Subperm
import OpenCorvus.Engine.TaskRootIngressWake

/-!
# Release of the head of line under further facts

An ingress that stopped owning the head-of-line order of its Task may be overtaken by a successor.
This file determines what a release survives when further facts become durable.
-/

namespace OpenCorvus.Engine

open EcmaScript List

/-- The second facts arise from the first by further durable facts, in any order. -/
structure Extends (facts facts' : TaskRootIngressFacts) : Prop where
  integrityViolation : facts'.integrityViolation = facts.integrityViolation
  ingress : facts'.ingress = facts.ingress
  policy : facts'.policy = facts.policy
  lifecycle : facts.lifecycle.Subperm facts'.lifecycle
  leases : facts.leases.Subperm facts'.leases
  turns : facts.turns.Subperm facts'.turns
  decisions : facts.decisions.Subperm facts'.decisions
  decisionGaps : facts.decisionGaps.Subperm facts'.decisionGaps
  interactions : facts.interactions.Subperm facts'.interactions
  activityRequests : facts.activityRequests.Subperm facts'.activityRequests
  activityOutcomes : facts.activityOutcomes.Subperm facts'.activityOutcomes
  operatorAbandoned : facts'.operatorAbandoned = facts.operatorAbandoned

structure LifecycleUnique (facts : TaskRootIngressFacts) : Prop where
  deletion : (facts.lifecycle.filter fun fact => fact.kind = .deleted).length ≤ 1
  terminal : (facts.lifecycle.filter fun fact =>
    fact.epoch = facts.ingress.executionEpoch ∧ (fact.kind = .cancelled ∨ fact.kind = .closed)).length ≤ 1

lemma exactlyOne_of_subperm {β : Type*} {values values' : List β} {x : β}
    (h : values.Subperm values') (hone : values'.length ≤ 1) (hx : exactlyOne values = some x) :
    exactlyOne values' = some x := by
  rw [exactlyOne_eq_some] at hx ⊢
  subst hx
  have hperm : [x].Perm values' := h.perm_of_length_le (by simpa using hone)
  exact (singleton_perm.mp hperm).symm

lemma length_add_length_unmarked_le {β γ : Type*} [DecidableEq γ] {mark : β → γ}
    {marks marks' : List β} {values values' : List γ} (hmarks : marks.Subperm marks')
    (hvalues : values ⊆ values') (hnodup : values.Nodup) :
    marks.length + (values.filter fun x => x ∉ marks.map mark).length ≤
      marks'.length + (values'.filter fun x => x ∉ marks'.map mark).length := by
  set unmarked := values.filter fun x => x ∉ marks.map mark with hunmarked
  have hunmarkedNodup : unmarked.Nodup := hnodup.filter _
  -- The unmarked values that stay unmarked are counted again.
  have hstay : (unmarked.filter fun x => ¬x ∈ marks'.map mark).length ≤
      (values'.filter fun x => x ∉ marks'.map mark).length := by
    refine ((hunmarkedNodup.filter _).subperm fun x hx => ?_).length_le
    simp only [hunmarked, mem_filter, decide_eq_true_eq] at hx ⊢
    exact ⟨hvalues hx.1.1, hx.2⟩
  -- Each of the others has a new mark.
  have hmarked : (unmarked.filter fun x => x ∈ marks'.map mark).length ≤
      (marks'.filter fun m => ¬mark m ∈ marks.map mark).length := by
    refine le_trans ?_ (length_map mark).le
    refine ((hunmarkedNodup.filter _).subperm fun x hx => ?_).length_le
    simp only [hunmarked, mem_filter, decide_eq_true_eq] at hx
    obtain ⟨m, hm, rfl⟩ := List.mem_map.mp hx.2
    refine List.mem_map.mpr ⟨m, mem_filter.mpr ⟨hm, ?_⟩, rfl⟩
    simpa using hx.1.2
  have hold : marks.length ≤ (marks'.filter fun m => mark m ∈ marks.map mark).length := by
    have hall : marks.filter (fun m => mark m ∈ marks.map mark) = marks := by
      refine filter_eq_self.mpr fun m hm => ?_
      exact decide_eq_true (List.mem_map_of_mem hm)
    have := (hmarks.filter fun m => mark m ∈ marks.map mark).length_le
    rwa [hall] at this
  have hsplit := unmarked.length_eq_length_filter_add fun x => decide (x ∈ marks'.map mark)
  have hsplit' := marks'.length_eq_length_filter_add fun m => decide (mark m ∈ marks.map mark)
  simp only [← decide_not] at hsplit hsplit'
  omega

section Extension

variable {facts facts' : TaskRootIngressFacts}

lemma Extends.currentEpoch_le (h : Extends facts facts') : currentEpoch facts ≤ currentEpoch facts' := by
  unfold currentEpoch
  rw [maxOrZero_le_iff]
  intro epoch hepoch
  have hmem := map_subset TaskLifecycleFact.epoch (h.lifecycle.filter _).subset hepoch
  exact maxOrZero_le_iff.mp le_rfl epoch hmem

lemma Extends.completedTurnDecisions_subset (h : Extends facts facts') :
    completedTurnDecisions facts ⊆ completedTurnDecisions facts' := by
  intro decision hdecision
  unfold completedTurnDecisions at hdecision ⊢
  simp only [mem_filter, decide_eq_true_eq] at hdecision ⊢
  refine ⟨h.decisions.subset hdecision.1, ?_⟩
  exact map_subset _ h.turns.subset hdecision.2

variable [Collation]

lemma completedTurnDecisions_eq_nil (hfault : hostFault facts = none)
    (hdecision : validDecisionSet facts = none) : completedTurnDecisions facts = [] := by
  unfold hostFault at hfault
  rw [hdecision] at hfault
  split_ifs at hfault with _ hlength
  simpa using hlength

lemma validDecisionSet_eq_none (h : completedTurnDecisions facts = []) : validDecisionSet facts = none := by
  unfold validDecisionSet
  simp [h]

lemma Extends.undecided (h : Extends facts facts') (hunique : LifecycleUnique facts')
    (hfault : hostFault facts = none) (h' : Undecided facts') : Undecided facts := by
  refine ⟨?_, ?_, hfault, ?_, ?_, ?_, ?_⟩
  · rw [← h.operatorAbandoned]
    exact h'.notAbandoned
  · rw [← h.integrityViolation]
    exact h'.intact
  · rw [← h.ingress]
    exact h.currentEpoch_le.trans h'.inEpoch
  · cases hdeletion : deletion facts with
    | none => rfl
    | some =>
      have := exactlyOne_of_subperm (h.lifecycle.filter _) hunique.deletion hdeletion
      exact absurd h'.notDeleted (by unfold deletion; rw [this]; simp)
  · rw [Option.filter_eq_none_iff]
    intro fact hfact htime
    unfold terminal at hfact
    rw [← h.ingress] at hfact htime
    have hterminal : terminal facts' = some fact :=
      exactlyOne_of_subperm (h.lifecycle.filter _) hunique.terminal hfact
    exact absurd h'.notTerminal (by simpa [hterminal] using htime)
  · refine validDecisionSet_eq_none (eq_nil_of_subset_nil ?_)
    rw [← completedTurnDecisions_eq_nil h'.noFault h'.noDecision]
    exact h.completedTurnDecisions_subset

structure KeepsAttempts (facts facts' : TaskRootIngressFacts) : Prop where
  turnIDs : (facts'.turns.map (·.id)).Nodup
  interactions : ∀ interaction ∈ facts'.interactions, interaction.assistantMessageID ∈ facts.turns.map (·.id) →
      ∃ old ∈ facts.interactions, old.assistantMessageID = interaction.assistantMessageID

omit [Collation] in
lemma Extends.semanticTurnIDs_subset (h : Extends facts facts') (hkeeps : KeepsAttempts facts facts')
    (hnone : completedTurnDecisions facts' = []) :
    taskRootIngressSemanticTurnIDs facts ⊆ taskRootIngressSemanticTurnIDs facts' := by
  intro id hid
  unfold taskRootIngressSemanticTurnIDs at hid ⊢
  rw [List.mem_map] at hid ⊢
  obtain ⟨turn, hturn, rfl⟩ := hid
  simp only [mem_filter, Bool.decide_and, Bool.and_eq_true, decide_eq_true_eq,
    List.any_eq_true, not_exists, not_and] at hturn ⊢
  obtain ⟨hmem, hfinal, -, hunasked⟩ := hturn
  refine ⟨turn, ⟨h.turns.subset hmem, hfinal, ?_, ?_⟩, rfl⟩
  · intro decision hdecision hmessage
    have hturnID : decision.assistantMessageID ∈ facts'.turns.map (·.id) := by
      rw [hmessage]
      exact List.mem_map_of_mem (h.turns.subset hmem)
    have hcompleted : decision ∈ completedTurnDecisions facts' :=
      mem_filter.mpr ⟨hdecision, decide_eq_true hturnID⟩
    simp [hnone] at hcompleted
  · intro interaction hinteraction hmessage
    have hturnID : interaction.assistantMessageID ∈ facts.turns.map (·.id) := by
      rw [hmessage]
      exact List.mem_map_of_mem hmem
    obtain ⟨old, hold, heq⟩ := hkeeps.interactions interaction hinteraction hturnID
    exact hunasked old hold (heq.trans hmessage)

omit [Collation] in
lemma Extends.semanticAttempts_le (h : Extends facts facts') (hkeeps : KeepsAttempts facts facts')
    (hnone : completedTurnDecisions facts' = []) :
    (taskRootIngressSemanticAttemptIDs facts).length ≤
      (taskRootIngressSemanticAttemptIDs facts').length := by
  have hturnIDs : (facts.turns.map (·.id)).Nodup := by
    obtain ⟨turns, hperm, hsublist⟩ := h.turns
    exact ((hperm.map _).nodup_iff).mp (hkeeps.turnIDs.sublist (hsublist.map _))
  have hnodup : (taskRootIngressSemanticTurnIDs facts).Nodup := by
    unfold taskRootIngressSemanticTurnIDs
    exact hturnIDs.sublist (filter_sublist.map _)
  unfold taskRootIngressSemanticAttemptIDs
  rw [length_append, length_append, length_map, length_map]
  exact length_add_length_unmarked_le h.decisionGaps (h.semanticTurnIDs_subset hkeeps hnone) hnodup

structure StaysExhausted (facts facts' : TaskRootIngressFacts) (later : ℤ) : Prop where
  notHeld : heldLease facts' later = none
  known : unknownRequests facts' later = []
  unrequested : cancellationRequest facts' = none
  /-- Before the deadline, no interaction is pending and the attempts are kept. -/
  budget : DeadlinePassed facts' later ∨ (waitingInteractions facts' later = [] ∧ KeepsAttempts facts facts')

lemma releases_restProjection {now : ℤ} (hrequest : cancellationRequest facts = none)
    (h : DeadlinePassed facts now ∨ (waitingInteractions facts now = [] ∧ BudgetSpent facts)) :
    taskRootIngressReleasesHeadOfLine (restProjection facts now) = true := by
  by_cases hpassed : DeadlinePassed facts now
  · rw [restProjection_deadline hrequest hpassed]
    rfl
  · obtain ⟨hnone, hspent⟩ := h.resolve_left hpassed
    obtain ⟨_, -, hreason⟩ := restProjection_budget hrequest hpassed hnone hspent
    rw [hreason]
    rfl

lemma exhausted_of_releases {now : ℤ} (h : Undecided facts)
    (hreleases : taskRootIngressReleasesHeadOfLine (reduceTaskRootIngressFacts facts now) = true) :
    AtRest facts now ∧ (∃ reason, reduceTaskRootIngressFacts facts now = .exhausted reason) ∧
      (DeadlinePassed facts now ∨ (waitingInteractions facts now = [] ∧ BudgetSpent facts)) := by
  have hrest : AtRest facts now := by
    by_contra hrest
    rcases not_atRest_cases h hrest with ⟨_, hlatest, hnow, hconsumed⟩ | ⟨hne, hexpired⟩
    · rw [reduce_of_held h hlatest hnow hconsumed] at hreleases
      cases hreleases
    · rw [reduce_of_expired h hne hexpired] at hreleases
      cases hreleases
  refine ⟨hrest, ?_⟩
  rw [hrest.reduce_eq] at hreleases ⊢
  cases hrequest : cancellationRequest facts with
  | some =>
    rw [restProjection_cancelling hrequest] at hreleases
    cases hreleases
  | none =>
    by_cases hpassed : DeadlinePassed facts now
    · exact ⟨⟨_, restProjection_deadline hrequest hpassed⟩, Or.inl hpassed⟩
    rcases waitingInteractions_cases facts now with hnone | ⟨_, hone⟩ | hseveral
    · by_cases hspent : BudgetSpent facts
      · obtain ⟨reason, -, hreason⟩ := restProjection_budget hrequest hpassed hnone hspent
        exact ⟨⟨reason, hreason⟩, Or.inr ⟨hnone, hspent⟩⟩
      · rw [restProjection_ready hrequest hpassed hnone hspent] at hreleases
        cases hreleases
    · rw [restProjection_waiting hrequest hpassed hone] at hreleases
      cases hreleases
    · rw [restProjection_ambiguous hrequest hpassed hseveral] at hreleases
      cases hreleases

lemma not_faulted_of_releases {now : ℤ}
    (hreleases : taskRootIngressReleasesHeadOfLine (reduceTaskRootIngressFacts facts now) = true) :
    ¬Faulted facts := by
  intro hfaulted
  have hundecided : ¬Undecided facts := by
    intro h
    rcases hfaulted.2 with hviolation | hfault
    · simp [h.intact] at hviolation
    · simp [h.noFault] at hfault
  obtain ⟨_, -, hiff, hprojection⟩ := exists_settled_of_not_undecided hundecided
  rw [hprojection now] at hreleases
  exact hiff.mp hreleases hfaulted

omit [Collation] in
lemma Extends.budgetSpent (h : Extends facts facts') (hkeeps : KeepsAttempts facts facts')
    (hnone : completedTurnDecisions facts' = []) (hspent : BudgetSpent facts) :
    BudgetSpent facts' := by
  unfold BudgetSpent at hspent ⊢
  rw [h.policy]
  rcases hspent with hsemantic | hactivation
  · exact Or.inl (hsemantic.trans (h.semanticAttempts_le hkeeps hnone))
  · refine Or.inr (hactivation.trans ?_)
    unfold ingressLeases
    rw [h.ingress]
    exact (h.leases.filter _).length_le

/-- The head of line stays released under further facts without a Host fault, at all later
instants, for every verdict and for an exhausted ingress that stays exhausted. -/
theorem releases_of_extends {now later : ℤ} (h : Extends facts facts') (hle : now ≤ later)
    (hunique : LifecycleUnique facts') (hfault : hostFault facts' = none)
    (hexhausted : ∀ reason, reduceTaskRootIngressFacts facts now = .exhausted reason →
      StaysExhausted facts facts' later)
    (hreleases : taskRootIngressReleasesHeadOfLine (reduceTaskRootIngressFacts facts now) = true) :
    taskRootIngressReleasesHeadOfLine (reduceTaskRootIngressFacts facts' later) = true := by
  have hsound : ¬Faulted facts := not_faulted_of_releases hreleases
  by_cases hundecided' : Undecided facts'
  · have habandoned : facts.operatorAbandoned = none := by
      rw [← h.operatorAbandoned]
      exact hundecided'.notAbandoned
    have hnoFault : hostFault facts = none := by
      by_contra hne
      exact hsound ⟨habandoned, Or.inr (Option.isSome_iff_ne_none.mpr hne)⟩
    have hundecided : Undecided facts := h.undecided hunique hnoFault hundecided'
    obtain ⟨-, ⟨reason, hreason⟩, hbudget⟩ := exhausted_of_releases hundecided hreleases
    have hstays := hexhausted reason hreason
    rw [reduce_of_undecided hundecided', hstays.notHeld, hstays.known]
    refine releases_restProjection hstays.unrequested ?_
    rcases hbudget with hpassed | ⟨-, hspent⟩
    · have hpassed' := hpassed.mono hle
      unfold DeadlinePassed at hpassed' ⊢
      rw [h.policy]
      exact Or.inl hpassed'
    · refine hstays.budget.imp_right fun hkeeps => ⟨hkeeps.1, ?_⟩
      exact h.budgetSpent hkeeps.2
        (completedTurnDecisions_eq_nil hundecided'.noFault hundecided'.noDecision) hspent
  · obtain ⟨_, -, hiff, hprojection⟩ := exists_settled_of_not_undecided hundecided'
    rw [hprojection later, hiff]
    rintro ⟨habandoned, hviolation | hfault'⟩
    · rw [h.operatorAbandoned] at habandoned
      rw [h.integrityViolation] at hviolation
      exact hsound ⟨habandoned, Or.inl hviolation⟩
    · simp [hfault] at hfault'

end Extension

/-! ### Examples -/

def exhaustedFacts : TaskRootIngressFacts :=
  { acceptedFacts with
    policy := { acceptedFacts.policy with semanticTurnLimit := 1 }
    decisionGaps := [⟨"gap_1", "cal_1", "msg_1"⟩] }

/-- A second decision gap keeps the exhausted ingress exhausted. -/
theorem releases_of_further_gap :
    letI := codePointCollation
    taskRootIngressReleasesHeadOfLine (reduceTaskRootIngressFacts
      { exhaustedFacts with decisionGaps :=
        [⟨"gap_1", "cal_1", "msg_1"⟩, ⟨"gap_2", "cal_1", "msg_2"⟩] } 5) = true := by
  let _ : Collation := codePointCollation
  have hextends : Extends exhaustedFacts { exhaustedFacts with decisionGaps :=
      [⟨"gap_1", "cal_1", "msg_1"⟩, ⟨"gap_2", "cal_1", "msg_2"⟩] } := by
    constructor <;> decide
  have hzero : (0 : ℤ) ≤ 5 := by decide
  refine releases_of_extends hextends hzero ⟨by decide, by decide⟩ (by decide) ?_ (by decide)
  intro _ _
  exact ⟨by decide, by decide, by decide, Or.inr ⟨by decide, by decide, by simp [exhaustedFacts,
    acceptedFacts]⟩⟩

def decidedFacts : TaskRootIngressFacts :=
  { acceptedFacts with
    leases := [⟨"cal_1", "ing_1", "a", 0, 10⟩]
    turns := [⟨"msg_1", "cal_1", "msg_0", 5, .toolCalls⟩]
    decisions := [⟨"dec_1", "msg_1", "complete_task"⟩] }

def decidedTwiceFacts : TaskRootIngressFacts :=
  { decidedFacts with
    turns := [⟨"msg_1", "cal_1", "msg_0", 5, .toolCalls⟩, ⟨"msg_2", "cal_1", "msg_1", 6, .toolCalls⟩]
    decisions := [⟨"dec_1", "msg_1", "complete_task"⟩, ⟨"dec_2", "msg_2", "complete_task"⟩] }

/-- A release does not survive every extension: a second decision turns a resolved ingress into a
Host fault. -/
theorem not_releases_of_second_decision :
    letI := codePointCollation
    ¬∀ (facts facts' : TaskRootIngressFacts) (now later : ℤ), Extends facts facts' → now ≤ later →
      taskRootIngressReleasesHeadOfLine (reduceTaskRootIngressFacts facts now) = true →
        taskRootIngressReleasesHeadOfLine (reduceTaskRootIngressFacts facts' later) = true := by
  let _ : Collation := codePointCollation
  intro h
  have hextends : Extends decidedFacts decidedTwiceFacts := by
    constructor <;> decide
  have hreleases := h decidedFacts decidedTwiceFacts 7 7 hextends le_rfl (by decide)
  revert hreleases
  decide

end OpenCorvus.Engine
