import OpenCorvus.Engine.TaskRootIngressWake

/-!
# The evidence of an inapplicable Task-root ingress

When the reduction reports that a lifecycle boundary made an ingress inapplicable, the durable
disposition names the lifecycle fact that shows the boundary.  The reduction accepts a deletion at
any instant, but the evidence only one that is not before the acceptance.
-/

namespace OpenCorvus.Engine

open EcmaScript

def TaskLifecycleFact.shows (fact : TaskLifecycleFact) (boundary : TerminalBoundary)
    (executionEpoch : ℕ) (timeAccepted : ℤ) : Bool :=
  match boundary with
  | .deleted => fact.kind = .deleted ∧ timeAccepted ≤ fact.time
  | .reopened => (fact.kind = .opened ∨ fact.kind = .reopened) ∧ executionEpoch < fact.epoch
  | .cancelled => fact.epoch = executionEpoch ∧ timeAccepted ≤ fact.time ∧ fact.kind = .cancelled
  | .closed => fact.epoch = executionEpoch ∧ timeAccepted ≤ fact.time ∧ fact.kind = .closed

def taskRootLifecycleDispositionEvidence (lifecycle : List TaskLifecycleFact)
    (boundary : TerminalBoundary) (executionEpoch : ℕ) (timeAccepted : ℤ) :
    Option TaskLifecycleFact :=
  (toSorted (fun left right => (compare left.sequence right.sequence).then (codeUnitCompare left.id right.id))
    (lifecycle.filter fun fact => fact.shows boundary executionEpoch timeAccepted)).head?

lemma evidence_isSome_iff {lifecycle : List TaskLifecycleFact} {boundary : TerminalBoundary}
    {executionEpoch : ℕ} {timeAccepted : ℤ} :
    (taskRootLifecycleDispositionEvidence lifecycle boundary executionEpoch timeAccepted).isSome = true ↔
      ∃ fact ∈ lifecycle, fact.shows boundary executionEpoch timeAccepted = true := by
  unfold taskRootLifecycleDispositionEvidence
  rw [List.isSome_head?, Ne, toSorted_eq_nil, List.filter_eq_nil_iff]
  simp

section Reduction

variable [Collation] {facts : TaskRootIngressFacts} {now : ℤ}

omit [Collation] in
lemma mem_of_exactlyOne_filter {lifecycle : List TaskLifecycleFact} {p : TaskLifecycleFact → Bool}
    {fact : TaskLifecycleFact} (h : exactlyOne (lifecycle.filter p) = some fact) :
    fact ∈ lifecycle ∧ p fact = true :=
  List.mem_filter.mp (exactlyOne_eq_some.mp h ▸ List.mem_cons_self)

omit [Collation] in
lemma exists_opened_of_currentEpoch (h : facts.ingress.executionEpoch < currentEpoch facts) :
    ∃ fact ∈ facts.lifecycle,
      fact.shows .reopened facts.ingress.executionEpoch facts.ingress.timeAccepted = true := by
  by_contra hnone
  refine absurd h (not_lt.mpr (maxOrZero_le_iff.mpr fun epoch hepoch => ?_))
  obtain ⟨fact, hfact, rfl⟩ := List.mem_map.mp hepoch
  obtain ⟨hmem, hkind⟩ := List.mem_filter.mp hfact
  by_contra hlt
  exact hnone ⟨fact, hmem, decide_eq_true ⟨of_decide_eq_true hkind, not_le.mp hlt⟩⟩

lemma reduce_eq_deleted_iff : reduceTaskRootIngressFacts facts now = .terminalInapplicable .deleted ↔
      facts.operatorAbandoned = none ∧ facts.integrityViolation = none ∧ hostFault facts = none ∧
        currentEpoch facts ≤ facts.ingress.executionEpoch ∧ (deletion facts).isSome = true := by
  constructor
  · intro h
    have hepoch : ¬facts.ingress.executionEpoch < currentEpoch facts := by
      intro hlt
      unfold reduceTaskRootIngressFacts at h
      rw [if_pos hlt] at h
      split at h
      · cases h
      split at h
      · cases h
      split at h
      · cases h
      · cases h
    have hdeleted : (deletion facts).isSome = true := by
      rcases boundary_of_reduce h with ⟨hboundary, -⟩ | ⟨-, hdeleted⟩ | ⟨_, -, -, hboundary⟩
      · cases hboundary
      · exact hdeleted
      · split_ifs at hboundary
    unfold reduceTaskRootIngressFacts at h
    cases habandoned : facts.operatorAbandoned with
    | some =>
      rw [habandoned] at h
      cases h
    | none =>
      cases hviolation : facts.integrityViolation with
      | some => simp [habandoned, hviolation] at h
      | none =>
        cases hfault : hostFault facts with
        | some => simp [habandoned, hviolation, hfault] at h
        | none => exact ⟨rfl, rfl, rfl, not_lt.mp hepoch, hdeleted⟩
  · rintro ⟨habandoned, hviolation, hfault, hepoch, hdeleted⟩
    unfold reduceTaskRootIngressFacts
    simp only [habandoned, hviolation, hfault, not_lt.mpr hepoch, hdeleted, Option.isSome_none,
      Bool.false_eq_true, if_false, if_true]

structure DeletedBeforeAcceptance (facts : TaskRootIngressFacts) : Prop where
  notAbandoned : facts.operatorAbandoned = none
  intact : facts.integrityViolation = none
  noFault : hostFault facts = none
  inEpoch : currentEpoch facts ≤ facts.ingress.executionEpoch
  deleted : ∃ fact, deletion facts = some fact ∧ fact.time < facts.ingress.timeAccepted

lemma exists_shows_of_reduce {boundary : TerminalBoundary}
    (h : reduceTaskRootIngressFacts facts now = .terminalInapplicable boundary)
    (hboundary : boundary ≠ .deleted) :
    ∃ fact ∈ facts.lifecycle,
      fact.shows boundary facts.ingress.executionEpoch facts.ingress.timeAccepted = true := by
  rcases boundary_of_reduce h with ⟨rfl, hepoch⟩ | ⟨rfl, -⟩ | ⟨fact, hterminal, htime, rfl⟩
  · exact exists_opened_of_currentEpoch hepoch
  · exact absurd rfl hboundary
  · obtain ⟨hmem, hfact⟩ := mem_of_exactlyOne_filter hterminal
    obtain ⟨hepoch, hkind⟩ := of_decide_eq_true hfact
    refine ⟨fact, hmem, ?_⟩
    by_cases hcancelled : fact.kind = .cancelled
    · rw [if_pos hcancelled]
      exact decide_eq_true ⟨hepoch, htime, hcancelled⟩
    · rw [if_neg hcancelled]
      exact decide_eq_true ⟨hepoch, htime, hkind.resolve_left hcancelled⟩

/-- Every inapplicable projection has evidence exactly if no deletion before the acceptance decides
the ingress. -/
theorem inapplicable_evidenced_iff_not_deletedBeforeAcceptance (facts : TaskRootIngressFacts) (now : ℤ) :
    (∀ boundary, reduceTaskRootIngressFacts facts now = .terminalInapplicable boundary →
      (taskRootLifecycleDispositionEvidence facts.lifecycle boundary facts.ingress.executionEpoch
        facts.ingress.timeAccepted).isSome = true) ↔ ¬DeletedBeforeAcceptance facts := by
  constructor
  · rintro hevidence ⟨habandoned, hintact, hfault, hepoch, fact, hdeletion, htime⟩
    have hreduce : reduceTaskRootIngressFacts facts now = .terminalInapplicable .deleted :=
      reduce_eq_deleted_iff.mpr ⟨habandoned, hintact, hfault, hepoch, by rw [hdeletion, Option.isSome_some]⟩
    obtain ⟨other, hother, hshows⟩ := evidence_isSome_iff.mp (hevidence .deleted hreduce)
    obtain ⟨hkind, hafter⟩ := of_decide_eq_true hshows
    -- There is only one deletion.
    have hmem : other ∈ facts.lifecycle.filter fun fact => fact.kind = .deleted :=
      List.mem_filter.mpr ⟨hother, decide_eq_true hkind⟩
    rw [exactlyOne_eq_some.mp hdeletion, List.mem_singleton] at hmem
    subst hmem
    exact absurd hafter (not_le.mpr htime)
  · intro hbefore boundary hreduce
    rw [evidence_isSome_iff]
    by_cases hboundary : boundary = .deleted
    · subst hboundary
      obtain ⟨habandoned, hintact, hfault, hepoch, hdeleted⟩ := reduce_eq_deleted_iff.mp hreduce
      obtain ⟨fact, hdeletion⟩ := Option.isSome_iff_exists.mp hdeleted
      obtain ⟨hmem, hkind⟩ := mem_of_exactlyOne_filter hdeletion
      refine ⟨fact, hmem, decide_eq_true ⟨of_decide_eq_true hkind, ?_⟩⟩
      by_contra htime
      exact hbefore ⟨habandoned, hintact, hfault, hepoch, fact, hdeletion, not_le.mp htime⟩
    · exact exists_shows_of_reduce hreduce hboundary

end Reduction

def deletedBeforeAcceptance : TaskRootIngressFacts :=
  { acceptedFacts with
    ingress := { acceptedFacts.ingress with timeAccepted := 10 }
    lifecycle := [
      { id := "pev_1", kind := .opened, epoch := 1, sequence := 1, time := 0 },
      { id := "pev_2", kind := .deleted, epoch := 1, sequence := 2, time := 5 }] }

/-- The reduction reports the deletion before the acceptance, and it has no evidence. -/
theorem inapplicable_without_evidence :
    letI := codePointCollation
    ¬∀ boundary, reduceTaskRootIngressFacts deletedBeforeAcceptance 20 = .terminalInapplicable boundary →
      (taskRootLifecycleDispositionEvidence deletedBeforeAcceptance.lifecycle boundary
        deletedBeforeAcceptance.ingress.executionEpoch
        deletedBeforeAcceptance.ingress.timeAccepted).isSome = true := by
  let _ : Collation := codePointCollation
  intro hevidence
  have hreduce : reduceTaskRootIngressFacts deletedBeforeAcceptance 20 = .terminalInapplicable .deleted := by
    decide
  exact absurd (hevidence .deleted hreduce) (by decide)

end OpenCorvus.Engine
