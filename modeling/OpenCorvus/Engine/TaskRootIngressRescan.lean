import OpenCorvus.Engine.TaskControlDriver
import OpenCorvus.Engine.TaskRootIngressWake

/-!
# Rescans of a Task-root ingress

The finite wake of a projection lies in the future unless an arm that outranks the absolute deadline answers after
the deadline has passed: the deadline is folded into the wake of every arm, but those arms keep answering past it, so
the scan is due again at once and reads the same projection.
-/

namespace OpenCorvus.Engine

open EcmaScript TaskRootIngressWakeClassification

variable [Collation] {facts : TaskRootIngressFacts} {now : ℤ}

inductive MayChangeAt (facts : TaskRootIngressFacts) (now : ℤ) : ℤ → Prop where
  /-- A lease of the ingress expires. -/
  | expiry (lease : ActivationLeaseFact) (mem : lease ∈ ingressLeases facts) :
      MayChangeAt facts now lease.expiresAt
  /-- A pending interaction reaches its resume instant. -/
  | resume (interaction : InteractionFact) (mem : interaction ∈ waitingInteractions facts now)
      (resumeAt : ℤ) (due : interaction.resumeAt = some resumeAt) : MayChangeAt facts now resumeAt
  /-- The absolute deadline passes. -/
  | deadline (deadline : ℤ) (due : facts.policy.absoluteDeadline = some deadline) : MayChangeAt facts now deadline
  /-- The requested cancellation is looked at again. -/
  | cancellation (request : TaskLifecycleFact) (requested : cancellationRequest facts = some request) :
      MayChangeAt facts now (now + CANCELLATION_RECONCILE_WAKE_MS)

def CrossesChange (facts : TaskRootIngressFacts) (now later : ℤ) : Prop :=
  ∃ instant, MayChangeAt facts now instant ∧ now < instant ∧ instant ≤ later

/-- A finite wake is in the future, and the timer that the driver arms for it does not ring before a
change is due, unless the driver cuts the delay to its maximum. -/
def NoHotRescan (facts : TaskRootIngressFacts) (now : ℤ) : Prop :=
  ∀ wakeAt, classifyTaskRootIngressWake (reduceTaskRootIngressFacts facts now)
      facts.policy.absoluteDeadline now = .finiteWake wakeAt →
    now < wakeAt ∧ ∀ (options : TaskControlDriverOptions) (entry : Entry) (taskID : String) (timer : WakeTimer),
        (arm options now entry false taskID (some wakeAt)).timer = some timer →
          timer.delay < options.maximumWakeDelay → CrossesChange facts now timer.timerAt

structure OutranksPassedDeadline (facts : TaskRootIngressFacts) (now : ℤ) : Prop where
  undecided : Undecided facts
  passed : DeadlinePassed facts now
  outranks : (heldLease facts now).isSome = true ∨ unknownRequests facts now ≠ [] ∨
    (cancellationRequest facts).isSome = true

variable {wakeAt : ℤ}

omit [Collation] in
lemma wakeAt_le_timerAt {options : TaskControlDriverOptions} {entry : Entry} {taskID : String} {timer : WakeTimer}
    (h : (arm options now entry false taskID (some wakeAt)).timer = some timer)
    (huncut : timer.delay < options.maximumWakeDelay) : wakeAt ≤ timer.timerAt := by
  unfold arm at h
  cases h
  simp only at huncut ⊢
  omega

lemma mem_ingressLeases_of_latest {latest : ActivationLeaseFact}
    (h : latestTaskRootIngressLease facts = some latest) : latest ∈ ingressLeases facts := by
  have hmem := List.mem_of_mem_head? h
  rwa [mem_toSorted] at hmem

omit [Collation] in
lemma now_lt_finiteWake {instant wakeAt : ℤ} (hnow : now < instant)
    (h : finiteWake instant facts.policy.absoluteDeadline = .finiteWake wakeAt) :
    (now < wakeAt ↔ ¬DeadlinePassed facts now) ∧
      (wakeAt = instant ∨ facts.policy.absoluteDeadline = some wakeAt) := by
  unfold finiteWake at h
  unfold DeadlinePassed
  cases hdeadline : facts.policy.absoluteDeadline with
  | none =>
    simp only [hdeadline, Option.elim_none, finiteWake.injEq] at h
    simp [← h, hnow]
  | some deadline =>
    simp only [hdeadline, Option.elim_some, finiteWake.injEq] at h
    rw [← h]
    rcases le_total instant deadline with hle | hle
    · rw [min_eq_left hle]
      simp [hnow, hnow.trans_le hle]
    · rw [min_eq_right hle]
      simp

omit [Collation] in
lemma now_lt_deadlineOr (now : ℤ) {fallback : TaskRootIngressWakeClassification}
    (hrest : ∀ instant, fallback ≠ .finiteWake instant)
    (h : deadlineOr facts.policy.absoluteDeadline fallback = .finiteWake wakeAt) :
    (now < wakeAt ↔ ¬DeadlinePassed facts now) ∧
      facts.policy.absoluteDeadline = some wakeAt := by
  unfold deadlineOr at h
  unfold DeadlinePassed
  cases hdeadline : facts.policy.absoluteDeadline with
  | none =>
    rw [hdeadline] at h
    exact absurd h (hrest wakeAt)
  | some =>
    simp only [hdeadline, Option.elim_some, finiteWake.injEq] at h
    simp [h]

omit [Collation] in
lemma TaskRootIngressProjection.Settled.classify_ne {projection : TaskRootIngressProjection}
    (h : projection.Settled) (absoluteDeadline : Option ℤ) (wakeAt : ℤ) :
    classifyTaskRootIngressWake projection absoluteDeadline now ≠ .finiteWake wakeAt := by
  cases projection with
  | operatorAbandoned => simp [classifyTaskRootIngressWake]
  | hostFault => simp [classifyTaskRootIngressWake]
  | terminalInapplicable => simp [classifyTaskRootIngressWake]
  | resolved => simp [classifyTaskRootIngressWake]
  | _ => exact h.elim

lemma restProjection_wake (hrequest : cancellationRequest facts = none)
    (h : classifyTaskRootIngressWake (restProjection facts now) facts.policy.absoluteDeadline now =
      .finiteWake wakeAt) : now < wakeAt ∧ MayChangeAt facts now wakeAt := by
  by_cases hpassed : DeadlinePassed facts now
  · rw [restProjection_deadline hrequest hpassed] at h
    simp [classifyTaskRootIngressWake] at h
  rcases waitingInteractions_cases facts now with hnone | ⟨interaction, hone⟩ | hseveral
  · by_cases hspent : BudgetSpent facts
    · obtain ⟨_, -, hreason⟩ := restProjection_budget hrequest hpassed hnone hspent
      rw [hreason] at h
      simp [classifyTaskRootIngressWake] at h
    · rw [restProjection_ready hrequest hpassed hnone hspent] at h
      obtain ⟨hfuture, hdeadline⟩ := now_lt_deadlineOr now (by simp) h
      exact ⟨hfuture.mpr hpassed, .deadline wakeAt hdeadline⟩
  · rw [restProjection_waiting hrequest hpassed hone] at h
    have hmem : interaction ∈ waitingInteractions facts now := by simp [hone]
    cases hresume : interaction.resumeAt with
    | none =>
      rw [hresume] at h
      obtain ⟨hfuture, hdeadline⟩ := now_lt_deadlineOr now (by simp) h
      exact ⟨hfuture.mpr hpassed, .deadline wakeAt hdeadline⟩
    | some resumeAt =>
      rw [hresume] at h
      have hwaiting := (List.mem_filter.mp hmem).2
      have hlt : now < resumeAt := by
        simp only [hresume, Option.all_some, Bool.decide_and, Bool.and_eq_true, decide_eq_true_eq] at hwaiting
        exact hwaiting.2.2
      obtain ⟨hfuture, hinstant⟩ := now_lt_finiteWake hlt h
      refine ⟨hfuture.mpr hpassed, ?_⟩
      rcases hinstant with rfl | hdeadline
      · exact .resume interaction hmem wakeAt hresume
      · exact .deadline wakeAt hdeadline
  · rw [restProjection_ambiguous hrequest hpassed hseveral] at h
    simp [classifyTaskRootIngressWake] at h

lemma finiteWake_spec (h : classifyTaskRootIngressWake (reduceTaskRootIngressFacts facts now)
      facts.policy.absoluteDeadline now = .finiteWake wakeAt) :
    MayChangeAt facts now wakeAt ∧ (¬OutranksPassedDeadline facts now → now < wakeAt) := by
  have hundecided : Undecided facts := by
    by_contra hdecided
    obtain ⟨_, hsettled, -, hprojection⟩ := exists_settled_of_not_undecided hdecided
    rw [hprojection now] at h
    exact hsettled.classify_ne _ _ h
  rw [reduce_of_undecided hundecided] at h
  cases hheld : heldLease facts now with
  | some latest =>
    rw [hheld] at h
    obtain ⟨hlatest, hunexpired⟩ := Option.filter_eq_some_iff.mp hheld
    have hlt : now < latest.expiresAt := (of_decide_eq_true hunexpired).1
    obtain ⟨hfuture, hinstant⟩ := now_lt_finiteWake hlt h
    refine ⟨?_, fun hrank => hfuture.mpr fun hpassed => ?_⟩
    · rcases hinstant with rfl | hdeadline
      · exact .expiry latest (mem_ingressLeases_of_latest hlatest)
      · exact .deadline wakeAt hdeadline
    · exact hrank ⟨hundecided, hpassed, Or.inl (by simp [hheld])⟩
  | none =>
    rw [hheld] at h
    by_cases hunknown : 0 < (unknownRequests facts now).length
    · simp only [hunknown, if_true] at h
      obtain ⟨hfuture, hdeadline⟩ := now_lt_deadlineOr now (by simp) h
      refine ⟨.deadline wakeAt hdeadline, fun hrank => hfuture.mpr fun hpassed => ?_⟩
      exact hrank ⟨hundecided, hpassed, Or.inr (Or.inl (List.length_pos_iff.mp hunknown))⟩
    simp only [hunknown, if_false] at h
    cases hrequest : cancellationRequest facts with
    | none =>
      obtain ⟨hfuture, hchange⟩ := restProjection_wake hrequest h
      exact ⟨hchange, fun _ => hfuture⟩
    | some request =>
      rw [restProjection_cancelling hrequest] at h
      have hlt : now < now + CANCELLATION_RECONCILE_WAKE_MS := by
        simp [CANCELLATION_RECONCILE_WAKE_MS]
      obtain ⟨hfuture, hinstant⟩ := now_lt_finiteWake hlt h
      refine ⟨?_, fun hrank => hfuture.mpr fun hpassed => ?_⟩
      · rcases hinstant with rfl | hdeadline
        · exact .cancellation request hrequest
        · exact .deadline wakeAt hdeadline
      · exact hrank ⟨hundecided, hpassed, Or.inr (Or.inr (by simp [hrequest]))⟩

lemma OutranksPassedDeadline.wakesBy (h : OutranksPassedDeadline facts now) :
    (classifyTaskRootIngressWake (reduceTaskRootIngressFacts facts now)
      facts.policy.absoluteDeadline now).WakesBy now := by
  rw [reduce_of_undecided h.undecided]
  cases hheld : heldLease facts now with
  | some => simp [classifyTaskRootIngressWake, h.passed]
  | none =>
    by_cases hunknown : 0 < (unknownRequests facts now).length
    · simp [hunknown, classifyTaskRootIngressWake, h.passed]
    have hempty : unknownRequests facts now = [] := by simpa using hunknown
    have hrequested : (cancellationRequest facts).isSome = true := by
      simpa [hheld, hempty] using h.outranks
    obtain ⟨_, hrequest⟩ := Option.isSome_iff_exists.mp hrequested
    simp [hempty, restProjection_cancelling hrequest, classifyTaskRootIngressWake, h.passed]

/-- No unchanged projection is scanned hot exactly if no arm that outranks the absolute deadline
answers past it. -/
theorem noHotRescan_iff_not_outranksPassedDeadline (facts : TaskRootIngressFacts) (now : ℤ) :
    NoHotRescan facts now ↔ ¬OutranksPassedDeadline facts now := by
  constructor
  · intro hrescan hrank
    obtain ⟨wakeAt, hwake, hpast⟩ := hrank.wakesBy
    exact absurd (hrescan wakeAt hwake).1 (not_lt.mpr hpast)
  · intro hrank wakeAt hwake
    obtain ⟨hchange, hfuture⟩ := finiteWake_spec hwake
    refine ⟨hfuture hrank, fun options entry taskID timer htimer huncut => ?_⟩
    exact ⟨wakeAt, hchange, hfuture hrank, wakeAt_le_timerAt htimer huncut⟩

def leasedPastDeadline : TaskRootIngressFacts :=
  { acceptedFacts with
    policy := { acceptedFacts.policy with absoluteDeadline := some 10 }
    leases := [{ id := "lse_1", targetID := "ing_1", ownerOccurrenceID := "own_1",
                 timeActivated := 0, expiresAt := 100 }] }

omit [Collation] in
/-- At instant 20 the leased ingress is woken at its deadline, which is past. -/
theorem not_noHotRescan_leasedPastDeadline :
    letI := codePointCollation
    ¬NoHotRescan leasedPastDeadline 20 := by
  let _ : Collation := codePointCollation
  intro hrescan
  have hwake : classifyTaskRootIngressWake (reduceTaskRootIngressFacts leasedPastDeadline 20)
      leasedPastDeadline.policy.absoluteDeadline 20 = .finiteWake 10 := by decide
  exact absurd (hrescan 10 hwake).1 (by decide)

end OpenCorvus.Engine
