import OpenCorvus.Dispatch.DispatchLineageLaw

/-!
# Admissions of closed Tasks

A first claim checks that its Task is open, but not that the Tool occurrence is of the current execution epoch.  A
repeated claim reaches the admission through the failure of its insertion, whose reason is dropped, so it is also
admitted when the Task has been cancelled, ended, reopened or is being completed.  The file says exactly which claims
keep the admissions to open Tasks.
-/

namespace OpenCorvus.Dispatch

open Transaction Engine ExecutableSystem List Option DispatchStore

variable (store : DispatchStore)

def OpenFor (lineage : DispatchLineageRow) (clock : ℤ) : Prop :=
  ∃ lifecycle ∈ (store.lifecycle lineage.taskID).toOption,
    lifecycle.epoch = lineage.payload.executionEpoch ∧ lifecycle.status = .active ∧
      (taskCompletionClosureInTransaction store lineage.taskID clock).toOption = some none

instance (store : DispatchStore) (lineage : DispatchLineageRow) (clock : ℤ) :
    Decidable (OpenFor store lineage clock) := inferInstanceAs (Decidable (∃ _ ∈ _, _))

def AdmitsOnlyOpen : DispatchLabel → Prop
  | .claim input => ∀ answer ∈ (claimDispatchLineage store input).toOption,
    OpenFor store answer.1.lineage input.clock ∨ answer.1.admission = none ∧ answer.2 = store
  | _ => True

instance (store : DispatchStore) (label : DispatchLabel) : Decidable (AdmitsOnlyOpen store label) := by
  unfold AdmitsOnlyOpen
  split <;> infer_instance

def Unowned (input : ClaimDispatchLineageInput) (lineage : DispatchLineageRow) : Prop :=
  ∀ current ∈ currentControlLeaseInTransaction store.leases .dispatchAdmission lineage.artifactID,
    current.expiresAt ≤ input.now

/-- The generated id of the admission is not taken. -/
def NewLeaseID (input : ClaimDispatchLineageInput) : Prop :=
  input.leaseID ≠ "" ∧ (∀ row ∈ store.leases.leases, row.id ≠ input.leaseID) ∧
    latestGrantOrdinal store.leases input.leaseID = 0

structure Grantable (store : DispatchStore) (input : ClaimDispatchLineageInput) (lineage : DispatchLineageRow) :
    Prop where
  notAccepted : ¬Accepted store lineage
  coordination : assertCoordinationDispatchAdmissionInTransaction store input.origin.taskID
    input.origin.coordinationActionID input.childSessionID input.origin.targetAgentID = .ok ()
  unowned : Unowned store input lineage
  leaseID : NewLeaseID store input

structure ClaimsOpenTask (store : DispatchStore) (input : ClaimDispatchLineageInput) : Prop where
  first : ∀ owner epoch, Insertable store input owner epoch →
    Accepted store (input.claimed owner epoch) ∨ ¬Unowned store input (input.claimed owner epoch) ∨
      NewLeaseID store input →
    ∃ lifecycle ∈ (store.lifecycle input.origin.taskID).toOption, lifecycle.epoch = epoch
  repeated : ∀ lineage, Repeats store input lineage → input.process.occurrenceID.isSome →
    Grantable store input lineage → OpenFor store lineage input.clock

/-- The condition on a step. -/
def ClaimsOnlyOpen : DispatchLabel → Prop
  | .claim input => ClaimsOpenTask store input
  | _ => True

section Claims

variable {store store' : DispatchStore} {input : ClaimDispatchLineageInput} {owner : String} {epoch : ℕ}
  {lineage : DispatchLineageRow}

lemma status_of_not_ended {lifecycle : TaskLifecycleProjection} {events : List TaskEvent} {taskID : String}
    (h : taskLifecycleProjectionInTransaction events taskID = .ok lifecycle) (hended : lifecycle.terminalAt = none) :
    lifecycle.status = .active ∨ lifecycle.status = .cancelling ∧ lifecycle.requestEventID.isSome := by
  obtain ⟨_, -, -, -, -, -, hlifecycle⟩ := taskLifecycleProjection_eq_ok h
  subst hlifecycle
  unfold epochProjection at hended ⊢
  split
  · rename_i terminal _ hterminal
    rw [hterminal] at hended
    cases hended
  · split
    · exact Or.inr ⟨rfl, rfl⟩
    · exact Or.inl rfl

lemma Insertable.lifecycle (h : Insertable store input owner epoch) :
    ∃ lifecycle, store.lifecycle input.origin.taskID = .ok lifecycle ∧ lifecycle.status = .active := by
  obtain ⟨-, hended⟩ := throwWhen_bind_eq_ok.mp h.notEnded
  obtain ⟨lifecycle, hlifecycle, hnone⟩ := bind_eq_ok.mp hended
  have hprojection : taskLifecycleProjectionInTransaction store.events input.origin.taskID = .ok lifecycle := by
    unfold DispatchStore.lifecycle at hlifecycle
    rwa [mapError_eq_ok] at hlifecycle
  refine ⟨lifecycle, hlifecycle, ?_⟩
  rcases status_of_not_ended hprojection (pure_eq_ok.mp hnone) with hactive | ⟨hcancelling, hrequest⟩
  · exact hactive
  · obtain ⟨projection, hagain, hcancellation⟩ := bind_eq_ok.mp h.notCancelling
    obtain rfl : lifecycle = projection := Except.ok.inj (hlifecycle.symm.trans hagain)
    obtain ⟨_, hrequest⟩ := isSome_iff_exists.mp hrequest
    rw [pure_eq_ok, if_pos hcancelling, hrequest] at hcancellation
    cases hcancellation

lemma Insertable.openFor_iff (h : Insertable store input owner epoch) :
    OpenFor store (input.claimed owner epoch) input.clock ↔
      ∃ lifecycle ∈ (store.lifecycle input.origin.taskID).toOption, lifecycle.epoch = epoch := by
  obtain ⟨lifecycle, hlifecycle, hactive⟩ := h.lifecycle
  have hfound : (store.lifecycle input.origin.taskID).toOption = some lifecycle := toOption_eq_some.mpr hlifecycle
  have hclosing : (taskCompletionClosureInTransaction store input.origin.taskID input.clock).toOption =
    some none := toOption_eq_some.mpr h.notClosing
  unfold OpenFor
  change (∃ lifecycle ∈ (store.lifecycle input.origin.taskID).toOption, lifecycle.epoch = epoch ∧
    lifecycle.status = .active ∧
      (taskCompletionClosureInTransaction store input.origin.taskID input.clock).toOption = some none) ↔ _
  rw [hfound, hclosing]
  simp [hactive]

lemma exists_acquired_iff (owner : String) : (∃ leases, acquireControlLeaseInTransaction store.leases
      (input.acquisition owner lineage) = .ok (⟨true, (input.acquisition owner lineage).lease⟩, leases)) ↔
    Unowned store input lineage ∧ NewLeaseID store input := by
  have hduration : ¬(input.acquisition owner lineage).leaseMilliseconds ≤ 0 := by
    change ¬dispatchAdmissionLeaseMilliseconds ≤ 0
    decide
  have hgrant : (∃ leases, insertAcquiredControlLease store.leases (input.acquisition owner lineage) =
      .ok (⟨true, (input.acquisition owner lineage).lease⟩, leases)) ↔ NewLeaseID store input := by
    unfold insertAcquiredControlLease NewLeaseID
    change (∃ leases, (if input.leaseID = "" then _ else _) = _) ↔ _
    by_cases hempty : input.leaseID = ""
    · simp [hempty]
    · simp only [hempty, if_false, bind_eq_ok, insertControlLease_eq_ok, pure_eq_ok, Prod.mk.injEq, true_and,
        ne_eq, not_false_eq_true]
      constructor
      · rintro ⟨leases, _, ⟨hfresh, rfl⟩, _, hgranted, -⟩
        unfold insertControlLeaseGrant at hgranted
        split_ifs at hgranted with hok
        refine ⟨hfresh, ?_⟩
        have hordinal := hok.1
        change 1 = latestGrantOrdinal store.leases input.leaseID + 1 at hordinal
        omega
      · rintro ⟨hfresh, _⟩
        have hlater : input.now < input.now + dispatchAdmissionLeaseMilliseconds := by
          unfold dispatchAdmissionLeaseMilliseconds
          omega
        have hnext : 1 = latestGrantOrdinal store.leases input.leaseID + 1 := by omega
        refine ⟨_, _, ⟨hfresh, rfl⟩, _, if_pos ⟨hnext, ?_⟩, rfl⟩
        rw [any_append, Bool.or_eq_true]
        right
        simp [AcquireControlLeaseInput.lease, ClaimDispatchLineageInput.acquisition, hlater]
  unfold acquireControlLeaseInTransaction Unowned
  have htarget : currentControlLeaseInTransaction store.leases (input.acquisition owner lineage).target
      (input.acquisition owner lineage).targetID =
        currentControlLeaseInTransaction store.leases .dispatchAdmission lineage.artifactID := rfl
  rw [if_neg hduration, htarget]
  cases hcurrent : currentControlLeaseInTransaction store.leases .dispatchAdmission lineage.artifactID with
  | none => simpa using hgrant
  | some current =>
    by_cases hlive : input.now < current.expiresAt
    · have hblocked : (input.acquisition owner lineage).BlockedBy current := ⟨hlive, by
        change some current.id ≠ none
        exact some_ne_none _⟩
      simp [hblocked, hlive]
    · have hnot : ¬(input.acquisition owner lineage).BlockedBy current := fun hblocked => hlive hblocked.1
      simp only [hnot, if_false, hgrant]
      simp [not_lt.mp hlive]

variable {taskID : String}

lemma findArtifact_withArtifact {id : String} {row other : EngineArtifact}
    (h : store.findArtifact taskID id = some row) :
    (store.withArtifact other).findArtifact taskID id = some row := by
  unfold findArtifact at h ⊢
  unfold withArtifact
  rw [find?_append, h]
  rfl

lemma accepted_withArtifact {other : DispatchLineageRow} :
    Accepted (store.withArtifact other.artifact) lineage ↔ Accepted store lineage := by
  have hsettlement : (store.withArtifact other.artifact).findSettlement lineage.taskID lineage.dispatchID =
      store.findSettlement lineage.taskID lineage.dispatchID := by
    unfold findSettlement artifactsOf withArtifact
    rw [filter_append, findSome?_append]
    have hnone : ([other.artifact].filter fun row => row.taskID = lineage.taskID).findSome? (fun row =>
        (row.settlement.filter fun payload => payload.dispatchID = lineage.dispatchID).map
          fun payload => (row, payload)) = none := by
      rw [findSome?_eq_none_iff]
      intro row hrow
      rw [mem_singleton.mp (mem_of_mem_filter hrow)]
      rfl
    rw [hnone, or_none]
  unfold Accepted
  rw [hsettlement]
  exact Iff.rfl

lemma coordination_withArtifact {actionID : Option String} {childSessionID targetAgentID : String}
    {other : DispatchLineageRow}
    (h : assertCoordinationDispatchAdmissionInTransaction store taskID actionID childSessionID targetAgentID =
      .ok ()) :
    assertCoordinationDispatchAdmissionInTransaction (store.withArtifact other.artifact) taskID actionID
      childSessionID targetAgentID = .ok () := by
  unfold assertCoordinationDispatchAdmissionInTransaction at h ⊢
  cases haction : truthy actionID with
  | none => rfl
  | some actionID =>
    rw [haction] at h
    simp only [bind_eq_ok, getOrThrow_eq_ok, throwWhen_eq_ok, filter_eq_some_iff, not_forall] at h ⊢
    obtain ⟨action, ⟨hfound, hkind⟩, lifecycle, hlifecycle, ⟨⟩, _, request, hrequest, hsession⟩ := h
    unfold findAction at hfound
    obtain ⟨row, hrow, hpayload⟩ := bind_eq_some_iff.mp hfound
    have hfound' : (store.withArtifact other.artifact).findAction taskID actionID = some action := by
      unfold findAction
      rw [findArtifact_withArtifact hrow]
      exact hpayload
    unfold findRequest at hrequest
    obtain ⟨_, hrow', hpayload'⟩ := bind_eq_some_iff.mp hrequest
    have hrequest' : (store.withArtifact other.artifact).findRequest taskID action.requestID = some request := by
      unfold findRequest
      rw [findArtifact_withArtifact hrow']
      exact hpayload'
    refine ⟨action, ⟨hfound', hkind⟩, lifecycle, hlifecycle, (), ?_, request, hrequest', hsession⟩
    have houtcome : (store.withArtifact other.artifact).findOutcomeOfAction taskID actionID =
        store.findOutcomeOfAction taskID actionID := by
      unfold findOutcomeOfAction artifactsOf withArtifact
      rw [filter_append, findSome?_append]
      have hnone : ([other.artifact].filter fun row => row.taskID = taskID).findSome? (fun row =>
          (row.outcome.filter fun fact => fact.actionID = actionID).map fun fact => (row, fact)) = none := by
        rw [findSome?_eq_none_iff]
        intro row hrow
        rw [mem_singleton.mp (mem_of_mem_filter hrow)]
        rfl
      rw [hnone, or_none]
    rwa [houtcome]

lemma exists_admission (owner : String) (createdNow : Bool) {recorded : DispatchStore}
    (hcoordination : assertCoordinationDispatchAdmissionInTransaction recorded input.origin.taskID
      input.origin.coordinationActionID input.childSessionID input.origin.targetAgentID = .ok ())
    (h : Accepted recorded lineage ∨ ¬Unowned recorded input lineage ∨ NewLeaseID recorded input) :
    ∃ claim store', admitDispatchLineage recorded input owner lineage createdNow = .ok (claim, store') ∧
      store'.artifacts = recorded.artifacts ∧
      (¬Accepted recorded lineage → Unowned recorded input lineage → claim.admission.isSome) := by
  unfold admitDispatchLineage
  by_cases haccepted : Accepted recorded lineage
  · exact ⟨_, _, if_pos haccepted, rfl, fun hnot => absurd haccepted hnot⟩
  · have hnot : ¬((recorded.acceptedDescriptor lineage).isSome ∨
        (recorded.findSettlement lineage.taskID lineage.dispatchID).isSome) := haccepted
    rw [if_neg hnot, hcoordination]
    by_cases hunowned : Unowned recorded input lineage
    · have hnew : NewLeaseID recorded input := by
        rcases h with h | h | h
        · exact absurd h haccepted
        · exact absurd hunowned h
        · exact h
      obtain ⟨_, hacquire⟩ := (exists_acquired_iff owner).mpr ⟨hunowned, hnew⟩
      rw [hacquire]
      exact ⟨_, _, rfl, rfl, fun _ _ => rfl⟩
    · have howned := hunowned
      unfold Unowned at howned
      simp only [not_forall, not_le] at howned
      obtain ⟨current, hcurrent, hlive⟩ := howned
      have hblocked : (input.acquisition owner lineage).BlockedBy current :=
        ⟨hlive, some_ne_none _⟩
      have hduration : ¬(input.acquisition owner lineage).leaseMilliseconds ≤ 0 := by
        change ¬dispatchAdmissionLeaseMilliseconds ≤ 0
        decide
      have hacquire : acquireControlLeaseInTransaction recorded.leases (input.acquisition owner lineage) =
          .ok (⟨false, current⟩, recorded.leases) := by
        unfold acquireControlLeaseInTransaction
        have htarget : currentControlLeaseInTransaction recorded.leases (input.acquisition owner lineage).target
            (input.acquisition owner lineage).targetID = some current := hcurrent
        rw [if_neg hduration, htarget]
        exact if_pos hblocked
      rw [hacquire]
      exact ⟨_, _, rfl, rfl, fun _ h => absurd h hunowned⟩

lemma Insertable.answered (h : Insertable store input owner epoch)
    (hanswered : Accepted store (input.claimed owner epoch) ∨ ¬Unowned store input (input.claimed owner epoch) ∨
      NewLeaseID store input) :
    ∃ claim store', claimDispatchLineage store input = .ok (claim, store') ∧
      claim.lineage = input.claimed owner epoch ∧ store' ≠ store := by
  obtain ⟨claim, store', hadmit, hartifacts, -⟩ := exists_admission owner true
    (coordination_withArtifact h.coordination) (hanswered.imp_left accepted_withArtifact.mpr)
  have hrecorded : recordOrResolve store input = .ok (input.claimed owner epoch, true,
      store.withArtifact (input.claimed owner epoch).artifact) :=
    recordOrResolve_eq_ok.mpr (Or.inl ⟨owner, epoch, h, rfl, rfl, rfl⟩)
  refine ⟨claim, store', ?_, (admission_of_admitDispatchLineage hadmit).1, ?_⟩
  · unfold claimDispatchLineage
    rw [h.process, hrecorded]
    exact hadmit
  · rintro rfl
    have hlength := congrArg List.length hartifacts
    unfold withArtifact at hlength
    rw [length_append, length_singleton] at hlength
    omega

lemma Repeats.granted (h : Repeats store input lineage) (hprocess : input.process.occurrenceID.isSome)
    (hgrantable : Grantable store input lineage) :
    ∃ claim store', claimDispatchLineage store input = .ok (claim, store') ∧ claim.lineage = lineage ∧
      claim.admission.isSome := by
  obtain ⟨owner, howner⟩ := isSome_iff_exists.mp hprocess
  obtain ⟨claim, store', hadmit, -, hgranted⟩ := exists_admission owner false
    hgrantable.coordination (Or.inr (Or.inr hgrantable.leaseID))
  have hrecorded : recordOrResolve store input = .ok (lineage, false, store) :=
    recordOrResolve_eq_ok.mpr (Or.inr ⟨h, rfl, rfl⟩)
  refine ⟨claim, store', ?_, (admission_of_admitDispatchLineage hadmit).1,
    hgranted hgrantable.notAccepted hgrantable.unowned⟩
  unfold claimDispatchLineage
  rw [howner, hrecorded]
  exact hadmit

variable {admission : Option DispatchAdmissionOwner}

lemma Admission.answered (h : Admission store input owner lineage admission store') :
    Accepted store lineage ∨ ¬Unowned store input lineage ∨ NewLeaseID store input := by
  cases h with
  | accepted haccepted => exact Or.inl haccepted
  | owned current _ hcurrent hlive =>
    exact Or.inr (Or.inl fun hunowned => absurd (hunowned current hcurrent) (not_le.mpr hlive))
  | granted leases _ _ hacquire => exact Or.inr (Or.inr ((exists_acquired_iff _).mp ⟨leases, hacquire⟩).2)

lemma Admission.grantable_or (h : Admission store input owner lineage admission store') :
    Grantable store input lineage ∨ admission = none ∧ store' = store := by
  cases h with
  | accepted | owned => exact Or.inr ⟨rfl, rfl⟩
  | granted leases hnot hcoordination hacquire =>
    obtain ⟨hunowned, hnew⟩ := (exists_acquired_iff _).mp ⟨leases, hacquire⟩
    exact Or.inl ⟨hnot, hcoordination, hunowned, hnew⟩

theorem admitsOnlyOpen_claim_iff : AdmitsOnlyOpen store (.claim input) ↔ ClaimsOpenTask store input := by
  constructor
  · intro h
    constructor
    · intro owner epoch hinsertable hanswered
      obtain ⟨claim, store', hclaim, hlineage, hchanged⟩ := hinsertable.answered hanswered
      rcases h (claim, store') (toOption_eq_some.mpr hclaim) with hopen | ⟨-, hsame⟩
      · rw [hlineage] at hopen
        exact hinsertable.openFor_iff.mp hopen
      · exact absurd hsame hchanged
    · intro lineage hrepeats hprocess hgrantable
      obtain ⟨claim, store', hclaim, hlineage, hgranted⟩ := hrepeats.granted hprocess hgrantable
      rcases h (claim, store') (toOption_eq_some.mpr hclaim) with hopen | ⟨hnone, -⟩
      · rwa [hlineage] at hopen
      · change claim.admission = none at hnone
        rw [hnone] at hgranted
        cases hgranted
  · rintro h ⟨claim, _⟩ hanswer
    have hclaim := toOption_eq_some.mp hanswer
    obtain ⟨owner, howner, ⟨epoch, hinsertable, hlineage, hadmission⟩ | ⟨hrepeats, hadmission⟩⟩ :=
      claimDispatchLineage_cases hclaim
    · left
      change OpenFor store claim.lineage input.clock
      rw [hlineage] at hadmission ⊢
      refine hinsertable.openFor_iff.mpr (h.first owner epoch hinsertable ?_)
      exact hadmission.answered.imp_left accepted_withArtifact.mp
    · rcases hadmission.grantable_or with hgrantable | hunchanged
      · exact Or.inl (h.repeated claim.lineage hrepeats (by rw [howner]; rfl) hgrantable)
      · exact Or.inr hunchanged

theorem admitsOnlyOpen_iff {label : DispatchLabel} : AdmitsOnlyOpen store label ↔ ClaimsOnlyOpen store label := by
  cases label with
  | claim => exact admitsOnlyOpen_claim_iff
  | _ => exact Iff.rfl

/-- In every run, all claims are answered for open Tasks exactly when all of them meet the condition. -/
theorem admitsOnlyOpen_of_run (labels : List DispatchLabel) :
    Within dispatchStep AdmitsOnlyOpen store labels ↔ Within dispatchStep ClaimsOnlyOpen store labels := by
  induction labels generalizing store with
  | nil => exact Iff.rfl
  | cons _ _ ih =>
    unfold Within
    rw [admitsOnlyOpen_iff]
    exact and_congr_right fun _ => forall_congr' fun next => imp_congr_right fun _ => ih

end Claims

def cancelledClaims : List DispatchLabel := [
  .lifecycle "opened" "task" 1 .opened,
  .otherLeases orchestratorLeases,
  .claim (builderClaim 10 "artifact" "lease_1"),
  .lifecycle "requested" "task" 20 .requestCancellation,
  .claim (builderClaim 130000 "other" "lease_2")]

/-- The second claim is admitted although the Task is being cancelled. -/
theorem not_admitsOnlyOpen_cancelled : (exec dispatchStep (.empty directDispatch) cancelledClaims).isSome ∧
      ¬Within dispatchStep AdmitsOnlyOpen (.empty directDispatch) cancelledClaims := by
  decide

end OpenCorvus.Dispatch
