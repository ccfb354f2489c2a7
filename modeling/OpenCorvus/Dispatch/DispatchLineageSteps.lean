import OpenCorvus.Dispatch.DispatchLineage
import OpenCorvus.Engine.TaskLifecycleLog

/-!
# What the dispatch transactions write

A claim inserts a lineage when the insertion passes all of its checks, and otherwise resolves the lineage of its
occurrence.  The file says what each transaction can write, and has the system of the transactions on the store:
claims, renewals and releases of admissions, Turns, settlements, and what other services write.
-/

namespace OpenCorvus.Dispatch

open Transaction Engine List

def ClaimDispatchLineageInput.claimed (input : ClaimDispatchLineageInput) (owner : String) (epoch : ℕ) :
    DispatchLineageRow :=
  ⟨input.artifactID, input.origin.taskID, input.origin.payload input.childSessionID epoch owner input.now⟩

def DispatchLineageRow.artifact (lineage : DispatchLineageRow) : EngineArtifact :=
  ⟨lineage.artifactID, lineage.taskID, .dispatchLineage lineage.payload, lineage.payload.timeCreated⟩

def DispatchStore.withArtifact (store : DispatchStore) (row : EngineArtifact) : DispatchStore :=
  { store with artifacts := store.artifacts ++ [row] }

structure Insertable (store : DispatchStore) (input : ClaimDispatchLineageInput) (owner : String) (epoch : ℕ) :
    Prop where
  process : input.process.occurrenceID = some owner
  slices : assertCurrentDeliverySliceRevisionIDs store input.origin.taskID input.origin.sliceRevisionIDs
    "Dispatch lineage" = .ok ()
  creator : dispatchCreatorExecutionEpochInTransaction store input.origin = .ok epoch
  wellFormed : (input.claimed owner epoch).payload.WellFormed
  liveness : (assertProcessLivenessOwnerInTransaction input.process.liveness store.leases owner
    input.now).1 = .ok ()
  notCancelling : taskCancellationAuthorityExecutionErrorInTransaction store input.origin.taskID
    ("dispatch_agent " ++ input.origin.targetAgentID ++ " lineage commit") = .ok none
  task : store.task input.origin.taskID ≠ none
  notEnded : projectTaskRowInTransaction store input.origin.taskID = .ok none
  notClosing : taskCompletionClosureInTransaction store input.origin.taskID input.clock = .ok none
  workflow : assertTaskWorkflowBindingInTransaction store input.origin.taskID input.origin.workflowBinding = .ok ()
  coordination : assertCoordinationDispatchAdmissionInTransaction store input.origin.taskID
    input.origin.coordinationActionID input.childSessionID input.origin.targetAgentID = .ok ()
  continuation : assertDispatchContinuationInTransaction store input.origin input.childSessionID = .ok ()
  node : assertWorkflowNodeLineageAdmissionInTransaction store input.origin input.childSessionID = .ok ()
  fresh : Fresh store.artifacts (input.claimed owner epoch).artifact

variable {store store' : DispatchStore} {input : ClaimDispatchLineageInput} {lineage : DispatchLineageRow}
  {owner : String} {epoch : ℕ}

theorem recordDispatchLineage_eq_ok : recordDispatchLineage store input = .ok (lineage, store') ↔
    ∃ owner epoch, Insertable store input owner epoch ∧ lineage = input.claimed owner epoch ∧
      store' = store.withArtifact lineage.artifact := by
  unfold recordDispatchLineage
  simp only [bind_eq_ok, throwWhen_eq_ok, throwSome_eq_ok, getOrThrow_eq_ok, mapError_eq_ok, pure_eq_ok,
    not_not, Option.map_eq_none_iff, insertEngineArtifact_eq_ok, Prod.mk.injEq]
  constructor
  · rintro ⟨owner, howner, ⟨⟩, hslices, epoch, hcreator, ⟨⟩, hwellFormed, ⟨⟩, hliveness, _,
      hcancellation, ⟨⟩, hnone, ⟨⟩, htask, completed, hended, ⟨⟩, hopen, closure, hclosure, ⟨⟩, hclosing, ⟨⟩,
      hworkflow, ⟨⟩, -, ⟨⟩, hcoordination, ⟨⟩, hcontinuation, ⟨⟩, hnode, inserted, ⟨hfresh, hinserted⟩,
      hlineage, hstore⟩
    subst hnone hopen hclosing
    refine ⟨owner, epoch, ⟨howner, hslices, hcreator, hwellFormed, hliveness, hcancellation, htask, hended,
      hclosure, hworkflow, hcoordination, hcontinuation, hnode, hfresh⟩, hlineage.symm, ?_⟩
    rw [← hstore, hinserted, ← hlineage]
    rfl
  · rintro ⟨owner, epoch, h, rfl, rfl⟩
    exact ⟨owner, h.process, (), h.slices, epoch, h.creator, (), h.wellFormed, (), h.liveness, none,
      h.notCancelling, (), rfl, (), h.task, none, h.notEnded, (), rfl, none, h.notClosing, (), rfl, (),
      h.workflow, (), h.slices, (), h.coordination, (), h.continuation, (), h.node, _, ⟨h.fresh, rfl⟩, rfl, rfl⟩

structure Repeats (store : DispatchStore) (input : ClaimDispatchLineageInput) (lineage : DispatchLineageRow) :
    Prop where
  notInsertable : ∀ owner epoch, ¬Insertable store input owner epoch
  found : occurrenceLineage store input.origin = .ok (some lineage)
  isMatch : dispatchLineageMatchesClaim lineage input.origin input.childSessionID

theorem recordOrResolve_eq_ok {createdNow : Bool} {recorded : DispatchStore} :
    recordOrResolve store input = .ok (lineage, createdNow, recorded) ↔
      (∃ owner epoch, Insertable store input owner epoch ∧ lineage = input.claimed owner epoch ∧
        createdNow = true ∧ recorded = store.withArtifact lineage.artifact) ∨
      (Repeats store input lineage ∧ createdNow = false ∧ recorded = store) := by
  unfold recordOrResolve
  cases hrecord : recordDispatchLineage store input with
  | ok answer =>
    obtain ⟨_, _⟩ := answer
    obtain ⟨owner, epoch, hinsertable, hrow, hinserted⟩ := recordDispatchLineage_eq_ok.mp hrecord
    simp only [Except.ok.injEq, Prod.mk.injEq]
    constructor
    · rintro ⟨rfl, rfl, rfl⟩
      exact Or.inl ⟨owner, epoch, hinsertable, hrow, rfl, hinserted⟩
    · rintro (⟨owner', epoch', hinsertable', rfl, rfl, rfl⟩ | ⟨hrepeats, -⟩)
      · have hagain := recordDispatchLineage_eq_ok.mpr ⟨owner', epoch', hinsertable', rfl, rfl⟩
        rw [hrecord, Except.ok.injEq, Prod.mk.injEq] at hagain
        exact ⟨hagain.1, rfl, hagain.2⟩
      · exact absurd hinsertable (hrepeats.notInsertable owner epoch)
  | error =>
    have hnone : ∀ owner epoch, ¬Insertable store input owner epoch := by
      intro owner epoch hinsertable
      have hok := recordDispatchLineage_eq_ok.mpr ⟨owner, epoch, hinsertable, rfl, rfl⟩
      rw [hrecord] at hok
      cases hok
    simp only [bind_eq_ok, getOrThrow_eq_ok, throwWhen_eq_ok, not_not, pure_eq_ok, Prod.mk.injEq]
    constructor
    · rintro ⟨_, hfound, _, rfl, ⟨⟩, hmatch, rfl, rfl, rfl⟩
      exact Or.inr ⟨⟨hnone, hfound, hmatch⟩, rfl, rfl⟩
    · rintro (⟨owner, epoch, hinsertable, -⟩ | ⟨hrepeats, rfl, rfl⟩)
      · exact absurd hinsertable (hnone owner epoch)
      · exact ⟨some lineage, hrepeats.found, lineage, rfl, (), hrepeats.isMatch, rfl, rfl, rfl⟩

def Accepted (store : DispatchStore) (lineage : DispatchLineageRow) : Prop :=
  (store.acceptedDescriptor lineage).isSome ∨ (store.findSettlement lineage.taskID lineage.dispatchID).isSome

instance (store : DispatchStore) (lineage : DispatchLineageRow) : Decidable (Accepted store lineage) :=
  inferInstanceAs (Decidable (_ ∨ _))

inductive Admission (store : DispatchStore) (input : ClaimDispatchLineageInput) (owner : String)
    (lineage : DispatchLineageRow) : Option DispatchAdmissionOwner → DispatchStore → Prop
  /-- The dispatch is accepted. -/
  | accepted : Accepted store lineage → Admission store input owner lineage none store
  /-- Another admission is live. -/
  | owned (current : ControlLease) : ¬Accepted store lineage →
      currentControlLeaseInTransaction store.leases .dispatchAdmission lineage.artifactID = some current →
      input.now < current.expiresAt → Admission store input owner lineage none store
  /-- The admission is granted. -/
  | granted (leases : ControlLeaseTables) : ¬Accepted store lineage →
      assertCoordinationDispatchAdmissionInTransaction store input.origin.taskID
        input.origin.coordinationActionID input.childSessionID input.origin.targetAgentID = .ok () →
      acquireControlLeaseInTransaction store.leases (input.acquisition owner lineage) =
        .ok (⟨true, (input.acquisition owner lineage).lease⟩, leases) →
      Admission store input owner lineage
        (some (dispatchAdmissionOwner lineage.artifactID (input.acquisition owner lineage).lease))
        { store with leases := leases }

theorem admission_of_admitDispatchLineage {createdNow : Bool} {claim : DispatchClaim}
    (h : admitDispatchLineage store input owner lineage createdNow = .ok (claim, store')) :
    claim.lineage = lineage ∧ claim.createdNow = createdNow ∧
      Admission store input owner lineage claim.admission store' := by
  unfold admitDispatchLineage at h
  split_ifs at h with haccepted
  · rw [Except.ok.injEq, Prod.mk.injEq] at h
    obtain ⟨rfl, rfl⟩ := h
    exact ⟨rfl, rfl, .accepted haccepted⟩
  · obtain ⟨⟨⟩, hcoordination, hrest⟩ := bind_eq_ok.mp h
    obtain ⟨⟨_, leases⟩, hacquire, hanswer⟩ := bind_eq_ok.mp hrest
    rw [mapError_eq_ok] at hacquire
    rw [pure_eq_ok, Prod.mk.injEq] at hanswer
    obtain ⟨rfl, rfl⟩ := hanswer
    refine ⟨rfl, rfl, ?_⟩
    rcases acquireControlLease_eq_ok hacquire with ⟨current, hcurrent, hblocked, rfl, rfl⟩ | ⟨rfl, -⟩
    · exact .owned current haccepted hcurrent hblocked.1
    · exact .granted leases haccepted hcoordination hacquire

theorem claimDispatchLineage_cases {claim : DispatchClaim}
    (h : claimDispatchLineage store input = .ok (claim, store')) :
    ∃ owner, input.process.occurrenceID = some owner ∧
      ((∃ epoch, Insertable store input owner epoch ∧ claim.lineage = input.claimed owner epoch ∧
          Admission (store.withArtifact (input.claimed owner epoch).artifact) input owner claim.lineage
            claim.admission store') ∨
        (Repeats store input claim.lineage ∧
          Admission store input owner claim.lineage claim.admission store')) := by
  obtain ⟨owner, howner, hrest⟩ := bind_eq_ok.mp h
  rw [getOrThrow_eq_ok] at howner
  obtain ⟨⟨_, _, _⟩, hrecorded, hadmit⟩ := bind_eq_ok.mp hrest
  obtain ⟨rfl, -, hadmission⟩ := admission_of_admitDispatchLineage hadmit
  refine ⟨owner, howner, ?_⟩
  rcases recordOrResolve_eq_ok.mp hrecorded with ⟨owner', epoch, hinsertable, hlineage, -, rfl⟩ |
      ⟨hrepeats, -, rfl⟩
  · obtain rfl : owner' = owner := Option.some.inj (hinsertable.process.symm.trans howner)
    refine Or.inl ⟨epoch, hinsertable, hlineage, ?_⟩
    rwa [← hlineage]
  · exact Or.inr ⟨hrepeats, hadmission⟩

structure CommitDispatchLineageInput where
  lineage : DispatchLineageRow
  admission : Option DispatchAdmissionOwner
  outcome : Option EngineArtifact
  now : ℤ

def insertFact (store : DispatchStore) (row : EngineArtifact) : Except DispatchError DispatchStore := do
  throwWhen (row.lineage.isSome ∨ row.settlement.isSome) (.error "not a coordination fact")
  insertEngineArtifact store row

def CommitDispatchLineageInput.run (store : DispatchStore) (input : CommitDispatchLineageInput) :
    Except DispatchError DispatchStore :=
  commitDispatchLineageSession store input.lineage input.admission
    (fun store => match input.outcome with
      | none => .ok store
      | some row => insertFact store row) input.now

/-- What the services do to the store. -/
inductive DispatchLabel where
  | claim (input : ClaimDispatchLineageInput)
  | renew (owner : DispatchAdmissionOwner) (now : ℤ)
  | release (owner : DispatchAdmissionOwner) (now : ℤ)
  /-- Persist the descriptor of a Turn, and commit its Session in the same transaction. -/
  | persist (descriptor : WorkerTurnDescriptor) (onPersisted : Option CommitDispatchLineageInput)
  | commit (input : CommitDispatchLineageInput)
  | settle (taskID dispatchID artifactID : String) (outcome : DispatchOutcome) (now : ℤ)
  | settleOrReturnExisting (taskID dispatchID artifactID : String) (outcome : DispatchOutcome) (now : ℤ)
  /-- Another service writes an artifact. -/
  | fact (row : EngineArtifact)
  | lifecycle (id taskID : String) (now : ℤ) (write : TaskLifecycleWrite)
  /-- The leases of other targets change. -/
  | otherLeases (tables : ControlLeaseTables)
  /-- What is read of other services changes. -/
  | surroundings (read : DispatchSurroundings)

def DispatchLabel.run (store : DispatchStore) : DispatchLabel → Except DispatchError DispatchStore
  | claim input => (claimDispatchLineage store input).map Prod.snd
  | renew owner now => renewDispatchAdmission store owner now
  | release owner now => .ok (releaseDispatchAdmission store owner now).2
  | persist descriptor onPersisted => do
    let persisted ← persistPrepared store descriptor
    match onPersisted with
    | none => return persisted
    | some input => input.run persisted
  | commit input => input.run store
  | settle taskID dispatchID artifactID outcome now =>
    (recordDispatchSettlement store taskID dispatchID artifactID outcome now).map fun answer => answer.2.2
  | settleOrReturnExisting taskID dispatchID artifactID outcome now =>
    (settleDispatchOrReturnExisting store taskID dispatchID artifactID outcome now).map fun answer =>
      answer.2.2
  | fact row => insertFact store row
  | lifecycle id taskID now write => do
    let events ← (writeTaskLifecycle store.events id taskID now write).mapError .engine
    return { store with events := events }
  | otherLeases tables =>
    .ok { store with leases := store.leases.withOtherLeases .dispatchAdmission tables }
  | surroundings read => .ok { store with surroundings := read }

/-- A transaction that raises an error leaves the store as it is. -/
def dispatchStep (store : DispatchStore) (label : DispatchLabel) : Option DispatchStore :=
  (label.run store).toOption

def DispatchStore.empty (surroundings : DispatchSurroundings) : DispatchStore :=
  ⟨[], [], [], ⟨[], []⟩, surroundings⟩

inductive AppendsFact (artifacts : List EngineArtifact) : List EngineArtifact → Prop
  | none : AppendsFact artifacts artifacts
  | fact (row : EngineArtifact) : Fresh artifacts row → row.lineage = none →
      AppendsFact artifacts (artifacts ++ [row])

inductive AppendsArtifact (store : DispatchStore) : List EngineArtifact → Prop
  | other (artifacts : List EngineArtifact) : AppendsFact store.artifacts artifacts →
      AppendsArtifact store artifacts
  | lineage (input : ClaimDispatchLineageInput) (owner : String) (epoch : ℕ) : Insertable store input owner epoch →
      AppendsArtifact store (store.artifacts ++ [(input.claimed owner epoch).artifact])

def KeepsAdmissions (leases leases' : ControlLeaseTables) : Prop :=
  ∀ lease ∈ leases.rowsOf .dispatchAdmission, ∃ kept ∈ leases'.rowsOf .dispatchAdmission, kept.id = lease.id

lemma KeepsAdmissions.refl (leases : ControlLeaseTables) : KeepsAdmissions leases leases :=
  fun lease hlease => ⟨lease, hlease, rfl⟩

open KeepsAdmissions

structure DispatchEffect (store store' : DispatchStore) : Prop where
  artifacts : AppendsArtifact store store'.artifacts
  descriptors : store.descriptors <+: store'.descriptors
  admissions : KeepsAdmissions store.leases store'.leases

lemma mem_rowsOf {leases : ControlLeaseTables} {target : EngineControlActivationTarget} {lease : ControlLease} :
    lease ∈ leases.rowsOf target ↔ lease ∈ leases.leases ∧ lease.target = target := by
  simp [ControlLeaseTables.rowsOf]

lemma keepsAdmissions_of_moves {leases leases' : ControlLeaseTables} {leaseID : String}
    (h : Moves leases leases' leaseID) : KeepsAdmissions leases leases' := by
  obtain ⟨f, hleases, hf⟩ := h
  intro lease hlease
  obtain ⟨hmem, htarget⟩ := mem_rowsOf.mp hlease
  have hkept : f lease ∈ leases'.leases := by
    rw [hleases]
    exact List.mem_map_of_mem hmem
  exact ⟨f lease, mem_rowsOf.mpr ⟨hkept, (hf lease).1.target.trans htarget⟩, (hf lease).1.id⟩

lemma keepsAdmissions_of_release (leases : ControlLeaseTables) (claim : ControlLeaseClaim) :
    KeepsAdmissions leases (releaseControlLeaseInTransaction leases claim).2 := by
  cases hrelease : releaseControlLeaseInTransaction leases claim with
  | mk released =>
    cases released with
    | false =>
      rw [releaseControlLease_of_false hrelease]
      exact refl _
    | true => exact keepsAdmissions_of_moves (release_moves hrelease).1

lemma acquired_of_eq_ok {leases leases' : ControlLeaseTables} {acquisition : AcquireControlLeaseInput}
    {lease : ControlLease} (h : acquireControlLeaseInTransaction leases acquisition = .ok (⟨true, lease⟩, leases')) :
    lease = acquisition.lease ∧ leases'.leases = leases.leases ++ [lease] ∧
      ∀ row ∈ leases.leases, row.id ≠ lease.id := by
  rcases acquireControlLease_eq_ok h with ⟨_, -, -, hresult, -⟩ | ⟨hresult, hleases, -, -, hfresh, -⟩
  · cases hresult
  · rw [ControlLeaseAcquisition.mk.injEq] at hresult
    rw [hresult.2]
    exact ⟨rfl, hleases, hfresh⟩

lemma Admission.effect {admission : Option DispatchAdmissionOwner}
    (h : Admission store input owner lineage admission store') :
    store'.artifacts = store.artifacts ∧ store'.descriptors = store.descriptors ∧
      KeepsAdmissions store.leases store'.leases := by
  cases h with
  | accepted | owned => exact ⟨rfl, rfl, refl _⟩
  | granted leases _ _ hacquire =>
    refine ⟨rfl, rfl, fun lease hlease => ⟨lease, ?_, rfl⟩⟩
    obtain ⟨-, hleases, -⟩ := acquired_of_eq_ok hacquire
    obtain ⟨hmem, htarget⟩ := mem_rowsOf.mp hlease
    refine mem_rowsOf.mpr ⟨?_, htarget⟩
    change lease ∈ leases.leases
    rw [hleases]
    exact mem_append_left _ hmem

lemma claimDispatchLineage_effect {claim : DispatchClaim}
    (h : claimDispatchLineage store input = .ok (claim, store')) : DispatchEffect store store' := by
  obtain ⟨owner, -, ⟨epoch, hinsertable, -, hadmission⟩ | ⟨-, hadmission⟩⟩ := claimDispatchLineage_cases h
  · obtain ⟨hartifacts, hdescriptors, hadmissions⟩ := hadmission.effect
    refine ⟨?_, hdescriptors ▸ prefix_rfl, hadmissions⟩
    rw [hartifacts]
    exact .lineage input owner epoch hinsertable
  · obtain ⟨hartifacts, hdescriptors, hadmissions⟩ := hadmission.effect
    refine ⟨?_, hdescriptors ▸ prefix_rfl, hadmissions⟩
    rw [hartifacts]
    exact .other _ .none

lemma insertFact_effect {row : EngineArtifact} (h : insertFact store row = .ok store') :
    AppendsFact store.artifacts store'.artifacts ∧ store'.descriptors = store.descriptors ∧
      store'.leases = store.leases := by
  obtain ⟨hkind, hinsert⟩ := throwWhen_bind_eq_ok.mp h
  obtain ⟨hfresh, rfl⟩ := insertEngineArtifact_eq_ok.mp hinsert
  rw [not_or, Option.not_isSome_iff_eq_none] at hkind
  exact ⟨.fact row hfresh hkind.1, rfl, rfl⟩

lemma consumeDispatchAdmission_eq_ok {admission : Option DispatchAdmissionOwner} {now : ℤ}
    (h : consumeDispatchAdmission store lineage admission now = .ok store') :
    store'.artifacts = store.artifacts ∧ store'.descriptors = store.descriptors ∧
      KeepsAdmissions store.leases store'.leases := by
  cases admission with
  | none =>
    rw [← Except.ok.inj h]
    exact ⟨rfl, rfl, refl _⟩
  | some =>
    replace h := of_throwWhen h
    rw [← pure_eq_ok.mp h]
    exact ⟨rfl, rfl, keepsAdmissions_of_release _ _⟩

lemma commit_effect {input : CommitDispatchLineageInput} (h : input.run store = .ok store') :
    AppendsFact store.artifacts store'.artifacts ∧ store'.descriptors = store.descriptors ∧
      KeepsAdmissions store.leases store'.leases := by
  replace h := of_check h
  replace h := of_throwWhen h
  obtain ⟨accepted, haccepted, h⟩ := bind_eq_ok.mp h
  have hfact : AppendsFact store.artifacts accepted.artifacts ∧ accepted.descriptors = store.descriptors ∧
      accepted.leases = store.leases := by
    split at haccepted
    · rw [← Except.ok.inj haccepted]
      exact ⟨.none, rfl, rfl⟩
    · exact insertFact_effect haccepted
  obtain ⟨hartifacts, hdescriptors, hleases⟩ := hfact
  obtain ⟨hartifacts', hdescriptors', hadmissions⟩ := consumeDispatchAdmission_eq_ok h
  rw [hartifacts', hdescriptors']
  exact ⟨hartifacts, hdescriptors, hleases ▸ hadmissions⟩

lemma persistPrepared_eq_ok {descriptor : WorkerTurnDescriptor}
    (h : persistPrepared store descriptor = .ok store') :
    store' = { store with descriptors := store.descriptors ++ [descriptor] } := by
  replace h := of_throwWhen h
  replace h := of_throwWhen h
  exact (pure_eq_ok.mp h).symm

lemma recordDispatchSettlement_effect {taskID dispatchID artifactID : String} {outcome : DispatchOutcome}
    {now : ℤ} {row : EngineArtifact} {payload : DispatchSettlementPayload}
    (h : recordDispatchSettlement store taskID dispatchID artifactID outcome now =
      .ok (row, payload, store')) : DispatchEffect store store' := by
  replace h := of_throwWhen h
  obtain ⟨_, h⟩ := of_bind h
  obtain ⟨_, h⟩ := of_bind h
  replace h := of_throwWhen h
  split at h
  · replace h := of_throwWhen h
    rw [pure_eq_ok, Prod.mk.injEq, Prod.mk.injEq] at h
    rw [← h.2.2]
    exact ⟨.other _ .none, prefix_rfl, refl _⟩
  · obtain ⟨_, hinsert, h⟩ := bind_eq_ok.mp h
    obtain ⟨hfresh, rfl⟩ := insertEngineArtifact_eq_ok.mp hinsert
    rw [pure_eq_ok, Prod.mk.injEq, Prod.mk.injEq] at h
    rw [← h.2.2]
    exact ⟨.other _ (.fact _ hfresh rfl), prefix_rfl, refl _⟩

theorem dispatchEffect_of_step {label : DispatchLabel} (h : dispatchStep store label = some store') :
    DispatchEffect store store' := by
  unfold dispatchStep at h
  rw [toOption_eq_some] at h
  cases label with
  | claim =>
    obtain ⟨⟨_, _⟩, hclaim, rfl⟩ := map_eq_ok.mp h
    exact claimDispatchLineage_effect hclaim
  | renew =>
    obtain ⟨_, hrenew, h⟩ := bind_eq_ok.mp h
    rw [mapError_eq_ok] at hrenew
    rw [← pure_eq_ok.mp h]
    exact ⟨.other _ .none, prefix_rfl, keepsAdmissions_of_moves (renew_moves hrenew).1⟩
  | release =>
    rw [← Except.ok.inj h]
    exact ⟨.other _ .none, prefix_rfl, keepsAdmissions_of_release _ _⟩
  | persist _ onPersisted =>
    obtain ⟨_, hpersist, h⟩ := bind_eq_ok.mp h
    obtain rfl := persistPrepared_eq_ok hpersist
    cases onPersisted with
    | none =>
      rw [← pure_eq_ok.mp h]
      exact ⟨.other _ .none, prefix_append _ _, refl _⟩
    | some =>
      obtain ⟨hartifacts, hdescriptors, hadmissions⟩ := commit_effect h
      exact ⟨.other _ hartifacts, hdescriptors ▸ prefix_append _ _, hadmissions⟩
  | commit =>
    obtain ⟨hartifacts, hdescriptors, hadmissions⟩ := commit_effect h
    exact ⟨.other _ hartifacts, hdescriptors ▸ prefix_rfl, hadmissions⟩
  | settle =>
    obtain ⟨⟨_, _, _⟩, hsettle, rfl⟩ := map_eq_ok.mp h
    exact recordDispatchSettlement_effect hsettle
  | settleOrReturnExisting =>
    obtain ⟨⟨_, _, _⟩, hsettle, rfl⟩ := map_eq_ok.mp h
    replace hsettle := of_throwWhen hsettle
    split at hsettle
    · rw [pure_eq_ok, Prod.mk.injEq, Prod.mk.injEq] at hsettle
      rw [← hsettle.2.2]
      exact ⟨.other _ .none, prefix_rfl, refl _⟩
    · exact recordDispatchSettlement_effect hsettle
  | fact =>
    obtain ⟨hartifacts, hdescriptors, hleases⟩ := insertFact_effect h
    refine ⟨.other _ hartifacts, hdescriptors ▸ prefix_rfl, ?_⟩
    rw [hleases]
    exact refl _
  | lifecycle =>
    obtain ⟨_, h⟩ := of_bind h
    rw [← pure_eq_ok.mp h]
    exact ⟨.other _ .none, prefix_rfl, refl _⟩
  | otherLeases tables =>
    rw [← Except.ok.inj h]
    refine ⟨.other _ .none, prefix_rfl, fun lease hlease => ⟨lease, ?_, rfl⟩⟩
    change lease ∈ (store.leases.withOtherLeases .dispatchAdmission tables).rowsOf .dispatchAdmission
    rwa [withOtherLeases_rowsOf]
  | surroundings =>
    rw [← Except.ok.inj h]
    exact ⟨.other _ .none, prefix_rfl, refl _⟩

end OpenCorvus.Dispatch
