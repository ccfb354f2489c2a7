import Mathlib.Logic.Relation
import OpenCorvus.Dispatch.DispatchLineageSteps

/-!
# One Turn for each dispatch occurrence

However the transactions interleave, a Tool occurrence or a member of a collection has at most one lineage, a node
of the workflow of a Task has at most one initial lineage, and every continuation shares the Session, the node, the
occurrence and the workflow of the initial lineage of its chain.  At most one admission of a lineage is valid at any
instant, and none is granted once its Turn is durable or its dispatch is settled.
-/

namespace OpenCorvus.Dispatch

open Transaction Engine ExecutableSystem Relation List Option

/-! ## Lineages -/

variable (artifacts : List EngineArtifact)

def lineageRows : List DispatchLineageRow :=
  artifacts.filterMap dispatchLineageRow

def Continues (later source : DispatchLineageRow) : Prop :=
  source ∈ lineageRows artifacts ∧ source.taskID = later.taskID ∧
    later.payload.continuationOfDispatchID = some source.dispatchID

def InitialOf (lineage initial : DispatchLineageRow) : Prop :=
  ReflTransGen (Continues artifacts) lineage initial ∧ initial.payload.continuationOfDispatchID = none

structure SharesOccurrence (lineage other : DispatchLineageRow) : Prop where
  session : lineage.payload.childSessionID = other.payload.childSessionID
  node : lineage.payload.workflowNodeID = other.payload.workflowNodeID
  occurrence : lineage.payload.workflowOccurrenceID = other.payload.workflowOccurrenceID
  binding : lineage.payload.workflowBinding = other.payload.workflowBinding

structure OccurrencesUnique (artifacts : List EngineArtifact) : Prop where
  direct : ∀ lineage ∈ lineageRows artifacts, ∀ other ∈ lineageRows artifacts,
    lineage.taskID = other.taskID → lineage.payload.toolName = .dispatchAgent →
    other.payload.toolName = .dispatchAgent → lineage.payload.toolPartID = other.payload.toolPartID →
    lineage.payload.toolCallID = other.payload.toolCallID → lineage = other
  member : ∀ lineage ∈ lineageRows artifacts, ∀ other ∈ lineageRows artifacts,
    lineage.taskID = other.taskID → lineage.payload.toolName = .dispatchAgents →
    other.payload.toolName = .dispatchAgents → lineage.payload.toolPartID = other.payload.toolPartID →
    lineage.payload.toolCallID = other.payload.toolCallID →
    lineage.payload.collectionMemberIndex = other.payload.collectionMemberIndex → lineage = other
  initial : ∀ lineage ∈ lineageRows artifacts, ∀ other ∈ lineageRows artifacts,
    lineage.taskID = other.taskID → lineage.payload.IsInitial → other.payload.IsInitial →
    ∀ nodeID, lineage.payload.workflowNodeID = some nodeID → other.payload.workflowNodeID = some nodeID →
    lineage = other

def ContinuationsShare : Prop :=
  ∀ lineage ∈ lineageRows artifacts, (∃ initial, InitialOf artifacts lineage initial) ∧
    ∀ initial, InitialOf artifacts lineage initial →
      SharesOccurrence lineage initial ∧ lineage.payload.workflowOccurrenceID = initial.dispatchID

section Rows

variable {artifacts : List EngineArtifact} {store : DispatchStore} {taskID dispatchID : String}
  {lineage other : DispatchLineageRow} {row : EngineArtifact}

lemma dispatchLineageRow_eq_some : dispatchLineageRow row = some lineage ↔
    row.lineage = some lineage.payload ∧ row.id = lineage.artifactID ∧ row.taskID = lineage.taskID := by
  unfold dispatchLineageRow
  rw [map_eq_some_iff]
  constructor
  · rintro ⟨_, hpayload, rfl⟩
    exact ⟨hpayload, rfl, rfl⟩
  · rintro ⟨hpayload, hid, htask⟩
    exact ⟨lineage.payload, hpayload, by rw [hid, htask]⟩

lemma mem_lineageRows : lineage ∈ lineageRows artifacts ↔
    ∃ row ∈ artifacts, row.lineage = some lineage.payload ∧ row.id = lineage.artifactID ∧
      row.taskID = lineage.taskID := by
  unfold lineageRows
  rw [mem_filterMap]
  simp only [dispatchLineageRow_eq_some]

lemma mem_lineagesOf : lineage ∈ store.lineagesOf taskID ↔
    lineage ∈ lineageRows store.artifacts ∧ lineage.taskID = taskID := by
  unfold DispatchStore.lineagesOf DispatchStore.artifactsOf
  rw [mem_filterMap, mem_lineageRows]
  simp only [mem_filter, decide_eq_true_eq, dispatchLineageRow_eq_some]
  constructor
  · rintro ⟨row, ⟨hrow, htask⟩, hpayload, hid, hsame⟩
    exact ⟨⟨row, hrow, hpayload, hid, hsame⟩, hsame.symm.trans htask⟩
  · rintro ⟨⟨row, hrow, hpayload, hid, hsame⟩, rfl⟩
    exact ⟨row, ⟨hrow, hsame⟩, hpayload, hid, hsame⟩

lemma mem_of_findDispatchLineageByDispatchID
    (h : findDispatchLineageByDispatchID store taskID dispatchID = some lineage) :
    lineage ∈ lineageRows store.artifacts ∧ lineage.taskID = taskID ∧ lineage.dispatchID = dispatchID := by
  obtain ⟨hmem, htask⟩ := mem_lineagesOf.mp (mem_of_find?_eq_some h)
  have hid := find?_some h
  rw [decide_eq_true_eq] at hid
  exact ⟨hmem, htask, hid⟩

lemma Indexed.lineage_eq (h : Indexed artifacts) (index : String × (EngineArtifact → Option (List String)))
    (key : List String) (hindex : index ∈ engineArtifactIndexes) (hlineage : lineage ∈ lineageRows artifacts)
    (hother : other ∈ lineageRows artifacts)
    (hkey : ∀ row : EngineArtifact, row.lineage = some lineage.payload → row.taskID = lineage.taskID →
      index.2 row = some key)
    (hkey' : ∀ row : EngineArtifact, row.lineage = some other.payload → row.taskID = other.taskID →
      index.2 row = some key) : lineage = other := by
  obtain ⟨row, hrow, hpayload, hid, htask⟩ := mem_lineageRows.mp hlineage
  obtain ⟨row', hrow', hpayload', hid', htask'⟩ := mem_lineageRows.mp hother
  have hsame : row = row' := (h index hindex).eq_of_key hrow hrow' (hkey row hpayload htask)
    (hkey' row' hpayload' htask')
  subst hsame
  have hfound := dispatchLineageRow_eq_some.mpr ⟨hpayload, hid, htask⟩
  rw [dispatchLineageRow_eq_some.mpr ⟨hpayload', hid', htask'⟩] at hfound
  exact (some.inj hfound).symm

lemma Indexed.eq_of_dispatchID (h : Indexed artifacts) (hlineage : lineage ∈ lineageRows artifacts)
    (hother : other ∈ lineageRows artifacts) (htask : lineage.taskID = other.taskID)
    (hid : lineage.dispatchID = other.dispatchID) : lineage = other := by
  refine h.lineage_eq ("engine_dispatch_lineage_dispatch_id_idx", EngineArtifact.dispatchIDKey)
    [lineage.taskID, lineage.dispatchID] (by simp [engineArtifactIndexes]) hlineage hother
    (fun row hpayload hrow => ?_) (fun row hpayload hrow => ?_)
  · simp [EngineArtifact.dispatchIDKey, hpayload, hrow, DispatchLineageRow.dispatchID]
  · simp only [EngineArtifact.dispatchIDKey, hpayload, hrow, map_some, htask, hid]
    rfl

end Rows

/-! ## The invariant -/

structure LineageInv (artifacts : List EngineArtifact) : Prop where
  indexed : Indexed artifacts
  /-- What a query parses again was parsed before it was inserted. -/
  parsed : ∀ lineage ∈ lineageRows artifacts, lineage.payload.WellFormed ∧ lineage.payload.taskID = lineage.taskID
  binding : ∀ lineage ∈ lineageRows artifacts, ∀ other ∈ lineageRows artifacts,
    lineage.taskID = other.taskID → lineage.payload.workflowBinding = other.payload.workflowBinding
  source : ∀ lineage ∈ lineageRows artifacts, ∀ dispatchID,
    lineage.payload.continuationOfDispatchID = some dispatchID →
    ∃ source ∈ lineageRows artifacts, source.taskID = lineage.taskID ∧ source.dispatchID = dispatchID ∧
      SharesOccurrence lineage source
  origin : ∀ lineage ∈ lineageRows artifacts, ∃ initial, InitialOf artifacts lineage initial

lemma lineageInv_nil : LineageInv [] where
  indexed := indexed_nil
  parsed := fun _ h => (nomatch h)
  binding := fun _ h => (nomatch h)
  source := fun _ h => (nomatch h)
  origin := fun _ h => (nomatch h)

section Steps

variable {artifacts artifacts' : List EngineArtifact} {store : DispatchStore}
  {input : ClaimDispatchLineageInput} {owner : String} {epoch : ℕ} {lineage other : DispatchLineageRow}

lemma lineageRows_concat (row : EngineArtifact) :
    lineageRows (artifacts ++ [row]) = lineageRows artifacts ++ (dispatchLineageRow row).toList := by
  unfold lineageRows
  rw [filterMap_append]
  cases h : dispatchLineageRow row <;> simp [h]

lemma InitialOf.mono (h : InitialOf artifacts lineage other)
    (hsub : lineageRows artifacts ⊆ lineageRows artifacts') : InitialOf artifacts' lineage other :=
  ⟨h.1.lift id fun _ _ hstep => ⟨hsub hstep.1, hstep.2⟩, h.2⟩

lemma Insertable.continued (h : Insertable store input owner epoch) {sourceID : String}
    (hsource : truthy input.origin.continuationOfDispatchID = some sourceID) :
    ∃ source ∈ lineageRows store.artifacts, source.taskID = input.origin.taskID ∧
      source.dispatchID = sourceID ∧ SharesOccurrence (input.claimed owner epoch) source := by
  have hcontinuation := h.continuation
  unfold assertDispatchContinuationInTransaction at hcontinuation
  rw [hsource] at hcontinuation
  obtain ⟨source, hfound, -⟩ := bind_eq_ok.mp hcontinuation
  rw [getOrThrow_eq_ok, filter_eq_some_iff, decide_eq_true_eq] at hfound
  obtain ⟨hfound, hsession, hoccurrence, hnode, -, hbinding⟩ := hfound
  obtain ⟨hmem, htask, hid⟩ := mem_of_findDispatchLineageByDispatchID hfound
  exact ⟨source, hmem, htask, hid, hsession.symm, hnode.symm, hoccurrence.symm, hbinding.symm⟩

lemma Insertable.sameWorkflow (h : Insertable store input owner epoch) (hmem : other ∈ lineageRows store.artifacts)
    (htask : other.taskID = input.origin.taskID) :
    other.payload.workflowBinding = input.origin.workflowBinding := by
  have hworkflow := h.workflow
  unfold assertTaskWorkflowBindingInTransaction at hworkflow
  simp only [bind_eq_ok, throwWhen_eq_ok, getOrThrow_eq_ok, throwSome_eq_ok, map_eq_none_iff] at hworkflow
  obtain ⟨-, -, -, -, -, -, -, -, -, -, -, -, hnone⟩ := hworkflow
  obtain ⟨row, hrow, hpayload, -, hsame⟩ := mem_lineageRows.mp hmem
  have hkept := find?_eq_none.mp hnone row (mem_filter.mpr ⟨hrow, by simpa [htask] using hsame⟩)
  have hbinding : row.workflowBinding = some other.payload.workflowBinding := by
    unfold EngineArtifact.lineage at hpayload
    unfold EngineArtifact.workflowBinding
    split at hpayload
    · rename_i payload hkind
      rw [hkind, some.inj hpayload]
    · cases hpayload
  rw [hbinding] at hkept
  simpa using hkept

theorem LineageInv.insert (h : LineageInv store.artifacts) (hinsertable : Insertable store input owner epoch) :
    LineageInv (store.artifacts ++ [(input.claimed owner epoch).artifact]) := by
  have hrows : lineageRows (store.artifacts ++ [(input.claimed owner epoch).artifact]) =
      lineageRows store.artifacts ++ [input.claimed owner epoch] := lineageRows_concat _
  have hsub : lineageRows store.artifacts ⊆
      lineageRows (store.artifacts ++ [(input.claimed owner epoch).artifact]) := by
    rw [hrows]
    exact subset_append_left _ _
  have hcases : ∀ lineage ∈ lineageRows (store.artifacts ++ [(input.claimed owner epoch).artifact]),
      lineage ∈ lineageRows store.artifacts ∨ lineage = input.claimed owner epoch := by
    intro lineage hlineage
    rw [hrows, mem_append, mem_singleton] at hlineage
    exact hlineage
  have hnew : input.claimed owner epoch ∈
      lineageRows (store.artifacts ++ [(input.claimed owner epoch).artifact]) := by
    rw [hrows]
    exact mem_append_right _ (mem_singleton_self _)
  constructor
  · exact h.indexed.concat hinsertable.fresh
  · intro lineage hlineage
    rcases hcases lineage hlineage with hold | rfl
    · exact h.parsed lineage hold
    · exact ⟨hinsertable.wellFormed, rfl⟩
  · intro lineage hlineage other hother htask
    rcases hcases lineage hlineage with hold | rfl <;> rcases hcases other hother with hold' | rfl
    · exact h.binding lineage hold other hold' htask
    · exact hinsertable.sameWorkflow hold htask
    · exact (hinsertable.sameWorkflow hold' htask.symm).symm
    · rfl
  · intro lineage hlineage dispatchID hcontinuation
    rcases hcases lineage hlineage with hold | rfl
    · obtain ⟨source, hsource, hrest⟩ := h.source lineage hold dispatchID hcontinuation
      exact ⟨source, hsub hsource, hrest⟩
    · obtain ⟨source, hsource, hrest⟩ := hinsertable.continued hcontinuation
      exact ⟨source, hsub hsource, hrest⟩
  · intro lineage hlineage
    rcases hcases lineage hlineage with hold | rfl
    · obtain ⟨initial, hinitial⟩ := h.origin lineage hold
      exact ⟨initial, hinitial.mono hsub⟩
    · cases hcontinuation : (input.claimed owner epoch).payload.continuationOfDispatchID with
      | none => exact ⟨_, .refl, hcontinuation⟩
      | some =>
        obtain ⟨source, hsource, htask, hid, -⟩ := hinsertable.continued hcontinuation
        obtain ⟨initial, hinitial⟩ := h.origin source hsource
        refine ⟨initial, .head ⟨hsub hsource, htask, ?_⟩ (hinitial.mono hsub).1, hinitial.2⟩
        rw [hcontinuation, hid]

/-- The invariant is kept by every step. -/
theorem LineageInv.appends (h : LineageInv store.artifacts) (happends : AppendsArtifact store artifacts) :
    LineageInv artifacts := by
  cases happends with
  | other _ hother =>
    cases hother with
    | none => exact h
    | fact row hfresh hlineage =>
      have hrows : lineageRows (store.artifacts ++ [row]) = lineageRows store.artifacts := by
        rw [lineageRows_concat]
        simp [dispatchLineageRow, hlineage]
      have hinitial : ∀ {lineage initial : DispatchLineageRow},
          InitialOf store.artifacts lineage initial → InitialOf (store.artifacts ++ [row]) lineage initial :=
        fun hinitial => hinitial.mono (by rw [hrows]; exact Subset.refl _)
      refine ⟨h.indexed.concat hfresh, ?_, ?_, ?_, ?_⟩
      · rw [hrows]
        exact h.parsed
      · rw [hrows]
        exact h.binding
      · rw [hrows]
        exact h.source
      · rw [hrows]
        intro lineage hmem
        obtain ⟨initial, hfound⟩ := h.origin lineage hmem
        exact ⟨initial, hinitial hfound⟩
  | lineage _ _ _ hinsertable => exact h.insert hinsertable

/-- The invariant is kept by the system. -/
theorem lineageInv_preserved : Preserves dispatchStep fun store => LineageInv store.artifacts :=
  fun _ _ _ h hstep => h.appends (dispatchEffect_of_step hstep).artifacts

end Steps

/-! ## What the invariant says -/

section Invariant

variable {artifacts : List EngineArtifact}

lemma exists_workflowID_of_wellFormed {payload : DispatchLineagePayload} (h : payload.WellFormed) {nodeID : String}
    (hnode : payload.workflowNodeID = some nodeID) :
    ∃ workflowID, payload.workflowBinding.workflowID = some workflowID := by
  have hselects := h.node
  unfold SelectsNode at hselects
  split at hselects
  · rw [hnode] at hselects
    cases hselects
  · rename_i hbinding
    rw [hbinding]
    exact ⟨_, rfl⟩

theorem LineageInv.occurrencesUnique (h : LineageInv artifacts) : OccurrencesUnique artifacts := by
  constructor
  · intro lineage hlineage other hother htask hdirect hdirect' hpart hcall
    refine h.indexed.lineage_eq ("engine_dispatch_lineage_direct_tool_occurrence_idx",
      EngineArtifact.directToolOccurrenceKey)
      [lineage.taskID, lineage.payload.toolPartID, lineage.payload.toolCallID]
      (by simp [engineArtifactIndexes]) hlineage hother
      (fun row hpayload hrow => ?_) (fun row hpayload hrow => ?_)
    · simp [EngineArtifact.directToolOccurrenceKey, hpayload, hrow, hdirect]
    · simp [EngineArtifact.directToolOccurrenceKey, hpayload, hrow, hdirect', htask, hpart, hcall]
  · intro lineage hlineage other hother htask hmember hmember' hpart hcall hindex
    have hwell := (h.parsed lineage hlineage).1.member
    obtain ⟨index, hsome⟩ : ∃ index, lineage.payload.collectionMemberIndex = some index := by
      unfold CollectionMember at hwell
      rw [hmember] at hwell
      split at hwell
      · rename_i htool _ _
        cases htool
      · rename_i hsome _
        exact ⟨_, hsome⟩
      · cases hwell
    refine h.indexed.lineage_eq ("engine_dispatch_lineage_collection_member_idx",
      EngineArtifact.collectionMemberKey)
      [lineage.taskID, lineage.payload.toolPartID, lineage.payload.toolCallID, toString index]
      (by simp [engineArtifactIndexes]) hlineage hother
      (fun row hpayload hrow => ?_) (fun row hpayload hrow => ?_)
    · simp [EngineArtifact.collectionMemberKey, hpayload, hrow, hmember, hsome]
    · simp [EngineArtifact.collectionMemberKey, hpayload, hrow, hmember', htask, hpart, hcall, ← hindex, hsome]
  · intro lineage hlineage other hother htask hinitial hinitial' nodeID hnode hnode'
    obtain ⟨workflowID, hworkflow⟩ := exists_workflowID_of_wellFormed (h.parsed lineage hlineage).1 hnode
    have hworkflow' : other.payload.workflowBinding.workflowID = some workflowID := by
      rw [← h.binding lineage hlineage other hother htask]
      exact hworkflow
    refine h.indexed.lineage_eq ("engine_dispatch_lineage_initial_workflow_node_idx",
      EngineArtifact.initialWorkflowNodeKey) [lineage.taskID, workflowID, nodeID]
      (by simp [engineArtifactIndexes]) hlineage hother (fun row hpayload hrow => ?_) (fun row hpayload hrow => ?_)
    · simp [EngineArtifact.initialWorkflowNodeKey, hpayload, hrow, hworkflow, hnode, hinitial]
    · simp [EngineArtifact.initialWorkflowNodeKey, hpayload, hrow, hworkflow', hnode', hinitial', htask]

lemma LineageInv.shares_of_chain (h : LineageInv artifacts) {lineage other : DispatchLineageRow}
    (hlineage : lineage ∈ lineageRows artifacts) (hchain : ReflTransGen (Continues artifacts) lineage other) :
    other ∈ lineageRows artifacts ∧ SharesOccurrence lineage other := by
  induction hchain with
  | refl => exact ⟨hlineage, rfl, rfl, rfl, rfl⟩
  | tail _ hlast ih =>
    obtain ⟨hmem, hshares⟩ := ih
    obtain ⟨hsource, htask, hcontinuation⟩ := hlast
    obtain ⟨source, hfound, htask', hid, hshares'⟩ := h.source _ hmem _ hcontinuation
    -- The dispatch of a Task has one lineage, so the one that shares is the one of the chain.
    obtain rfl := h.indexed.eq_of_dispatchID hfound hsource (htask'.trans htask.symm) hid
    exact ⟨hsource, hshares.session.trans hshares'.session, hshares.node.trans hshares'.node,
      hshares.occurrence.trans hshares'.occurrence, hshares.binding.trans hshares'.binding⟩

theorem LineageInv.continuationsShare (h : LineageInv artifacts) : ContinuationsShare artifacts := by
  intro lineage hlineage
  refine ⟨h.origin lineage hlineage, fun initial hinitial => ?_⟩
  obtain ⟨hmem, hshares⟩ := h.shares_of_chain hlineage hinitial.1
  exact ⟨hshares, hshares.occurrence.trans ((h.parsed initial hmem).1.initial hinitial.2)⟩

end Invariant

/-! ## Admissions -/

def DispatchLabel.granted (store : DispatchStore) : DispatchLabel → Option DispatchAdmissionOwner
  | claim input => (claimDispatchLineage store input).toOption.bind fun answer => answer.1.admission
  | _ => none

def admissionsGranted : DispatchStore → List DispatchLabel → List DispatchAdmissionOwner
  | _, [] => []
  | store, label :: rest =>
    (label.granted store).toList ++ admissionsGranted ((dispatchStep store label).getD store) rest

/-- The admission passes the fence of its lineage at an instant. -/
def DispatchAdmissionOwner.Valid (owner : DispatchAdmissionOwner) (store : DispatchStore) (now : ℤ) : Prop :=
  (assertControlLeaseInTransaction store.leases (owner.claim now)).toOption.isSome

instance (owner : DispatchAdmissionOwner) (store : DispatchStore) (now : ℤ) :
    Decidable (owner.Valid store now) := inferInstanceAs (Decidable (_ = true))

def AdmissionsExclusive (granted : List DispatchAdmissionOwner) (store : DispatchStore) : Prop :=
  ∀ artifactID now, (granted.filter fun owner =>
    owner.lineageArtifactID = artifactID ∧ owner.Valid store now).length ≤ 1

section Admissions

variable {store store' : DispatchStore} {label : DispatchLabel} {granted : List DispatchAdmissionOwner}

variable {labels : List DispatchLabel}

lemma admissionsGranted_concat {initial : DispatchStore} (hrun : exec dispatchStep initial labels = some store) :
    admissionsGranted initial (labels ++ [label]) =
      admissionsGranted initial labels ++ (label.granted store).toList := by
  induction labels generalizing initial with
  | nil =>
    rw [exec_nil, some.injEq] at hrun
    simp [admissionsGranted, hrun]
  | cons _ _ ih =>
    obtain ⟨_, hstep, hrest⟩ := (exec_cons_eq_some dispatchStep).mp hrun
    simp only [cons_append, admissionsGranted, hstep, getD_some, ih hrest, append_assoc]

lemma granted_of_step {owner : DispatchAdmissionOwner} (hgranted : label.granted store = some owner)
    (hstep : dispatchStep store label = some store') :
    (∀ lease ∈ store.leases.leases, lease.id ≠ owner.leaseID) ∧
      ∃ lease ∈ store'.leases.rowsOf .dispatchAdmission, lease.id = owner.leaseID := by
  cases label with
  | claim input =>
    unfold dispatchStep at hstep
    rw [toOption_eq_some] at hstep
    obtain ⟨⟨claim, written⟩, hclaim, rfl⟩ := map_eq_ok.mp hstep
    have hadmission : claim.admission = some owner := by
      change (claimDispatchLineage store input).toOption.bind (fun answer => answer.1.admission) =
        some owner at hgranted
      rwa [hclaim] at hgranted
    have hfresh : ∀ {recorded : DispatchStore} {process : String},
        Admission recorded input process claim.lineage claim.admission written →
        recorded.leases = store.leases →
        (∀ lease ∈ store.leases.leases, lease.id ≠ owner.leaseID) ∧
          ∃ lease ∈ written.leases.rowsOf .dispatchAdmission, lease.id = owner.leaseID := by
      intro recorded process h hleases
      rw [hadmission] at h
      cases h with
      | granted leases _ _ hacquire =>
        obtain ⟨-, happended, hnew⟩ := acquired_of_eq_ok hacquire
        rw [hleases] at hnew happended
        refine ⟨hnew, _, mem_rowsOf.mpr ⟨?_, rfl⟩, rfl⟩
        change _ ∈ leases.leases
        rw [happended]
        exact mem_append_right _ (mem_singleton_self _)
    obtain ⟨_, -, ⟨_, -, -, h⟩ | ⟨-, h⟩⟩ := claimDispatchLineage_cases hclaim
    · exact hfresh h rfl
    · exact hfresh h rfl
  | _ => cases hgranted

structure AdmissionsLeased (granted : List DispatchAdmissionOwner) (store : DispatchStore) : Prop where
  nodup : (granted.map DispatchAdmissionOwner.leaseID).Nodup
  leased : ∀ owner ∈ granted, ∃ lease ∈ store.leases.rowsOf .dispatchAdmission, lease.id = owner.leaseID

lemma AdmissionsLeased.step (h : AdmissionsLeased granted store) (hstep : dispatchStep store label = some store') :
    AdmissionsLeased (granted ++ (label.granted store).toList) store' := by
  have hkept : ∀ owner ∈ granted, ∃ lease ∈ store'.leases.rowsOf .dispatchAdmission, lease.id = owner.leaseID := by
    intro owner howner
    obtain ⟨lease, hlease, hid⟩ := h.leased owner howner
    obtain ⟨kept, hkept, hsame⟩ := (dispatchEffect_of_step hstep).admissions lease hlease
    exact ⟨kept, hkept, hsame.trans hid⟩
  cases hgranted : label.granted store with
  | none =>
    rw [toList_none, List.append_nil]
    exact ⟨h.nodup, hkept⟩
  | some =>
    obtain ⟨hfresh, hnew⟩ := granted_of_step hgranted hstep
    rw [toList_some]
    constructor
    · rw [map_append, nodup_append]
      refine ⟨h.nodup, nodup_singleton _, ?_⟩
      intro leaseID hleaseID other hother hsame
      obtain ⟨earlier, hearlier, rfl⟩ := List.mem_map.mp hleaseID
      obtain ⟨lease, hlease, hid⟩ := h.leased earlier hearlier
      refine hfresh lease (mem_rowsOf.mp hlease).1 ?_
      rw [hid, hsame, map_singleton, mem_singleton] at *
      exact hother
    · intro other hother
      rcases mem_concat.mp hother with hold | hlast
      · exact hkept other hold
      · rw [hlast]
        exact hnew

lemma AdmissionsLeased.exclusive (h : AdmissionsLeased granted store) : AdmissionsExclusive granted store := by
  intro artifactID now
  generalize hvalid : granted.filter (fun owner =>
    owner.lineageArtifactID = artifactID ∧ owner.Valid store now) = valid
  have hcurrent : ∀ owner ∈ valid,
      (currentControlLeaseInTransaction store.leases .dispatchAdmission artifactID).map ControlLease.id =
        some owner.leaseID := by
    intro owner howner
    rw [← hvalid] at howner
    obtain ⟨rfl, hpasses⟩ := of_decide_eq_true (mem_filter.mp howner).2
    obtain ⟨current, hassert⟩ := isSome_iff_exists.mp hpasses
    obtain ⟨hcurrent, hholds⟩ := assertControlLease_eq_ok.mp (toOption_eq_some.mp hassert)
    have hfound : currentControlLeaseInTransaction store.leases .dispatchAdmission owner.lineageArtifactID =
      some current := hcurrent
    rw [hfound, map_some, hholds.1]
    rfl
  have hnodup : (valid.map DispatchAdmissionOwner.leaseID).Nodup := by
    rw [← hvalid]
    exact h.nodup.sublist (filter_sublist.map _)
  match valid with
  | [] => exact Nat.zero_le 1
  | [owner] => exact le_rfl
  | first :: second :: rest =>
    have hfirst := hcurrent first mem_cons_self
    have hsecond := hcurrent second (mem_cons_of_mem _ mem_cons_self)
    rw [hfirst, some.injEq] at hsecond
    simp [hsecond] at hnodup

lemma admissionsLeased_of_run {initial : DispatchStore} (hrun : exec dispatchStep initial labels = some store) :
    AdmissionsLeased (admissionsGranted initial labels) store := by
  refine exec_history (P := fun labels store => AdmissionsLeased (admissionsGranted initial labels) store)
    ⟨nodup_nil, fun _ h => (nomatch h)⟩ ?_ hrun
  intro before t label t' hbefore h hstep
  rw [admissionsGranted_concat hbefore]
  exact h.step hstep

end Admissions

/-! ## Accepted dispatches -/

section Accepted

variable {store store' : DispatchStore} {input : ClaimDispatchLineageInput} {claim : DispatchClaim}
  {lineage : DispatchLineageRow}

lemma Accepted.mono (h : Accepted store lineage) (hartifacts : store.artifacts <+: store'.artifacts)
    (hdescriptors : store.descriptors <+: store'.descriptors) : Accepted store' lineage := by
  rcases h with hdescriptor | hsettled
  · left
    unfold DispatchStore.acceptedDescriptor at hdescriptor ⊢
    rw [find?_isSome] at hdescriptor ⊢
    obtain ⟨descriptor, hmem, hturn⟩ := hdescriptor
    exact ⟨descriptor, hdescriptors.subset hmem, hturn⟩
  · right
    unfold DispatchStore.findSettlement DispatchStore.artifactsOf at hsettled ⊢
    obtain ⟨_, hmore⟩ := hartifacts
    rw [← hmore, filter_append, findSome?_append]
    obtain ⟨_, hfound⟩ := isSome_iff_exists.mp hsettled
    rw [hfound]
    rfl

lemma AppendsArtifact.prefix_artifacts {artifacts : List EngineArtifact} (h : AppendsArtifact store artifacts) :
    store.artifacts <+: artifacts := by
  cases h with
  | other _ hother =>
    cases hother with
    | none => exact prefix_rfl
    | fact => exact prefix_append _ _
  | lineage => exact prefix_append _ _

lemma Accepted.exec {labels : List DispatchLabel} (h : Accepted store lineage)
    (hrun : exec dispatchStep store labels = some store') : Accepted store' lineage := by
  have hkept : Preserves dispatchStep (fun store => Accepted store lineage) := by
    intro s label s' hs hstep
    have heffect := dispatchEffect_of_step hstep
    exact hs.mono heffect.artifacts.prefix_artifacts heffect.descriptors
  exact hkept.exec h hrun

lemma admission_eq_none_of_accepted (h : claimDispatchLineage store input = .ok (claim, store'))
    (haccepted : Accepted store claim.lineage) : claim.admission = none := by
  have hnone : ∀ {recorded : DispatchStore} {owner : String},
      Admission recorded input owner claim.lineage claim.admission store' →
      Accepted recorded claim.lineage → claim.admission = none := by
    intro recorded owner hadmission haccepted
    generalize hanswer : claim.admission = answer at hadmission ⊢
    cases hadmission with
    | accepted | owned => rfl
    | granted _ hnot => exact absurd haccepted hnot
  obtain ⟨_, -, ⟨_, -, -, hadmission⟩ | ⟨-, hadmission⟩⟩ := claimDispatchLineage_cases h
  · exact hnone hadmission (haccepted.mono (prefix_append _ _) prefix_rfl)
  · exact hnone hadmission haccepted

end Accepted

/-! ## One Turn -/

structure OneTurnPerOccurrence (surroundings : DispatchSurroundings) (labels : List DispatchLabel)
    (store : DispatchStore) : Prop where
  occurrences : OccurrencesUnique store.artifacts
  continuations : ContinuationsShare store.artifacts
  admissions : AdmissionsExclusive (admissionsGranted (.empty surroundings) labels) store
  /-- Once a dispatch is accepted, no later claim is granted an admission for it. -/
  accepted : ∀ lineage, Accepted store lineage → ∀ later store',
    exec dispatchStep store later = some store' → ∀ input claim store'',
    claimDispatchLineage store' input = .ok (claim, store'') → claim.lineage = lineage →
    claim.admission = none

/-- Every dispatch occurrence has one Turn, in every run of the transactions. -/
theorem oneTurnPerOccurrence {surroundings : DispatchSurroundings} {labels : List DispatchLabel}
    {store : DispatchStore} (hrun : exec dispatchStep (.empty surroundings) labels = some store) :
    OneTurnPerOccurrence surroundings labels store := by
  have hinv : LineageInv store.artifacts := lineageInv_preserved.exec lineageInv_nil hrun
  refine ⟨hinv.occurrencesUnique, hinv.continuationsShare, (admissionsLeased_of_run hrun).exclusive, ?_⟩
  rintro _ haccepted _ _ hlater _ _ _ hclaim rfl
  exact admission_eq_none_of_accepted hclaim (haccepted.exec hlater)

def builderPackage : ExpertSquadPackageRevisionBinding := ⟨"project", some "project", "team", "squad", "1", "digest"⟩

def directDispatch : DispatchSurroundings where
  tasks := [⟨"task", some "root", some builderPackage, []⟩]
  sessions := [⟨"root", some "squad"⟩]
  toolRequests := [⟨"part", "message", "call", "dispatch_agent"⟩]
  messages := [⟨"message", "root", true, some "activation"⟩]
  ingresses := [⟨"ingress", "task", 1⟩]

def orchestratorLeases : ControlLeaseTables where
  leases := [⟨"activation", .taskRootIngress, "ingress", "process", 1, 100⟩,
    ⟨"liveness", .runtimeProcess, "process", "process", 1, 90001⟩]
  grants := []

def builderClaim (now : ℤ) (artifactID leaseID : String) : ClaimDispatchLineageInput where
  origin :=
    { dispatchID := "dispatch", taskID := "task", orchestratorSessionID := "root",
      orchestratorMessageID := "message", toolPartID := "part", toolCallID := "call", toolName := none,
      collectionMemberIndex := none, collectionMemberCount := none, targetAgentID := "builder",
      projectedWorkerIdentity := ⟨"builder", "build", "build", "build", "hash"⟩, workScope := "repository",
      deliverySliceRevisionIDs := none, workflowBinding := .direct builderPackage, workflowNodeID := none,
      workflowOccurrenceID := none, coordinationActionID := none, continuationOfDispatchID := none,
      adapterInput := "[]" }
  childSessionID := "child"
  now := now
  clock := now
  process := ⟨some "process", ⟨some ⟨"process", "liveness", 1, 90001, none⟩, [], []⟩⟩
  artifactID := artifactID
  leaseID := leaseID

def builderTurn : WorkerTurnDescriptor where
  id := "turn"
  sessionID := "child"
  hash := "hash"
  identity := ⟨"builder", "build", "build", "build", "hash"⟩
  expertSquadID := "squad"
  dispatchTurn := some ⟨"dispatch", .direct builderPackage, none, "dispatch", []⟩

def takenOverClaims : List DispatchLabel := [
  .lifecycle "opened" "task" 1 .opened,
  .otherLeases orchestratorLeases,
  .claim (builderClaim 10 "artifact" "lease_1"),
  .claim (builderClaim 20 "other" "lease_2"),
  .claim (builderClaim 130000 "other" "lease_3"),
  .persist builderTurn (some ⟨(builderClaim 10 "artifact" "lease_1").claimed "process" 1,
    some ⟨"artifact", "lease_3", "process", 250000⟩, none, 140000⟩),
  .claim (builderClaim 150000 "other" "lease_4")]

/-- The dispatch is taken over once, and its Turn consumes the second admission. -/
theorem oneTurnPerOccurrence_takenOver : ∃ store ∈ exec dispatchStep (.empty directDispatch) takenOverClaims,
    OneTurnPerOccurrence directDispatch takenOverClaims store ∧
      (admissionsGranted (.empty directDispatch) takenOverClaims).map DispatchAdmissionOwner.leaseID =
        ["lease_1", "lease_3"] := by
  obtain ⟨store, hrun, hgranted⟩ : ∃ store ∈ exec dispatchStep (.empty directDispatch) takenOverClaims,
      (admissionsGranted (.empty directDispatch) takenOverClaims).map DispatchAdmissionOwner.leaseID =
        ["lease_1", "lease_3"] := by decide
  exact ⟨store, hrun, oneTurnPerOccurrence hrun, hgranted⟩

end OpenCorvus.Dispatch
