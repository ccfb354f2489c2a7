import OpenCorvus.Project.GlobalCreation

/-!
# What the transactions of global creation do

Every transaction either inserts a row without any outcome, or sets one group of columns of some rows, where it was
not set before.  Rows therefore only grow, and the table keeps its keys and its shape.
-/

namespace OpenCorvus.Project

open Json Transaction UniqueIndex List Option GlobalCreationAllocation
open EcmaScript (trim)

variable (row : GlobalCreationAllocation)

def GlobalCreationAllocation.reserved : GlobalCreationAllocation :=
  { row with
    materializedProjectID := none
    materializedProjectGeneration := none
    timeMaterialized := none
    rejectedError := none
    timeRejected := none
    acceptedProjectID := none
    acceptedTargetID := none
    acceptedInitialConfigOverlay := none
    timeAccepted := none
    timeProjectRetained := none }

def GlobalCreationAllocation.binding : Option String × Option String × Option ℤ :=
  (row.materializedProjectID, row.materializedProjectGeneration, row.timeMaterialized)

/-- The columns of a rejection. -/
def GlobalCreationAllocation.refusal : Option Json × Option ℤ :=
  (row.rejectedError, row.timeRejected)

def GlobalCreationAllocation.acceptance : Option String × Option String × Option Json × Option ℤ :=
  (row.acceptedProjectID, row.acceptedTargetID, row.acceptedInitialConfigOverlay, row.timeAccepted)

/-- A row becomes another one: what was reserved stays, and so does every group of columns that was set. -/
structure Grew (row row' : GlobalCreationAllocation) : Prop where
  reserved : row'.reserved = row.reserved
  binding : row.binding = (none, none, none) ∨ row'.binding = row.binding
  refusal : row.refusal = (none, none) ∨ row'.refusal = row.refusal
  acceptance : row.acceptance = (none, none, none, none) ∨ row'.acceptance = row.acceptance
  retention : row.timeProjectRetained = none ∨ row'.timeProjectRetained = row.timeProjectRetained

section Grew

variable {row row' row'' : GlobalCreationAllocation}

lemma Grew.refl (row : GlobalCreationAllocation) : Grew row row := ⟨rfl, .inr rfl, .inr rfl, .inr rfl, .inr rfl⟩

lemma kept_trans {β : Type} {empty old mid new : β} (h : old = empty ∨ mid = old) (h' : mid = empty ∨ new = mid) :
    old = empty ∨ new = old := by
  rcases h with h | rfl
  · exact .inl h
  · exact h'

section

variable (h : Grew row row')

include h

lemma Grew.trans (h' : Grew row' row'') : Grew row row'' where
  reserved := h'.reserved.trans h.reserved
  binding := kept_trans h.binding h'.binding
  refusal := kept_trans h.refusal h'.refusal
  acceptance := kept_trans h.acceptance h'.acceptance
  retention := kept_trans h.retention h'.retention

lemma Grew.id_eq : row'.id = row.id :=
  (congrArg GlobalCreationAllocation.id h.reserved : row'.reserved.id = row.reserved.id)

lemma Grew.kind_eq : row'.kind = row.kind :=
  (congrArg kind h.reserved : row'.reserved.kind = row.reserved.kind)

lemma Grew.requestID_eq : row'.requestID = row.requestID :=
  (congrArg requestID h.reserved : row'.reserved.requestID = row.reserved.requestID)

lemma Grew.requestContract_eq : row'.requestContract = row.requestContract :=
  (congrArg requestContract h.reserved : row'.reserved.requestContract = row.reserved.requestContract)

lemma Grew.binding_eq {projectID : String} (hbound : row.materializedProjectID = some projectID) :
    row'.materializedProjectID = some projectID ∧
      row'.materializedProjectGeneration = row.materializedProjectGeneration := by
  rcases h.binding with hempty | heq
  · have hnone : row.materializedProjectID = none := congrArg Prod.fst hempty
    rw [hnone] at hbound
    cases hbound
  · exact ⟨(congrArg Prod.fst heq).trans hbound, congrArg (fun columns => columns.2.1) heq⟩

lemma Grew.rejectedError_eq {error : Json} (hrejected : row.rejectedError = some error) :
    row'.rejectedError = some error := by
  rcases h.refusal with hempty | heq
  · have hnone : row.rejectedError = none := congrArg Prod.fst hempty
    rw [hnone] at hrejected
    cases hrejected
  · exact (congrArg Prod.fst heq).trans hrejected

lemma Grew.acceptance_eq {targetID : String} (haccepted : row.acceptedTargetID = some targetID) :
    row'.acceptance = row.acceptance := by
  rcases h.acceptance with hempty | heq
  · have hnone : row.acceptedTargetID = none := congrArg (fun columns => columns.2.1) hempty
    rw [hnone] at haccepted
    cases haccepted
  · exact heq

end

end Grew

def GlobalCreationAllocation.requestKey : GlobalCreationKind × String :=
  (row.kind, row.requestID)

def StoredRejection (error : Json) : Prop :=
  ∃ name data, data.isObject = true ∧ error = serializedRejection (name, data)

structure AllocationTable (rows : List GlobalCreationAllocation) : Prop where
  ids : PrimaryKey GlobalCreationAllocation.id rows
  requests : PrimaryKey GlobalCreationAllocation.requestKey rows
  directories : PrimaryKey GlobalCreationAllocation.directory rows
  shapes : ∀ row ∈ rows, row.factShape = true
  fingerprints : ∀ row ∈ rows, row.requestFingerprint = taskCreationContractFingerprint row.requestContract
  rejections : ∀ row ∈ rows, ∀ error ∈ row.rejectedError, StoredRejection error

def TableGrew (rows rows' : List GlobalCreationAllocation) : Prop := ∀ row ∈ rows, ∃ row' ∈ rows', Grew row row'

lemma TableGrew.refl (rows : List GlobalCreationAllocation) : TableGrew rows rows :=
  fun row hrow => ⟨row, hrow, Grew.refl row⟩

open TableGrew

lemma TableGrew.trans {rows rows' rows'' : List GlobalCreationAllocation} (h : TableGrew rows rows')
    (h' : TableGrew rows' rows'') : TableGrew rows rows'' := by
  intro row hrow
  obtain ⟨row', hrow', hgrew⟩ := h row hrow
  obtain ⟨row'', hrow'', hgrew'⟩ := h' row' hrow'
  exact ⟨row'', hrow'', hgrew.trans hgrew'⟩

def updated (selected : GlobalCreationAllocation → Bool) (set : GlobalCreationAllocation → GlobalCreationAllocation)
    (row : GlobalCreationAllocation) : GlobalCreationAllocation :=
  if selected row then set row else row

section Update

variable {rows rows' : List GlobalCreationAllocation} {selected : GlobalCreationAllocation → Bool}
  {set : GlobalCreationAllocation → GlobalCreationAllocation}
  {before : GlobalCreationAllocation → GlobalCreationAllocation → Except CreationError Unit}

lemma updateAllocations_eq_ok (h : updateAllocations rows selected set before = .ok rows') :
    rows' = rows.map (updated selected set) ∧
      ∀ row ∈ rows, selected row = true → before row (set row) = .ok () ∧ (set row).factShape = true := by
  have hanswer : ∀ row row', (if selected row then do
        before row (set row)
        checkShape (set row)
        return set row
      else Except.ok row) = .ok row' → row' = updated selected set row := by
    intro row row' hrow
    unfold updated
    split at hrow
    · next hselected =>
      rw [check_bind_eq_ok, check_bind_eq_ok, pure_eq_ok] at hrow
      rw [if_pos hselected, hrow.2.2]
    · next hselected =>
      rw [if_neg hselected, Except.ok.inj hrow]
  obtain ⟨rfl, hall⟩ := (mapM_eq_ok_iff hanswer).mp h
  refine ⟨rfl, fun row hrow hselected => ?_⟩
  have hpassed := hall row hrow
  rw [if_pos hselected, check_bind_eq_ok, check_bind_eq_ok, checkShape, throwWhen_eq_ok] at hpassed
  exact ⟨hpassed.1, by simpa using hpassed.2.1⟩

lemma AllocationTable.update (h : AllocationTable rows) (hset : ∀ row, (set row).reserved = row.reserved)
    (hshape : ∀ row ∈ rows, selected row = true → (set row).factShape = true)
    (hrejected : ∀ row ∈ rows, selected row = true → ∀ error ∈ (set row).rejectedError, StoredRejection error) :
    AllocationTable (rows.map (updated selected set)) := by
  have hreserved : ∀ row, (updated selected set row).reserved = row.reserved := by
    intro row
    unfold updated
    split
    · exact hset row
    · rfl
  have hfield : ∀ {β : Type} (field : GlobalCreationAllocation → β),
      (∀ row, field row.reserved = field row) → ∀ row, field (updated selected set row) = field row := by
    intro β field hkeeps row
    rw [← hkeeps (updated selected set row), hreserved, hkeeps]
  refine ⟨h.ids.map (hfield _ fun _ => rfl), h.requests.map (hfield _ fun _ => rfl),
    h.directories.map (hfield _ fun _ => rfl), ?_, ?_, ?_⟩
  · rintro _ hrow
    obtain ⟨row, hmem, rfl⟩ := List.mem_map.mp hrow
    unfold updated
    split
    · next hselected => exact hshape row hmem hselected
    · exact h.shapes row hmem
  · rintro _ hrow
    obtain ⟨row, hmem, rfl⟩ := List.mem_map.mp hrow
    have hfingerprint := hfield requestFingerprint (fun _ => rfl) row
    have hcontract := hfield requestContract (fun _ => rfl) row
    rw [hfingerprint, hcontract]
    exact h.fingerprints row hmem
  · rintro _ hrow error herror
    obtain ⟨row, hmem, rfl⟩ := List.mem_map.mp hrow
    unfold updated at herror
    split at herror
    · next hselected => exact hrejected row hmem hselected error herror
    · exact h.rejections row hmem error herror

lemma TableGrew.update (hgrew : ∀ row ∈ rows, selected row = true → Grew row (set row)) :
    TableGrew rows (rows.map (updated selected set)) := by
  intro row hrow
  refine ⟨updated selected set row, List.mem_map_of_mem hrow, ?_⟩
  unfold updated
  split
  · next hselected => exact hgrew row hrow hselected
  · exact Grew.refl row

end Update

structure Answers (input : CreationRequest) (row : GlobalCreationAllocation) : Prop where
  kind : row.kind = input.kind
  requestID : row.requestID = trim input.requestID
  isObject : input.requestContract.isObject = true
  contract : canonicalJSONValue row.requestContract = canonicalJSONValue input.requestContract

lemma canonicalTaskCreationContract_eq_ok {value contract : Json} :
    canonicalTaskCreationContract value = .ok contract ↔ value.isObject = true ∧ contract = value.canonical := by
  rw [canonicalTaskCreationContract, throwWhen_bind_eq_ok, pure_eq_ok, Bool.not_eq_false, eq_comm (b := contract)]

lemma assertRequestContract_eq_ok {existing row : GlobalCreationAllocation} {input : CreationRequest}
    (hfingerprint : existing.requestFingerprint = taskCreationContractFingerprint existing.requestContract) :
    assertRequestContract existing input = .ok row ↔
      row = existing ∧ input.requestContract.isObject = true ∧ existing.requestContract.isObject = true ∧
        canonicalJSONValue input.requestContract = canonicalJSONValue existing.requestContract := by
  simp only [assertRequestContract, bind_eq_ok, canonicalTaskCreationContract_eq_ok, throwWhen_eq_ok, pure_eq_ok]
  constructor
  · rintro ⟨_, ⟨hobject, rfl⟩, _, ⟨hstored, rfl⟩, _, -, _, htext, rfl⟩
    rw [not_not, canonicalJSONValue_canonical, canonicalJSONValue_canonical] at htext
    exact ⟨rfl, hobject, hstored, htext⟩
  · rintro ⟨rfl, hobject, hstored, htext⟩
    refine ⟨_, ⟨hobject, rfl⟩, _, ⟨hstored, rfl⟩, (), ?_, (), ?_, rfl⟩
    · rw [not_not, hfingerprint]
      exact (Util.canonicalDigest_canonical _ _).symm
    · rw [not_not, canonicalJSONValue_canonical, canonicalJSONValue_canonical, htext]

lemma requested_eq_some {rows : List GlobalCreationAllocation} {kind : GlobalCreationKind} {requestID : String}
    {row : GlobalCreationAllocation} (h : requested rows kind requestID = some row) :
    row ∈ rows ∧ row.kind = kind ∧ row.requestID = requestID :=
  ⟨mem_of_find?_eq_some h, by simpa using find?_some h⟩

section Table

variable {rows rows' : List GlobalCreationAllocation} {row : GlobalCreationAllocation} {input : CreationRequest}

lemma AllocationTable.requested_eq (h : AllocationTable rows) (hrow : row ∈ rows) :
    requested rows row.kind row.requestID = some row := by
  have hfind := h.requests.find?_eq_some hrow
  rw [← hfind, requested]
  congr 1
  funext present
  exact decide_eq_decide.mpr Prod.mk_inj.symm

lemma AllocationTable.find_eq (h : AllocationTable rows) (hrow : row ∈ rows) :
    (rows.find? fun present => present.id = row.id) = some row :=
  h.ids.find?_eq_some hrow

/-- The row that `find` answers with. -/
lemma find_eq_ok (h : AllocationTable rows) (hfind : find rows input = .ok (some row)) :
    row ∈ rows ∧ Answers input row := by
  replace hfind := of_throwWhen hfind
  split at hfind
  · next existing hrequested =>
    obtain ⟨hmem, hkind, hrequestID⟩ := requested_eq_some hrequested
    obtain ⟨_, hassert, hsome⟩ := map_eq_ok.mp hfind
    obtain ⟨rfl, hobject, -, htext⟩ := (assertRequestContract_eq_ok (h.fingerprints existing hmem)).mp hassert
    obtain rfl := some.inj hsome
    exact ⟨hmem, hkind, hrequestID, hobject, htext.symm⟩
  · cases hfind

lemma insertAllocation_eq_ok (h : insertAllocation rows row = .ok rows') :
    rows' = rows ++ [row] ∧ row.factShape = true ∧ (∀ present ∈ rows, present.id ≠ row.id) ∧
      (∀ present ∈ rows, present.requestKey ≠ row.requestKey) ∧
      ∀ present ∈ rows, present.directory ≠ row.directory := by
  simp only [insertAllocation, checkShape, throwWhen_bind_eq_ok, pure_eq_ok, not_exists, not_and,
    Bool.not_eq_false] at h
  obtain ⟨hshape, hid, hrequest, hdirectory, rfl⟩ := h
  exact ⟨rfl, hshape, hid, fun present hpresent hkey =>
    hrequest present hpresent (congrArg Prod.fst hkey) (congrArg Prod.snd hkey), hdirectory⟩

lemma reserve_eq_ok {directory : String} {now : ℤ} (h : AllocationTable rows)
    (hreserve : reserve rows input directory now = .ok (rows', row)) :
    AllocationTable rows' ∧ TableGrew rows rows' ∧ row ∈ rows' ∧ Answers input row := by
  replace hreserve := of_throwWhen hreserve
  obtain ⟨_, hcontract, hreserve⟩ := bind_eq_ok.mp hreserve
  obtain ⟨hobject, rfl⟩ := canonicalTaskCreationContract_eq_ok.mp hcontract
  split at hreserve
  · next existing hrequested =>
    obtain ⟨hmem, hkind, hrequestID⟩ := requested_eq_some hrequested
    obtain ⟨_, hassert, hpure⟩ := bind_eq_ok.mp hreserve
    obtain ⟨rfl, -, -, htext⟩ := (assertRequestContract_eq_ok (h.fingerprints existing hmem)).mp hassert
    obtain ⟨rfl, rfl⟩ := Prod.mk.inj (pure_eq_ok.mp hpure)
    rw [canonicalJSONValue_canonical] at htext
    exact ⟨h, refl _, hmem, hkind, hrequestID, hobject, htext.symm⟩
  · obtain ⟨_, hinsert, hpure⟩ := bind_eq_ok.mp hreserve
    obtain ⟨rfl, rfl⟩ := Prod.mk.inj (pure_eq_ok.mp hpure)
    obtain ⟨rfl, hshape, hid, hrequest, hdirectory⟩ := insertAllocation_eq_ok hinsert
    refine ⟨⟨h.ids.concat hid, h.requests.concat hrequest, h.directories.concat hdirectory, ?_, ?_, ?_⟩, ?_, ?_, ?_⟩
    · exact forall_mem_append.mpr ⟨h.shapes, forall_mem_singleton.mpr hshape⟩
    · exact forall_mem_append.mpr ⟨h.fingerprints, forall_mem_singleton.mpr rfl⟩
    · refine forall_mem_append.mpr ⟨h.rejections, forall_mem_singleton.mpr fun error herror => ?_⟩
      cases herror
    · exact fun present hpresent => ⟨present, mem_append_left _ hpresent, Grew.refl present⟩
    · exact mem_append_right _ mem_cons_self
    · exact ⟨rfl, rfl, hobject, canonicalJSONValue_canonical _⟩

lemma bindProject_eq_ok {projects : List ProjectRow} {id : String} {project : ProjectRow} {now : ℤ}
    (h : AllocationTable rows) (hbind : bindProject rows projects id project now = .ok rows') :
    AllocationTable rows' ∧ TableGrew rows rows' := by
  obtain ⟨_, _, hbind⟩ := bind_eq_ok.mp hbind
  split at hbind
  · have hpure := of_throwWhen hbind
    obtain rfl := pure_eq_ok.mp hpure
    exact ⟨h, refl _⟩
  · obtain ⟨rfl, hpassed⟩ := updateAllocations_eq_ok hbind
    refine ⟨h.update (fun _ => rfl) (fun present hpresent hselected => (hpassed present hpresent hselected).2)
      fun present hpresent _ => h.rejections present hpresent, update fun present hpresent hselected => ?_⟩
    have htrigger := (hpassed present hpresent hselected).1
    simp only [projectWriteOnce, throwWhen_eq_ok, not_or, not_isSome_iff_eq_none] at htrigger
    refine ⟨rfl, .inl ?_, .inr rfl, .inr rfl, .inr rfl⟩
    rw [binding, htrigger.1, htrigger.2.1, htrigger.2.2.1]

end Table

def Occurs (projects : List ProjectRow) (id generation : String) : Prop :=
  ∃ project ∈ projects, project.id = id ∧ project.generation = generation

lemma registerProject_eq_ok {host : Host} {db db' : CreationDatabase} {identity : DirectoryIdentity}
    {allocationID generation : String} {now : ℤ} {project : ProjectRow} (h : AllocationTable db.allocations)
    (hkeys : PrimaryKey ProjectRow.id db.projects)
    (hregister : registerProject host db identity allocationID generation now = .ok (db', project)) :
    AllocationTable db'.allocations ∧ TableGrew db.allocations db'.allocations ∧
      PrimaryKey ProjectRow.id db'.projects ∧
      (∀ present ∈ db.projects, Occurs db'.projects present.id present.generation) ∧ project ∈ db'.projects := by
  have hid : (registeredProject (db.projects.find? fun row => row.id = identity.id) identity generation now).id =
      identity.id := by
    cases hfind : db.projects.find? fun row => row.id = identity.id with
    | none => rfl
    | some => simpa [registeredProject] using find?_some hfind
  dsimp only [registerProject] at hregister
  split at hregister
  · next hcurrent =>
    obtain ⟨_, hbind, hpure⟩ := bind_eq_ok.mp hregister
    obtain ⟨rfl, rfl⟩ := Prod.mk.inj (pure_eq_ok.mp hpure)
    obtain ⟨htable, hgrew⟩ := bindProject_eq_ok h hbind
    exact ⟨htable, hgrew, hkeys, fun present hpresent => ⟨present, hpresent, rfl, rfl⟩,
      mem_of_find?_eq_some hcurrent⟩
  · replace hregister := of_check hregister
    obtain ⟨_, hbind, hpure⟩ := bind_eq_ok.mp hregister
    obtain ⟨rfl, rfl⟩ := Prod.mk.inj (pure_eq_ok.mp hpure)
    obtain ⟨htable, hgrew⟩ := bindProject_eq_ok h hbind
    refine ⟨htable, hgrew, ?_⟩
    cases hfind : db.projects.find? fun row => row.id = identity.id with
    | none =>
      simp only [isSome_none, Bool.false_eq_true, if_false]
      refine ⟨hkeys.concat fun present hpresent heq => ?_,
        fun present hpresent => ⟨present, mem_append_left _ hpresent, rfl, rfl⟩,
        mem_append_right _ mem_cons_self⟩
      exact find?_eq_none.mp hfind present hpresent (decide_eq_true heq)
    | some found =>
      rw [hfind] at hid
      have hmem := mem_of_find?_eq_some hfind
      have hfound : found.id = identity.id := by simpa using find?_some hfind
      simp only [isSome_some, if_true]
      refine ⟨hkeys.map fun present => ?_, fun present hpresent => ?_, ?_⟩
      · split
        · next heq => exact hid.trans heq.symm
        · rfl
      · refine ⟨_, List.mem_map_of_mem hpresent, ?_⟩
        split
        · next heq =>
          obtain rfl := hkeys.eq_of_id hpresent hmem (heq.trans hfound.symm)
          exact ⟨hid.trans heq.symm, rfl⟩
        · exact ⟨rfl, rfl⟩
      · exact List.mem_map.mpr ⟨found, hmem, if_pos hfound⟩

lemma deleteProject_eq_ok {db db' : CreationDatabase} {id : String} {generations : List String}
    (h : AllocationTable db.allocations) (hkeys : PrimaryKey ProjectRow.id db.projects)
    (hdelete : deleteProject db id = .ok (db', generations)) :
    AllocationTable db'.allocations ∧ TableGrew db.allocations db'.allocations ∧
      PrimaryKey ProjectRow.id db'.projects ∧
      ∀ present ∈ db.projects, Occurs db'.projects present.id present.generation ∨
        (present.id, present.generation) ∈ generations.map fun generation => (id, generation) := by
  replace hdelete := of_throwWhen hdelete
  obtain ⟨_, hupdate, hpure⟩ := bind_eq_ok.mp hdelete
  obtain ⟨rfl, rfl⟩ := Prod.mk.inj (pure_eq_ok.mp hpure)
  obtain ⟨rfl, hpassed⟩ := updateAllocations_eq_ok hupdate
  refine ⟨h.update (fun _ => rfl) (fun row hrow hselected => (hpassed row hrow hselected).2)
    fun row hrow _ => h.rejections row hrow, update fun row hrow hselected => ?_,
    Nodup.sublist (filter_sublist.map _) hkeys, fun present hpresent => ?_⟩
  · have htrigger := (hpassed row hrow hselected).1
    simp only [retentionWriteOnce, throwWhen_eq_ok, not_or, not_isSome_iff_eq_none] at htrigger
    exact ⟨rfl, .inr rfl, .inr rfl, .inr rfl, .inl htrigger.1⟩
  · by_cases hid : present.id = id
    · refine .inr (List.mem_map.mpr ⟨present.generation, List.mem_map_of_mem ?_, by rw [hid]⟩)
      exact mem_filter.mpr ⟨hpresent, decide_eq_true hid⟩
    · exact .inl ⟨present, mem_filter.mpr ⟨hpresent, decide_eq_true hid⟩, rfl, rfl⟩

structure AcceptedBy (input : AcceptInput) (row : GlobalCreationAllocation) : Prop where
  kind : row.kind = input.kind
  bound : row.materializedProjectID = some input.projectID
  projectID : row.acceptedProjectID = some input.projectID
  targetID : row.acceptedTargetID = some input.targetID

lemma AcceptedBy.grew {input : AcceptInput} {row row' : GlobalCreationAllocation} (h : AcceptedBy input row)
    (hgrew : Grew row row') : AcceptedBy input row' where
  kind := hgrew.kind_eq.trans h.kind
  bound := (hgrew.binding_eq h.bound).1
  projectID := (congrArg Prod.fst (hgrew.acceptance_eq h.targetID)).trans h.projectID
  targetID := (congrArg (fun columns => columns.2.1) (hgrew.acceptance_eq h.targetID)).trans h.targetID

def RejectedWith (error : ThrownError) (row : GlobalCreationAllocation) : Prop :=
  ∃ rejection stored, parseRejection error.serialized = .ok rejection ∧ row.rejectedError = some stored ∧
    canonicalJSONValue stored = canonicalJSONValue (serializedRejection rejection)

lemma RejectedWith.grew {error : ThrownError} {row row' : GlobalCreationAllocation} (h : RejectedWith error row)
    (hgrew : Grew row row') : RejectedWith error row' := by
  obtain ⟨rejection, stored, hparse, hstored, htext⟩ := h
  exact ⟨rejection, stored, hparse, hgrew.rejectedError_eq hstored, htext⟩

lemma storedRejection_of_parse {value : Json} {rejection : RejectionName × Json}
    (h : parseRejection value = .ok rejection) : StoredRejection (serializedRejection rejection) := by
  simp only [parseRejection, bind_eq_ok, throwWhen_eq_ok, pure_eq_ok] at h
  obtain ⟨name, -, data, -, -, hdata, rfl⟩ := h
  rw [not_or, Bool.not_eq_false] at hdata
  exact ⟨name, data, hdata.1, rfl⟩

section Outcome

variable {rows rows' : List GlobalCreationAllocation} {id : String}

lemma mem_updated {row : GlobalCreationAllocation} {set : GlobalCreationAllocation → GlobalCreationAllocation}
    (hrow : row ∈ rows) (hid : row.id = id) :
    set row ∈ rows.map (updated (fun present => present.id = id) set) := by
  refine List.mem_map.mpr ⟨row, hrow, ?_⟩
  rw [updated, if_pos (decide_eq_true hid)]

/-- A rejection sets the columns of a rejection where neither a rejection nor an acceptance is set. -/
lemma reject_eq_ok {error : ThrownError} {now : ℤ} {outcome : RejectOutcome} (h : AllocationTable rows)
    (hreject : reject rows id error now = .ok (rows', outcome)) :
    AllocationTable rows' ∧ TableGrew rows rows' ∧ ∃ row ∈ rows', row.id = id ∧
      (outcome = .rejected → RejectedWith error row) ∧ (outcome = .accepted → row.acceptedTargetID.isSome) := by
  obtain ⟨rejection, hparse, hreject⟩ := bind_eq_ok.mp hreject
  obtain ⟨row, hfind, hreject⟩ := bind_eq_ok.mp hreject
  rw [getOrThrow_eq_ok] at hfind
  have hrow := mem_of_find?_eq_some hfind
  have hid : row.id = id := by simpa using find?_some hfind
  split at hreject
  · next haccepted =>
    obtain ⟨rfl, rfl⟩ := Prod.mk.inj (pure_eq_ok.mp hreject)
    refine ⟨h, refl _, row, hrow, hid, fun hne => absurd hne (by decide), fun _ => ?_⟩
    cases htarget : row.acceptedTargetID with
    | none => simp [set, htarget] at haccepted
    | some => rfl
  · split at hreject
    · next stored hstored =>
      obtain ⟨htext, hpure⟩ := throwWhen_bind_eq_ok.mp hreject
      obtain ⟨rfl, rfl⟩ := Prod.mk.inj (pure_eq_ok.mp hpure)
      rw [not_not] at htext
      exact ⟨h, refl _, row, hrow, hid,
        fun _ => ⟨rejection, stored, hparse, (filter_eq_some_iff.mp hstored).1, htext⟩, fun hne => absurd hne (by decide)⟩
    · obtain ⟨_, hupdate, hpure⟩ := bind_eq_ok.mp hreject
      obtain ⟨rfl, rfl⟩ := Prod.mk.inj (pure_eq_ok.mp hpure)
      obtain ⟨rfl, hpassed⟩ := updateAllocations_eq_ok hupdate
      refine ⟨h.update (fun _ => rfl) (fun present hpresent hselected => (hpassed present hpresent hselected).2) ?_,
        update fun present hpresent hselected => ?_, _, mem_updated hrow hid, hid,
        fun _ => ⟨rejection, _, hparse, rfl, rfl⟩, fun hne => absurd hne (by decide)⟩
      · rintro _ - - _ herror
        obtain rfl := some.inj herror
        exact storedRejection_of_parse hparse
      · have htrigger := (hpassed present hpresent hselected).1
        simp only [rejectionWriteOnce, throwWhen_eq_ok, not_or, not_isSome_iff_eq_none] at htrigger
        refine ⟨rfl, .inr rfl, .inl ?_, .inr rfl, .inr rfl⟩
        rw [refusal, htrigger.1, htrigger.2.1]

/-- An acceptance sets the columns of an acceptance where neither a rejection nor an acceptance is set. -/
lemma acceptInTransaction_eq_ok {authority : TargetAuthority} {db db' : CreationDatabase} {input : AcceptInput}
    (h : AllocationTable db.allocations) (haccept : acceptInTransaction authority db input = .ok db') :
    AllocationTable db'.allocations ∧ TableGrew db.allocations db'.allocations ∧ db'.projects = db.projects ∧
      ∃ row ∈ db'.allocations, row.id = input.allocationID ∧ AcceptedBy input row := by
  obtain ⟨row, hfind, haccept⟩ := bind_eq_ok.mp haccept
  rw [getOrThrow_eq_ok] at hfind
  have hrow := mem_of_find?_eq_some hfind
  have hid : row.id = input.allocationID := by simpa using find?_some hfind
  obtain ⟨hkind, haccept⟩ := throwWhen_bind_eq_ok.mp haccept
  replace haccept := of_throwWhen haccept
  obtain ⟨hbound, haccept⟩ := throwWhen_bind_eq_ok.mp haccept
  rw [not_not] at hkind
  rw [not_or, not_not] at hbound
  split at haccept
  · obtain ⟨hsame, hpure⟩ := throwWhen_bind_eq_ok.mp haccept
    obtain rfl := pure_eq_ok.mp hpure
    rw [not_not] at hsame
    exact ⟨h, refl _, rfl, row, hrow, hid, hkind, hbound.1, hsame.1, hsame.2.1⟩
  · obtain ⟨⟨_, _⟩, -, haccept⟩ := bind_eq_ok.mp haccept
    obtain ⟨_, hupdate, hpure⟩ := bind_eq_ok.mp haccept
    obtain rfl := pure_eq_ok.mp hpure
    obtain ⟨rfl, hpassed⟩ := updateAllocations_eq_ok hupdate
    refine ⟨h.update (fun _ => rfl) (fun present hpresent hselected => (hpassed present hpresent hselected).2)
      fun present hpresent _ => h.rejections present hpresent, update fun present hpresent hselected => ?_,
      rfl, _, mem_updated hrow hid, hid, hkind, hbound.1, rfl, rfl⟩
    have htrigger := (check_bind_eq_ok.mp (hpassed present hpresent hselected).1).1
    simp only [acceptanceWriteOnce, throwWhen_eq_ok, not_or, not_isSome_iff_eq_none] at htrigger
    refine ⟨rfl, .inr rfl, .inr rfl, .inl ?_, .inr rfl⟩
    rw [acceptance, htrigger.1, htrigger.2.1, htrigger.2.2.1, htrigger.2.2.2.1]

end Outcome

end OpenCorvus.Project
