import OpenCorvus.Project.GlobalCreationSteps

/-!
# Replays of global creation

A row of the table has each group of its columns either whole or not at all.  A call that repeats what a row tells
already therefore finds it so, answers, and changes nothing; a call that tells otherwise raises.
-/

namespace OpenCorvus.Project

open Json Transaction Option GlobalCreationAllocation
open EcmaScript (trim)

section Shape

variable {row : GlobalCreationAllocation}

lemma exists_of_named {column : Option String} (h : named column = true) : ∃ text, column = some text ∧ text ≠ "" := by
  obtain ⟨text, htext, hany⟩ := Option.any_eq_true _ _ |>.mp h
  refine ⟨text, htext, ?_⟩
  rintro rfl
  exact absurd hany (by decide)

lemma binding_cases (h : row.factShape = true) : row.binding = (none, none, none) ∨
    ∃ projectID generation time, row.binding = (some projectID, some generation, some time) ∧ projectID ≠ "" ∧
      generation ≠ "" := by
  have hshape : row.projectShape = true := by
    simp only [factShape, Bool.and_eq_true] at h
    tauto
  simp only [projectShape, Bool.or_eq_true, Bool.and_eq_true, isNone_iff_eq_none,
    isSome_iff_exists] at hshape
  rcases hshape with ⟨⟨hproject, hgeneration⟩, htime⟩ | ⟨⟨hproject, hgeneration⟩, time, htime⟩
  · left
    rw [binding, hproject, hgeneration, htime]
  · obtain ⟨projectID, hproject, hne⟩ := exists_of_named hproject
    obtain ⟨generation, hgeneration, hne'⟩ := exists_of_named hgeneration
    refine .inr ⟨projectID, generation, time, ?_, hne, hne'⟩
    rw [binding, hproject, hgeneration, htime]

lemma refusal_cases (h : row.factShape = true) :
    row.refusal = (none, none) ∨ ∃ error time, row.refusal = (some error, some time) := by
  have hshape : row.rejectionShape = true := by
    simp only [factShape, Bool.and_eq_true] at h
    tauto
  simp only [rejectionShape, Bool.or_eq_true, Bool.and_eq_true, isNone_iff_eq_none,
    isSome_iff_exists] at hshape
  rcases hshape with ⟨herror, htime⟩ | ⟨herror, time, htime⟩
  · left
    rw [refusal, herror, htime]
  · obtain ⟨error, herror, -⟩ := Option.any_eq_true _ _ |>.mp herror
    refine .inr ⟨error, time, ?_⟩
    rw [refusal, herror, htime]

lemma acceptance_cases (h : row.factShape = true) : row.acceptance = (none, none, none, none) ∨
    ∃ projectID targetID overlay time, row.acceptance = (some projectID, some targetID, some overlay, some time) ∧
      projectID ≠ "" ∧ targetID ≠ "" ∧ row.materializedProjectID = some projectID ∧ row.rejectedError = none := by
  have hshape : row.acceptanceShape = true ∧ (!(row.rejectedError.isSome && row.acceptedTargetID.isSome)) = true ∧
      (row.acceptedProjectID.isNone || decide (row.acceptedProjectID = row.materializedProjectID)) = true := by
    simp only [factShape, Bool.and_eq_true] at h
    tauto
  obtain ⟨hshape, hexclusive, howned⟩ := hshape
  simp only [acceptanceShape, Bool.or_eq_true, Bool.and_eq_true, isNone_iff_eq_none,
    isSome_iff_exists] at hshape
  rcases hshape with ⟨⟨⟨hproject, htarget⟩, hoverlay⟩, htime⟩ | ⟨⟨⟨hproject, htarget⟩, hoverlay⟩, time, htime⟩
  · left
    rw [acceptance, hproject, htarget, hoverlay, htime]
  · obtain ⟨projectID, hproject, hne⟩ := exists_of_named hproject
    obtain ⟨targetID, htarget, hne'⟩ := exists_of_named htarget
    obtain ⟨overlay, hoverlay, -⟩ := Option.any_eq_true _ _ |>.mp hoverlay
    refine .inr ⟨projectID, targetID, overlay, time, ?_, hne, hne', ?_, ?_⟩
    · rw [acceptance, hproject, htarget, hoverlay, htime]
    · rw [hproject] at howned
      simpa [eq_comm] using howned
    · rw [htarget] at hexclusive
      simpa using hexclusive

end Shape

section Requests

variable {rows : List GlobalCreationAllocation} {row : GlobalCreationAllocation} {input : CreationRequest}

lemma AllocationTable.requestID_ne_empty (h : AllocationTable rows) (hrow : row ∈ rows) : row.requestID ≠ "" := by
  have hnamed : named (some row.requestID) = true := by
    have hshape := h.shapes row hrow
    simp only [factShape, Bool.and_eq_true] at hshape
    tauto
  obtain ⟨_, htext, hne⟩ := exists_of_named hnamed
  exact some.inj htext ▸ hne

lemma AllocationTable.isObject_contract (h : AllocationTable rows) (hrow : row ∈ rows) :
    row.requestContract.isObject = true := by
  have hshape := h.shapes row hrow
  simp only [factShape, Bool.and_eq_true] at hshape
  tauto

lemma find_replay (h : AllocationTable rows) (hrow : row ∈ rows) (hanswers : Answers input row) :
    find rows input = .ok (some row) := by
  have hne : ¬trim input.requestID = "" := hanswers.requestID ▸ h.requestID_ne_empty hrow
  have hrequested := h.requested_eq hrow
  rw [hanswers.kind, hanswers.requestID] at hrequested
  have hassert : assertRequestContract row { input with requestID := trim input.requestID } = .ok row :=
    (assertRequestContract_eq_ok (h.fingerprints row hrow)).mpr
      ⟨rfl, hanswers.isObject, h.isObject_contract hrow, hanswers.contract.symm⟩
  unfold find
  rw [throwWhen_bind_eq_ok]
  refine ⟨hne, ?_⟩
  simp only [hrequested, hassert]
  rfl

lemma reserve_replay (h : AllocationTable rows) (hrow : row ∈ rows) (hanswers : Answers input row) (directory : String)
    (now : ℤ) : reserve rows input directory now = .ok (rows, row) := by
  have hne : ¬trim input.requestID = "" := hanswers.requestID ▸ h.requestID_ne_empty hrow
  have hrequested := h.requested_eq hrow
  rw [hanswers.kind, hanswers.requestID] at hrequested
  have hobject : input.requestContract.canonical.isObject = true := by
    have hobject := hanswers.isObject
    cases hcontract : input.requestContract with
    | obj => rfl
    | _ => rw [hcontract] at hobject; cases hobject
  have hassert : assertRequestContract row
      { input with requestID := trim input.requestID, requestContract := input.requestContract.canonical } = .ok row :=
    (assertRequestContract_eq_ok (h.fingerprints row hrow)).mpr
      ⟨rfl, hobject, h.isObject_contract hrow, (canonicalJSONValue_canonical _).trans hanswers.contract.symm⟩
  unfold reserve
  rw [throwWhen_bind_eq_ok]
  refine ⟨hne, bind_eq_ok.mpr ⟨_, canonicalTaskCreationContract_eq_ok.mpr ⟨hanswers.isObject, rfl⟩, ?_⟩⟩
  simp only [hrequested, hassert]
  rfl

/-- A computation that cannot answer raises. -/
lemma exists_error {ε β : Type} {x : Except ε β} (h : ∀ b, x ≠ .ok b) : ∃ refused, x = .error refused := by
  cases x with
  | error refused => exact ⟨refused, rfl⟩
  | ok b => exact absurd rfl (h b)

lemma find_conflict (h : AllocationTable rows) (hrow : row ∈ rows) (hkind : row.kind = input.kind)
    (hrequestID : row.requestID = trim input.requestID) (hother : ¬Answers input row) :
    ∃ refused, find rows input = .error refused := by
  refine exists_error fun found hfind => ?_
  cases found with
  | some found =>
    obtain ⟨hmem, hanswers⟩ := find_eq_ok h hfind
    have hsame : found = row := h.requests.eq_of_id hmem hrow
      (Prod.ext (hanswers.kind.trans hkind.symm) (hanswers.requestID.trans hrequestID.symm))
    exact hother (hsame ▸ hanswers)
  | none =>
    replace hfind := of_throwWhen hfind
    have hrequested := h.requested_eq hrow
    rw [hkind, hrequestID] at hrequested
    rw [hrequested] at hfind
    obtain ⟨_, -, hsome⟩ := map_eq_ok.mp hfind
    cases hsome

lemma reserve_conflict (h : AllocationTable rows) (hrow : row ∈ rows) (hkind : row.kind = input.kind)
    (hrequestID : row.requestID = trim input.requestID) (hother : ¬Answers input row) (directory : String) (now : ℤ) :
    ∃ refused, reserve rows input directory now = .error refused := by
  refine exists_error ?_
  rintro ⟨_, found⟩ hreserve
  refine hother ?_
  obtain ⟨htable, hgrew, hmem, hanswers⟩ := reserve_eq_ok h hreserve
  obtain ⟨row', hrow', hgrew'⟩ := hgrew row hrow
  have hsame : found = row' := by
    refine htable.requests.eq_of_id hmem hrow' (Prod.ext ?_ ?_)
    · exact hanswers.kind.trans (hgrew'.kind_eq.trans hkind).symm
    · exact hanswers.requestID.trans (hgrew'.requestID_eq.trans hrequestID).symm
  refine ⟨hkind, hrequestID, hanswers.isObject, ?_⟩
  rw [← hgrew'.requestContract_eq, ← hsame, hanswers.contract]

end Requests

section Outcomes

variable {rows : List GlobalCreationAllocation} {row : GlobalCreationAllocation}

lemma acceptedTarget_eq (h : row.factShape = true) :
    (row.acceptedTargetID = none ∧ acceptedTarget row = .ok none) ∨
      ∃ target, row.acceptedTargetID = some target.targetID ∧ row.acceptedProjectID = some target.projectID ∧
        row.materializedProjectID = some target.projectID ∧ acceptedTarget row = .ok (some target) := by
  rcases acceptance_cases h with hnone | ⟨projectID, targetID, _, time, haccepted, hne, hne', hbound, -⟩
  · obtain ⟨hproject, htarget, -, htime⟩ : _ ∧ _ ∧ _ ∧ _ := by
      simpa [acceptance] using hnone
    left
    refine ⟨htarget, ?_⟩
    rw [acceptedTarget, hproject, htarget, htime]
    rfl
  · obtain ⟨hproject, htarget, -, htime⟩ : _ ∧ _ ∧ _ ∧ _ := by
      simpa [acceptance] using haccepted
    refine .inr ⟨⟨projectID, targetID, time⟩, htarget, hproject, hbound, ?_⟩
    rw [acceptedTarget, hproject, htarget, htime]
    simp [Option.filter, hne, hne']

lemma rejectionName_text (name : RejectionName) : rejectionName (.text name.text) = some name := by
  cases name <;> decide

lemma parseRejection_serialized (name : RejectionName) {data : Json} (hdata : data.isObject = true) :
    parseRejection (serializedRejection (name, data)) = .ok (name, data) := by
  have hne : Utf16.ofString "name" ≠ Utf16.ofString "data" := by decide
  have hname : ((serializedRejection (name, data)).field? "name").bind rejectionName = some name := by
    simp [serializedRejection, Json.fields, field?, rejectionName_text]
  have hfield : (serializedRejection (name, data)).field? "data" = some data := by
    simp [serializedRejection, Json.fields, field?, hne]
  have honly : (serializedRejection (name, data)).hasOnly ["name", "data"] = true := by
    simp [serializedRejection, Json.fields, hasOnly]
  simp [parseRejection, hname, hfield, honly, hdata, getOrThrow, throwWhen, bind, Except.bind, pure, Except.pure]

lemma throwIfRejected_eq (h : row.factShape = true) (hstored : ∀ error ∈ row.rejectedError, StoredRejection error) :
    (row.rejectedError = none ∧ row.timeRejected = none ∧ throwIfRejected row = .ok ()) ∨
      ∃ error name data, row.rejectedError = some error ∧ Json.truthy (some error) = true ∧
        rejectionError row.rejectedError = .rejection name data ∧
        throwIfRejected row = .error (.rejection name data) := by
  rcases refusal_cases h with hnone | ⟨error, _, hrefusal⟩
  · obtain ⟨herror, htime⟩ : _ ∧ _ := by simpa [refusal] using hnone
    refine .inl ⟨herror, htime, ?_⟩
    rw [throwIfRejected, herror, htime]
    rfl
  · obtain ⟨herror, htime⟩ : _ ∧ _ := by simpa [refusal] using hrefusal
    obtain ⟨name, data, hdata, rfl⟩ := hstored error herror
    have hparse := parseRejection_serialized name hdata
    have hrejection : rejectionError row.rejectedError = .rejection name data := by
      rw [rejectionError, herror, getD_some, hparse]
    refine .inr ⟨_, name, data, herror, rfl, hrejection, ?_⟩
    rw [throwIfRejected, hrejection, herror, htime]
    rfl

lemma accepted_whole (h : row.factShape = true) {targetID : String} (haccepted : row.acceptedTargetID = some targetID) :
    Json.truthy row.rejectedError = false ∧ row.timeRejected = none ∧ set row.acceptedTargetID = true ∧
      row.acceptedInitialConfigOverlay.isSome = true ∧ set row.materializedProjectGeneration = true ∧
      row.timeMaterialized.isSome = true := by
  rcases acceptance_cases h with hnone | ⟨_, _, _, time, hwhole, _, hne', hbound, herror⟩
  · have htarget : row.acceptedTargetID = none := congrArg (fun columns => columns.2.1) hnone
    rw [htarget] at haccepted
    cases haccepted
  · obtain ⟨-, htarget, hoverlay, -⟩ : _ ∧ _ ∧ _ ∧ _ := by
      simpa [acceptance] using hwhole
    have htime : row.timeRejected = none := by
      rcases refusal_cases h with hnone | ⟨error, _, hrefusal⟩
      · exact congrArg Prod.snd hnone
      · have hsome : row.rejectedError = some error := congrArg Prod.fst hrefusal
        rw [herror] at hsome
        cases hsome
    rcases binding_cases h with hnone | ⟨_, _, _, hbinding, -, hgeneration⟩
    · have hunbound : row.materializedProjectID = none := congrArg Prod.fst hnone
      rw [hbound] at hunbound
      cases hunbound
    · obtain ⟨-, hgenerated, hmaterialized⟩ : _ ∧ _ ∧ _ := by
        simpa [binding] using hbinding
      rw [herror, htarget, hoverlay, hgenerated, hmaterialized]
      exact ⟨rfl, htime, by simpa [set] using hne', rfl, by simpa [set] using hgeneration, rfl⟩

lemma accept_replay (authority : TargetAuthority) {db : CreationDatabase} (h : AllocationTable db.allocations)
    (hrow : row ∈ db.allocations) {input : AcceptInput} (hid : row.id = input.allocationID)
    (haccepted : AcceptedBy input row) : acceptInTransaction authority db input = .ok db := by
  obtain ⟨hrejected, hrejectedAt, htarget, hoverlay, hgeneration, hmaterialized⟩ :=
    accepted_whole (h.shapes row hrow) haccepted.targetID
  have hfind := h.find_eq hrow
  rw [hid] at hfind
  unfold acceptInTransaction
  refine bind_eq_ok.mpr ⟨row, getOrThrow_eq_ok.mpr hfind, throwWhen_bind_eq_ok.mpr ⟨?_, throwWhen_bind_eq_ok.mpr ⟨?_,
    throwWhen_bind_eq_ok.mpr ⟨?_, ?_⟩⟩⟩⟩
  · simpa using haccepted.kind
  · simp [hrejected, hrejectedAt]
  · simp [haccepted.bound, hgeneration, isSome_iff_ne_none.mp hmaterialized]
  · have hhas : row.hasAcceptance = true := by simp [hasAcceptance, htarget]
    rw [if_pos hhas, throwWhen_bind_eq_ok]
    simp [haccepted.projectID, haccepted.targetID, hoverlay]

lemma accept_conflict (authority : TargetAuthority) {db : CreationDatabase} (h : AllocationTable db.allocations)
    (hrow : row ∈ db.allocations) {input : AcceptInput} (hid : row.id = input.allocationID)
    (hsettled : row.acceptedTargetID.isSome ∨ row.rejectedError.isSome) (hother : ¬AcceptedBy input row) :
    ∃ refused, acceptInTransaction authority db input = .error refused := by
  refine exists_error fun db' haccept => hother ?_
  obtain ⟨htable, hgrew, -, row', hrow', hid', haccepted⟩ := acceptInTransaction_eq_ok h haccept
  obtain ⟨grown, hgrown, hgrew'⟩ := hgrew row hrow
  have hsame : grown = row' := htable.ids.eq_of_id hgrown hrow' (hgrew'.id_eq.trans (hid.trans hid'.symm))
  rw [← hsame] at haccepted
  rcases hsettled with hsettled | hsettled
  · obtain ⟨targetID, htarget⟩ := isSome_iff_exists.mp hsettled
    have hkept := hgrew'.acceptance_eq htarget
    have hproject := (congrArg Prod.fst hkept).symm.trans haccepted.projectID
    refine ⟨hgrew'.kind_eq.symm.trans haccepted.kind, ?_, hproject,
      (congrArg (fun columns => columns.2.1) hkept).symm.trans haccepted.targetID⟩
    rcases acceptance_cases (h.shapes row hrow) with hnone | ⟨projectID, _, _, _, hwhole, -, -, hbound, -⟩
    · have hnone : row.acceptedTargetID = none := congrArg (fun columns => columns.2.1) hnone
      rw [htarget] at hnone
      cases hnone
    · have hown : row.acceptedProjectID = some projectID := congrArg Prod.fst hwhole
      exact hbound.trans (hown.symm.trans hproject)
  · obtain ⟨error, herror⟩ := isSome_iff_exists.mp hsettled
    obtain ⟨htruthy, -⟩ := accepted_whole (htable.shapes grown hgrown) haccepted.targetID
    have hkept := hgrew'.rejectedError_eq herror
    obtain ⟨_, _, -, rfl⟩ := htable.rejections grown hgrown error hkept
    rw [hkept] at htruthy
    cases htruthy

variable {error : ThrownError}

lemma reject_replay (h : AllocationTable rows) (hrow : row ∈ rows) (hrejected : RejectedWith error row) (now : ℤ) :
    reject rows row.id error now = .ok (rows, .rejected) := by
  obtain ⟨rejection, stored, hparse, hstored, htext⟩ := hrejected
  obtain ⟨name, data, -, rfl⟩ := h.rejections row hrow stored hstored
  have hnot : set row.acceptedTargetID = false := by
    cases htarget : row.acceptedTargetID with
    | none => rfl
    | some =>
      obtain ⟨htruthy, -⟩ := accepted_whole (h.shapes row hrow) htarget
      rw [hstored] at htruthy
      cases htruthy
  unfold reject
  refine bind_eq_ok.mpr ⟨rejection, hparse, bind_eq_ok.mpr ⟨row, getOrThrow_eq_ok.mpr (h.find_eq hrow), ?_⟩⟩
  have hfilter : (row.rejectedError.filter fun stored => Json.truthy (some stored)) =
      some (serializedRejection (name, data)) := by
    rw [hstored]
    rfl
  simp only [hnot, hfilter, Bool.false_eq_true, if_false]
  exact throwWhen_bind_eq_ok.mpr ⟨not_not.mpr htext, rfl⟩

lemma reject_accepted (h : AllocationTable rows) (hrow : row ∈ rows) {targetID : String}
    (haccepted : row.acceptedTargetID = some targetID) {rejection : RejectionName × Json}
    (hparse : parseRejection error.serialized = .ok rejection) (now : ℤ) :
    reject rows row.id error now = .ok (rows, .accepted) := by
  obtain ⟨-, -, htarget, -⟩ := accepted_whole (h.shapes row hrow) haccepted
  unfold reject
  refine bind_eq_ok.mpr ⟨rejection, hparse, bind_eq_ok.mpr ⟨row, getOrThrow_eq_ok.mpr (h.find_eq hrow), ?_⟩⟩
  rw [if_pos htarget]
  rfl

lemma reject_conflict (h : AllocationTable rows) (hrow : row ∈ rows) {stored : Json}
    (hstored : row.rejectedError = some stored) (hother : ¬RejectedWith error row) (now : ℤ) :
    ∃ refused, reject rows row.id error now = .error refused := by
  refine exists_error ?_
  rintro ⟨_, outcome⟩ hreject
  obtain ⟨htable, hgrew, row', hrow', hid', hrejected, haccepted⟩ := reject_eq_ok h hreject
  obtain ⟨grown, hgrown, hgrew'⟩ := hgrew row hrow
  have hsame : grown = row' := htable.ids.eq_of_id hgrown hrow' (hgrew'.id_eq.trans hid'.symm)
  have hkept := hgrew'.rejectedError_eq hstored
  cases outcome with
  | rejected =>
    obtain ⟨rejection, _, hparse, hstored', htext⟩ := hrejected rfl
    rw [← hsame, hkept] at hstored'
    obtain rfl := some.inj hstored'
    exact hother ⟨rejection, stored, hparse, hstored, htext⟩
  | accepted =>
    obtain ⟨_, htarget⟩ := isSome_iff_exists.mp (haccepted rfl)
    rw [← hsame] at htarget
    obtain ⟨htruthy, -⟩ := accepted_whole (htable.shapes grown hgrown) htarget
    obtain ⟨_, _, -, rfl⟩ := htable.rejections grown hgrown stored hkept
    rw [hkept] at htruthy
    cases htruthy

end Outcomes

end OpenCorvus.Project
