import OpenCorvus.Foundation.AppendOnlyLog
import OpenCorvus.Foundation.ExecutableSystem
import OpenCorvus.Foundation.KeyedRevisions
import OpenCorvus.Foundation.OrderBy
import OpenCorvus.Mission.AcceptanceLedger

/-!
# Continuity of the acceptance ledger

The transition rules of the ledger compare adjacent revisions.  This file derives what they mean at any distance:
revisions are numbered from one and name their predecessor, a criterion never disappears, loses evidence or leaves the
blocked state, and reopens only where a revision in between brought new invalidating evidence.
-/

namespace OpenCorvus.Mission

open Engine Transaction ExecutableSystem KeyedRevisions AppendOnlyLog OrderBy List Option
open Relation Mission.EngineArtifactRow

/-! ## One transition of a criterion -/

/-- What the transition rules guarantee of a criterion and its successor. -/
structure CriterionStep (prior current : MissionAcceptanceCriterion) : Prop where
  responsibility : current.responsibility = prior.responsibility
  /-- Every locator keeps its role. -/
  retains : ∀ role, prior.locators role ⊆ current.locators role
  /-- A blocked criterion stays blocked. -/
  blocked : prior.state = .blocked → current.state = .blocked
  /-- An accepted criterion stays accepted, or new invalidating evidence came. -/
  accepted : prior.state = .accepted → current.state = .accepted ∨
    ∃ locator ∈ current.invalidatingEvidenceLocators, locator ∉ prior.invalidatingEvidenceLocators

lemma CriterionStep.refl (criterion : MissionAcceptanceCriterion) : CriterionStep criterion criterion :=
  ⟨rfl, fun _ _ hlocator => hlocator, id, Or.inl⟩

variable {current prior : MissionAcceptanceCriterion} {taskID id : String} {gap : MissionAcceptanceGap}
  {db db' : LedgerDatabase} {chain : List TaskAcceptanceLedgerProjection}

lemma retainsAllLocatorsByRole_iff : retainsAllLocatorsByRole current prior = true ↔
      ∀ role, prior.locators role ⊆ current.locators role := by
  simp only [retainsAllLocatorsByRole, List.all_eq_true, decide_eq_true_eq]
  constructor
  · intro h role locator hlocator
    exact h role (mem_evidenceRoleFields role) locator hlocator
  · intro h role _ locator hlocator
    exact h role hlocator

lemma hasNewLocatorInRole_iff {role : EvidenceRoleField} : hasNewLocatorInRole current prior role = true ↔
      ∃ locator ∈ current.locators role, locator ∉ prior.locators role := by
  simp [hasNewLocatorInRole]

lemma criterionStep_of_open {disposition : MissionAcceptanceCriterionDisposition}
    {action : MissionAcceptanceRepairAction} (hstate : prior.state = .opened disposition action)
    (hresponsibility : prior.responsibility = current.responsibility)
    (h : requireOpenTransition taskID prior action current = .ok ()) : CriterionStep prior current := by
  unfold requireOpenTransition at h
  obtain ⟨hretains, -⟩ := throwWhen_bind_eq_ok.mp h
  rw [not_not, retainsAllLocatorsByRole_iff] at hretains
  refine ⟨hresponsibility.symm, hretains, fun hblocked => ?_, fun haccepted => ?_⟩
  · rw [hstate] at hblocked
    cases hblocked
  · rw [hstate] at haccepted
    cases haccepted

lemma criterionStep_of_accepted (hstate : prior.state = .accepted)
    (hresponsibility : prior.responsibility = current.responsibility)
    (h : requireAcceptedTransition taskID prior current = .ok ()) : CriterionStep prior current := by
  unfold requireAcceptedTransition at h
  split at h
  · rw [throwWhen_eq_ok, not_not] at h
    exact h ▸ CriterionStep.refl prior
  · cases h
  · obtain ⟨hretained, hnew⟩ := throwWhen_bind_eq_ok.mp h
    rw [throwWhen_eq_ok, not_not, hasNewLocatorInRole_iff] at hnew
    have hretains : retainsAllLocatorsByRole current prior = true := by
      by_contra hnot
      exact hretained (Or.inr hnot)
    refine ⟨hresponsibility.symm, retainsAllLocatorsByRole_iff.mp hretains, fun hblocked => ?_,
      fun _ => Or.inr hnew⟩
    rw [hstate] at hblocked
    cases hblocked

theorem criterionStep_of_continuity (h : requireCriterionContinuity taskID gap prior = .ok ()) :
    ∃ current, currentByID gap prior.criterionID = some current ∧ CriterionStep prior current := by
  unfold requireCriterionContinuity at h
  obtain ⟨current, hcurrent, h⟩ := bind_eq_ok.mp h
  rw [getOrThrow_eq_ok] at hcurrent
  obtain ⟨hsame, h⟩ := check_bind_eq_ok.mp h
  have hresponsibility : prior.responsibility = current.responsibility := by
    rwa [requireSameResponsibility, throwWhen_eq_ok, not_not] at hsame
  refine ⟨current, hcurrent, ?_⟩
  split at h
  · next hstate => exact criterionStep_of_open hstate hresponsibility h
  · next hstate => exact criterionStep_of_accepted hstate hresponsibility h
  · rw [throwWhen_eq_ok, not_not] at h
    exact h ▸ CriterionStep.refl prior

/-! ## The criteria of a valid gap -/

lemma mem_of_currentByID {criterionID : String} {criterion : MissionAcceptanceCriterion}
    (h : currentByID gap criterionID = some criterion) :
    criterion ∈ gap.criteria ∧ criterion.criterionID = criterionID := by
  have hfound := find?_some h
  have hmem := mem_of_find?_eq_some h
  exact ⟨mem_reverse.mp hmem, by simpa using hfound⟩

lemma currentByID_eq_some (hvalid : gap.isValid = true) {criterion : MissionAcceptanceCriterion}
    (h : criterion ∈ gap.criteria) :
    currentByID gap criterion.criterionID = some criterion := by
  have hkey : UniqueIndex.PrimaryKey MissionAcceptanceCriterion.criterionID gap.criteria.reverse := by
    unfold UniqueIndex.PrimaryKey
    rw [map_reverse, nodup_reverse]
    exact MissionAcceptanceGap.nodup_of_isValid hvalid
  exact hkey.find?_eq_some (mem_reverse.mpr h)

/-! ## The chain of revisions -/

def EngineArtifactRow.ledgerProjection (taskID : String) (row : EngineArtifactRow) :
    Option TaskAcceptanceLedgerProjection :=
  (row.ledgerRevision taskID).map fun revision => { artifactID := row.id, revision := revision }

def taskAcceptanceLedgerChain (db : LedgerDatabase) (taskID : String) : List TaskAcceptanceLedgerProjection :=
  (orderBy (·.catalogRevision) (taskAcceptanceLedgerRows db taskID)).filterMap (·.ledgerProjection taskID)

/-- The revisions of a Task in the order of the table. -/
def ledgerProjections (db : LedgerDatabase) (taskID : String) : List TaskAcceptanceLedgerProjection :=
  (taskAcceptanceLedgerRows db taskID).filterMap (·.ledgerProjection taskID)

def TaskAcceptanceLedgerProjection.criterion (projection : TaskAcceptanceLedgerProjection)
    (criterionID : String) : Option MissionAcceptanceCriterion :=
  currentByID projection.revision.gap criterionID

structure Follows (before : List TaskAcceptanceLedgerProjection)
    (next : TaskAcceptanceLedgerProjection) : Prop where
  parses : parseTaskAcceptanceLedgerRevision next.revision = .ok next.revision
  number : next.revision.revision = before.length + 1
  predecessor : next.revision.previousRevisionArtifactID = before.getLast?.map (·.artifactID)
  carries : ∀ last, before.getLast? = some last →
    Carries TaskAcceptanceLedgerProjection.criterion CriterionStep last next

lemma gap_isValid_of_parses {revision parsed : TaskAcceptanceLedgerRevision}
    (h : parseTaskAcceptanceLedgerRevision revision = .ok parsed) : parsed.gap.isValid = true := by
  unfold parseTaskAcceptanceLedgerRevision at h
  replace h := of_throwWhen h
  obtain ⟨_, hgap, h⟩ := bind_eq_ok.mp h
  rw [pure_eq_ok] at h
  rw [← h]
  exact (parseMissionAcceptanceGap_eq_ok.mp hgap).2

lemma parseTaskAcceptanceLedgerRevision_eq_ok {revision parsed : TaskAcceptanceLedgerRevision}
    (h : parseTaskAcceptanceLedgerRevision revision = .ok parsed) :
    ∃ gap, parseMissionAcceptanceGap revision.gap = .ok gap ∧
      parsed = { revision with gap := gap } ∧
      parseTaskAcceptanceLedgerRevision parsed = .ok parsed := by
  unfold parseTaskAcceptanceLedgerRevision at h
  obtain ⟨hfields, h⟩ := throwWhen_bind_eq_ok.mp h
  obtain ⟨gap, hgap, h⟩ := bind_eq_ok.mp h
  rw [pure_eq_ok] at h
  subst h
  refine ⟨gap, hgap, rfl, ?_⟩
  refine throwWhen_bind_eq_ok.mpr ⟨hfields, bind_eq_ok.mpr ⟨gap, ?_, rfl⟩⟩
  exact parseMissionAcceptanceGap_idem hgap

/-! ## The invariant -/

structure LedgerInv (db : LedgerDatabase) : Prop where
  /-- No Artifact is ahead of the catalog. -/
  bounded : ∀ row ∈ db.artifacts, row.catalogRevision ≤ db.catalogRevision
  /-- The revisions of a Task stand in the order of the catalog. -/
  sorted : ∀ taskID, (taskAcceptanceLedgerRows db taskID).Pairwise
    fun row row' => row.catalogRevision < row'.catalogRevision
  /-- Every revision followed the ones before it. -/
  follows : ∀ taskID, AtEachAppend Follows (ledgerProjections db taskID)

/-- In a sound table the two orders of the revisions agree. -/
lemma LedgerInv.chain_eq (h : LedgerInv db) (taskID : String) :
    taskAcceptanceLedgerChain db taskID = ledgerProjections db taskID := by
  have hsorted : (taskAcceptanceLedgerRows db taskID).Pairwise
      fun row row' => row.catalogRevision ≤ row'.catalogRevision :=
    (h.sorted taskID).imp fun {_ _} hlt => Nat.le_of_lt hlt
  unfold taskAcceptanceLedgerChain ledgerProjections
  rw [orderBy_of_pairwise hsorted]

/-! ## Reading the last revision -/

lemma exists_ledgerProjection {row : EngineArtifactRow} (h : row ∈ taskAcceptanceLedgerRows db taskID) :
    ∃ revision, row.ledgerRevision taskID = some revision ∧
      row.ledgerProjection taskID = some { artifactID := row.id, revision := revision } := by
  have hsome : (row.ledgerRevision taskID).isSome := (mem_filter.mp h).2
  obtain ⟨revision, hrevision⟩ := isSome_iff_exists.mp hsome
  exact ⟨revision, hrevision, by rw [ledgerProjection, hrevision]; rfl⟩

theorem LedgerInv.readLatest_eq (h : LedgerInv db) (taskID : String) :
    readLatestTaskAcceptanceLedgerInTransaction db taskID =
      .ok (ledgerProjections db taskID).getLast? := by
  have hfollows : AtEachAppend Follows (ledgerProjections db taskID) := h.follows taskID
  have hrows : ∀ row ∈ taskAcceptanceLedgerRows db taskID, ∃ revision, row.ledgerRevision taskID = some revision ∧
        row.ledgerProjection taskID = some { artifactID := row.id, revision := revision } :=
    fun row => exists_ledgerProjection
  unfold readLatestTaskAcceptanceLedgerInTransaction
  rw [argmax_of_pairwise (h.sorted taskID)]
  unfold ledgerProjections at hfollows ⊢
  rcases eq_nil_or_concat (taskAcceptanceLedgerRows db taskID) with hnil | ⟨init, last, hlast⟩
  · rw [hnil]
    rfl
  · rw [hlast] at hrows hfollows ⊢
    obtain ⟨_, hrevision, hprojection⟩ := hrows last (by simp)
    rw [concat_eq_append, filterMap_append, filterMap_cons, hprojection] at hfollows ⊢
    have hparses := (hfollows (init.filterMap (·.ledgerProjection taskID)) _ [] rfl).parses
    rw [getLast?_concat, getLast?_append_of_ne_nil _ (by simp)]
    simp only [hrevision]
    rw [hparses]
    rfl

/-! ## Appending a revision -/

lemma insertEngineArtifact_eq_ok {label : String} {payload : EngineArtifactPayload} {timeCreated : ℕ}
    (h : insertEngineArtifact db id taskID label payload timeCreated = .ok db') :
    db' = { db with
      artifacts := db.artifacts ++
        [{ id := id, taskID := taskID, label := label, payload := payload,
           catalogRevision := db.catalogRevision + 1, timeCreated := timeCreated }]
      catalogRevision := db.catalogRevision + 1 } := by
  unfold insertEngineArtifact allocateCatalogRevision at h
  obtain ⟨_, hrevision, h⟩ := bind_eq_ok.mp h
  replace hrevision := of_throwWhen hrevision
  rw [pure_eq_ok] at hrevision
  replace h := of_check h
  replace h := of_throwWhen h
  rw [pure_eq_ok] at h
  rw [← h, ← hrevision]

lemma carries_of_continuity {last next : TaskAcceptanceLedgerProjection}
    (h : requireCriterionStateContinuity taskID (some last) next.revision.gap = .ok ()) :
    Carries TaskAcceptanceLedgerProjection.criterion CriterionStep last next := by
  intro criterionID prior hprior
  obtain ⟨hmem, hid⟩ := mem_of_currentByID hprior
  have hall := forM_eq_ok.mp h prior hmem
  rw [← hid]
  exact criterionStep_of_continuity hall

theorem appendTaskAcceptanceLedgerRevision_spec {input : AppendLedgerRevisionInput}
    {projection : TaskAcceptanceLedgerProjection} (hinv : LedgerInv db)
    (h : appendTaskAcceptanceLedgerRevisionInTransaction db input = .ok (db', projection)) :
    projection.artifactID = input.artifactID ∧
      Follows (ledgerProjections db input.taskID) projection ∧
      ∃ label, insertEngineArtifact db input.artifactID input.taskID label
        (.taskAcceptanceLedger projection.revision) input.now = .ok db' := by
  unfold appendTaskAcceptanceLedgerRevisionInTransaction at h
  obtain ⟨gap, hgap, h⟩ := bind_eq_ok.mp h
  rw [hinv.readLatest_eq] at h
  obtain ⟨_, hprevious, h⟩ := bind_eq_ok.mp h
  replace h := of_throwWhen h
  obtain ⟨_, h⟩ := of_bind h
  replace h := of_throwWhen h
  obtain ⟨_, h⟩ := of_bind h
  obtain ⟨validated, hvalidated, h⟩ := bind_eq_ok.mp h
  obtain ⟨revision, hrevision, h⟩ := bind_eq_ok.mp h
  obtain ⟨_, hinserted, h⟩ := bind_eq_ok.mp h
  rw [pure_eq_ok, Prod.mk.injEq] at h
  obtain ⟨rfl, rfl⟩ := h
  obtain rfl := Except.ok.inj hprevious
  -- The gap that was validated is the gap that is recorded: parsing it again changes nothing.
  obtain ⟨recorded, hrecorded, rfl, hparses⟩ := parseTaskAcceptanceLedgerRevision_eq_ok hrevision
  have hgapIdem : parseMissionAcceptanceGap gap = .ok gap := parseMissionAcceptanceGap_idem hgap
  have hsame : recorded = gap := Except.ok.inj (hrecorded.symm.trans hgapIdem)
  subst hsame
  refine ⟨rfl, ⟨hparses, ?_, rfl, ?_⟩, _, hinserted⟩
  · cases hlast : (ledgerProjections db input.taskID).getLast? with
    | none =>
      rw [getLast?_eq_none_iff] at hlast
      simp [nextLedgerRevision, hlast]
    | some last =>
      -- The last revision carries the number of revisions so far.
      obtain ⟨init, hinit⟩ := getLast?_eq_some_iff.mp hlast
      have hnumber := (hinv.follows input.taskID init last [] hinit).number
      simp [nextLedgerRevision, hinit, hnumber]
  · intro last hlast
    unfold validateTaskAcceptanceLedgerTransition at hvalidated
    rw [hgapIdem] at hvalidated
    obtain ⟨_, hok, hvalidated⟩ := bind_eq_ok.mp hvalidated
    obtain rfl := Except.ok.inj hok
    replace hvalidated := of_check hvalidated
    obtain ⟨hcontinuity, -⟩ := check_bind_eq_ok.mp hvalidated
    rw [hlast] at hcontinuity
    exact carries_of_continuity hcontinuity

/-! ## Everything that happens to the table -/

def EngineArtifactPayload.isLedger : EngineArtifactPayload → Bool
  | .taskAcceptanceLedger _ => true
  | _ => false

/-- Patch an Artifact, under a new revision of the catalog; the source patches browser previews only,
and never the payload of a workflow or a ledger. -/
def patchEngineArtifact (db : LedgerDatabase) (id content : String) : Except LedgerError LedgerDatabase := do
  let catalogRevision ← allocateCatalogRevision db
  return { db with
    artifacts := db.artifacts.map fun row =>
      match row.payload with
      | .other kind _ =>
        if row.id = id then
          { row with payload := .other kind content, catalogRevision := catalogRevision }
        else row
      | _ => row
    catalogRevision := catalogRevision }

/-- One transaction on the tables. -/
inductive LedgerAction where
  | append (input : AppendLedgerRevisionInput)
  /-- Any other Artifact. -/
  | insertArtifact (id taskID label : String) (payload : EngineArtifactPayload) (timeCreated : ℕ)
  | patchArtifact (id content : String)
  | recordLifecycle (event : TaskEvent)
  /-- A Task is deleted, and its Artifacts with it. -/
  | deleteTask (taskID : String)

def ledgerStep (db : LedgerDatabase) : LedgerAction → Option LedgerDatabase
  | .append input =>
    ((appendTaskAcceptanceLedgerRevisionInTransaction db input).map Prod.fst).toOption
  | .insertArtifact id taskID label payload timeCreated =>
    if payload.isLedger then none
    else (insertEngineArtifact db id taskID label payload timeCreated).toOption
  | .patchArtifact id content => (patchEngineArtifact db id content).toOption
  | .recordLifecycle event =>
    (insertTaskEvent db.lifecycle event).toOption.map fun lifecycle => { db with lifecycle := lifecycle }
  | .deleteTask taskID =>
    some { db with artifacts := db.artifacts.filter fun row => row.taskID ≠ taskID }

/-- The tables before anything happened. -/
def LedgerDatabase.empty : LedgerDatabase := { artifacts := [], catalogRevision := 0, lifecycle := [] }

/-! ## The invariant is kept -/

lemma ledgerInv_empty : LedgerInv .empty where
  bounded := by
    intro row hrow
    cases hrow
  sorted := fun _ => List.Pairwise.nil
  follows := fun _ => AtEachAppend.nil

lemma LedgerInv.insert (h : LedgerInv db) {row : EngineArtifactRow}
    (hrevision : row.catalogRevision = db.catalogRevision + 1)
    (hrow : ∀ taskID projection, row.ledgerProjection taskID = some projection →
      Follows (ledgerProjections db taskID) projection) :
    LedgerInv { db with
      artifacts := db.artifacts ++ [row], catalogRevision := db.catalogRevision + 1 } where
  bounded := by
    intro row' hrow'
    rcases mem_append.mp hrow' with hold | hnew
    · exact Nat.le_succ_of_le (h.bounded row' hold)
    · rw [mem_singleton.mp hnew]
      exact Nat.le_of_eq hrevision
  sorted := by
    intro taskID
    unfold taskAcceptanceLedgerRows
    rw [filter_append, pairwise_append]
    refine ⟨h.sorted taskID, (pairwise_singleton _ _).sublist filter_sublist, ?_⟩
    intro old hold new hnew
    have hle := h.bounded old (mem_filter.mp hold).1
    rw [mem_singleton.mp (mem_filter.mp hnew).1]
    omega
  follows := by
    intro taskID
    have hold : AtEachAppend Follows (ledgerProjections db taskID) := h.follows taskID
    unfold ledgerProjections taskAcceptanceLedgerRows at hold ⊢
    rw [filter_append, filterMap_append]
    cases hledger : row.ledgerRevision taskID with
    | none =>
      rw [filter_singleton, hledger]
      simpa using hold
    | some revision =>
      have hprojection : row.ledgerProjection taskID = some { artifactID := row.id, revision := revision } := by
        rw [ledgerProjection, hledger]
        rfl
      rw [filter_singleton, hledger, isSome_some, cond_true, filterMap_cons, hprojection]
      exact hold.concat (hrow taskID _ hprojection)

lemma LedgerInv.of_rows (h : LedgerInv db)
    (hbounded : ∀ row ∈ db'.artifacts, row.catalogRevision ≤ db'.catalogRevision)
    (hrows : ∀ taskID, taskAcceptanceLedgerRows db' taskID = taskAcceptanceLedgerRows db taskID ∨
      taskAcceptanceLedgerRows db' taskID = []) : LedgerInv db' where
  bounded := hbounded
  sorted := by
    intro taskID
    rcases hrows taskID with hsame | hgone
    · exact hsame ▸ h.sorted taskID
    · rw [hgone]
      exact List.Pairwise.nil
  follows := by
    intro taskID
    unfold ledgerProjections
    rcases hrows taskID with hsame | hgone
    · rw [hsame]
      exact h.follows taskID
    · rw [hgone]
      exact AtEachAppend.nil

lemma LedgerInv.patch (h : LedgerInv db) {content : String}
    (hpatch : patchEngineArtifact db id content = .ok db') : LedgerInv db' := by
  unfold patchEngineArtifact allocateCatalogRevision at hpatch
  obtain ⟨_, hrevision, hpatch⟩ := bind_eq_ok.mp hpatch
  replace hrevision := of_throwWhen hrevision
  rw [pure_eq_ok] at hrevision hpatch
  subst hrevision hpatch
  refine h.of_rows ?_ fun taskID => Or.inl ?_
  · intro row hrow
    obtain ⟨old, hold, rfl⟩ := List.mem_map.mp hrow
    have hle := h.bounded old hold
    split
    · split_ifs
      · exact Nat.le_refl _
      · exact Nat.le_succ_of_le hle
    · exact Nat.le_succ_of_le hle
  · unfold taskAcceptanceLedgerRows
    induction db.artifacts with
    | nil => rfl
    | cons row _ ih =>
      rw [map_cons, filter_cons, filter_cons, ih]
      cases hpayload : row.payload with
      | other =>
        simp only [ledgerRevision, hpayload]
        split_ifs <;> simp_all
      | _ => simp only [ledgerRevision, hpayload]

lemma LedgerInv.append (h : LedgerInv db) {input : AppendLedgerRevisionInput}
    {projection : TaskAcceptanceLedgerProjection}
    (hok : appendTaskAcceptanceLedgerRevisionInTransaction db input = .ok (db', projection)) :
    LedgerInv db' := by
  obtain ⟨hid, hfollows, _, hinsert⟩ := appendTaskAcceptanceLedgerRevision_spec h hok
  rw [insertEngineArtifact_eq_ok hinsert]
  refine h.insert rfl fun taskID p hp => ?_
  obtain ⟨revision, hrevision, rfl⟩ := map_eq_some_iff.mp hp
  have htask : input.taskID = taskID ∧ projection.revision = revision := by
    simpa [ledgerRevision] using hrevision
  obtain ⟨rfl, rfl⟩ := htask
  rw [← hid]
  exact hfollows

lemma LedgerInv.insertOther (h : LedgerInv db) {label : String} {payload : EngineArtifactPayload}
    {timeCreated : ℕ} (hledger : ¬payload.isLedger = true)
    (hok : insertEngineArtifact db id taskID label payload timeCreated = .ok db') :
    LedgerInv db' := by
  rw [insertEngineArtifact_eq_ok hok]
  refine h.insert rfl fun taskID' p hp => absurd ?_ hledger
  obtain ⟨_, hrevision, rfl⟩ := map_eq_some_iff.mp hp
  unfold ledgerRevision at hrevision
  split at hrevision
  · next hpayload => exact (congrArg EngineArtifactPayload.isLedger hpayload).trans rfl
  · cases hrevision

lemma LedgerInv.delete (h : LedgerInv db) (taskID : String) :
    LedgerInv { db with artifacts := db.artifacts.filter fun row => row.taskID ≠ taskID } := by
  have htask : ∀ (row : EngineArtifactRow) (taskID' : String),
      (row.ledgerRevision taskID').isSome = true → row.taskID = taskID' := by
    intro row taskID' hsome
    unfold ledgerRevision at hsome
    split at hsome
    · split_ifs at hsome with heq
      · exact heq
      · cases hsome
    · cases hsome
  refine h.of_rows (fun row hrow => h.bounded row (mem_filter.mp hrow).1) fun taskID' => ?_
  unfold taskAcceptanceLedgerRows
  rw [List.filter_filter]
  by_cases heq : taskID' = taskID
  · right
    rw [filter_eq_nil_iff]
    intro row _ hboth
    rw [Bool.and_eq_true, decide_eq_true_eq] at hboth
    exact hboth.2 ((htask row taskID' hboth.1).trans heq)
  · left
    refine filter_congr fun row _ => ?_
    cases hsome : (row.ledgerRevision taskID').isSome with
    | false => rfl
    | true =>
      have hne : row.taskID ≠ taskID := fun hrow => heq ((htask row taskID' hsome).symm.trans hrow)
      rw [Bool.true_and, decide_eq_true_eq]
      exact hne

/-- Every transaction keeps the tables sound. -/
theorem ledgerStep_preserves : Preserves ledgerStep LedgerInv := by
  intro db action db' h hstep
  cases action with
  | append =>
    simp only [ledgerStep, toOption_eq_some, map_eq_ok] at hstep
    obtain ⟨⟨_, _⟩, hok, rfl⟩ := hstep
    exact h.append hok
  | insertArtifact =>
    simp only [ledgerStep] at hstep
    split_ifs at hstep with hledger
    exact h.insertOther hledger (toOption_eq_some.mp hstep)
  | patchArtifact =>
    simp only [ledgerStep, toOption_eq_some] at hstep
    exact h.patch hstep
  | recordLifecycle =>
    simp only [ledgerStep, map_eq_some_iff] at hstep
    obtain ⟨_, -, rfl⟩ := hstep
    exact h.of_rows h.bounded fun _ => Or.inl rfl
  | deleteTask taskID =>
    simp only [ledgerStep, some.injEq] at hstep
    exact hstep ▸ h.delete taskID

/-! ## Continuity at any distance -/

structure CriterionContinues (earlier later : MissionAcceptanceCriterion) : Prop where
  responsibility : later.responsibility = earlier.responsibility
  retains : ∀ role, earlier.locators role ⊆ later.locators role
  blocked : earlier.state = .blocked → later.state = .blocked

lemma criterionContinues_of_steps {earlier later : MissionAcceptanceCriterion}
    (h : ReflTransGen CriterionStep earlier later) : CriterionContinues earlier later := by
  induction h with
  | refl => exact ⟨rfl, fun _ _ hlocator => hlocator, id⟩
  | tail _ hstep ih =>
    refine ⟨hstep.responsibility.trans ih.responsibility, fun role => ?_, fun hblocked => ?_⟩
    · exact Subset.trans (ih.retains role) (hstep.retains role)
    · exact hstep.blocked (ih.blocked hblocked)

def AddsInvalidatingEvidence (prior current : TaskAcceptanceLedgerProjection) (criterionID : String) : Prop :=
  ∃ before ∈ prior.revision.gap.criteria, ∃ after ∈ current.revision.gap.criteria,
    before.criterionID = criterionID ∧ after.criterionID = criterionID ∧
      ∃ locator ∈ after.invalidatingEvidenceLocators, locator ∉ before.invalidatingEvidenceLocators

def Numbered (chain : List TaskAcceptanceLedgerProjection) : Prop :=
  ∀ n projection, chain[n]? = some projection → projection.revision.revision = n + 1 ∧
      projection.revision.previousRevisionArtifactID = (chain.take n).getLast?.map (·.artifactID)

/-- Every later revision has exactly one criterion under the identity of each criterion of an earlier
one; it continues that criterion, and a revision between the two brought new invalidating evidence if
the criterion was accepted and is open again. -/
def Continuous (chain : List TaskAcceptanceLedgerProjection) : Prop :=
  ∀ i j earlier later, i < j → chain[i]? = some earlier → chain[j]? = some later →
    ∀ criterion ∈ earlier.revision.gap.criteria, ∃ criterion' ∈ later.revision.gap.criteria,
      (∀ other ∈ later.revision.gap.criteria, other.criterionID = criterion.criterionID ↔ other = criterion') ∧
      CriterionContinues criterion criterion' ∧
      (criterion.state = .accepted → criterion'.isOpen = true →
        ∃ k prior current, i ≤ k ∧ k < j ∧ chain[k]? = some prior ∧ chain[k + 1]? = some current ∧
          AddsInvalidatingEvidence prior current criterion.criterionID)

lemma linked_of_follows (h : AtEachAppend Follows chain) :
    Linked TaskAcceptanceLedgerProjection.criterion CriterionStep chain := by
  intro n former latter hformer hlatter
  refine (h.getElem? hlatter).carries former ?_
  rw [take_add_one, hformer]
  exact getLast?_concat

lemma numbered_of_follows (h : AtEachAppend Follows chain) : Numbered chain := by
  intro n projection hprojection
  have hfollows : Follows (chain.take n) projection := h.getElem? hprojection
  have hlength : n < chain.length := (List.getElem?_eq_some_iff.mp hprojection).1
  refine ⟨?_, hfollows.predecessor⟩
  rw [hfollows.number, length_take_of_le (Nat.le_of_lt hlength)]

theorem continuous_of_follows (h : AtEachAppend Follows chain) : Continuous chain := by
  intro i j earlier later hij hi hj criterion hcriterion
  have hlinked : Linked TaskAcceptanceLedgerProjection.criterion CriterionStep chain :=
    linked_of_follows h
  have hvalid : ∀ (n : ℕ) (projection : TaskAcceptanceLedgerProjection),
      chain[n]? = some projection → projection.revision.gap.isValid = true :=
    fun n projection hprojection => gap_isValid_of_parses (h.getElem? hprojection).parses
  have hfound : earlier.criterion criterion.criterionID = some criterion :=
    currentByID_eq_some (hvalid i earlier hi) hcriterion
  obtain ⟨criterion', hfound', hsteps⟩ :=
    hlinked.carries (Nat.le_of_lt hij) hi hj criterion.criterionID criterion hfound
  obtain ⟨hmem', hid'⟩ := mem_of_currentByID hfound'
  refine ⟨criterion', hmem', fun other hother => ?_, criterionContinues_of_steps hsteps, ?_⟩
  · constructor
    · intro hid
      have hsame := currentByID_eq_some (hvalid j later hj) hother
      rw [hid] at hsame
      exact some.inj (hsame.symm.trans hfound')
    · rintro rfl
      exact hid'
  · intro haccepted hopen
    -- The accepted state is lost between two adjacent revisions; there the rule asks for evidence.
    have hnot : ¬criterion'.state = .accepted := by
      intro hstill
      rw [MissionAcceptanceCriterion.isOpen, hstill] at hopen
      cases hopen
    obtain ⟨k, prior, current, before, after, hik, hkj, hprior, hcurrent, hbefore, hafter, hstep,
      hwas, hlost⟩ := hlinked.exists_crossing (P := fun criterion => criterion.state = .accepted)
        (Nat.le_of_lt hij) hi hj hfound hfound' haccepted hnot
    obtain ⟨hmemBefore, hidBefore⟩ := mem_of_currentByID hbefore
    obtain ⟨hmemAfter, hidAfter⟩ := mem_of_currentByID hafter
    rcases hstep.accepted hwas with hstill | hnew
    · exact absurd hstill hlost
    · exact ⟨k, prior, current, hik, hkj, hprior, hcurrent, before, hmemBefore, after, hmemAfter,
        hidBefore, hidAfter, hnew⟩

/-- In every run of the tables, the acceptance ledger of every Task is numbered and continuous. -/
theorem acceptanceLedger_continuity {actions : List LedgerAction} {db : LedgerDatabase}
    (hrun : exec ledgerStep .empty actions = some db) (taskID : String) :
    Numbered (taskAcceptanceLedgerChain db taskID) ∧
      Continuous (taskAcceptanceLedgerChain db taskID) := by
  have hinv : LedgerInv db := ledgerStep_preserves.exec ledgerInv_empty hrun
  rw [hinv.chain_eq]
  exact ⟨numbered_of_follows (hinv.follows taskID), continuous_of_follows (hinv.follows taskID)⟩

/-! ### A ledger with an accepted criterion that reopens -/

def samplePackageRevision : ExpertSquadPackageRevisionBinding :=
  { scope := .builtIn, projectID := none, packageNamespace := "corvus", id := "repair",
    version := "1.0.0", packageDigest := String.ofList (List.replicate 64 'e') }

def sampleLocator (artifactID : String) : ArtifactReadLocator :=
  .engineArtifact artifactID 1 (String.ofList (List.replicate 64 'a'))

def sampleCriterion (criterionID : String) (state : MissionAcceptanceCriterionState)
    (observation resolution invalidating : List String) : MissionAcceptanceCriterion :=
  { criterionID := criterionID, state := state, finding := "finding",
    responsibility := .workflowNode "repair" "builder",
    observationEvidenceLocators := observation.map sampleLocator,
    repairEvidenceLocators := [],
    resolutionEvidenceLocators := resolution.map sampleLocator,
    invalidatingEvidenceLocators := invalidating.map sampleLocator,
    irreducibleBlockerEvidenceLocators := [] }

def sampleOpen (disposition : MissionAcceptanceCriterionDisposition) : MissionAcceptanceCriterionState :=
  .opened disposition
    { operation := "correct", target := "receipt", expectedEvidenceKind := "receipt",
      identitySHA256 := String.ofList (List.replicate 64 'b') }

def sampleAppend (artifactID : String) (expectedPreviousArtifactID : Option String)
    (criteria : List MissionAcceptanceCriterion) : LedgerAction :=
  .append
    { taskID := "task", artifactID := artifactID, executionEpoch := 1,
      expectedPreviousArtifactID := expectedPreviousArtifactID,
      gap := { gapID := "gap", terminalEventID := "pev_terminal", criteria := criteria }, now := 1 }

/-- A criterion is accepted in the second revision and open again in the third. -/
def reopenedLedger : List LedgerAction :=
  [.recordLifecycle
      { id := "pev_open", type := .opened, aggregateID := "task", seq := 1, emittedAt := 1, epoch := 1 },
    .insertArtifact "binding" "task" "Task package revision binding"
      (.taskPackageRevisionBinding samplePackageRevision) 1,
    .insertArtifact "decision" "task" "decision"
      (.taskCompletionDecision (.virtualWorkflow "repair" samplePackageRevision
        [{ nodeID := "builder", agentID := "builder", dependsOn := [] }])) 1,
    sampleAppend "r1" none [sampleCriterion "receipt" (sampleOpen .failed) ["o1"] [] [],
        sampleCriterion "log" (sampleOpen .failed) ["o2"] [] []],
    sampleAppend "r2" (some "r1") [sampleCriterion "receipt" .accepted ["o1"] ["s1"] [],
        sampleCriterion "log" (sampleOpen .failed) ["o2", "o3"] [] []],
    sampleAppend "r3" (some "r2") [sampleCriterion "receipt" (sampleOpen .staleEvidence) ["o1"] ["s1"] ["i1"],
        sampleCriterion "log" (sampleOpen .failed) ["o2", "o3", "o4"] [] []]]

/-- The run of the sample goes through, and its ledger of three revisions is continuous. -/
theorem acceptanceLedger_continuity_of_reopened : ∃ db, exec ledgerStep .empty reopenedLedger = some db ∧
      (taskAcceptanceLedgerChain db "task").length = 3 ∧
      Numbered (taskAcceptanceLedgerChain db "task") ∧
      Continuous (taskAcceptanceLedgerChain db "task") := by
  have hlength : (exec ledgerStep .empty reopenedLedger).map
      (fun db => (taskAcceptanceLedgerChain db "task").length) = some 3 := by decide +kernel
  obtain ⟨db, hrun, hthree⟩ := map_eq_some_iff.mp hlength
  exact ⟨db, hrun, hthree, acceptanceLedger_continuity hrun "task"⟩

end OpenCorvus.Mission
