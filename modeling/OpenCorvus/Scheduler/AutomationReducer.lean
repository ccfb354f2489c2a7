import OpenCorvus.Foundation.UniqueIndex
import OpenCorvus.Scheduler.AutomationProjection

/-!
# What the projections read of a fire

In a well-formed database every projector reads the same facts of a fire: its state is reduced from the
latest receipts of its runs and from its latest attempt, however these are selected.  The selections that
the frontier makes in the database are those of the reducer.
-/

namespace OpenCorvus.Scheduler

open Transaction OrderBy UniqueIndex LatestRow List AutomationRun AutomationDatabase

def scheduledKey (fire : AutomationFire) : Option (String × ℤ) :=
  if fire.origin = .scheduled then some (fire.automationRevisionID, fire.scheduledDueAt) else none

/-- What the constraints and the triggers of the tables guarantee. -/
structure WellFormed (db : AutomationDatabase) : Prop where
  definitionIDs : PrimaryKey AutomationDefinition.id db.definitions
  fireIDs : PrimaryKey AutomationFire.id db.fires
  scheduled : Unique scheduledKey db.fires
  attemptIDs : PrimaryKey AutomationFireAttempt.id db.attempts
  /-- The attempts of a fire are numbered from one. -/
  ordinals : ∀ fireID, (db.attemptsOf fireID).map (·.ordinal) = List.range' 1 (db.attemptsOf fireID).length
  attemptReceipts : PrimaryKey AutomationFireAttemptReceipt.attemptID db.attemptReceipts
  runIDs : PrimaryKey AutomationRun.id db.runs
  runReceiptIDs : PrimaryKey AutomationRunReceipt.id db.runReceipts
  /-- A fire is one of a stored revision. -/
  fireRevision : ∀ fire ∈ db.fires, ∃ definition, db.findDefinition fire.automationRevisionID = some definition
  /-- A run is of the revision of its fire. -/
  runFire : ∀ run ∈ db.runs, ∃ fire, db.findFire run.fireID = some fire ∧
    fire.automationRevisionID = run.automationRevisionID
  /-- The Mission of a run holds its reservation. -/
  reserved : ∀ run ∈ db.runs, ∀ definition, db.findDefinition run.automationRevisionID = some definition →
    assertRunReservation db run definition (db.lastReceipt run.id) = .ok ()

def AtMostOneUnsettled (db : AutomationDatabase) : Prop :=
  ∀ definitionID, ((db.firesOf definitionID).filter fun fire => FirePending db fire).length ≤ 1

section Facts

variable {db : AutomationDatabase}

lemma keyInjective_fires (hdb : WellFormed db) : KeyInjective AutomationFire.orderKey db.fires := by
  intro r hr s hs hkey
  refine hdb.fireIDs.eq_of_id hr hs ?_
  simp only [AutomationFire.orderKey, EmbeddingLike.apply_eq_iff_eq, Prod.mk.injEq] at hkey
  exact hkey.2.2

lemma keyInjective_attempts (hdb : WellFormed db) : KeyInjective AutomationFireAttempt.orderKey db.attempts := by
  intro r hr s hs hkey
  refine hdb.attemptIDs.eq_of_id hr hs ?_
  simp only [AutomationFireAttempt.orderKey, EmbeddingLike.apply_eq_iff_eq, Prod.mk.injEq] at hkey
  exact hkey.2

lemma keyInjective_runs (hdb : WellFormed db) : KeyInjective AutomationRun.orderKey db.runs := by
  intro r hr s hs hkey
  refine hdb.runIDs.eq_of_id hr hs ?_
  simp only [orderKey, EmbeddingLike.apply_eq_iff_eq, Prod.mk.injEq] at hkey
  exact hkey.2

lemma keyInjective_receipts (hdb : WellFormed db) : KeyInjective AutomationRunReceipt.orderKey db.runReceipts := by
  intro r hr s hs hkey
  refine hdb.runReceiptIDs.eq_of_id hr hs ?_
  simp only [AutomationRunReceipt.orderKey, EmbeddingLike.apply_eq_iff_eq, Prod.mk.injEq] at hkey
  exact hkey.2

lemma lastReceipt_eq (hdb : WellFormed db) (runID : String) : db.lastReceipt runID = db.selectReceipt runID :=
  getLast?_orderBy ((keyInjective_receipts hdb).filter _)

def lastAttempt (db : AutomationDatabase) (fireID : String) : Option AutomationFireAttempt :=
  (db.attemptsOf fireID).argmax AutomationFireAttempt.orderKey

lemma getLast?_attempts (hdb : WellFormed db) (fireID : String) :
    (orderBy AutomationFireAttempt.orderKey (db.attemptsOf fireID)).getLast? = lastAttempt db fireID :=
  getLast?_orderBy ((keyInjective_attempts hdb).filter _)

lemma attemptReceipt_eq_some (hdb : WellFormed db) {attemptID : String}
    {receipt : AutomationFireAttemptReceipt} :
    db.attemptReceipt attemptID = some receipt ↔
      receipt ∈ db.attemptReceipts ∧ receipt.attemptID = attemptID := by
  constructor
  · intro h
    exact ⟨mem_of_find?_eq_some h, by simpa using find?_some h⟩
  · rintro ⟨hmem, rfl⟩
    exact hdb.attemptReceipts.find?_eq_some hmem

lemma attemptOpen_iff (hdb : WellFormed db) (attempt : AutomationFireAttempt) : AttemptOpen db attempt ↔
      ((db.attemptReceipt attempt.id).map (·.outcome.state)) ≠ some .failed := by
  unfold AttemptOpen
  cases hreceipt : db.attemptReceipt attempt.id with
  | none =>
    have hnone : ∀ receipt ∈ db.attemptReceipts, receipt.attemptID ≠ attempt.id := by
      intro receipt hmem hid
      have hsome := (attemptReceipt_eq_some hdb).mpr ⟨hmem, hid⟩
      rw [hreceipt] at hsome
      cases hsome
    simp only [Option.map_none, ne_eq, reduceCtorEq, not_false_eq_true, iff_true]
    exact .inl hnone
  | some receipt =>
    obtain ⟨hmem, hid⟩ := (attemptReceipt_eq_some hdb).mp hreceipt
    rw [Option.map_some, ne_eq, Option.some.injEq]
    constructor
    · rintro (hnone | ⟨other, hother, hotherID, hstate⟩)
      · exact absurd hid (hnone receipt hmem)
      · have heq : other = receipt := hdb.attemptReceipts.eq_of_id hother hmem (hotherID.trans hid.symm)
        rw [← heq]
        rcases hstate with hstate | hstate <;> simp [hstate]
    · intro hne
      refine .inr ⟨receipt, hmem, hid, ?_⟩
      cases houtcome : receipt.outcome.state with
      | reserved => exact .inl rfl
      | retryWait => exact .inr rfl
      | failed => exact absurd houtcome hne

def runState (db : AutomationDatabase) (run : AutomationRun) : AutomationFireRunState :=
  ({ run := run, receipt := db.selectReceipt run.id, retryCount := 0 } : AutomationFrontierRunFact).fireRunState

def runStates (db : AutomationDatabase) (fireID : String) : List AutomationFireRunState :=
  (orderBy AutomationRun.orderKey (db.runsOf fireID)).map (runState db)

def attemptsState (db : AutomationDatabase) (fireID : String) : AutomationFireAttemptSummary :=
  attemptSummary db (orderBy AutomationFireAttempt.orderKey (db.attemptsOf fireID))

def reducedOf (db : AutomationDatabase) (fire : AutomationFire) : AutomationFireReducedState :=
  reduceAutomationFireState fire (runStates db fire.id) (attemptsState db fire.id)

def runFailures (db : AutomationDatabase) (run : AutomationRun) : ℕ :=
  (db.retriesOf run.id).length + if (runState db run).outcome = .failed then 1 else 0

def failuresOf (db : AutomationDatabase) (fire : AutomationFire) : ℕ :=
  reduceAutomationFireFailureCount (reducedOf db fire).state (reducedOf db fire).attemptFailureCount
    ((orderBy AutomationRun.orderKey (db.runsOf fire.id)).map (runFailures db))

@[simp] lemma attemptsState_count (fireID : String) :
    (attemptsState db fireID).count = (db.attemptsOf fireID).length := by
  unfold attemptsState attemptSummary
  exact length_orderBy

lemma attemptsState_latest (hdb : WellFormed db) (fireID : String) : (attemptsState db fireID).latest =
      (lastAttempt db fireID).map fun attempt => latestAttemptOf (db.attemptReceipt attempt.id) := by
  unfold attemptsState attemptSummary
  rw [getLast?_attempts hdb]

variable {fireID : String} {runs : List AutomationFireRunState}

lemma runStates_eq_nil : runStates db fireID = [] ↔ ∀ run ∈ db.runs, run.fireID ≠ fireID := by
  unfold runStates runsOf
  rw [map_eq_nil_iff, ← length_eq_zero_iff, length_orderBy, length_eq_zero_iff,
    filter_eq_nil_iff]
  simp

lemma attemptsOf_eq_nil : db.attemptsOf fireID = [] ↔ ∀ attempt ∈ db.attempts, attempt.fireID ≠ fireID := by
  unfold attemptsOf
  rw [filter_eq_nil_iff]
  simp

lemma countOutcome_settled (hrunning : ∀ run ∈ runs, run.outcome ≠ .running)
    (hretry : ∀ run ∈ runs, run.outcome ≠ .retryWait) :
    countOutcome .succeeded runs + countOutcome .disposition runs + countOutcome .failed runs =
      runs.length := by
  induction runs with
  | nil => rfl
  | cons run _ ih =>
    obtain ⟨_, hruns⟩ := forall_mem_cons.mp hrunning
    obtain ⟨_, hruns'⟩ := forall_mem_cons.mp hretry
    have hrest := ih hruns hruns'
    unfold countOutcome at hrest ⊢
    rw [length_cons, ← hrest]
    cases houtcome : run.outcome <;> simp_all <;> omega

lemma executedState_isPending : (executedState runs).isPending = true ↔
      ∃ run ∈ runs, run.outcome = .running ∨ run.outcome = .retryWait := by
  unfold executedState
  split_ifs with hrunning hretry hfailed hpartly hdisposed hsucceeded
  · obtain ⟨run, hrun, houtcome⟩ := List.any_eq_true.mp hrunning
    exact ⟨fun _ => ⟨run, hrun, .inl (by simpa using houtcome)⟩, fun _ => rfl⟩
  · obtain ⟨run, hrun, houtcome⟩ := List.any_eq_true.mp hretry
    exact ⟨fun _ => ⟨run, hrun, .inr (by simpa using houtcome)⟩, fun _ => rfl⟩
  all_goals
    simp only [List.any_eq_true, decide_eq_true_eq, not_exists, not_and] at hrunning hretry
    have hcount := countOutcome_settled hrunning hretry
    constructor
    · intro hpending
      first
        | exact absurd (by omega) hsucceeded
        | cases hpending
    · rintro ⟨run, hrun, houtcome | houtcome⟩
      · exact absurd houtcome (hrunning run hrun)
      · exact absurd houtcome (hretry run hrun)

lemma executedState_ne_scheduled : executedState runs ≠ .scheduled := by
  unfold executedState
  split_ifs <;> simp

lemma reducedOf_state (fire : AutomationFire) :
    (reducedOf db fire).state = if runStates db fire.id = [] then attemptedState (attemptsState db fire.id)
      else executedState (runStates db fire.id) := rfl

lemma started_iff (fire : AutomationFire) : Started db fire ↔ (reducedOf db fire).state ≠ .scheduled := by
  rw [reducedOf_state]
  split_ifs with hruns
  · have hnone := runStates_eq_nil.mp hruns
    have hattempted : Started db fire ↔ db.attemptsOf fire.id ≠ [] := by
      rw [ne_eq, attemptsOf_eq_nil]
      unfold Started
      push Not
      refine or_iff_left ?_
      rintro ⟨run, hrun, hof⟩
      exact hnone run hrun hof
    have hlength : db.attemptsOf fire.id ≠ [] ↔ (attemptsState db fire.id).count ≠ 0 := by
      rw [attemptsState_count, ne_eq, ne_eq, length_eq_zero_iff]
    rw [hattempted, hlength]
    unfold attemptedState
    by_cases hcount : (attemptsState db fire.id).count = 0
    · rw [if_pos hcount]
      exact iff_of_false (fun h => h hcount) fun h => h rfl
    · rw [if_neg hcount]
      refine iff_of_true hcount ?_
      split_ifs <;> simp
  · have hsome := mt runStates_eq_nil.mpr hruns
    push Not at hsome
    exact ⟨fun _ => executedState_ne_scheduled, fun _ => .inr hsome⟩

lemma runOpen_iff (run : AutomationRun) :
    RunOpen db run ↔ (runState db run).outcome = .running ∨ (runState db run).outcome = .retryWait := by
  unfold RunOpen runState AutomationFrontierRunFact.fireRunState
  cases db.selectReceipt run.id with
  | none => simp [runOutcome]
  | some receipt => cases houtcome : receipt.outcome <;> simp [runOutcome, houtcome]

lemma lastAttempt_eq_some (hdb : WellFormed db) {attempt : AutomationFireAttempt} :
    lastAttempt db fireID = some attempt ↔ attempt ∈ db.attempts ∧ attempt.fireID = fireID ∧
      ∀ later ∈ db.attempts, later.fireID = fireID → ¬attempt.orderKey < later.orderKey := by
  unfold lastAttempt attemptsOf
  rw [argmax_eq_some_iff_of_keyInjective ((keyInjective_attempts hdb).filter _)]
  simp only [mem_filter, decide_eq_true_eq, and_imp, not_lt, and_assoc]

lemma firePending_iff (hdb : WellFormed db) (fire : AutomationFire) :
    FirePending db fire ↔ (reducedOf db fire).state.isPending = true := by
  rw [reducedOf_state]
  unfold FirePending
  split_ifs with hruns
  · have hnone := runStates_eq_nil.mp hruns
    have hfirst : ¬∃ run ∈ db.runs, run.fireID = fire.id ∧ RunOpen db run := by
      rintro ⟨run, hrun, hof, -⟩
      exact hnone run hrun hof
    rw [or_iff_left hfirst, and_iff_right hnone]
    have hlatest : (∃ attempt ∈ db.attempts, attempt.fireID = fire.id ∧
        (∀ later ∈ db.attempts, later.fireID = fire.id → ¬attempt.orderKey < later.orderKey) ∧
          AttemptOpen db attempt) ↔
        ∃ attempt, lastAttempt db fire.id = some attempt ∧ AttemptOpen db attempt := by
      constructor
      · rintro ⟨attempt, hmem, hof, hlast, hopen⟩
        exact ⟨attempt, (lastAttempt_eq_some hdb).mpr ⟨hmem, hof, hlast⟩, hopen⟩
      · rintro ⟨attempt, hlast, hopen⟩
        obtain ⟨hmem, hof, hlater⟩ := (lastAttempt_eq_some hdb).mp hlast
        exact ⟨attempt, hmem, hof, hlater, hopen⟩
    rw [hlatest]
    unfold attemptedState
    rw [attemptsState_count, attemptsState_latest hdb]
    cases hlast : lastAttempt db fire.id with
    | none =>
      have hnil : db.attemptsOf fire.id = [] := argmax_eq_none.mp hlast
      simp [hnil, AutomationFireState.isPending]
    | some attempt =>
      have hne : (db.attemptsOf fire.id).length ≠ 0 := by
        have hmem : attempt ∈ db.attemptsOf fire.id := argmax_mem hlast
        exact Nat.pos_iff_ne_zero.mp (length_pos_of_mem hmem)
      have hopen : (∃ other, some attempt = some other ∧ AttemptOpen db other) ↔ AttemptOpen db attempt := by
        simp
      have houtcome : ((some attempt).map fun attempt =>
          latestAttemptOf (db.attemptReceipt attempt.id)).bind (·.outcome) =
            (db.attemptReceipt attempt.id).map (·.outcome.state) := rfl
      rw [hopen, attemptOpen_iff hdb, if_neg hne, houtcome]
      cases (db.attemptReceipt attempt.id).map (·.outcome.state) with
      | none => simp [AutomationFireState.isPending]
      | some state => cases state <;> simp [AutomationFireState.isPending]
  · have hsome := mt runStates_eq_nil.mpr hruns
    have hfirst : ¬((∀ run ∈ db.runs, run.fireID ≠ fire.id) ∧ ∃ attempt ∈ db.attempts, attempt.fireID = fire.id ∧
          (∀ later ∈ db.attempts, later.fireID = fire.id → ¬attempt.orderKey < later.orderKey) ∧
            AttemptOpen db attempt) := fun h => hsome h.1
    rw [or_iff_right hfirst, executedState_isPending]
    unfold runStates runsOf
    simp only [List.mem_map, mem_orderBy, mem_filter, decide_eq_true_eq]
    constructor
    · rintro ⟨run, hrun, hof, hopen⟩
      exact ⟨_, ⟨run, ⟨hrun, hof⟩, rfl⟩, (runOpen_iff run).mp hopen⟩
    · rintro ⟨_, ⟨run, ⟨hrun, hof⟩, rfl⟩, houtcome⟩
      exact ⟨run, hrun, hof, (runOpen_iff run).mpr houtcome⟩

lemma FirePending.started (hdb : WellFormed db) {fire : AutomationFire} (h : FirePending db fire) :
    Started db fire := by
  rw [started_iff]
  intro hscheduled
  rw [firePending_iff hdb, hscheduled] at h
  cases h

lemma lastAttempt_ordinal (hdb : WellFormed db) (fireID : String) :
    ((lastAttempt db fireID).map (·.ordinal)).getD 0 = (db.attemptsOf fireID).length := by
  have hordinals := hdb.ordinals fireID
  cases hlast : lastAttempt db fireID with
  | none =>
    have hnil : db.attemptsOf fireID = [] := argmax_eq_none.mp hlast
    rw [hnil]
    rfl
  | some attempt =>
    have hmem : attempt ∈ db.attemptsOf fireID := argmax_mem hlast
    have hpos : 0 < (db.attemptsOf fireID).length := length_pos_of_mem hmem
    have hbound : attempt.ordinal ≤ (db.attemptsOf fireID).length := by
      have hin : attempt.ordinal ∈ (db.attemptsOf fireID).map (·.ordinal) := List.mem_map_of_mem hmem
      rw [hordinals, mem_range'_1] at hin
      omega
    have hgreatest : (db.attemptsOf fireID).length ≤ attempt.ordinal := by
      have hin : (db.attemptsOf fireID).length ∈ (db.attemptsOf fireID).map (·.ordinal) := by
        rw [hordinals, mem_range'_1]
        omega
      obtain ⟨top, htop, htopOrdinal⟩ := List.mem_map.mp hin
      have hle : top.orderKey ≤ attempt.orderKey := le_of_mem_argmax htop hlast
      rw [← htopOrdinal]
      exact Prod.Lex.monotone_fst _ _ hle
    simp only [Option.map_some, Option.getD_some]
    omega

lemma argmax_ordinal (hdb : WellFormed db) (fireID : String) :
    (db.attemptsOf fireID).argmax (·.ordinal) = lastAttempt db fireID := by
  have hnodup : ((db.attemptsOf fireID).map (·.ordinal)).Nodup := by
    rw [hdb.ordinals]
    exact nodup_range'
  have hinj : KeyInjective (fun attempt : AutomationFireAttempt => attempt.ordinal)
      (db.attemptsOf fireID) := fun r hr s hs h => inj_on_of_nodup_map hnodup hr hs h
  cases hlast : lastAttempt db fireID with
  | none =>
    have hnil : db.attemptsOf fireID = [] := argmax_eq_none.mp hlast
    rw [hnil]
    rfl
  | some =>
    rw [argmax_eq_some_iff_of_keyInjective hinj]
    refine ⟨argmax_mem hlast, fun other hother => ?_⟩
    exact Prod.Lex.monotone_fst _ _ (le_of_mem_argmax hother hlast)

end Facts

section Views

variable [AutomationIdentity] {db : AutomationDatabase}

lemma projectAutomationRun_eq_ok (hdb : WellFormed db) {run : AutomationRun} (hrun : run ∈ db.runs) :
    ∃ row, projectAutomationRunInTransaction db run = .ok row ∧ row.run = run ∧
      row.fireRunState = runState db run := by
  obtain ⟨fire, hfire, hrevision⟩ := hdb.runFire run hrun
  obtain ⟨definition, hdefinition⟩ := hdb.fireRevision fire (mem_of_find?_eq_some hfire)
  rw [hrevision] at hdefinition
  have hreserved := hdb.reserved run hrun definition hdefinition
  refine ⟨automationRunRow run fire definition (db.lastReceipt run.id)
    (automationLease db definition.definitionID), ?_, rfl, ?_⟩
  · unfold projectAutomationRunInTransaction
    refine bind_eq_ok.mpr ⟨fire, getOrThrow_eq_ok.mpr hfire, ?_⟩
    refine bind_eq_ok.mpr ⟨definition, getOrThrow_eq_ok.mpr hdefinition, ?_⟩
    exact check_bind_eq_ok.mpr ⟨hreserved, rfl⟩
  · rw [lastReceipt_eq hdb]
    rfl

structure Views (db : AutomationDatabase) (fire : AutomationFire) (view : AutomationFireProjection) :
    Prop where
  id : view.id = fire.id
  revision : view.automationRevisionID = fire.automationRevisionID
  origin : view.origin = fire.origin
  due : view.scheduledDueAt = fire.scheduledDueAt
  reduced : view.reduced = reducedOf db fire
  failures : fireFailureCount db view = failuresOf db fire
  members : ∀ run ∈ view.runs, run.run.automationRevisionID = fire.automationRevisionID

lemma projectAutomationFire_eq_ok (hdb : WellFormed db) {fire : AutomationFire} (hfire : fire ∈ db.fires) :
    ∃ view, projectAutomationFireInTransaction db fire = .ok view ∧ Views db fire view := by
  obtain ⟨definition, hdefinition⟩ := hdb.fireRevision fire hfire
  have hnonempty : Nonempty AutomationRunRow :=
    ⟨⟨⟨"", "", "", none, .none, 0⟩, 0, "", .global, none, none, none, .running, none, none, none, none⟩⟩
  have hruns : ∀ run ∈ db.runs, ∃ row, projectAutomationRunInTransaction db run = .ok row ∧
      row.run = run ∧ row.fireRunState = runState db run := fun run hrun =>
    projectAutomationRun_eq_ok hdb hrun
  choose! rowOf hok hrun hstate using hruns
  have hmem : ∀ run ∈ orderBy orderKey (db.runsOf fire.id), run ∈ db.runs ∧
      run.fireID = fire.id := by
    intro run hin
    rw [mem_orderBy, runsOf, mem_filter, decide_eq_true_eq] at hin
    exact hin
  have hstates : ((orderBy orderKey (db.runsOf fire.id)).map rowOf).map
      (·.fireRunState) = runStates db fire.id := by
    rw [List.map_map]
    exact map_congr_left fun run hin => hstate run (hmem run hin).1
  have hfailures : ((orderBy orderKey (db.runsOf fire.id)).map rowOf).map (memberFailureCount db) =
        (orderBy orderKey (db.runsOf fire.id)).map (runFailures db) := by
    rw [List.map_map]
    refine map_congr_left fun run hin => ?_
    have houtcome : (rowOf run).outcome = (runState db run).outcome :=
      congrArg AutomationFireRunState.outcome (hstate run (hmem run hin).1)
    simp only [Function.comp_apply, memberFailureCount, runFailures, houtcome, hrun run (hmem run hin).1]
  let rows : List AutomationRunRow :=
    (orderBy orderKey (db.runsOf fire.id)).map rowOf
  refine ⟨⟨fire.id, fire.automationRevisionID, definition.definitionID, fire.origin, fire.scheduledDueAt,
    reduceAutomationFireState fire (rows.map (·.fireRunState)) (attemptsState db fire.id), rows⟩, ?_,
    ⟨rfl, rfl, rfl, rfl, ?_, ?_, ?_⟩⟩
  · unfold projectAutomationFireInTransaction
    refine bind_eq_ok.mpr ⟨definition, getOrThrow_eq_ok.mpr hdefinition, ?_⟩
    exact bind_eq_ok.mpr ⟨rows, mapM_eq_ok_map fun run hin => hok run (hmem run hin).1, rfl⟩
  · dsimp only [rows]
    rw [hstates]
    rfl
  · unfold fireFailureCount failuresOf
    dsimp only [rows]
    rw [hstates, hfailures]
    rfl
  · intro row hrow
    obtain ⟨run, hin, rfl⟩ := List.mem_map.mp hrow
    obtain ⟨hrunMem, hof⟩ := hmem run hin
    obtain ⟨found, hfound, hrevision⟩ := hdb.runFire run hrunMem
    rw [hrun run hrunMem, ← hrevision]
    have hid : found.id = fire.id := by
      have hfoundID : found.id = run.fireID := by simpa using find?_some hfound
      exact hfoundID.trans hof
    rw [hdb.fireIDs.eq_of_id (mem_of_find?_eq_some hfound) hfire hid]

lemma exists_views (hdb : WellFormed db) : ∃ viewOf : AutomationFire → AutomationFireProjection,
    ∀ fire ∈ db.fires, projectAutomationFireInTransaction db fire = .ok (viewOf fire) ∧
      Views db fire (viewOf fire) := by
  have hnonempty : Nonempty AutomationFireProjection :=
    ⟨⟨"", "", "", .scheduled, 0, ⟨0, none, .scheduled, 0, 0, none, none⟩, []⟩⟩
  have hfires : ∀ fire ∈ db.fires, ∃ view, projectAutomationFireInTransaction db fire = .ok view ∧
      Views db fire view := fun fire hfire => projectAutomationFire_eq_ok hdb hfire
  choose! viewOf hviews using hfires
  exact ⟨viewOf, hviews⟩

end Views

end OpenCorvus.Scheduler
