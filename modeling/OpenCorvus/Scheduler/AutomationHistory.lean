import OpenCorvus.Foundation.ExecutableSystem
import OpenCorvus.Scheduler.AutomationAgreement

/-!
# The histories of the Automations

The tables of the Automations only grow, except that Sessions are deleted and leases are exchanged.  A history is a
list of inserts that the constraints and triggers of the tables and the inserting transactions accept.  In every
history the tables are well-formed, and a definition has at most one unsettled fire, of the current revision.
-/

namespace OpenCorvus.Scheduler

open Transaction Engine UniqueIndex ExecutableSystem List Option AutomationDatabase

/-! ## Inserts -/

/-- The key of `ORDER BY revision, id`. -/
def AutomationDefinition.revisionKey (row : AutomationDefinition) : ℕ ×ₗ String :=
  toLex (row.revision, row.id)

def latestAutomationDefinitionInTransaction (db : AutomationDatabase) (definitionID : String) :
    Option AutomationDefinition :=
  ((db.definitions.filter fun row => row.definitionID = definitionID).argmax
    AutomationDefinition.revisionKey).filter fun row =>
      ∀ tombstone ∈ db.tombstones, tombstone.definitionID = definitionID → tombstone.revision < row.revision

inductive AutomationInsert where
  /-- Create a definition. -/
  | createDefinition (row : AutomationDefinition)
  /-- Append a revision to a definition. -/
  | updateDefinition (row : AutomationDefinition)
  | deleteDefinition (tombstone : AutomationDefinitionTombstone)
  | insertFire (fire : AutomationFire)
  /-- Claim a fire. -/
  | insertAttempt (attempt : AutomationFireAttempt)
  | settleAttempt (receipt : AutomationFireAttemptReceipt)
  /-- Reserve a run, and settle it at once when its Mission is closed. -/
  | reserveRun (run : AutomationRun) (closure : Option AutomationRunReceipt)
  | settleRun (receipt : AutomationRunReceipt)
  | createSession (session : AutomationSession)
  | deleteSession (sessionID : String)
  | appendEvent (event : MissionEvent)
  /-- The leases change. -/
  | exchangeLeases (leases : ControlLeaseTables)

section Guards

variable (db : AutomationDatabase)

def MayUpdate (row : AutomationDefinition) : Prop :=
  ∃ latest ∈ latestAutomationDefinitionInTransaction db row.definitionID,
    row.revision = latest.revision + 1 ∧ selectPendingFire db latest.id = none

instance (row : AutomationDefinition) : Decidable (MayUpdate db row) :=
  inferInstanceAs (Decidable (∃ latest ∈ latestAutomationDefinitionInTransaction db row.definitionID, _))

def MayClaim (fire : AutomationFire) : Prop :=
  (FirePending db fire ∨ ¬Started db fire) ∧
    ∃ row ∈ currentAutomationDefinitionsInTransaction db, row.id = fire.automationRevisionID ∧
      ∀ other ∈ db.firesOf row.definitionID, FirePending db other → other = fire

instance (fire : AutomationFire) : Decidable (MayClaim db fire) :=
  inferInstanceAs (Decidable (_ ∧ ∃ row ∈ currentAutomationDefinitionsInTransaction db, _))

def MissionReserved (sessionID : Option String) (mission : StoredMissionReservation) : Prop :=
  match sessionID with
  | none => mission = .none
  | some sessionID =>
    if db.IsMission sessionID then
      match mission with
      | .none => False
      | .opened id => (openedEvent db id sessionID).isSome
      | .closed id => (closureEvent db id sessionID).isSome
    else mission = .none

instance (sessionID : Option String) (mission : StoredMissionReservation) :
    Decidable (MissionReserved db sessionID mission) := by
  unfold MissionReserved
  split
  · infer_instance
  · split_ifs
    · split <;> infer_instance
    · infer_instance

def ClosesAtReservation (run : AutomationRun) (closure : Option AutomationRunReceipt) : Prop :=
  match run.mission with
  | .closed id => ∃ receipt ∈ closure, receipt.runID = run.id ∧ receipt.outcome = .disposition (.missionClosed id)
  | _ => closure = none

instance (run : AutomationRun) (closure : Option AutomationRunReceipt) :
    Decidable (ClosesAtReservation run closure) := by
  unfold ClosesAtReservation
  split <;> infer_instance

def AutomationReceiptOutcome.IsTerminal (outcome : AutomationReceiptOutcome) : Prop :=
  runOutcome (some outcome) ≠ .retryWait

instance (outcome : AutomationReceiptOutcome) : Decidable outcome.IsTerminal :=
  inferInstanceAs (Decidable (_ ≠ _))

def AutomationInsert.Accepted : AutomationInsert → Prop
  | createDefinition row => (∀ other ∈ db.definitions, other.id ≠ row.id) ∧
      (∀ other ∈ db.definitions, other.definitionID ≠ row.definitionID) ∧ row.revision = 1
  | updateDefinition row => (∀ other ∈ db.definitions, other.id ≠ row.id) ∧ MayUpdate db row
  | deleteDefinition tombstone => ∃ latest ∈ latestAutomationDefinitionInTransaction db tombstone.definitionID,
      tombstone.revision = latest.revision + 1
  | insertFire fire => (∀ other ∈ db.fires, other.id ≠ fire.id) ∧ ¬Conflicts scheduledKey db.fires fire ∧
      (db.findDefinition fire.automationRevisionID).isSome
  | insertAttempt attempt => (∀ other ∈ db.attempts, other.id ≠ attempt.id) ∧
      attempt.ordinal = ((lastAttempt db attempt.fireID).map (·.ordinal)).getD 0 + 1 ∧
      ∃ fire ∈ db.findFire attempt.fireID, MayClaim db fire
  | settleAttempt receipt => (∀ other ∈ db.attemptReceipts, other.attemptID ≠ receipt.attemptID) ∧
      ∃ attempt ∈ db.attempts, attempt.id = receipt.attemptID
  | reserveRun run closure => (∀ other ∈ db.runs, other.id ≠ run.id) ∧
      (∃ fire ∈ db.findFire run.fireID, fire.automationRevisionID = run.automationRevisionID ∧
        FirePending db fire) ∧
      (∃ definition ∈ db.findDefinition run.automationRevisionID,
        MissionReserved db definition.sessionID run.mission) ∧
      ClosesAtReservation run closure ∧
      ∀ receipt ∈ closure, ∀ other ∈ db.runReceipts, other.id ≠ receipt.id
  | settleRun receipt => (∀ other ∈ db.runReceipts, other.id ≠ receipt.id) ∧
      (∃ run ∈ db.runs, run.id = receipt.runID ∧ RunOpen db run) ∧
      (receipt.outcome.IsTerminal → ∀ other ∈ db.receiptsOf receipt.runID, ¬other.outcome.IsTerminal)
  | createSession session => (∀ other ∈ db.sessions, other.id ≠ session.id) ∧
      ∀ definition ∈ db.definitions, definition.sessionID ≠ some session.id
  | deleteSession sessionID => ¬db.IsMission sessionID
  | appendEvent event => ∀ other ∈ db.events, other.id ≠ event.id
  | exchangeLeases _ => True

instance (insert : AutomationInsert) : Decidable (insert.Accepted db) := by
  cases insert <;> unfold AutomationInsert.Accepted <;> infer_instance

def AutomationInsert.apply : AutomationInsert → AutomationDatabase
  | createDefinition row | updateDefinition row => { db with definitions := db.definitions ++ [row] }
  | deleteDefinition tombstone => { db with tombstones := db.tombstones ++ [tombstone] }
  | insertFire fire => { db with fires := db.fires ++ [fire] }
  | insertAttempt attempt => { db with attempts := db.attempts ++ [attempt] }
  | settleAttempt receipt => { db with attemptReceipts := db.attemptReceipts ++ [receipt] }
  | reserveRun run closure =>
    { db with runs := db.runs ++ [run], runReceipts := db.runReceipts ++ closure.toList }
  | settleRun receipt => { db with runReceipts := db.runReceipts ++ [receipt] }
  | createSession session => { db with sessions := db.sessions ++ [session] }
  | deleteSession sessionID =>
    { db with sessions := db.sessions.filter fun session => session.id ≠ sessionID }
  | appendEvent event => { db with events := db.events ++ [event] }
  | exchangeLeases leases => { db with leases := leases }

def automationStep (insert : AutomationInsert) : Option AutomationDatabase :=
  if insert.Accepted db then some (insert.apply db) else none

end Guards

/-- No definition was created yet. -/
def emptyAutomations : AutomationDatabase := ⟨[], [], [], [], [], [], [], [], [], ⟨[], []⟩⟩

/-! ## The invariant -/

structure HistoryInv (db : AutomationDatabase) : Prop where
  wellFormed : WellFormed db
  attemptFire : ∀ attempt ∈ db.attempts, ∃ fire ∈ db.fires, fire.id = attempt.fireID
  receiptRun : ∀ receipt ∈ db.runReceipts, ∃ run ∈ db.runs, run.id = receipt.runID
  /-- The unsettled fires of a definition are one fire. -/
  one : ∀ definitionID, ∀ fire ∈ db.firesOf definitionID, ∀ other ∈ db.firesOf definitionID,
    FirePending db fire → FirePending db other → fire = other
  /-- It is of the current revision. -/
  current : ∀ row ∈ currentAutomationDefinitionsInTransaction db, ∀ fire ∈ db.firesOf row.definitionID,
    FirePending db fire → fire.automationRevisionID = row.id

section Lookups

variable {db : AutomationDatabase}

lemma findFire_eq_some (hdb : WellFormed db) {fireID : String} {fire : AutomationFire} :
    db.findFire fireID = some fire ↔ fire ∈ db.fires ∧ fire.id = fireID := by
  constructor
  · intro h
    exact ⟨mem_of_find?_eq_some h, by simpa using find?_some h⟩
  · rintro ⟨hmem, rfl⟩
    exact hdb.fireIDs.find?_eq_some hmem

variable {row : AutomationDefinition}

/-- So is a revision. -/
lemma findDefinition_eq_some (hdb : WellFormed db) {id : String} :
    db.findDefinition id = some row ↔ row ∈ db.definitions ∧ row.id = id := by
  constructor
  · intro h
    exact ⟨mem_of_find?_eq_some h, by simpa using find?_some h⟩
  · rintro ⟨hmem, rfl⟩
    exact hdb.definitionIDs.find?_eq_some hmem

lemma mem_firesOf {definitionID : String} {fire : AutomationFire} :
    fire ∈ db.firesOf definitionID ↔ fire ∈ db.fires ∧ ∃ row ∈ db.definitions,
      row.definitionID = definitionID ∧ row.id = fire.automationRevisionID := by
  unfold firesOf
  simp [and_assoc]

lemma mem_current :
    row ∈ currentAutomationDefinitionsInTransaction db ↔ row ∈ db.definitions ∧ row.IsCurrent db := by
  unfold currentAutomationDefinitionsInTransaction
  rw [mem_filter, decide_eq_true_eq]

lemma latestAutomationDefinition_mem {definitionID : String}
    (h : latestAutomationDefinitionInTransaction db definitionID = some row) :
    row ∈ currentAutomationDefinitionsInTransaction db ∧ row.definitionID = definitionID := by
  obtain ⟨hlatest, hlive⟩ := filter_eq_some_iff.mp h
  obtain ⟨hmem, hof⟩ := mem_filter.mp (argmax_mem hlatest)
  rw [decide_eq_true_eq] at hof hlive
  refine ⟨mem_current.mpr ⟨hmem, ?_, ?_⟩, hof⟩
  · intro candidate hcandidate hsame hlater
    have hle : candidate.revisionKey ≤ row.revisionKey := le_of_mem_argmax
      (mem_filter.mpr ⟨hcandidate, by simpa using hsame.trans hof⟩) hlatest
    have hlt : row.revisionKey < candidate.revisionKey := by
      unfold AutomationDefinition.revisionKey
      rw [Prod.Lex.toLex_lt_toLex]
      rcases hlater with hlt | ⟨heq, hlt⟩
      · exact .inl hlt
      · exact .inr ⟨heq.symm, hlt⟩
    exact absurd hlt (not_lt.mpr hle)
  · intro tombstone htombstone hsame
    exact not_le.mpr (hlive tombstone htombstone (hsame.trans hof))

lemma eq_of_current (hdb : WellFormed db) {row other : AutomationDefinition}
    (hrow : row ∈ currentAutomationDefinitionsInTransaction db)
    (hother : other ∈ currentAutomationDefinitionsInTransaction db)
    (hsame : row.definitionID = other.definitionID) : row = other := by
  obtain ⟨hrowMem, hrowCurrent⟩ := mem_current.mp hrow
  obtain ⟨hotherMem, hotherCurrent⟩ := mem_current.mp hother
  have hleft := hrowCurrent.1 other hotherMem hsame.symm
  have hright := hotherCurrent.1 row hrowMem hsame
  push Not at hleft hright
  have hrevision : row.revision = other.revision := le_antisymm hright.1 hleft.1
  refine hdb.definitionIDs.eq_of_id hrowMem hotherMem (le_antisymm ?_ ?_)
  · exact hright.2 hrevision
  · exact hleft.2 hrevision.symm

end Lookups

/-! ### Reservations -/

section Reservations

variable {db db' : AutomationDatabase}

lemma assertRunReservation_eq_ok {run : AutomationRun} {definition : AutomationDefinition}
    {receipt : Option AutomationRunReceipt} :
    assertRunReservation db run definition receipt = .ok () ↔
      ∀ sessionID ∈ truthy definition.sessionID, MissionReserved db (some sessionID) run.mission ∧
        ∀ id, run.mission = .closed id →
          receipt.map (·.outcome) = some (.disposition (.missionClosed id)) := by
  unfold assertRunReservation assertSchedulerMissionReservationInTransaction MissionReserved
  cases truthy definition.sessionID with
  | none => simp
  | some sessionID =>
    simp only [mem_def, some.injEq, forall_eq']
    by_cases hmission : db.IsMission sessionID
    · rw [if_neg (not_not.mpr hmission), if_pos hmission]
      cases run.mission with
      | none => simp [bind, Except.bind]
      | opened id =>
        dsimp only
        cases openedEvent db id sessionID <;> simp [getOrThrow, bind, Except.bind, pure, Except.pure]
      | closed id =>
        dsimp only
        cases hclosure : closureEvent db id sessionID with
        | none => simp [getOrThrow, bind, Except.bind]
        | some event =>
          have hid : event.id = id := by
            have hfound : event.IsOf id sessionID ∧ event.type ∈ missionClosureTypes := by
              simpa using find?_some hclosure
            exact hfound.1.1
          simp [getOrThrow, throwWhen, bind, Except.bind, pure, Except.pure, hid]
    · rw [if_pos hmission, if_neg hmission]
      cases run.mission <;> simp [bind, Except.bind]

variable {mission : StoredMissionReservation}

lemma missionReserved_some {sessionID : String} : MissionReserved db (some sessionID) mission ↔
      (db.IsMission sessionID → (∃ id, mission = .opened id ∧ (openedEvent db id sessionID).isSome) ∨
        ∃ id, mission = .closed id ∧ (closureEvent db id sessionID).isSome) ∧
      (¬db.IsMission sessionID → mission = .none) := by
  unfold MissionReserved
  by_cases hmission : db.IsMission sessionID
  · cases mission <;> simp [hmission]
  · simp [hmission]

lemma MissionReserved.mono {sessionID : String} (h : MissionReserved db (some sessionID) mission)
    (hsession : db'.IsMission sessionID ↔ db.IsMission sessionID)
    (hopened : ∀ id, (openedEvent db id sessionID).isSome → (openedEvent db' id sessionID).isSome)
    (hclosure : ∀ id, (closureEvent db id sessionID).isSome → (closureEvent db' id sessionID).isSome) :
    MissionReserved db' (some sessionID) mission := by
  rw [missionReserved_some] at h ⊢
  rw [hsession]
  refine ⟨fun hmission => ?_, h.2⟩
  rcases h.1 hmission with ⟨id, hid, hevent⟩ | ⟨id, hid, hevent⟩
  · exact .inl ⟨id, hid, hopened id hevent⟩
  · exact .inr ⟨id, hid, hclosure id hevent⟩

end Reservations

/-! ### Unsettled fires -/

section Frames

variable {db db' : AutomationDatabase}

/-- The inserts that make no fire unsettled and append no revision. -/
structure SettlesOnly (db db' : AutomationDatabase) : Prop where
  pending : ∀ fire ∈ db'.fires, FirePending db' fire → fire ∈ db.fires ∧ FirePending db fire
  definitions : db'.definitions = db.definitions
  tombstones : db.tombstones ⊆ db'.tombstones

lemma SettlesOnly.mem_firesOf (h : SettlesOnly db db') {definitionID : String} {fire : AutomationFire}
    (hfire : fire ∈ db'.firesOf definitionID) (hpending : FirePending db' fire) :
    fire ∈ db.firesOf definitionID ∧ FirePending db fire := by
  obtain ⟨hmem, hrevision⟩ := OpenCorvus.Scheduler.mem_firesOf.mp hfire
  obtain ⟨hbefore, hpendingBefore⟩ := h.pending fire hmem hpending
  rw [h.definitions] at hrevision
  exact ⟨OpenCorvus.Scheduler.mem_firesOf.mpr ⟨hbefore, hrevision⟩, hpendingBefore⟩

lemma SettlesOnly.mem_current (h : SettlesOnly db db') {row : AutomationDefinition}
    (hrow : row ∈ currentAutomationDefinitionsInTransaction db') :
    row ∈ currentAutomationDefinitionsInTransaction db := by
  obtain ⟨hmem, hlatest, hlive⟩ := OpenCorvus.Scheduler.mem_current.mp hrow
  rw [h.definitions] at hmem hlatest
  exact OpenCorvus.Scheduler.mem_current.mpr ⟨hmem, hlatest, fun tombstone htombstone =>
    hlive tombstone (h.tombstones htombstone)⟩

lemma HistoryInv.settlesOnly (hinv : HistoryInv db) (h : SettlesOnly db db') (hdb' : WellFormed db')
    (hattempts : ∀ attempt ∈ db'.attempts, ∃ fire ∈ db'.fires, fire.id = attempt.fireID)
    (hreceipts : ∀ receipt ∈ db'.runReceipts, ∃ run ∈ db'.runs, run.id = receipt.runID) :
    HistoryInv db' where
  wellFormed := hdb'
  attemptFire := hattempts
  receiptRun := hreceipts
  one definitionID fire hfire other hother hpending hpending' := by
    obtain ⟨hfire, hpending⟩ := h.mem_firesOf hfire hpending
    obtain ⟨hother, hpending'⟩ := h.mem_firesOf hother hpending'
    exact hinv.one definitionID fire hfire other hother hpending hpending'
  current row hrow fire hfire hpending := by
    obtain ⟨hfire, hpending⟩ := h.mem_firesOf hfire hpending
    exact hinv.current row (h.mem_current hrow) fire hfire hpending

lemma receiptsOf_append {receipts : List AutomationRunReceipt} {runID : String}
    (hother : ∀ receipt ∈ receipts, receipt.runID ≠ runID) :
    ({ db with runReceipts := db.runReceipts ++ receipts } : AutomationDatabase).receiptsOf runID =
      db.receiptsOf runID := by
  have hnone : receipts.filter (fun receipt => receipt.runID = runID) = [] :=
    filter_eq_nil_iff.mpr fun receipt hmem => by simpa using hother receipt hmem
  unfold receiptsOf
  rw [filter_append, hnone, List.append_nil]

end Frames

/-! ### Definitions and fires -/

section Definitions

variable {db : AutomationDatabase}

variable {row : AutomationDefinition} {fire : AutomationFire}

lemma mem_firesOf_concat (hdb : WellFormed db) (hfresh : ∀ other ∈ db.definitions, other.id ≠ row.id)
    {definitionID : String} :
    fire ∈ ({ db with definitions := db.definitions ++ [row] } : AutomationDatabase).firesOf
      definitionID ↔ fire ∈ db.firesOf definitionID := by
  rw [mem_firesOf, mem_firesOf]
  refine and_congr_right fun hfire => ?_
  constructor
  · rintro ⟨other, hother, hof, hid⟩
    rcases mem_concat.mp hother with hother | hnew
    · exact ⟨other, hother, hof, hid⟩
    · obtain ⟨definition, hdefinition⟩ := hdb.fireRevision fire hfire
      obtain ⟨hmem, hdefinitionID⟩ := (findDefinition_eq_some hdb).mp hdefinition
      rw [hnew] at hid
      exact absurd (hdefinitionID.trans hid.symm) (hfresh definition hmem)
  · rintro ⟨other, hother, hof, hid⟩
    exact ⟨other, mem_append_left _ hother, hof, hid⟩

lemma HistoryInv.insertDefinition (hinv : HistoryInv db) (hfresh : ∀ other ∈ db.definitions, other.id ≠ row.id)
    (hsettled : ∀ fire ∈ db.firesOf row.definitionID, ¬FirePending db fire) :
    HistoryInv { db with definitions := db.definitions ++ [row] } := by
  have hdb := hinv.wellFormed
  have hfound : ∀ {id definition}, db.findDefinition id = some definition →
      ({ db with definitions := db.definitions ++ [row] } : AutomationDatabase).findDefinition id =
        some definition := by
    intro id definition hdefinition
    unfold findDefinition at hdefinition ⊢
    rw [find?_append, hdefinition, some_or]
  exact {
    wellFormed :=
      { hdb with
        definitionIDs := hdb.definitionIDs.concat hfresh
        fireRevision := fun fire hfire => (hdb.fireRevision fire hfire).imp fun _ => hfound
        reserved := by
          intro run hrun definition hdefinition
          obtain ⟨fire, hfire, hrevision⟩ := hdb.runFire run hrun
          obtain ⟨stored, hstored⟩ := hdb.fireRevision fire (mem_of_find?_eq_some hfire)
          rw [hrevision] at hstored
          have hsame : stored = definition := by
            rw [hfound hstored, some.injEq] at hdefinition
            exact hdefinition
          exact hdb.reserved run hrun definition (hsame ▸ hstored) }
    attemptFire := hinv.attemptFire
    receiptRun := hinv.receiptRun
    one := by
      intro definitionID fire hfire other hother
      rw [mem_firesOf_concat hdb hfresh] at hfire hother
      exact hinv.one definitionID fire hfire other hother
    current := by
      intro other hother fire hfire hpending
      rw [mem_firesOf_concat hdb hfresh] at hfire
      obtain ⟨hmem, hlatest, hlive⟩ := mem_current.mp hother
      rcases mem_concat.mp hmem with hmem | hnew
      · refine hinv.current other (mem_current.mpr ⟨hmem, fun candidate hcandidate => ?_, hlive⟩)
          fire hfire hpending
        exact hlatest candidate (mem_append_left _ hcandidate)
      · rw [hnew] at hfire
        exact absurd hpending (hsettled fire hfire) }

lemma HistoryInv.settled_of_mayUpdate (hinv : HistoryInv db) (h : MayUpdate db row) :
    ∀ fire ∈ db.firesOf row.definitionID, ¬FirePending db fire := by
  obtain ⟨latest, hlatest, -, hnone⟩ := h
  obtain ⟨hcurrent, hof⟩ := latestAutomationDefinition_mem hlatest
  intro fire hfire hpending
  have hrevision := hinv.current latest hcurrent fire (hof ▸ hfire) hpending
  have hmem : fire ∈ db.fires.filter fun fire =>
      fire.automationRevisionID = latest.id ∧ FirePending db fire :=
    mem_filter.mpr ⟨mem_fires_of_mem_firesOf hfire, by simp [hrevision, hpending]⟩
  unfold selectPendingFire at hnone
  rw [argmax_eq_none.mp hnone] at hmem
  cases hmem

lemma HistoryInv.not_pending_of_fresh (hinv : HistoryInv db) (hfresh : ∀ other ∈ db.fires, other.id ≠ fire.id) :
    ¬FirePending db fire := by
  intro hpending
  rcases FirePending.started hinv.wellFormed hpending with ⟨attempt, hattempt, hof⟩ | ⟨run, hrun, hof⟩
  · obtain ⟨other, hother, hid⟩ := hinv.attemptFire attempt hattempt
    exact hfresh other hother (hid.trans hof)
  · obtain ⟨other, hother, -⟩ := hinv.wellFormed.runFire run hrun
    obtain ⟨hmem, hid⟩ := (findFire_eq_some hinv.wellFormed).mp hother
    exact hfresh other hmem (hid.trans hof)

lemma HistoryInv.insertFire (hinv : HistoryInv db) (hfresh : ∀ other ∈ db.fires, other.id ≠ fire.id)
    (hscheduled : ¬Conflicts scheduledKey db.fires fire)
    (hrevision : (db.findDefinition fire.automationRevisionID).isSome) :
    HistoryInv { db with fires := db.fires ++ [fire] } := by
  have hdb := hinv.wellFormed
  refine hinv.settlesOnly ⟨fun other hother hpending => ?_, rfl, Subset.refl _⟩
    { hdb with
      fireIDs := hdb.fireIDs.concat hfresh
      scheduled := hdb.scheduled.concat hscheduled
      fireRevision := fun other hother => ?_
      runFire := fun run hrun => ?_ } (fun attempt hattempt => ?_) hinv.receiptRun
  · rcases mem_concat.mp hother with hother | hnew
    · exact ⟨hother, hpending⟩
    · rw [hnew] at hpending
      exact absurd hpending (hinv.not_pending_of_fresh hfresh)
  · rcases mem_concat.mp hother with hother | hnew
    · exact hdb.fireRevision other hother
    · rw [hnew]
      exact isSome_iff_exists.mp hrevision
  · obtain ⟨other, hother, hsame⟩ := hdb.runFire run hrun
    refine ⟨other, ?_, hsame⟩
    unfold findFire at hother ⊢
    rw [find?_append, hother, some_or]
  · exact (hinv.attemptFire attempt hattempt).imp fun _ h => ⟨mem_append_left _ h.1, h.2⟩

end Definitions

/-! ### Attempts -/

section Attempts

variable {db : AutomationDatabase}

variable {attempt : AutomationFireAttempt}

lemma pending_of_insertAttempt {fire : AutomationFire} (hother : fire.id ≠ attempt.fireID)
    (hpending : FirePending { db with attempts := db.attempts ++ [attempt] } fire) :
    FirePending db fire := by
  rcases hpending with ⟨hruns, last, hlast, hof, hlater, hopen⟩ | hrun
  · refine .inl ⟨hruns, last, ?_, hof, fun later hmem => hlater later (mem_append_left _ hmem), hopen⟩
    rcases mem_concat.mp hlast with hold | hnew
    · exact hold
    · rw [hnew] at hof
      exact absurd hof.symm hother
  · exact .inr hrun

lemma ordinals_concat (hdb : WellFormed db)
    (hordinal : attempt.ordinal = ((lastAttempt db attempt.fireID).map (·.ordinal)).getD 0 + 1)
    (fireID : String) :
    let attempts :=
      ({ db with attempts := db.attempts ++ [attempt] } : AutomationDatabase).attemptsOf fireID
    attempts.map (·.ordinal) = List.range' 1 attempts.length := by
  dsimp only
  have hordinals := hdb.ordinals fireID
  unfold attemptsOf at hordinals ⊢
  rw [filter_append]
  by_cases hof : attempt.fireID = fireID
  · have hselected : [attempt].filter (fun attempt => attempt.fireID = fireID) = [attempt] := by simp [hof]
    have hlast := lastAttempt_ordinal hdb fireID
    unfold attemptsOf at hlast
    rw [hof, hlast] at hordinal
    rw [hselected, map_append, length_append, hordinals, length_singleton,
      range'_1_concat, map_singleton, hordinal, Nat.add_comm]
  · have hnone : [attempt].filter (fun attempt => attempt.fireID = fireID) = [] := by simp [hof]
    rw [hnone, List.append_nil]
    exact hordinals

lemma HistoryInv.insertAttempt (hinv : HistoryInv db) (hfresh : ∀ other ∈ db.attempts, other.id ≠ attempt.id)
    (hordinal : attempt.ordinal = ((lastAttempt db attempt.fireID).map (·.ordinal)).getD 0 + 1)
    {claimed : AutomationFire} (hclaimed : db.findFire attempt.fireID = some claimed)
    (hclaim : MayClaim db claimed) :
    HistoryInv { db with attempts := db.attempts ++ [attempt] } := by
  have hdb := hinv.wellFormed
  obtain ⟨hclaimedMem, hclaimedID⟩ := (findFire_eq_some hdb).mp hclaimed
  obtain ⟨-, row, hrow, hrevision, honly⟩ := hclaim
  have heq : ∀ fire ∈ db.fires, fire.id = attempt.fireID → fire = claimed := fun fire hfire hid =>
    hdb.fireIDs.eq_of_id hfire hclaimedMem (hid.trans hclaimedID.symm)
  -- The claimed fire is one of the claimed definition only.
  have hdefinition : ∀ definitionID, claimed ∈ db.firesOf definitionID → definitionID = row.definitionID := by
    intro definitionID hmem
    obtain ⟨-, _, hstored, hof, hid⟩ := mem_firesOf.mp hmem
    rw [← hof, hdb.definitionIDs.eq_of_id hstored (mem_current.mp hrow).1 (hid.trans hrevision.symm)]
  have hpending : ∀ definitionID, claimed ∈ db.firesOf definitionID → ∀ fire ∈ db.firesOf definitionID,
      FirePending { db with attempts := db.attempts ++ [attempt] } fire → fire = claimed := by
    intro definitionID hmem fire hfire hfirePending
    by_cases hid : fire.id = attempt.fireID
    · exact heq fire (mem_fires_of_mem_firesOf hfire) hid
    · rw [hdefinition definitionID hmem] at hfire
      exact honly fire hfire (pending_of_insertAttempt hid hfirePending)
  exact {
    wellFormed :=
      { hdb with
        attemptIDs := hdb.attemptIDs.concat hfresh
        ordinals := ordinals_concat hdb hordinal }
    attemptFire := by
      intro other hother
      rcases mem_concat.mp hother with hother | hnew
      · exact hinv.attemptFire other hother
      · rw [hnew]
        exact ⟨claimed, hclaimedMem, hclaimedID⟩
    receiptRun := hinv.receiptRun
    one := by
      intro definitionID fire hfire other hother hfirePending hotherPending
      by_cases hid : fire.id = attempt.fireID
      · cases heq fire (mem_fires_of_mem_firesOf hfire) hid
        exact (hpending definitionID hfire other hother hotherPending).symm
      · by_cases hotherID : other.id = attempt.fireID
        · cases heq other (mem_fires_of_mem_firesOf hother) hotherID
          exact hpending definitionID hother fire hfire hfirePending
        · exact hinv.one definitionID fire hfire other hother (pending_of_insertAttempt hid hfirePending)
            (pending_of_insertAttempt hotherID hotherPending)
    current := by
      intro other hother fire hfire hfirePending
      by_cases hid : fire.id = attempt.fireID
      · cases heq fire (mem_fires_of_mem_firesOf hfire) hid
        have hsame : other = row := eq_of_current hdb hother hrow (hdefinition _ hfire)
        rw [hsame, hrevision]
      · exact hinv.current other hother fire hfire (pending_of_insertAttempt hid hfirePending) }

lemma HistoryInv.settleAttempt (hinv : HistoryInv db) {receipt : AutomationFireAttemptReceipt}
    (hfresh : ∀ other ∈ db.attemptReceipts, other.attemptID ≠ receipt.attemptID) :
    HistoryInv { db with attemptReceipts := db.attemptReceipts ++ [receipt] } := by
  have hdb := hinv.wellFormed
  refine hinv.settlesOnly ⟨fun fire hfire hpending => ⟨hfire, ?_⟩, rfl, Subset.refl _⟩
    { hdb with attemptReceipts := hdb.attemptReceipts.concat hfresh } hinv.attemptFire hinv.receiptRun
  rcases hpending with ⟨hruns, last, hlast, hof, hlater, hopen⟩ | hrun
  · refine .inl ⟨hruns, last, hlast, hof, hlater, ?_⟩
    rcases hopen with hnone | ⟨other, hother, hid, hstate⟩
    · exact .inl fun other hother => hnone other (mem_append_left _ hother)
    · rcases mem_concat.mp hother with hother | hnew
      · exact .inr ⟨other, hother, hid, hstate⟩
      · -- The attempt had no receipt yet.
        rw [hnew] at hid
        exact .inl fun earlier hearlier hearlierID => hfresh earlier hearlier (hearlierID.trans hid.symm)
  · exact .inr hrun

end Attempts

/-! ### Runs -/

section Runs

variable {db : AutomationDatabase}

lemma eq_some_of_mem_truthy {value : Option String} {text : String} (h : text ∈ truthy value) :
    value = some text :=
  (filter_eq_some_iff.mp h).1

variable {run : AutomationRun} {closure : Option AutomationRunReceipt}

lemma RunOpen.of_receiptsOf {db' : AutomationDatabase} (hsame : db'.receiptsOf run.id = db.receiptsOf run.id) :
    RunOpen db' run ↔ RunOpen db run := by
  unfold RunOpen selectReceipt
  rw [hsame]

lemma ClosesAtReservation.runID (h : ClosesAtReservation run closure) :
    ∀ receipt ∈ closure.toList, receipt.runID = run.id := by
  intro receipt hreceipt
  have hmem : closure = some receipt := mem_toList.mp hreceipt
  unfold ClosesAtReservation at h
  split at h
  · obtain ⟨_, hother, hid, -⟩ := h
    rw [hmem] at hother
    cases hother
    exact hid
  · rw [h] at hmem
    cases hmem

lemma ClosesAtReservation.outcome (h : ClosesAtReservation run closure) {id : String}
    (hclosed : run.mission = .closed id) :
    closure.map (·.outcome) = some (.disposition (.missionClosed id)) := by
  unfold ClosesAtReservation at h
  rw [hclosed] at h
  obtain ⟨_, hreceipt, -, houtcome⟩ := h
  rw [hreceipt, map_some, houtcome]

lemma HistoryInv.reserveRun (hinv : HistoryInv db) (hfresh : ∀ other ∈ db.runs, other.id ≠ run.id)
    {fire : AutomationFire} (hfire : db.findFire run.fireID = some fire)
    (hrevision : fire.automationRevisionID = run.automationRevisionID) (hpending : FirePending db fire)
    {definition : AutomationDefinition}
    (hdefinition : db.findDefinition run.automationRevisionID = some definition)
    (hmission : MissionReserved db definition.sessionID run.mission)
    (hclosure : ClosesAtReservation run closure)
    (hreceiptIDs : ∀ receipt ∈ closure, ∀ other ∈ db.runReceipts, other.id ≠ receipt.id) :
    HistoryInv { db with runs := db.runs ++ [run], runReceipts := db.runReceipts ++ closure.toList } := by
  have hdb := hinv.wellFormed
  let db' : AutomationDatabase :=
    { db with runs := db.runs ++ [run], runReceipts := db.runReceipts ++ closure.toList }
  have hreceipts : ∀ other ∈ db.runs, db'.receiptsOf other.id = db.receiptsOf other.id := by
    intro other hother
    refine receiptsOf_append fun receipt hreceipt heq => ?_
    exact hfresh other hother (heq.symm.trans (hclosure.runID receipt hreceipt))
  have hown : db'.lastReceipt run.id = closure := by
    have hnone : db.receiptsOf run.id = [] := by
      refine filter_eq_nil_iff.mpr fun receipt hreceipt hof => ?_
      obtain ⟨other, hother, hid⟩ := hinv.receiptRun receipt hreceipt
      rw [decide_eq_true_eq] at hof
      exact hfresh other hother (hid.trans hof)
    have hall : db'.receiptsOf run.id = closure.toList := by
      unfold receiptsOf at hnone ⊢
      dsimp only [db']
      rw [filter_append, hnone, nil_append, filter_eq_self]
      exact fun receipt hreceipt => decide_eq_true (hclosure.runID receipt hreceipt)
    unfold lastReceipt
    rw [hall]
    cases closure <;> rfl
  refine hinv.settlesOnly ⟨fun other hother hotherPending => ⟨hother, ?_⟩, rfl, Subset.refl _⟩
    { hdb with
      runIDs := hdb.runIDs.concat hfresh
      runReceiptIDs := ?_
      runFire := fun other hother => ?_
      reserved := fun other hother stored hstored => ?_ } hinv.attemptFire (fun receipt hreceipt => ?_)
  · rcases hotherPending with ⟨hruns, hattempt⟩ | ⟨member, hmember, hof, hopen⟩
    · exact .inl ⟨fun member hmember => hruns member (mem_append_left _ hmember), hattempt⟩
    · rcases mem_append.mp hmember with hmember | hnew
      · exact .inr ⟨member, hmember, hof, (RunOpen.of_receiptsOf (hreceipts member hmember)).mp hopen⟩
      · -- The fire of the new run was unsettled before.
        rw [mem_singleton.mp hnew] at hof
        obtain ⟨hmem, hid⟩ := (findFire_eq_some hdb).mp hfire
        rw [hdb.fireIDs.eq_of_id hother hmem (hof.symm.trans hid.symm)]
        exact hpending
  · cases hcase : closure with
    | none =>
      rw [toList_none, List.append_nil]
      exact hdb.runReceiptIDs
    | some receipt => exact hdb.runReceiptIDs.concat (hreceiptIDs receipt hcase)
  · rcases mem_append.mp hother with hother | hnew
    · exact hdb.runFire other hother
    · rw [mem_singleton.mp hnew]
      exact ⟨fire, hfire, hrevision⟩
  · rcases mem_append.mp hother with hother | hnew
    · have hlast : db'.lastReceipt other.id = db.lastReceipt other.id := by
        unfold lastReceipt
        rw [hreceipts other hother]
      change assertRunReservation db' other stored (db'.lastReceipt other.id) = .ok ()
      rw [hlast]
      exact hdb.reserved other hother stored hstored
    · rw [mem_singleton.mp hnew] at hstored ⊢
      have hsame : definition = stored := by
        have heq := hdefinition.symm.trans hstored
        rwa [some.injEq] at heq
      rw [assertRunReservation_eq_ok]
      intro sessionID hsession
      rw [← hsame] at hsession
      rw [eq_some_of_mem_truthy hsession] at hmission
      refine ⟨hmission, fun id hclosed => ?_⟩
      change (db'.lastReceipt run.id).map (·.outcome) = _
      rw [hown]
      exact hclosure.outcome hclosed
  · rcases mem_append.mp hreceipt with hreceipt | hnew
    · exact (hinv.receiptRun receipt hreceipt).imp fun _ h => ⟨mem_append_left _ h.1, h.2⟩
    · exact ⟨run, mem_append_right _ (mem_singleton_self run), (hclosure.runID receipt hnew).symm⟩

lemma HistoryInv.settleRun (hinv : HistoryInv db) {receipt : AutomationRunReceipt}
    (hfresh : ∀ other ∈ db.runReceipts, other.id ≠ receipt.id) (hrun : run ∈ db.runs)
    (hid : run.id = receipt.runID) (hopen : RunOpen db run) :
    HistoryInv { db with runReceipts := db.runReceipts ++ [receipt] } := by
  have hdb := hinv.wellFormed
  let db' : AutomationDatabase := { db with runReceipts := db.runReceipts ++ [receipt] }
  have hreceipts : ∀ other ∈ db.runs, other ≠ run → db'.receiptsOf other.id = db.receiptsOf other.id := by
    intro other hother hne
    refine receiptsOf_append fun added hadded heq => hne ?_
    rw [mem_singleton.mp hadded] at heq
    exact hdb.runIDs.eq_of_id hother hrun (heq.symm.trans hid.symm)
  refine hinv.settlesOnly ⟨fun fire hfire hpending => ⟨hfire, ?_⟩, rfl, Subset.refl _⟩
    { hdb with
      runReceiptIDs := hdb.runReceiptIDs.concat hfresh
      reserved := fun other hother stored hstored => ?_ } hinv.attemptFire (fun added hadded => ?_)
  · rcases hpending with hattempt | ⟨member, hmember, hof, hmemberOpen⟩
    · exact .inl hattempt
    · refine .inr ⟨member, hmember, hof, ?_⟩
      by_cases hsame : member = run
      · rw [hsame]
        exact hopen
      · exact (RunOpen.of_receiptsOf (hreceipts member hmember hsame)).mp hmemberOpen
  · have hbefore := assertRunReservation_eq_ok.mp (hdb.reserved other hother stored hstored)
    rw [assertRunReservation_eq_ok]
    intro sessionID hsession
    obtain ⟨hreserved, hclosed⟩ := hbefore sessionID hsession
    refine ⟨hreserved, fun id hmission => ?_⟩
    have hsettled := hclosed id hmission
    by_cases hsame : other = run
    · -- A run of a closed Mission is not open.
      rw [hsame, lastReceipt_eq hdb] at hsettled
      obtain ⟨last, hlast, houtcome⟩ := map_eq_some_iff.mp hsettled
      have hretry := hopen last hlast
      rw [houtcome] at hretry
      cases hretry
    · change (db'.lastReceipt other.id).map (·.outcome) = _
      unfold lastReceipt at hsettled ⊢
      rw [hreceipts other hother hsame]
      exact hsettled
  · rcases mem_concat.mp hadded with hadded | hnew
    · exact hinv.receiptRun added hadded
    · rw [hnew]
      exact ⟨run, hrun, hid⟩

end Runs

/-! ### Sessions and events -/

section Sessions

variable {db : AutomationDatabase}

lemma HistoryInv.sessions (hinv : HistoryInv db) {sessions : List AutomationSession}
    {events : List MissionEvent}
    (hstands : ∀ definition ∈ db.definitions, ∀ sessionID, definition.sessionID = some sessionID →
      ∀ mission, MissionReserved db (some sessionID) mission →
        MissionReserved { db with sessions := sessions, events := events } (some sessionID) mission) :
    HistoryInv { db with sessions := sessions, events := events } := by
  have hdb := hinv.wellFormed
  refine hinv.settlesOnly ⟨fun fire hfire hpending => ⟨hfire, hpending⟩, rfl, Subset.refl _⟩
    { hdb with reserved := fun run hrun definition hdefinition => ?_ } hinv.attemptFire hinv.receiptRun
  have hbefore := assertRunReservation_eq_ok.mp (hdb.reserved run hrun definition hdefinition)
  rw [assertRunReservation_eq_ok]
  intro sessionID hsession
  obtain ⟨hreserved, hclosed⟩ := hbefore sessionID hsession
  exact ⟨hstands definition (mem_of_find?_eq_some hdefinition) sessionID
    (eq_some_of_mem_truthy hsession) _ hreserved, hclosed⟩

lemma HistoryInv.createSession (hinv : HistoryInv db) {session : AutomationSession}
    (hfresh : ∀ definition ∈ db.definitions, definition.sessionID ≠ some session.id) :
    HistoryInv { db with sessions := db.sessions ++ [session] } := by
  refine hinv.sessions fun definition hdefinition sessionID hsession mission h => ?_
  refine h.mono ?_ (fun _ => id) fun _ => id
  have hne : session.id ≠ sessionID := fun heq => hfresh definition hdefinition (heq ▸ hsession)
  unfold AutomationDatabase.IsMission
  rw [find?_append]
  have hnone : [session].find? (fun session => session.id = sessionID) = none := by simp [hne]
  rw [hnone, or_none]

lemma HistoryInv.deleteSession (hinv : HistoryInv db) {deleted : String} (hdeleted : ¬db.IsMission deleted) :
    HistoryInv { db with sessions := db.sessions.filter fun session => session.id ≠ deleted } := by
  refine hinv.sessions fun definition _ sessionID _ mission h => ?_
  refine h.mono ?_ (fun _ => id) fun _ => id
  unfold AutomationDatabase.IsMission at hdeleted ⊢
  rw [find?_filter]
  by_cases hsame : sessionID = deleted
  · have hnone : db.sessions.find? (fun session => decide (session.id ≠ deleted) = true ∧
        decide (session.id = sessionID) = true) = none := by
      rw [find?_eq_none]
      simp [hsame]
    rw [hnone, hsame]
    exact iff_of_false (by simp) hdeleted
  · have hsame' : (fun session : AutomationSession => decide (decide (session.id ≠ deleted) = true ∧
        decide (session.id = sessionID) = true)) = fun session => decide (session.id = sessionID) := by
      funext session
      rw [decide_eq_decide]
      simp only [decide_eq_true_eq, and_iff_right_iff_imp]
      rintro rfl
      exact hsame
    rw [hsame']

lemma HistoryInv.appendEvent (hinv : HistoryInv db) (event : MissionEvent) :
    HistoryInv { db with events := db.events ++ [event] } := by
  have hstays : ∀ p : MissionEvent → Bool, (db.events.find? p).isSome →
      ((db.events ++ [event]).find? p).isSome := by
    intro p hsome
    rw [find?_append, isSome_or, hsome, Bool.true_or]
  refine hinv.sessions fun definition _ sessionID _ mission h => ?_
  exact h.mono Iff.rfl (fun _ => hstays _) fun _ => hstays _

end Sessions

/-! ## Histories -/

/-- An accepted insert keeps the invariant. -/
theorem automationStep_preserves : Preserves automationStep HistoryInv := by
  intro db insert db' hinv hstep
  unfold automationStep at hstep
  split_ifs at hstep with haccepted
  cases hstep
  cases insert with
  | createDefinition =>
    obtain ⟨hfresh, hnew, -⟩ := haccepted
    refine hinv.insertDefinition hfresh fun fire hfire => ?_
    obtain ⟨-, other, hother, hof, -⟩ := mem_firesOf.mp hfire
    exact absurd hof (hnew other hother)
  | updateDefinition => exact hinv.insertDefinition haccepted.1 (hinv.settled_of_mayUpdate haccepted.2)
  | deleteDefinition =>
    exact hinv.settlesOnly ⟨fun fire hfire hpending => ⟨hfire, hpending⟩, rfl,
      subset_append_left _ _⟩ { hinv.wellFormed with } hinv.attemptFire hinv.receiptRun
  | insertFire => exact hinv.insertFire haccepted.1 haccepted.2.1 haccepted.2.2
  | insertAttempt =>
    obtain ⟨hfresh, hordinal, _, hfire, hclaim⟩ := haccepted
    exact hinv.insertAttempt hfresh hordinal hfire hclaim
  | settleAttempt => exact hinv.settleAttempt haccepted.1
  | reserveRun =>
    obtain ⟨hfresh, ⟨fire, hfire, hrevision, hpending⟩, ⟨definition, hdefinition, hmission⟩, hclosure,
      hreceiptIDs⟩ := haccepted
    exact hinv.reserveRun hfresh hfire hrevision hpending hdefinition hmission hclosure hreceiptIDs
  | settleRun =>
    obtain ⟨hfresh, ⟨_, hrun, hid, hopen⟩, -⟩ := haccepted
    exact hinv.settleRun hfresh hrun hid hopen
  | createSession => exact hinv.createSession haccepted.2
  | deleteSession => exact hinv.deleteSession haccepted
  | appendEvent event => exact hinv.appendEvent event
  | exchangeLeases =>
    exact hinv.settlesOnly ⟨fun fire hfire hpending => ⟨hfire, hpending⟩, rfl, Subset.refl _⟩
      { hinv.wellFormed with } hinv.attemptFire hinv.receiptRun

lemma historyInv_empty : HistoryInv emptyAutomations := by
  constructor
  · constructor <;> simp [emptyAutomations, attemptsOf]
  all_goals simp [emptyAutomations, firesOf]

theorem historyInv_of_exec {db : AutomationDatabase} {inserts : List AutomationInsert}
    (hrun : exec automationStep emptyAutomations inserts = some db) : HistoryInv db :=
  automationStep_preserves.exec historyInv_empty hrun

lemma HistoryInv.atMostOneUnsettled {db : AutomationDatabase} (hinv : HistoryInv db) : AtMostOneUnsettled db := by
  intro definitionID
  have hnodup : ((db.firesOf definitionID).filter fun fire => FirePending db fire).Nodup :=
    ((Nodup.of_map _ hinv.wellFormed.fireIDs).filter _).filter _
  match hpending : (db.firesOf definitionID).filter fun fire => FirePending db fire with
  | [] => simp
  | [_] => simp
  | fire :: other :: rest =>
    have hmem : ∀ member ∈ fire :: other :: rest, member ∈ db.firesOf definitionID ∧ FirePending db member := by
      intro member hmember
      rw [← hpending, mem_filter, decide_eq_true_eq] at hmember
      exact hmember
    obtain ⟨hfire, hfirePending⟩ := hmem fire (by simp)
    obtain ⟨hother, hotherPending⟩ := hmem other (by simp)
    have hsame := hinv.one definitionID fire hfire other hother hfirePending hotherPending
    rw [hpending, hsame] at hnodup
    simp at hnodup

end OpenCorvus.Scheduler
