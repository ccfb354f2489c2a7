import OpenCorvus.Scheduler.AutomationLaw
import OpenCorvus.Scheduler.AutomationStore

/-!
# The fence of a wake commit

The bundle that inserts the wake Message of a run asks in its transaction whether the execution still owns the run.
An execution may commit while it holds the live lease of the definition and the run has no terminal receipt.  The
fence reads the outcome of the run instead, which is no longer running when the run was put off.
-/

namespace OpenCorvus.Scheduler

open Transaction ExecutableSystem Engine AutomationDatabase

structure WakeCommitInput where
  automationID : String
  runID : Option String
  owner : String
  /-- The Session of the Message. -/
  sessionID : String
  /-- The instant of the commit. -/
  now : ℤ

section Fence

variable [AutomationIdentity] (db : AutomationDatabase) (input : WakeCommitInput)

/-- The execution holds the live lease of the definition. -/
def WakeCommitInput.HoldsLease : Prop :=
  ∃ lease ∈ automationLease db input.automationID,
    lease.ownerOccurrenceID = input.owner ∧ input.now < lease.expiresAt

instance : Decidable (input.HoldsLease db) :=
  inferInstanceAs (Decidable (∃ lease ∈ automationLease db input.automationID, _))

def AutomationDatabase.definitionOfRun (persisted : Option AutomationRun) : Option String :=
  (persisted.bind fun run => db.findDefinition run.automationRevisionID).map (·.definitionID)

def projectPersisted (persisted : Option AutomationRun) :
    Except AutomationServiceError (Option AutomationRunRow) :=
  match persisted with
  | none => .ok none
  | some run =>
    match projectAutomationRunInTransaction db run with
    | .error error => .error (.projection error)
    | .ok row => .ok (some row)

def AutomationRunRow.Wakes (row : AutomationRunRow) (sessionID : String) : Prop :=
  row.outcome = .running ∧ row.sessionID = some sessionID

instance (row : AutomationRunRow) (sessionID : String) : Decidable (row.Wakes sessionID) :=
  inferInstanceAs (Decidable (_ ∧ _))

/-- Raise unless the execution still owns the run, as of the transaction that commits its Message. -/
def fenceAutomationWakeCommit : Except AutomationServiceError Unit := do
  throwWhen (¬input.HoldsLease db) (.runningConflict
    ("Automation " ++ input.automationID ++ " lost its lease before wake Message commit")
    input.automationID)
  match truthy input.runID with
  | none => return ()
  | some runID =>
    let persisted := db.findRun runID
    throwWhen (db.definitionOfRun persisted ≠ some input.automationID) (.runningConflict
      ("Automation run " ++ runID ++ " belongs to another definition") input.automationID)
    let run ← projectPersisted db persisted
    throwWhen (¬∃ row ∈ run, row.Wakes input.sessionID) (.runningConflict
      ("Automation run " ++ runID ++ " lost ownership before wake Message commit") input.automationID)

def MayWake (runID : String) : Prop :=
  ∃ run ∈ db.findRun runID, ∃ definition ∈ db.findDefinition run.automationRevisionID,
    definition.definitionID = input.automationID ∧ definition.runSessionID run.id = some input.sessionID ∧
      ∀ receipt ∈ db.receiptsOf run.id, ¬receipt.outcome.IsTerminal

instance (runID : String) : Decidable (MayWake db input runID) :=
  inferInstanceAs (Decidable (∃ run ∈ db.findRun runID,
    ∃ definition ∈ db.findDefinition run.automationRevisionID, _))

def MayCommitWake : Prop :=
  input.HoldsLease db ∧ ∀ runID ∈ truthy input.runID, MayWake db input runID

instance : Decidable (MayCommitWake db input) :=
  inferInstanceAs (Decidable (_ ∧ ∀ runID ∈ truthy input.runID, _))

def FenceOpens : Prop := fenceAutomationWakeCommit db input = .ok () ↔ MayCommitWake db input

instance : Decidable (FenceOpens db input) := inferInstanceAs (Decidable (_ ↔ _))

def NeverPutOff : Prop := ∀ runID ∈ truthy input.runID, db.retriesOf runID = []

instance : Decidable (NeverPutOff db input) :=
  inferInstanceAs (Decidable (∀ runID ∈ truthy input.runID, _))

end Fence

section Law

variable [AutomationIdentity] {db : AutomationDatabase} {input : WakeCommitInput}

lemma fenceAutomationWakeCommit_eq_ok : fenceAutomationWakeCommit db input = .ok () ↔ input.HoldsLease db ∧
      ∀ runID ∈ truthy input.runID, ∃ run ∈ db.findRun runID,
        db.definitionOfRun (some run) = some input.automationID ∧
          ∃ row, projectAutomationRunInTransaction db run = .ok row ∧ row.Wakes input.sessionID := by
  unfold fenceAutomationWakeCommit
  rw [throwWhen_bind_eq_ok, not_not]
  refine and_congr_right fun _ => ?_
  cases truthy input.runID with
  | none => simp
  | some runID =>
    simp only [Option.mem_def, Option.some.injEq, forall_eq']
    rw [throwWhen_bind_eq_ok, bind_eq_ok, not_not]
    cases db.findRun runID with
    | none => simp [definitionOfRun]
    | some run =>
      simp only [Option.some.injEq, exists_eq_left']
      refine and_congr_right fun _ => ?_
      unfold projectPersisted
      cases hprojected : projectAutomationRunInTransaction db run <;> simp [hprojected]

omit [AutomationIdentity] in
lemma running_iff (hdb : WellFormed db) {runID : String} :
    runOutcome ((db.lastReceipt runID).map (·.outcome)) = .running ↔ db.receiptsOf runID = [] := by
  rw [lastReceipt_eq hdb]
  unfold selectReceipt
  rw [← List.argmax_eq_none (f := AutomationRunReceipt.orderKey)]
  cases List.argmax AutomationRunReceipt.orderKey (db.receiptsOf runID) with
  | none => simp [runOutcome]
  | some receipt =>
    rcases receipt with ⟨_, _, outcome, _⟩
    cases outcome <;> simp [runOutcome]

omit [AutomationIdentity] in
lemma receiptsOf_eq_nil {runID : String} : db.receiptsOf runID = [] ↔
      (∀ receipt ∈ db.receiptsOf runID, ¬receipt.outcome.IsTerminal) ∧ db.retriesOf runID = [] := by
  constructor
  · intro hnone
    unfold retriesOf
    rw [hnone]
    exact ⟨fun receipt hmem => (List.not_mem_nil hmem).elim, rfl⟩
  · rintro ⟨hopen, hretries⟩
    refine List.eq_nil_iff_forall_not_mem.mpr fun receipt hmem => ?_
    have hkept := List.filter_eq_nil_iff.mp hretries receipt hmem
    have hretry : runOutcome (some receipt.outcome) = .retryWait := not_not.mp (hopen receipt hmem)
    cases houtcome : receipt.outcome with
    | retryWait => simp [houtcome] at hkept
    | succeeded | failed | disposition => simp [houtcome, runOutcome] at hretry

lemma projection_wakes_iff (hdb : WellFormed db) {run : AutomationRun} (hrun : run ∈ db.runs)
    {definition : AutomationDefinition}
    (hdefinition : db.findDefinition run.automationRevisionID = some definition) {sessionID : String} :
    (∃ row, projectAutomationRunInTransaction db run = .ok row ∧ row.Wakes sessionID) ↔
      definition.runSessionID run.id = some sessionID ∧ db.receiptsOf run.id = [] := by
  obtain ⟨fire, hfire, -⟩ := hdb.runFire run hrun
  have hrow : projectAutomationRunInTransaction db run = .ok (automationRunRow run fire definition
      (db.lastReceipt run.id) (automationLease db definition.definitionID)) := by
    unfold projectAutomationRunInTransaction
    refine bind_eq_ok.mpr ⟨fire, getOrThrow_eq_ok.mpr hfire, ?_⟩
    refine bind_eq_ok.mpr ⟨definition, getOrThrow_eq_ok.mpr hdefinition, ?_⟩
    exact check_bind_eq_ok.mpr ⟨hdb.reserved run hrun definition hdefinition, rfl⟩
  rw [hrow]
  simp only [Except.ok.injEq, exists_eq_left']
  unfold AutomationRunRow.Wakes automationRunRow
  rw [running_iff hdb]
  exact and_comm

lemma fence_iff_mayCommitWake (hdb : WellFormed db) :
    fenceAutomationWakeCommit db input = .ok () ↔ MayCommitWake db input ∧ NeverPutOff db input := by
  rw [fenceAutomationWakeCommit_eq_ok]
  unfold MayCommitWake NeverPutOff
  rw [and_assoc]
  refine and_congr_right fun _ => ?_
  rw [← forall₂_and]
  refine forall₂_congr fun runID _ => ?_
  unfold MayWake
  cases hfound : db.findRun runID with
  | none => simp
  | some run =>
    have hrun : run ∈ db.runs := List.mem_of_find?_eq_some hfound
    have hid : run.id = runID := by simpa using List.find?_some hfound
    obtain ⟨fire, hfire, hrevision⟩ := hdb.runFire run hrun
    obtain ⟨_, hdefinition⟩ := hdb.fireRevision fire (List.mem_of_find?_eq_some hfire)
    rw [hrevision] at hdefinition
    simp only [Option.mem_def, Option.some.injEq, exists_eq_left', hdefinition,
      definitionOfRun, Option.bind_some, Option.map_some,
      projection_wakes_iff hdb hrun hdefinition, receiptsOf_eq_nil, hid]
    tauto

/-- In every history the fence lets through exactly the executions that may commit, unless the run of one that
may commit was put off. -/
theorem fenceOpens_iff_neverPutOff {inserts : List AutomationInsert}
    (hrun : exec automationStep emptyAutomations inserts = some db) (input : WakeCommitInput) :
    FenceOpens db input ↔ (MayCommitWake db input → NeverPutOff db input) := by
  unfold FenceOpens
  rw [fence_iff_mayCommitWake (historyInv_of_exec hrun).wellFormed]
  tauto

end Law

/-! ### Examples -/

def hourlyLease (id owner : String) (now : ℤ) : ControlLease where
  id := id
  target := .automation
  targetID := "cal_1"
  ownerOccurrenceID := owner
  timeActivated := now
  expiresAt := now + 120000

def lostInserts : List AutomationInsert :=
  [.createDefinition hourlyDefinition, .insertFire ⟨"cal_automation_1", "cal_1", 3600000, .scheduled, 0⟩,
    .insertAttempt ⟨"cal_2", "cal_automation_1", 1⟩,
    .settleAttempt ⟨"cal_2", .retryWait 3720000
      "Automation fire owner own_1 expired before target reservation", 3720000⟩]

/-- Another owner claims it, and reserves its target. -/
def reclaimedInserts : List AutomationInsert :=
  lostInserts ++ [.exchangeLeases ⟨[hourlyLease "cal_3" "own_2" 3720000], []⟩,
    .insertAttempt ⟨"cal_4", "cal_automation_1", 2⟩, .settleAttempt ⟨"cal_4", .reserved, 3720001⟩,
    .reserveRun (hourlyRun "atr_1" "cal_automation_1" 3720001) none]

/-- The wake of the target fails, and a third owner claims the fire when the run is to be retried. -/
def retriedInserts : List AutomationInsert :=
  reclaimedInserts ++ [.settleRun ⟨"cal_5", "atr_1", .retryWait 3722002 "offline", 3720002⟩,
    .exchangeLeases ⟨[hourlyLease "cal_6" "own_3" 3722002], []⟩,
    .insertAttempt ⟨"cal_7", "cal_automation_1", 3⟩, .settleAttempt ⟨"cal_7", .reserved, 3722003⟩]

def hourlyCommit (owner : String) (now : ℤ) : WakeCommitInput where
  automationID := "cal_1"
  runID := some "atr_1"
  owner := owner
  sessionID := "ses_automation_atr_1"
  now := now

/-- The owner that took over before a target was reserved may commit, and the fence opens. -/
theorem fenceOpens_of_reclaimed :
    letI := namedSessions
    FenceOpens (tablesAfter reclaimedInserts) (hourlyCommit "own_2" 3720002) ∧
      MayCommitWake (tablesAfter reclaimedInserts) (hourlyCommit "own_2" 3720002) := by
  let _ : AutomationIdentity := namedSessions
  have hrun : exec automationStep emptyAutomations reclaimedInserts = some (tablesAfter reclaimedInserts) := by
    decide
  have hnever : NeverPutOff (tablesAfter reclaimedInserts) (hourlyCommit "own_2" 3720002) := by
    decide
  refine ⟨(fenceOpens_iff_neverPutOff hrun _).mpr fun _ => hnever, ?_⟩
  decide

/-- The owner that retries the run may commit, and is turned away. -/
theorem not_fenceOpens_of_retried :
    ¬∀ (_ : AutomationIdentity) (db : AutomationDatabase) (inserts : List AutomationInsert),
      exec automationStep emptyAutomations inserts = some db → ∀ input, FenceOpens db input := by
  intro h
  let _ : AutomationIdentity := namedSessions
  have hrun : exec automationStep emptyAutomations retriedInserts = some (tablesAfter retriedInserts) := by
    decide
  have hopens := h namedSessions _ _ hrun (hourlyCommit "own_3" 3722004)
  have hstuck : ¬FenceOpens (tablesAfter retriedInserts) (hourlyCommit "own_3" 3722004) := by
    decide
  exact hstuck hopens

end OpenCorvus.Scheduler
