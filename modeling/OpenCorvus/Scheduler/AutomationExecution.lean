import OpenCorvus.Scheduler.AutomationService

/-!
# The transactions of an execution

A claimed execution of a delay reserves one run, wakes the Session, and consumes the definition.  One of a
recurring definition reserves a run for each target, wakes the targets, and settles all runs in one
transaction, which also moves the frontier.  An execution that raises records its failure.
-/

namespace OpenCorvus.Scheduler

open EcmaScript Transaction OrderBy Engine

structure ExecutionTarget where
  scope : AutomationScope
  projectID : Option String
  sessionID : Option String
  targetDeleted : Bool
deriving DecidableEq

def automationTargetIdentity (target : ExecutionTarget) : String :=
  match target.scope with
  | .session => "session:" ++ target.sessionID.getD ""
  | .project => "project:" ++ target.projectID.getD ""
  | .global => "global"

def targetProjectIDs (store : AutomationStore) (revisionID : String) : List String :=
  (orderBy (fun target : AutomationProjectTarget =>
      (toLex (target.position, target.projectID) : ℕ ×ₗ String))
    (store.projectTargets.filter fun target => target.automationRevisionID = revisionID)).map (·.projectID)

/-- The targets of a revision, as the tables show them. -/
def executionTargets (store : AutomationStore) (row : AutomationDefinition) :
    Except AutomationServiceError (List ExecutionTarget) :=
  match row.scope, truthy row.sessionID with
  | some .session, some sessionID =>
    .ok [⟨.session, none, some sessionID, ¬∃ session ∈ store.sessions, session.id = sessionID⟩]
  | some .global, _ => .ok [⟨.global, none, none, false⟩]
  | some .project, _ => .ok ((targetProjectIDs store row.id).map fun projectID =>
      ⟨.project, some projectID, none, projectID ∉ store.projects⟩)
  | _, _ => .error (.error ("Automation " ++ row.id ++ " has invalid public target"))

section Identities

variable [AutomationHashes]

def targetRunID (fireID : String) (target : ExecutionTarget) : String :=
  deterministicAutomationID "atr" [fireID, automationTargetIdentity target]

def delayRunID (fireID : String) : String := deterministicAutomationID "atr" [fireID, "delay"]

def wakeMessageID (identityID : String) : String := deterministicAutomationID "msg" [identityID]

def automationTargetSessionID (target : ExecutionTarget) (runID : String) : String :=
  target.sessionID.getD (deterministicAutomationID "ses" [runID])

end Identities

/-- How a target of an execution ended. -/
inductive TargetResult where
  | succeeded
  | targetDeleted
  | missionClosed (closureEventID : String)
  | rejected (message : String)

def TargetResult.failure : TargetResult → Option String
  | rejected message => some message
  | _ => none

structure AutomationExecution where
  job : AutomationRow
  owner : String
  /-- The instant of the claim. -/
  now : ℤ
deriving DecidableEq

variable (execution : AutomationExecution)

def AutomationExecution.fireID : String :=
  execution.job.pendingFireID.getD ""

def AutomationExecution.definitionID : String :=
  execution.job.row.definitionID

def AutomationExecution.revisionID : String := execution.job.row.id

def AutomationExecution.lost (execution : AutomationExecution) (occasion : String) : AutomationServiceError :=
  .runningConflict ("Automation " ++ execution.definitionID ++ " lost its " ++ occasion) execution.definitionID

def AutomationExecution.changed (execution : AutomationExecution) (occasion : String) : AutomationServiceError :=
  .runningConflict ("Automation " ++ execution.definitionID ++ " definition changed before " ++ occasion)
    execution.definitionID

section Transactions

variable [Collation] [RecurrenceRules] [AutomationHashes] (store : AutomationStore)
  (execution : AutomationExecution)

def claimedFire : Except AutomationServiceError AutomationFire := do
  let required := AutomationServiceError.error
    ("Automation " ++ execution.definitionID ++ " execution requires its exact claimed Fire")
  let fire ← getOrThrow ((truthy execution.job.pendingFireID).bind store.findFire) required
  throwWhen (fire.automationRevisionID ≠ execution.revisionID) required
  return fire

def requireRevision (occasion : String) : Except AutomationServiceError AutomationDefinition := do
  let latest ← getOrThrow
    (latestAutomationDefinitionInTransaction store.toAutomationDatabase execution.definitionID)
    (execution.changed occasion)
  throwWhen (latest.id ≠ execution.revisionID) (execution.changed occasion)
  return latest

def beginReservation (fire : AutomationFire) (now : ℤ) : Except AutomationServiceError AutomationStore := do
  let ensured ← ensureAutomationFireInTransaction store execution.revisionID fire.id fire.scheduledDueAt
    execution.now fire.origin
  settleAutomationFireAttemptReservedInTransaction ensured execution.job now

/-! ### One-shot delays -/

def settleDeletedDelayTarget (tombstoneID receiptID : String) (now : ℤ) :
    Except AutomationServiceError AutomationStore := do
  let fire ← claimedFire store execution
  let lease ← ownedLease store execution.definitionID execution.owner now
    (execution.lost "lease before deleted-target settlement")
  let settled ← beginReservation store execution fire now
  let runID := delayRunID fire.id
  let reserved := (settled.insertRunIfAbsent
    ⟨runID, execution.revisionID, fire.id, none, .none, execution.now⟩).2
  let run ← getOrThrow (reserved.findRun runID) (.error ("Automation run " ++ runID))
  let projected ← projecting (projectAutomationRunInTransaction reserved.toAutomationDatabase run)
  let deleted ←
    (match latestAutomationDefinitionInTransaction reserved.toAutomationDatabase execution.definitionID with
    | some latest =>
      if latest.id = execution.revisionID then
        appendAutomationTombstoneInTransaction reserved latest tombstoneID
      else .ok reserved
    | none => .ok reserved)
  let disposed ←
    (if projected.outcome = .running ∨ projected.outcome = .retryWait then
      deleted.insertRunReceipt ⟨receiptID, runID, .disposition .targetDeleted, now⟩
    else .ok deleted)
  return releaseAutomationLease disposed execution.definitionID lease.id execution.owner now

def reserveDelay (reservation : StoredMissionReservation) (tombstoneID receiptID : String) (now : ℤ) :
    Except AutomationServiceError AutomationStore := do
  let fire ← claimedFire store execution
  let lease ← ownedLease store execution.definitionID execution.owner now
    (execution.lost "lease before delay reservation")
  let settled ← beginReservation store execution fire execution.now
  let runID := delayRunID fire.id
  let (inserted, reserved) := settled.insertRunIfAbsent
    ⟨runID, execution.revisionID, fire.id, none, reservation, execution.now⟩
  match inserted, reservation with
  | true, .closed closureEventID =>
    let latest ← requireRevision reserved execution "terminal Mission reservation"
    let deleted ← appendAutomationTombstoneInTransaction reserved latest tombstoneID
    let disposed ← deleted.insertRunReceipt
      ⟨receiptID, runID, .disposition (.missionClosed closureEventID), execution.now⟩
    return releaseAutomationLease disposed execution.definitionID lease.id execution.owner execution.now
  | _, _ => return reserved

def settleAutomationMissionClosed (closureEventID tombstoneID receiptID : String) (now : ℤ) :
    Except AutomationServiceError AutomationStore :=
  let runID := delayRunID execution.fireID
  match (store.receiptsOf runID).find? fun receipt => receipt.outcome.IsTerminal with
  | some existing => do
    throwWhen (existing.outcome ≠ .disposition (.missionClosed closureEventID)) (.error
      ("Automation run " ++ runID ++ " conflicts with its terminal Mission disposition"))
    return store
  | none => do
    let lease ← ownedLease store execution.definitionID execution.owner now
      (execution.lost "lease before Mission closure settlement")
    let latest ← requireRevision store execution "Mission closure settlement"
    let deleted ← appendAutomationTombstoneInTransaction store latest tombstoneID
    let disposed ← deleted.insertRunReceipt
      ⟨receiptID, runID, .disposition (.missionClosed closureEventID), now⟩
    return releaseAutomationLease disposed execution.definitionID lease.id execution.owner now

/-- A delay whose wake was answered is consumed, and its run succeeds. -/
def completeDelay (tombstoneID receiptID : String) (completedAt : ℤ) :
    Except AutomationServiceError AutomationStore := do
  let lease ← ownedLease store execution.definitionID execution.owner completedAt
    (execution.lost "execution lease before one-shot completion")
  let runID := delayRunID execution.fireID
  let latest ← requireRevision store execution "one-shot completion"
  let deleted ← appendAutomationTombstoneInTransaction store latest tombstoneID
  let succeeded ←
    (if ∃ receipt ∈ store.receiptsOf runID, receipt.outcome = .succeeded then .ok deleted
    else deleted.insertRunReceipt ⟨receiptID, runID, .succeeded, completedAt⟩)
  return releaseAutomationLease succeeded execution.definitionID lease.id execution.owner completedAt

/-! ### Recurring definitions -/

def AutomationRunOutcome.isTerminal : AutomationRunOutcome → Bool
  | succeeded | failed | disposition => true
  | _ => false

structure TargetReservation where
  target : ExecutionTarget
  /-- What the Mission of the target reserves. -/
  mission : StoredMissionReservation

variable (reservation : TargetReservation)

def TargetReservation.run (fireID : String) : AutomationRun where
  id := targetRunID fireID reservation.target
  automationRevisionID := execution.revisionID
  fireID := fireID
  targetProjectID := if reservation.target.scope = .project then reservation.target.projectID else none
  mission := reservation.mission
  startedAt := execution.now

/-- Why a run that is reserved is over at once. -/
def TargetReservation.dispositions : List AutomationDisposition :=
  (match reservation.mission with
    | .closed closureEventID => [.missionClosed closureEventID]
    | _ => []) ++ if reservation.target.targetDeleted then [.targetDeleted] else []

def TargetReservation.receipts (receiptID : String → String) (fireID : String) : List AutomationRunReceipt :=
  let runID := targetRunID fireID reservation.target
  reservation.dispositions.map fun reason => ⟨receiptID runID, runID, .disposition reason, execution.now⟩

def reserveTargets (receiptID : String → String) (fireID : String) :
    List TargetReservation → AutomationStore → AutomationStore × List AutomationRunReceipt
  | [], reserved => (reserved, [])
  | reservation :: rest, reserved =>
    let (inserted, next) := reserved.insertRunIfAbsent (reservation.run execution fireID)
    let (final, receipts) := reserveTargets receiptID fireID rest next
    (final, (if inserted then reservation.receipts execution receiptID fireID else []) ++ receipts)

def reservedTerminal (planned : List AutomationRunReceipt) (existing : List AutomationRunRow)
    (runID : String) : Prop :=
  (∃ run ∈ store.runs, run.id = runID) ∧ ((∃ receipt ∈ planned, receipt.runID = runID) ∨
      ∃ row ∈ existing, row.run.id = runID ∧ row.outcome.isTerminal)

instance (planned : List AutomationRunReceipt) (existing : List AutomationRunRow) (runID : String) :
    Decidable (reservedTerminal store planned existing runID) :=
  inferInstanceAs (Decidable ((∃ run ∈ store.runs, _) ∧ (_ ∨ _)))

def settleTerminalReservation (fire : AutomationFire) (existing : List AutomationRunRow) :
    Except AutomationServiceError AutomationStore := do
  let latest ← requireRevision store execution "terminal reservation frontier settlement"
  match fire.origin, execution.job.row.kind with
  | .scheduled, .recurring recurrence =>
    let completedAt := (existing.map fun row => row.completedAt.getD execution.now).foldl max execution.now
    ensureScheduledAutomationFireFrontierInTransaction store latest
      (RecurrenceRules.nextRun recurrence completedAt) completedAt
  | _, _ => restoreScheduledAutomationFireFrontierInTransaction store latest

def insertRunReceipts : List AutomationRunReceipt → AutomationStore → Except AutomationServiceError AutomationStore
  | [], written => .ok written
  | receipt :: rest, written => do
    let next ← written.insertRunReceipt receipt
    insertRunReceipts rest next

/-- Reserve a run for each target, and settle the fire when all of them are over; the answer says whether
they are. -/
def reserveRecurring (reservations : List TargetReservation) (receiptID : String → String) (now : ℤ) :
    Except AutomationServiceError (Bool × AutomationStore) := do
  let fire ← claimedFire store execution
  let lease ← ownedLease store execution.definitionID execution.owner now
    (execution.lost "execution lease before fire reservation")
  let settled ← beginReservation store execution fire execution.now
  let (reserved, terminalReceipts) := reserveTargets execution receiptID fire.id reservations settled
  let runIDs := reservations.map fun reservation => targetRunID fire.id reservation.target
  let unplanned := (runIDs.filterMap reserved.findRun).filter fun run =>
    ∀ receipt ∈ terminalReceipts, receipt.runID ≠ run.id
  let existing ← unplanned.mapM fun run =>
    projecting (projectAutomationRunInTransaction reserved.toAutomationDatabase run)
  if reservations ≠ [] ∧ ∀ runID ∈ runIDs, reservedTerminal reserved terminalReceipts existing runID then
    let fronted ← settleTerminalReservation reserved execution fire existing
    let written ← insertRunReceipts terminalReceipts fronted
    return (true, releaseAutomationLease written execution.definitionID lease.id execution.owner execution.now)
  else
    let written ← insertRunReceipts terminalReceipts reserved
    return (false, written)

def TargetResult.outcome (result : TargetResult) (exhausted : Bool) (retryAt : ℤ) : AutomationReceiptOutcome :=
  match result with
  | .succeeded => .succeeded
  | .targetDeleted => .disposition .targetDeleted
  | .missionClosed closureEventID => .disposition (.missionClosed closureEventID)
  | .rejected message => if exhausted then .failed message else .retryWait retryAt message

def settleTarget (receiptID : String → String) (exhausted : Bool) (retryAt committedAt : ℤ)
    (runID : String) (result : TargetResult) (written : AutomationStore) :
    Except AutomationServiceError AutomationStore := do
  let run ← getOrThrow (written.findRun runID) (.error ("Automation run " ++ runID ++ " was not reserved"))
  let prior ← projecting (projectAutomationRunInTransaction written.toAutomationDatabase run)
  if prior.outcome = .succeeded ∨ prior.outcome = .disposition then return written
  written.insertRunReceipt ⟨receiptID runID, runID, result.outcome exhausted retryAt, committedAt⟩

def settleTargets (receiptID : String → String) (exhausted : Bool) (retryAt committedAt : ℤ) :
    List (String × TargetResult) → AutomationStore → Except AutomationServiceError AutomationStore
  | [], written => .ok written
  | (runID, result) :: rest, written => do
    let next ← settleTarget receiptID exhausted retryAt committedAt runID result written
    settleTargets receiptID exhausted retryAt committedAt rest next

def settledFrontier (fire : AutomationFire) (retryAt committedAt : ℤ) :
    Except AutomationServiceError AutomationStore :=
  if retryAt ≠ 0 then
    deferAutomationFireFrontierInTransaction store execution.definitionID fire.id retryAt
  else
    match execution.job.row.kind with
    | .delay _ => .ok store
    | .recurring recurrence =>
      if fire.origin = .scheduled then do
        let latest ← requireRevision store execution "successor publication"
        ensureScheduledAutomationFireFrontierInTransaction store latest
          (RecurrenceRules.nextRun recurrence committedAt) committedAt
      else do
        let latest ← requireRevision store execution "manual frontier restoration"
        restoreScheduledAutomationFireFrontierInTransaction store latest

variable (results : List (ExecutionTarget × TargetResult))

def resultErrors : Option String :=
  let failures := results.filterMap fun result => result.2.failure
  if failures = [] then none else some ("; ".intercalate failures)

def Exhausted : Prop :=
  (resultErrors results).isSome ∧ MAX_FIRE_ATTEMPTS ≤ execution.job.failureCount + 1

instance (results : List (ExecutionTarget × TargetResult)) : Decidable (Exhausted execution results) :=
  inferInstanceAs (Decidable (_ ∧ _))

/-- When the fire is retried, or zero: an empty error text is no error. -/
def settledRetryAt (committedAt : ℤ) : ℤ :=
  if (truthy (resultErrors results)).isSome ∧ ¬Exhausted execution results then
    automationRetryAt (execution.job.failureCount + 1) committedAt
  else 0

def settleRecurring (receiptID : String → String) (committedAt : ℤ) :
    Except AutomationServiceError AutomationStore := do
  let fire ← claimedFire store execution
  let retryAt := settledRetryAt execution results committedAt
  let lease ← ownedLease store execution.definitionID execution.owner committedAt
    (execution.lost "execution lease before completion")
  let fronted ← settledFrontier store execution fire retryAt committedAt
  let written ← settleTargets receiptID (Exhausted execution results) retryAt committedAt
    (results.map fun result => (targetRunID fire.id result.1, result.2)) fronted
  return releaseAutomationLease written execution.definitionID lease.id execution.owner committedAt

/-! ### Failures and renewals -/

/-- The receipts of a failure: of the attempt before it reserved its targets, afterwards of every run that is
not over. -/
def appendAutomationFailureReceipts (message : String) (retryAt : Option ℤ) (receiptID : String → String)
    (now : ℤ) : Except AutomationServiceError AutomationStore := do
  let attemptID ← getOrThrow (truthy execution.job.attemptID) (.error
    ("Automation " ++ execution.definitionID ++ " failure has no physical fire attempt"))
  match store.attemptReceipt attemptID with
  | none => store.insertAttemptReceipt ⟨attemptID,
      match retryAt with
      | none => .failed message
      | some retryAt => .retryWait retryAt message, now⟩
  | some attemptReceipt =>
    if attemptReceipt.outcome ≠ .reserved then return store
    let fireID ← getOrThrow (truthy execution.job.pendingFireID) (.error
      ("Automation attempt " ++ attemptID ++ " has no Fire identity"))
    let projectedRuns ← (store.runsOf fireID).mapM fun run =>
      projecting (projectAutomationRunInTransaction store.toAutomationDatabase run)
    if ∃ row ∈ projectedRuns, row.run.startedAt = execution.now ∧ row.outcome.isTerminal then return store
    let runs := projectedRuns.filter fun row => ¬row.outcome.isTerminal
    throwWhen (runs = []) (.error
      ("Reserved Automation attempt " ++ attemptID ++ " has no target occurrence to settle"))
    insertRunReceipts (runs.map fun row => ⟨receiptID row.run.id, row.run.id,
      match retryAt with
      | none => .failed message
      | some retryAt => .retryWait retryAt message, now⟩) store

def failedFrontier (fire : Option AutomationFire) (retryAt : Option ℤ) (tombstoneID : String) (now : ℤ) :
    Except AutomationServiceError AutomationStore :=
  let latest := latestAutomationDefinitionInTransaction store.toAutomationDatabase execution.definitionID
  match retryAt, fire with
  | some retryAt, some fire =>
    deferAutomationFireFrontierInTransaction store execution.definitionID fire.id retryAt
  | _, _ =>
    match execution.job.row.kind with
    | .recurring recurrence =>
      match fire, latest with
      | some fire, some latest =>
        if latest.id ≠ execution.revisionID then .ok store
        else if fire.origin = .scheduled ∧ latest.active then
          ensureScheduledAutomationFireFrontierInTransaction store latest
            (RecurrenceRules.nextRun recurrence now) now
        else restoreScheduledAutomationFireFrontierInTransaction store latest
      | _, _ => .ok store
    | .delay _ => do
      let latest ← requireRevision store execution "terminal attempt settlement"
      appendAutomationTombstoneInTransaction store latest tombstoneID

def failureRetryAt (now : ℤ) : Option ℤ :=
  if MAX_FIRE_ATTEMPTS ≤ execution.job.failureCount + 1 then none
  else some (automationRetryAt (execution.job.failureCount + 1) now)

/-- Record the failure of an execution that still holds the lease, and end the lease. -/
def fail (message : String) (tombstoneID : String) (receiptID : String → String) (now : ℤ) :
    Except AutomationServiceError AutomationStore :=
  match automationLease store.toAutomationDatabase execution.definitionID with
  | none => .ok store
  | some lease =>
    if lease.ownerOccurrenceID ≠ execution.owner ∨ lease.expiresAt ≤ now then .ok store
    else do
      let fire := (truthy execution.job.pendingFireID).bind store.findFire
      let retryAt := failureRetryAt execution now
      let fronted ← failedFrontier store execution fire retryAt tombstoneID now
      let written ← appendAutomationFailureReceipts fronted execution message retryAt receiptID now
      return releaseAutomationLease written execution.definitionID lease.id execution.owner now

/-- Renew the lease of an execution while its definition has a frontier. -/
def renew (now : ℤ) : Except AutomationServiceError AutomationStore :=
  match automationLease store.toAutomationDatabase execution.definitionID,
    currentAutomationFireFrontierInTransaction store execution.definitionID with
  | some lease, some frontier =>
    if lease.ownerOccurrenceID ≠ execution.owner ∨ lease.expiresAt ≤ now then .ok store
    else do
      let renewed ← leasing (renewControlLeaseInTransaction store.leases
        ⟨.automation, execution.definitionID, lease.id, execution.owner, now⟩ (now + LEASE_MS))
      deferAutomationFireFrontierInTransaction { store with leases := renewed } execution.definitionID
        frontier.fireID (now + LEASE_MS)
  | _, _ => .ok store

end Transactions

end OpenCorvus.Scheduler
