import OpenCorvus.Scheduler.AutomationFacts

/-!
# The projections of an Automation

The history projector reads every fire of the definition; the frontier projector selects the latest fire that was
started, the unsettled one and the next scheduled one; the batched projector selects the same three for a page of
definitions, and reads their runs and attempts in one query each.
-/

namespace OpenCorvus.Scheduler

open EcmaScript Transaction OrderBy Engine

/-- How many definitions the batched projector reads at once. -/
def AUTOMATION_FRONTIER_PAGE_SIZE : ℕ := 64

structure AutomationRow where
  row : AutomationDefinition
  lastRun : Option ℤ
  failureCount : ℕ
  lastError : Option String
  leaseUntil : ℤ
  leaseOwner : Option String
  nextRun : Option ℤ
  pendingFireID : Option String
  scheduledDueAt : Option ℤ
  attemptID : Option String
  attemptOrdinal : ℕ
deriving DecidableEq

section Projections

variable [Collation] [RecurrenceRules] [AutomationIdentity] (db : AutomationDatabase)

def AutomationDefinition.idleNextRun (row : AutomationDefinition) (scheduledDueAt completedAt : Option ℤ) :
    Option ℤ :=
  match row.kind with
  | .delay dueAt => some (dueAt.getD row.timeCreated)
  | .recurring recurrence =>
    scheduledDueAt <|> RecurrenceRules.nextRun recurrence (max row.timeCreated (completedAt.getD 0))

def AutomationFireProjection.compareStarted (left right : AutomationFireProjection) : Ordering :=
  ((compare left.scheduledDueAt right.scheduledDueAt).then
    (compare left.reduced.startedAt right.reduced.startedAt)).then (localeCompare left.id right.id)

def AutomationFireState.isPending : AutomationFireState → Bool
  | running | retryWait => true
  | _ => false

def memberFailureCount (run : AutomationRunRow) : ℕ :=
  (db.retriesOf run.run.id).length + if run.outcome = .failed then 1 else 0

def fireFailureCount (fire : AutomationFireProjection) : ℕ :=
  reduceAutomationFireFailureCount fire.reduced.state fire.reduced.attemptFailureCount
    (fire.runs.map (memberFailureCount db))

def AutomationDatabase.firesOf (definitionID : String) : List AutomationFire :=
  let revisionIDs := (db.definitions.filter fun definition =>
    definition.definitionID = definitionID).map (·.id)
  db.fires.filter fun fire => fire.automationRevisionID ∈ revisionIDs

def projectAutomationInTransaction (row : AutomationDefinition) :
    Except AutomationError AutomationRow := do
  let projected ← (orderBy AutomationFire.orderKey (db.firesOf row.definitionID)).mapM
    (projectAutomationFireInTransaction db)
  let fires := toSorted AutomationFireProjection.compareStarted projected
  let latestFire := (fires.filter fun fire => fire.reduced.state ≠ .scheduled).getLast?
  let currentScheduledFire := (fires.filter fun fire => fire.origin = .scheduled ∧
    fire.automationRevisionID = row.id ∧ fire.reduced.state = .scheduled).getLast?
  let pendingFires := fires.filter fun fire => fire.reduced.state.isPending
  throwWhen (1 < pendingFires.length)
    (.error ("Automation " ++ row.definitionID ++ " has multiple unsettled logical fires"))
  let pendingFire := pendingFires.head?
  throwWhen (pendingFire.any fun fire =>
      fire.runs.any fun member => member.run.automationRevisionID ≠ row.id)
    (.error ("Automation " ++ row.definitionID ++ " pending fire " ++
      ((pendingFire.map (·.id)).getD "") ++ " belongs to another definition revision"))
  let lease := automationLease db row.definitionID
  return {
    row := row
    lastRun := latestFire.map (·.reduced.startedAt)
    failureCount := (latestFire.map (fireFailureCount db)).getD 0
    lastError := latestFire.bind (·.reduced.error)
    leaseUntil := (lease.map (·.expiresAt)).getD 0
    leaseOwner := lease.map (·.ownerOccurrenceID)
    nextRun :=
      match pendingFire with
      | some fire => some (fire.reduced.retryAt.getD fire.scheduledDueAt)
      | none => row.idleNextRun (currentScheduledFire.map (·.scheduledDueAt))
          (latestFire.bind (·.reduced.completedAt))
    pendingFireID := pendingFire.map (·.id)
    scheduledDueAt := (pendingFire.map (·.scheduledDueAt)) <|>
      currentScheduledFire.map (·.scheduledDueAt)
    attemptID := pendingFire.bind fun fire =>
      ((db.attemptsOf fire.id).argmax (·.ordinal)).map (·.id)
    attemptOrdinal := (pendingFire.map (·.reduced.attemptCount)).getD 0 }

def Started (fire : AutomationFire) : Prop :=
  (∃ attempt ∈ db.attempts, attempt.fireID = fire.id) ∨ ∃ run ∈ db.runs, run.fireID = fire.id

instance (fire : AutomationFire) : Decidable (Started db fire) :=
  inferInstanceAs (Decidable (_ ∨ _))

def AttemptOpen (attempt : AutomationFireAttempt) : Prop :=
  (∀ receipt ∈ db.attemptReceipts, receipt.attemptID ≠ attempt.id) ∨
    ∃ receipt ∈ db.attemptReceipts, receipt.attemptID = attempt.id ∧
      (receipt.outcome.state = .reserved ∨ receipt.outcome.state = .retryWait)

instance (attempt : AutomationFireAttempt) : Decidable (AttemptOpen db attempt) :=
  inferInstanceAs (Decidable (_ ∨ _))

/-- The latest receipt of a run, as `ORDER BY time_created DESC, id DESC LIMIT 1` selects it. -/
def AutomationDatabase.selectReceipt (runID : String) : Option AutomationRunReceipt :=
  (db.receiptsOf runID).argmax AutomationRunReceipt.orderKey

def RunOpen (run : AutomationRun) : Prop :=
  ∀ receipt ∈ db.selectReceipt run.id, runOutcome (some receipt.outcome) = .retryWait

instance (run : AutomationRun) : Decidable (RunOpen db run) :=
  inferInstanceAs (Decidable (∀ receipt ∈ db.selectReceipt run.id, _))

def FirePending (fire : AutomationFire) : Prop :=
  ((∀ run ∈ db.runs, run.fireID ≠ fire.id) ∧ ∃ attempt ∈ db.attempts, attempt.fireID = fire.id ∧
      (∀ later ∈ db.attempts, later.fireID = fire.id → ¬attempt.orderKey < later.orderKey) ∧
      AttemptOpen db attempt) ∨
  ∃ run ∈ db.runs, run.fireID = fire.id ∧ RunOpen db run

instance (fire : AutomationFire) : Decidable (FirePending db fire) :=
  inferInstanceAs (Decidable ((_ ∧ ∃ attempt ∈ db.attempts, _) ∨ ∃ run ∈ db.runs, _))

def selectLatestFire (definitionID : String) : Option AutomationFire :=
  ((db.firesOf definitionID).filter fun fire => Started db fire).argmax AutomationFire.orderKey

def selectPendingFire (revisionID : String) : Option AutomationFire :=
  (db.fires.filter fun fire => fire.automationRevisionID = revisionID ∧ FirePending db fire).argmax
    AutomationFire.orderKey

def selectScheduledFire (revisionID : String) : Option AutomationFire :=
  (db.fires.filter fun fire => fire.automationRevisionID = revisionID ∧ fire.origin = .scheduled ∧
    ¬Started db fire).argmax AutomationFire.orderKey

def projectSelected (fire : Option AutomationFire) : Except AutomationError (Option AutomationFireProjection) :=
  match fire with
  | none => .ok none
  | some fire => (projectAutomationFireInTransaction db fire).map some

/-- Project an Automation from its current frontier.  The source reuses the projection of the latest fire
when the scheduled one has the same id. -/
def projectAutomationFrontierInTransaction (row : AutomationDefinition) :
    Except AutomationError AutomationRow := do
  let latest ← projectSelected db (selectLatestFire db row.definitionID)
  let pendingFire := selectPendingFire db row.id
  let pending ← projectSelected db pendingFire
  throwWhen (pendingFire.any fun fire => fire.automationRevisionID ≠ row.id)
    (.error ("Automation " ++ row.definitionID ++ " pending fire " ++
      ((pendingFire.map (·.id)).getD "") ++ " belongs to another definition revision"))
  let scheduled ← projectSelected db (selectScheduledFire db row.id)
  let lease := automationLease db row.definitionID
  let attempt := pendingFire.bind fun fire =>
    (db.attemptsOf fire.id).argmax AutomationFireAttempt.orderKey
  return {
    row := row
    lastRun := latest.map (·.reduced.startedAt)
    failureCount := (latest.map (fireFailureCount db)).getD 0
    lastError := latest.bind (·.reduced.error)
    leaseUntil := (lease.map (·.expiresAt)).getD 0
    leaseOwner := lease.map (·.ownerOccurrenceID)
    nextRun :=
      match pending with
      | some fire => some (fire.reduced.retryAt.getD fire.scheduledDueAt)
      | none => row.idleNextRun (scheduled.map (·.scheduledDueAt)) (latest.bind (·.reduced.completedAt))
    pendingFireID := pending.map (·.id)
    scheduledDueAt := (pending.map (·.scheduledDueAt)) <|> scheduled.map (·.scheduledDueAt)
    attemptID := attempt.map (·.id)
    attemptOrdinal := (attempt.map (·.ordinal)).getD 0 }

/-- Why a fire was selected for a definition. -/
inductive AutomationFrontierRole where
  | latest
  | pending
  | boundary
deriving DecidableEq

structure AutomationFrontierFireFact where
  definitionID : String
  role : AutomationFrontierRole
  fire : AutomationFire

def frontierFact (role : AutomationFrontierRole) (definition : AutomationDefinition)
    (fire : Option AutomationFire) : Option AutomationFrontierFireFact :=
  fire.map fun fire => ⟨definition.definitionID, role, fire⟩

variable (definitions : List AutomationDefinition)

def automationFrontierFireFactsInTransaction : List AutomationFrontierFireFact :=
  (definitions.filterMap fun definition =>
      frontierFact .latest definition (selectLatestFire db definition.definitionID)) ++
    (definitions.filterMap fun definition =>
      frontierFact .pending definition (selectPendingFire db definition.id)) ++
    definitions.filterMap fun definition =>
      frontierFact .boundary definition (selectScheduledFire db definition.id)

structure AutomationFrontierRunFact where
  run : AutomationRun
  receipt : Option AutomationRunReceipt
  retryCount : ℕ

/-- The key of `ORDER BY fire_id, started_at, id`. -/
def AutomationRun.batchKey (run : AutomationRun) : String ×ₗ ℤ ×ₗ String :=
  toLex (run.fireID, run.orderKey)

def automationFrontierRunFactsInTransaction (fireIDs : List String) : List AutomationFrontierRunFact :=
  (orderBy AutomationRun.batchKey (fireIDs.flatMap db.runsOf)).map fun run =>
    { run := run, receipt := db.selectReceipt run.id, retryCount := (db.retriesOf run.id).length }

structure AutomationFrontierAttemptFact where
  fireID : String
  latest : Option AutomationFireAttempt
  receipt : Option AutomationFireAttemptReceipt
  attemptCount : ℕ
  failureCount : ℕ

def automationFrontierAttemptFact (fireID : String) : AutomationFrontierAttemptFact :=
  let latest := (db.attemptsOf fireID).argmax AutomationFireAttempt.orderKey
  { fireID := fireID
    latest := latest
    receipt := latest.bind fun attempt => db.attemptReceipt attempt.id
    attemptCount := (db.attemptsOf fireID).length
    failureCount := ((db.attemptsOf fireID).flatMap fun attempt => db.attemptReceipts.filter fun receipt =>
      receipt.attemptID = attempt.id ∧ receipt.outcome.isFailure = true).length }

def AutomationFrontierRunFact.fireRunState (fact : AutomationFrontierRunFact) : AutomationFireRunState where
  id := fact.run.id
  startedAt := fact.run.startedAt
  outcome := runOutcome (fact.receipt.map (·.outcome))
  completedAt := fact.receipt.map (·.timeCreated)
  error := fact.receipt.bind (·.outcome.error)
  retryAt := fact.receipt.bind (·.outcome.retryAt)

def attemptFactSummary (attempt : Option AutomationFrontierAttemptFact) : AutomationFireAttemptSummary where
  count := (attempt.map (·.attemptCount)).getD 0
  failureCount := (attempt.map (·.failureCount)).getD 0
  latest := attempt.bind fun attempt => attempt.latest.map fun _ => latestAttemptOf attempt.receipt

structure BatchedAutomationFireState where
  fire : AutomationFire
  reduced : AutomationFireReducedState
  latestAttempt : Option (String × ℕ)
  reservedTargetFailures : ℕ

def batchedFireState (runs : List AutomationFrontierRunFact)
    (attempts : List AutomationFrontierAttemptFact) (fire : AutomationFire) :
    BatchedAutomationFireState :=
  let fireRuns := runs.filter fun fact => fact.run.fireID = fire.id
  let attempt := (attempts.filter fun attempt => attempt.fireID = fire.id).getLast?
  { fire := fire
    reduced := reduceAutomationFireState fire (fireRuns.map (·.fireRunState)) (attemptFactSummary attempt)
    latestAttempt := (attempt.bind (·.latest)).map fun attempt => (attempt.id, attempt.ordinal)
    reservedTargetFailures := maxOrZero (fireRuns.map fun fact =>
      fact.retryCount + if fact.fireRunState.outcome = .failed then 1 else 0) }

def mapKeys (keys : List String) : List String := keys.reverse.dedup.reverse

/-- The selected fires of a page, and a state for each of them. -/
structure AutomationFrontierBatch where
  facts : List AutomationFrontierFireFact
  runs : List AutomationFrontierRunFact
  attempts : List AutomationFrontierAttemptFact

def batchedAutomationFireStatesInTransaction : AutomationFrontierBatch :=
  let facts := automationFrontierFireFactsInTransaction db definitions
  let fireIDs := mapKeys (facts.map (·.fire.id))
  { facts := facts
    runs := automationFrontierRunFactsInTransaction db fireIDs
    attempts := fireIDs.map (automationFrontierAttemptFact db) }

variable (batch : AutomationFrontierBatch)

def AutomationFrontierBatch.state (fireID : String) : Option BatchedAutomationFireState :=
  ((batch.facts.filter fun fact => fact.fire.id = fireID).getLast?).map fun fact =>
    batchedFireState batch.runs batch.attempts fact.fire

def AutomationFrontierBatch.stateOf (definitionID : String) (role : AutomationFrontierRole) :
    Option BatchedAutomationFireState :=
  ((batch.facts.filter fun fact => fact.definitionID = definitionID ∧ fact.role = role).getLast?).bind
    fun fact => batch.state fact.fire.id

def currentAutomationLeaseFrontiersInTransaction (definitionIDs : List String) : List (String × ControlLease) :=
  definitionIDs.filterMap fun definitionID =>
    (automationLease db definitionID).map fun lease => (lease.targetID, lease)

def leaseOf (leases : List (String × ControlLease)) (definitionID : String) : Option ControlLease :=
  ((leases.filter fun lease => lease.1 = definitionID).getLast?).map (·.2)

def BatchedAutomationFireState.failures (state : BatchedAutomationFireState) : ℕ :=
  reduceAutomationFireFailureCount state.reduced.state state.reduced.attemptFailureCount
    [state.reservedTargetFailures]

def batchedRow (leases : List (String × ControlLease)) (row : AutomationDefinition) :
    Except AutomationError (AutomationRow × Option ControlLease) := do
  let latest := batch.stateOf row.definitionID .latest
  let boundary := batch.stateOf row.definitionID .boundary
  let pending := batch.stateOf row.definitionID .pending
  throwWhen (pending.any fun state => state.fire.automationRevisionID ≠ row.id)
    (.error ("Automation " ++ row.definitionID ++ " pending fire " ++
      ((pending.map (·.fire.id)).getD "") ++ " belongs to another definition revision"))
  let lease := leaseOf leases row.definitionID
  let projected : AutomationRow := {
    row := row
    lastRun := latest.map (·.reduced.startedAt)
    failureCount := (latest.map (·.failures)).getD 0
    lastError := latest.bind (·.reduced.error)
    leaseUntil := (lease.map (·.expiresAt)).getD 0
    leaseOwner := lease.map (·.ownerOccurrenceID)
    nextRun :=
      match pending with
      | some state => some (state.reduced.retryAt.getD state.fire.scheduledDueAt)
      | none => row.idleNextRun (boundary.map (·.fire.scheduledDueAt)) (latest.bind (·.reduced.completedAt))
    pendingFireID := pending.map (·.fire.id)
    scheduledDueAt := (pending.map (·.fire.scheduledDueAt)) <|> boundary.map (·.fire.scheduledDueAt)
    attemptID := (pending.bind (·.latestAttempt)).map (·.1)
    attemptOrdinal := ((pending.bind (·.latestAttempt)).map (·.2)).getD 0 }
  return (projected, lease)

def frontierPage (page : List AutomationDefinition) :
    Except AutomationError (List (AutomationRow × Option ControlLease)) :=
  page.mapM (batchedRow (batchedAutomationFireStatesInTransaction db page)
    (currentAutomationLeaseFrontiersInTransaction db (page.map (·.definitionID))))

/-- The pages of a list, of which there are not more than `fuel`. -/
def pagesOf {β : Type} (size : ℕ) : ℕ → List β → List (List β)
  | 0, _ => []
  | fuel + 1, rows => if rows.isEmpty then [] else rows.take size :: pagesOf size fuel (rows.drop size)

def automationFrontierEntriesForDefinitionsInTransaction :
    Except AutomationError (List (AutomationRow × Option ControlLease)) := do
  let pages ← (pagesOf AUTOMATION_FRONTIER_PAGE_SIZE definitions.length definitions).mapM (frontierPage db)
  return pages.flatten

end Projections

end OpenCorvus.Scheduler
