import OpenCorvus.Scheduler.AutomationHistory

/-!
# The store of the Automation service

Besides the facts of the Automations the service keeps the frontier of fires, one row for a definition, which names
the fire that may be claimed next.  The store also holds the rows around it: the admissions of the attempts, the
manual fires of Tools, the Project targets, the settlements of one-shot delays, and the Messages of the Sessions.
-/

namespace OpenCorvus.Scheduler

open EcmaScript Transaction UniqueIndex Engine

structure AutomationFireFrontier where
  /-- Primary key. -/
  definitionID : String
  automationRevisionID : String
  fireID : String
  availableAt : ℤ
deriving DecidableEq

structure AutomationAttemptAdmission where
  attemptID : String
  ownerOccurrenceID : String
  leaseID : String
  leaseGrantOrdinal : ℕ
  leaseExpiresAt : ℤ
  timeCreated : ℤ
deriving DecidableEq

structure AutomationToolFire where
  fireID : String
  toolPartID : String
  inputDigest : String
deriving DecidableEq

structure AutomationProjectTarget where
  automationRevisionID : String
  projectID : String
  position : ℕ
deriving DecidableEq

/-- How a one-shot delay was settled by an assistant. -/
inductive AutomationDelayDisposition where
  | inputAccepted
  | dueAccepted
deriving DecidableEq

structure AutomationDelaySettlement where
  /-- Primary key. -/
  definitionID : String
  disposition : AutomationDelayDisposition
  assistantMessageID : String
  acceptedInputMessageIDs : List String
  fireID : Option String
  timeCreated : ℤ
deriving DecidableEq

inductive SessionWakeReason where
  | missionOperator
  | missionProcessRecovery
  | conversationHandoff
  | apiChat
  | schedulerMessage
  | schedulerAutomation (jobID fireID : String)
  | schedulerEvent
deriving DecidableEq

/-- The source of the reason starts with `scheduler.`. -/
def SessionWakeReason.isScheduler : SessionWakeReason → Bool
  | schedulerMessage | schedulerAutomation _ _ | schedulerEvent => true
  | _ => false

/-- A Message, as far as the service reads it. -/
structure AutomationMessage where
  id : String
  sessionID : String
  isUser : Bool
  /-- The Message is queued behind a turn in flight. -/
  pendingDelivery : Bool
  wake : Option SessionWakeReason
deriving DecidableEq

/-- The tables of the service. -/
structure AutomationStore extends AutomationDatabase where
  frontiers : List AutomationFireFrontier
  admissions : List AutomationAttemptAdmission
  toolFires : List AutomationToolFire
  projectTargets : List AutomationProjectTarget
  /-- The ids of the Projects. -/
  projects : List String
  settlements : List AutomationDelaySettlement
  messages : List AutomationMessage
deriving DecidableEq

/-- What a transaction raises. -/
inductive AutomationServiceError where
  | error (message : String)
  | runningConflict (message automationID : String)
  | projection (error : AutomationError)
  | lease (error : ControlLeaseError)
  | database (message : String)
deriving DecidableEq

def projecting {β : Type} (x : Except AutomationError β) : Except AutomationServiceError β :=
  x.mapError .projection

/-- An operation on the leases inside a transaction. -/
def leasing {β : Type} (x : Except ControlLeaseError β) : Except AutomationServiceError β :=
  x.mapError .lease

/-- The hashes by which the service names its rows. -/
class AutomationHashes extends AutomationIdentity where
  scheduledAutomationFireID : String → ℤ → String
  fireAttemptID : String → ℕ → String
  /-- By the kind of the id and the parts of its seed. -/
  deterministicAutomationID : String → List String → String
  busySessionDelayID : String → Option ℤ → String
  manualFireID : String → String
  inputConsumptionID : String → String → String

export AutomationHashes (scheduledAutomationFireID fireAttemptID deterministicAutomationID
  busySessionDelayID manualFireID inputConsumptionID)

section Rows

variable (store : AutomationStore)

/-- A row that is appended under the constraints of its table. -/
def AutomationStore.insertTombstone (tombstone : AutomationDefinitionTombstone) :
    Except AutomationServiceError AutomationStore := do
  throwWhen (∃ other ∈ store.tombstones, other.definitionID = tombstone.definitionID ∧
      other.revision = tombstone.revision)
    (.database "UNIQUE constraint failed: automation_definition_tombstone.definition_id, revision")
  return { store with tombstones := store.tombstones ++ [tombstone] }

def AutomationStore.insertRunReceipt (receipt : AutomationRunReceipt) :
    Except AutomationServiceError AutomationStore := do
  throwWhen (receipt.outcome.IsTerminal ∧ ∃ other ∈ store.receiptsOf receipt.runID, other.outcome.IsTerminal)
    (.database "UNIQUE constraint failed: automation_run_receipt.run_id")
  throwWhen (∀ run ∈ store.runs, run.id ≠ receipt.runID) (.database "FOREIGN KEY constraint failed")
  return { store with runReceipts := store.runReceipts ++ [receipt] }

def AutomationStore.insertAttemptReceipt (receipt : AutomationFireAttemptReceipt) :
    Except AutomationServiceError AutomationStore := do
  throwWhen (∃ other ∈ store.attemptReceipts, other.attemptID = receipt.attemptID)
    (.database "UNIQUE constraint failed: automation_fire_attempt_receipt.attempt_id")
  throwWhen (∀ attempt ∈ store.attempts, attempt.id ≠ receipt.attemptID)
    (.database "FOREIGN KEY constraint failed")
  return { store with attemptReceipts := store.attemptReceipts ++ [receipt] }

def AutomationStore.insertSettlement (settlement : AutomationDelaySettlement) :
    Except AutomationServiceError AutomationStore := do
  throwWhen (∃ other ∈ store.settlements, other.definitionID = settlement.definitionID)
    (.database "UNIQUE constraint failed: automation_delay_settlement.definition_id")
  return { store with settlements := store.settlements ++ [settlement] }

/-- `INSERT … ON CONFLICT DO NOTHING` of a fire: by its id, or as a scheduled occurrence. -/
def AutomationStore.insertFireIfAbsent (fire : AutomationFire) : AutomationStore :=
  if (∃ other ∈ store.fires, other.id = fire.id) ∨ Conflicts scheduledKey store.fires fire then store
  else { store with fires := store.fires ++ [fire] }

/-- `INSERT … ON CONFLICT DO NOTHING` of a run, and whether it was inserted. -/
def AutomationStore.insertRunIfAbsent (run : AutomationRun) : Bool × AutomationStore :=
  if ∃ other ∈ store.runs, other.id = run.id then (false, store)
  else (true, { store with runs := store.runs ++ [run] })

def AutomationDatabase.findRun (db : AutomationDatabase) (runID : String) : Option AutomationRun :=
  db.runs.find? fun run => run.id = runID

def AutomationStore.setFrontier (frontier : AutomationFireFrontier) : AutomationStore :=
  { store with frontiers :=
      (store.frontiers.filter fun row => row.definitionID ≠ frontier.definitionID) ++ [frontier] }

end Rows

/-- The greatest integer that a number holds exactly. -/
def MAX_SAFE_INTEGER : ℤ := 9007199254740991

def assertAvailableAt (availableAt : ℤ) : Except AutomationServiceError Unit :=
  throwWhen (¬(0 ≤ availableAt ∧ availableAt ≤ MAX_SAFE_INTEGER))
    (.error ("Automation Fire frontier has invalid availability " ++ toString availableAt))

section Frontier

variable (store : AutomationStore)

def currentAutomationFireFrontierInTransaction (definitionID : String) : Option AutomationFireFrontier :=
  store.frontiers.find? fun frontier => frontier.definitionID = definitionID

def publishAutomationFireFrontierInTransaction (definition : AutomationDefinition) (fire : AutomationFire)
    (availableAt : ℤ) : Except AutomationServiceError AutomationStore := do
  assertAvailableAt availableAt
  throwWhen (¬definition.active ∧ fire.origin = .scheduled) (.error
    ("Paused Automation revision " ++ definition.id ++ " cannot own a Fire frontier"))
  throwWhen (fire.automationRevisionID ≠ definition.id ∨ availableAt < fire.scheduledDueAt) (.error
    ("Automation Fire " ++ fire.id ++ " cannot own frontier " ++ definition.definitionID))
  return store.setFrontier ⟨definition.definitionID, definition.id, fire.id, availableAt⟩

def deferAutomationFireFrontierInTransaction (definitionID fireID : String) (availableAt : ℤ) :
    Except AutomationServiceError AutomationStore := do
  assertAvailableAt availableAt
  match currentAutomationFireFrontierInTransaction store definitionID with
  | none => throw (.error ("Automation " ++ definitionID ++ " lost Fire frontier " ++ fireID))
  | some current =>
    throwWhen (current.fireID ≠ fireID) (.error
      ("Automation " ++ definitionID ++ " lost Fire frontier " ++ fireID))
    return store.setFrontier { current with availableAt := availableAt }

def clearAutomationFireFrontierInTransaction (definitionID : String) : AutomationStore :=
  { store with frontiers := store.frontiers.filter fun row => row.definitionID ≠ definitionID }

def AutomationDefinition.ChangesDue (definition : AutomationDefinition) (scheduledDueAt : ℤ) : Prop :=
  match definition.kind with
  | .delay dueAt => dueAt ≠ some scheduledDueAt
  | .recurring _ => False

instance (definition : AutomationDefinition) (scheduledDueAt : ℤ) :
    Decidable (definition.ChangesDue scheduledDueAt) := by
  unfold AutomationDefinition.ChangesDue
  split <;> infer_instance

def ensureScheduledAutomationFireFrontierInTransaction [AutomationHashes]
    (definition : AutomationDefinition) (scheduledDueAt : Option ℤ) (now : ℤ) :
    Except AutomationServiceError AutomationStore :=
  match scheduledDueAt with
  | none => .ok (clearAutomationFireFrontierInTransaction store definition.definitionID)
  | some scheduledDueAt => do
    throwWhen (¬definition.active) (.error
      ("Automation revision " ++ definition.id ++ " cannot own a scheduled Fire frontier"))
    throwWhen (definition.ChangesDue scheduledDueAt) (.error
      ("Automation delay revision " ++ definition.id ++ " changed its immutable due time"))
    let fireID := scheduledAutomationFireID definition.id scheduledDueAt
    let inserted := store.insertFireIfAbsent ⟨fireID, definition.id, scheduledDueAt, .scheduled, now⟩
    let changed := AutomationServiceError.error
      ("Automation scheduled Fire " ++ fireID ++ " changed its immutable occurrence")
    let fire ← getOrThrow (inserted.findFire fireID) changed
    throwWhen (fire.automationRevisionID ≠ definition.id ∨ fire.scheduledDueAt ≠ scheduledDueAt ∨
      fire.origin ≠ .scheduled) changed
    publishAutomationFireFrontierInTransaction inserted definition fire scheduledDueAt

def lastScheduledFire (revisionID : String) : Option AutomationFire :=
  (store.fires.filter fun fire => fire.automationRevisionID = revisionID ∧ fire.origin = .scheduled).argmax
    fun fire => (toLex (fire.scheduledDueAt, fire.id) : ℤ ×ₗ String)

/-- When the last scheduled fire completed; a revision without one starts at its creation. -/
def lastCompletion [AutomationIdentity] (definition : AutomationDefinition) : Except AutomationServiceError ℤ :=
  match lastScheduledFire store definition.id with
  | none => .ok definition.timeCreated
  | some fire => do
    let completed ← projecting (projectAutomationFireInTransaction store.toAutomationDatabase fire)
    getOrThrow completed.reduced.completedAt (.error
      ("Automation revision " ++ definition.id ++ " has an unsettled scheduled Fire"))

def restoreScheduledAutomationFireFrontierInTransaction [RecurrenceRules] [AutomationIdentity]
    (definition : AutomationDefinition) : Except AutomationServiceError AutomationStore :=
  match definition.kind with
  | .delay _ => .error (.error
      ("Automation revision " ++ definition.id ++ " cannot restore a scheduled Fire frontier"))
  | .recurring recurrence =>
    if ¬definition.active then
      .ok (clearAutomationFireFrontierInTransaction store definition.definitionID)
    else
      match selectScheduledFire store.toAutomationDatabase definition.id with
      | some fire => publishAutomationFireFrontierInTransaction store definition fire fire.scheduledDueAt
      | none => do
        let completedAt ← lastCompletion store definition
        throwWhen (RecurrenceRules.nextRun recurrence completedAt ≠ none) (.error
          ("Automation revision " ++ definition.id ++ " lost its scheduled Fire before recurrence exhaustion"))
        return clearAutomationFireFrontierInTransaction store definition.definitionID

def appendAutomationTombstoneInTransaction (row : AutomationDefinition) (id : String) :
    Except AutomationServiceError AutomationStore := do
  let deleted ← store.insertTombstone ⟨id, row.definitionID, row.revision + 1⟩
  return clearAutomationFireFrontierInTransaction deleted row.definitionID

end Frontier

end OpenCorvus.Scheduler
