import OpenCorvus.Foundation.KeysetPagination
import OpenCorvus.Foundation.NumberedLanes
import OpenCorvus.Scheduler.AutomationHistory

/-!
# The store of the Event service

A definition of an Event job waits for the events of a type.  An accepted occurrence of an event becomes a
fire of each definition that it matches; the fires of a definition form a queue, and a receipt settles a fire
or puts off its next attempt.
-/

namespace OpenCorvus.Scheduler

open Transaction NumberedLanes Engine

inductive EventMatchValue where
  | str (value : String)
  /-- A number in its canonical text. -/
  | num (value : String)
  | bool (value : Bool)
deriving DecidableEq

structure EventJob where
  /-- Primary key. -/
  id : String
  definitionID : String
  revision : ℕ
  projectID : String
  /-- The Session to wake; without one each fire creates its own. -/
  sessionID : Option String
  eventType : String
  /-- Values at paths of the event. -/
  matchJSON : List (String × EventMatchValue)
  enabled : Bool
  oneShot : Bool
  cooldownMs : ℕ
deriving DecidableEq

structure EventJobTombstone where
  id : String
  definitionID : String
  revision : ℕ

structure EventPublication where
  /-- Primary key. -/
  occurrenceID : String
  projectID : String
  eventType : String

inductive EventOccurrenceOwner where
  | outbox (publicationID : String)
  | recorded (projectID eventType properties : String)

structure EventOccurrence where
  id : String
  owner : EventOccurrenceOwner

structure EventJobFire where
  id : String
  definitionID : String
  queuePosition : ℕ
  eventJobRevisionID : String
  eventOccurrenceID : String
  causationFireID : Option String
  causalCycle : Bool
  createdSessionID : Option String
  mission : StoredMissionReservation
  timeCreated : ℤ
deriving DecidableEq

/-- Why a fire ended without a wake. -/
inductive EventDisposition where
  | causalCycle
  | cooldown
  | jobDisabled
  | missionClosed (closureEventID : String)
  | targetDeleted
deriving DecidableEq

/-- How a fire was settled or put off. -/
inductive EventReceiptOutcome where
  | retryWait (retryAt : ℤ) (error : String)
  | succeeded (messageID : String)
  | disposition (reason : EventDisposition) (error : Option String)
deriving DecidableEq

def EventReceiptOutcome.isTerminal : EventReceiptOutcome → Bool
  | retryWait _ _ => false
  | _ => true

structure EventJobFireReceipt where
  id : String
  fireID : String
  definitionID : String
  queuePosition : ℕ
  outcome : EventReceiptOutcome
  timeCreated : ℤ

structure EventWakeMessage where
  id : String
  sessionID : String
  fireID : String

/-- The tables that the service reads and writes, in order of insertion. -/
structure EventStore where
  jobs : List EventJob
  tombstones : List EventJobTombstone
  outbox : List EventPublication
  occurrences : List EventOccurrence
  fires : List EventJobFire
  receipts : List EventJobFireReceipt
  leases : ControlLeaseTables
  messages : List EventWakeMessage
  sessions : List AutomationSession
  events : List MissionEvent

/-- What a transaction raises. -/
inductive EventServiceError where
  | error (message : String)
  | database (message : String)
  | lease (error : ControlLeaseError)

section Queries

variable (store : EventStore)

def EventStore.missionView : AutomationDatabase :=
  { emptyAutomations with sessions := store.sessions, events := store.events }

def EventStore.findJob (id : String) : Option EventJob := store.jobs.find? fun job => job.id = id

def EventStore.findFire (id : String) : Option EventJobFire := store.fires.find? fun fire => fire.id = id

def EventStore.terminals : List EventJobFireReceipt :=
  store.receipts.filter fun receipt => receipt.outcome.isTerminal

variable (fireID : String)

def EventStore.terminalOf : Option EventJobFireReceipt :=
  store.terminals.find? fun receipt => receipt.fireID = fireID

def EventStore.retriesOf : List EventJobFireReceipt :=
  store.receipts.filter fun receipt => receipt.fireID = fireID ∧ receipt.outcome.isTerminal = false

/-- The key of `ORDER BY time_created DESC, id DESC`. -/
def EventJobFireReceipt.orderKey (receipt : EventJobFireReceipt) : ℤ ×ₗ String :=
  toLex (receipt.timeCreated, receipt.id)

def EventStore.lastRetry : Option EventJobFireReceipt :=
  (store.retriesOf fireID).argmax EventJobFireReceipt.orderKey

/-- The instant that a receipt puts a fire off to. -/
def EventReceiptOutcome.retryAt : EventReceiptOutcome → Option ℤ
  | retryWait retryAt _ => some retryAt
  | _ => none

variable (definitionID : String)

def EventStore.settledPosition : ℕ :=
  frontier EventJobFireReceipt.definitionID EventJobFireReceipt.queuePosition store.terminals definitionID

def nextEventFireQueuePositionsInTransaction : ℕ :=
  frontier EventJobFire.definitionID EventJobFire.queuePosition store.fires definitionID + 1

def currentEventFireHeadRow : Option EventJobFire :=
  store.fires.find? fun fire =>
    fire.definitionID = definitionID ∧ fire.queuePosition = store.settledPosition definitionID + 1

def sessionDeletedInTransaction (sessionID : String) : Prop :=
  ∃ event ∈ store.events, event.aggregateType = "session" ∧ event.aggregateID = sessionID ∧
    event.type = "session.deleted"

instance (sessionID : String) : Decidable (sessionDeletedInTransaction store sessionID) :=
  inferInstanceAs (Decidable (∃ event ∈ store.events, _))

end Queries

inductive EventFireHeadStatus where
  | pending
  | running
  | retryWait
deriving DecidableEq

structure EventFireHead where
  fire : EventJobFire
  definitionID : String
  projectID : String
  status : EventFireHeadStatus
  retryAt : Option ℤ
  leaseUntil : ℤ
  ownerID : Option String

section Heads

variable (store : EventStore)

def headStatus (retryAt : Option ℤ) (lease : Option ControlLease) (now : ℤ) : EventFireHeadStatus :=
  if now < retryAt.getD 0 then .retryWait
  else if ∃ current ∈ lease, now < current.expiresAt then .running
  else .pending

def projectEventFireHeadsInTransaction (definitionID projectID : String) (now : ℤ) : Option EventFireHead :=
  (currentEventFireHeadRow store definitionID).map fun fire =>
    let retry := (store.lastRetry fire.id).bind fun receipt => receipt.outcome.retryAt
    let lease := currentControlLeaseInTransaction store.leases .eventFire fire.id
    { fire := fire
      definitionID := fire.definitionID
      projectID := projectID
      status := headStatus retry lease now
      retryAt := retry
      leaseUntil := (lease.map ControlLease.expiresAt).getD 0
      ownerID := lease.map ControlLease.ownerOccurrenceID }

def currentEventFireHeadForOccurrenceInTransaction (projectID fireID : String) (now : ℤ) :
    Option EventFireHead := do
  let fire ← store.findFire fireID
  let definition ← store.jobs.find? fun job => job.definitionID = fire.definitionID ∧ job.revision = 1
  if definition.projectID ≠ projectID then none
  else
    let head ← projectEventFireHeadsInTransaction store fire.definitionID projectID now
    if head.fire.id = fireID then some head else none

end Heads

inductive EventFireStatus where
  | pending
  | running
  | retryWait
  | succeeded
  | disposition
deriving DecidableEq

structure EventJobFireRow extends EventJobFire where
  eventJobID : String
  projectID : String
  eventType : String
  /-- The fires that led to this one, the first one first, with their definitions. -/
  causationAncestry : List (String × String)
  targetSessionID : String
  createsSession : Bool
  disposition : Option EventDisposition
  status : EventFireStatus
  messageID : Option String
  ownerID : Option String
  leaseUntil : ℤ
  attempt : ℕ
  error : Option String
  timeStarted : Option ℤ
  timeCompleted : Option ℤ
  timeUpdated : ℤ
  retryAt : Option ℤ
deriving DecidableEq

def EventReceiptOutcome.dispositionOf : EventReceiptOutcome → Option EventDisposition
  | disposition reason _ => some reason
  | _ => none

def EventReceiptOutcome.messageID : EventReceiptOutcome → Option String
  | succeeded messageID => some messageID
  | _ => none

def EventReceiptOutcome.error : EventReceiptOutcome → Option String
  | retryWait _ error => some error
  | succeeded _ => none
  | disposition _ error => error

def fireStatus (latest : Option EventReceiptOutcome) (lease : Option ControlLease) (now : ℤ) : EventFireStatus :=
  match latest with
  | some (.disposition _ _) => .disposition
  | some (.succeeded _) => .succeeded
  | _ =>
    if now < (latest.bind EventReceiptOutcome.retryAt).getD 0 then .retryWait
    else if ∃ current ∈ lease, now < current.expiresAt then .running
    else .pending

section Projections

variable (store : EventStore)

/-- The receipt that stands for a fire: the one that settles it, or the latest one that puts it off. -/
def currentEventFireReceiptInTransaction (fireID : String) : Option EventJobFireReceipt :=
  match store.terminalOf fireID with
  | some terminal => some terminal
  | none => store.lastRetry fireID

def EventStore.timeStarted (fireID : String) : Option ℤ :=
  ((store.leases.ofTarget .eventFire fireID).map ControlLease.timeActivated).min?

/-- The fires that led to a fire, from the given one up; the number bounds the walk. -/
def causationAncestry (fireID : String) : ℕ → List String → Option String → List (String × String) →
      Except EventServiceError (List (String × String))
  | _, _, none, ancestry => .ok ancestry
  | 0, _, some _, _ => .error (.error ("Event fire " ++ fireID ++ " contains a causation cycle"))
  | fuel + 1, seen, some parentID, ancestry => do
    throwWhen (parentID ∈ seen) (.error ("Event fire " ++ fireID ++ " contains a causation cycle"))
    let parent ← getOrThrow (store.findFire parentID)
      (.error ("Event fire " ++ fireID ++ " references missing parent fire " ++ parentID))
    let definition ← getOrThrow (store.findJob parent.eventJobRevisionID)
      (.error ("Event fire " ++ parent.id ++ " references missing definition " ++ parent.eventJobRevisionID))
    causationAncestry fireID fuel (parentID :: seen) parent.causationFireID
      ((parent.id, definition.definitionID) :: ancestry)

def EventStore.occurrenceInput (occurrence : EventOccurrence) : Option (String × String) :=
  match occurrence.owner with
  | .outbox publicationID =>
    (store.outbox.find? fun publication => publication.occurrenceID = publicationID).map fun publication =>
      (publication.projectID, publication.eventType)
  | .recorded projectID eventType _ => some (projectID, eventType)

def ClosesReservation (reservation : SchedulerMissionReservation) (latest : Option EventJobFireReceipt) : Prop :=
  match reservation, latest with
  | .missionClosed closureEventID, some receipt =>
    receipt.outcome.dispositionOf = some (.missionClosed closureEventID)
  | _, _ => True

instance (reservation : SchedulerMissionReservation) (latest : Option EventJobFireReceipt) :
    Decidable (ClosesReservation reservation latest) := by
  unfold ClosesReservation
  split <;> infer_instance

/-- The fields of a projected fire, once its authorities are found. -/
def eventFireRow (row : EventJobFire) (definition : EventJob) (input : String × String)
    (ancestry : List (String × String)) (targetSessionID : String) (now : ℤ) : EventJobFireRow :=
  let latest := currentEventFireReceiptInTransaction store row.id
  let outcome := latest.map EventJobFireReceipt.outcome
  let lease := currentControlLeaseInTransaction store.leases .eventFire row.id
  { row with
    eventJobID := definition.definitionID
    projectID := input.1
    eventType := input.2
    causationAncestry := ancestry
    targetSessionID := targetSessionID
    createsSession := definition.sessionID = none
    disposition := outcome.bind EventReceiptOutcome.dispositionOf
    status := fireStatus outcome lease now
    messageID := outcome.bind EventReceiptOutcome.messageID
    ownerID := lease.map ControlLease.ownerOccurrenceID
    leaseUntil := (lease.map ControlLease.expiresAt).getD 0
    attempt := (store.leases.ofTarget .eventFire row.id).length
    error := outcome.bind EventReceiptOutcome.error
    timeStarted := store.timeStarted row.id
    timeCompleted := (latest.filter fun receipt => receipt.outcome.isTerminal).map EventJobFireReceipt.timeCreated
    timeUpdated := ((latest.map EventJobFireReceipt.timeCreated).or
      (lease.map ControlLease.timeActivated)).getD row.timeCreated
    retryAt := outcome.bind EventReceiptOutcome.retryAt }

def reserving {β : Type} (x : Except AutomationError β) : Except EventServiceError β :=
  x.mapError fun | .error message => .error message

def projectEventFireInTransaction (row : EventJobFire) (now : ℤ) :
    Except EventServiceError EventJobFireRow := do
  let incomplete := EventServiceError.error
    ("Event fire " ++ row.id ++ " has incomplete immutable definition/occurrence authority")
  let definition ← getOrThrow (store.findJob row.eventJobRevisionID) incomplete
  let occurrence ← getOrThrow
    (store.occurrences.find? fun occurrence => occurrence.id = row.eventOccurrenceID) incomplete
  let input ← getOrThrow (store.occurrenceInput occurrence) incomplete
  throwWhen (input.1 = "" ∨ input.2 = "") incomplete
  let targetSessionID ← getOrThrow (definition.sessionID.or row.createdSessionID)
    (.error ("Event fire " ++ row.id ++ " has no exact target Session authority"))
  let ancestry ← causationAncestry store row.id (store.fires.length + 1) [row.id] row.causationFireID []
  let reservation ← reserving
    (assertSchedulerMissionReservationInTransaction store.missionView targetSessionID row.mission)
  throwWhen (¬ClosesReservation reservation (currentEventFireReceiptInTransaction store row.id)) (.error
    ("Event fire " ++ row.id ++ " terminal Mission reservation has no exact atomic receipt"))
  return eventFireRow store row definition input ancestry targetSessionID now

structure EventJobRow extends EventJob where
  /-- When the fire before was started. -/
  lastRun : Option ℤ
  lastEvent : Option String
  failureCount : ℕ
  lastError : Option String
deriving DecidableEq

def SucceededBefore (definitionID : String) (queuePosition : ℕ) : Prop :=
  ∃ receipt ∈ store.receipts, receipt.definitionID = definitionID ∧
    receipt.outcome.messageID.isSome ∧ receipt.queuePosition < queuePosition

instance (definitionID : String) (queuePosition : ℕ) :
    Decidable (SucceededBefore store definitionID queuePosition) :=
  inferInstanceAs (Decidable (∃ receipt ∈ store.receipts, _))

def EventStore.previousFire (fire : EventJobFire) : Option EventJobFire :=
  store.fires.find? fun previous =>
    previous.definitionID = fire.definitionID ∧ previous.queuePosition + 1 = fire.queuePosition

/-- A revision of a definition as it stands before one of its fires. -/
def projectEventJobForFireInTransaction (row : EventJob) (fire : EventJobFire) :
    Except EventServiceError EventJobRow := do
  throwWhen (fire.eventJobRevisionID ≠ row.id) (.error
    ("Event fire " ++ fire.id ++ " does not belong to definition revision " ++ row.id))
  let previous := store.previousFire fire
  let receipt := previous.bind fun other => currentEventFireReceiptInTransaction store other.id
  return { row with
    enabled := row.enabled && !(row.oneShot && SucceededBefore store row.definitionID fire.queuePosition)
    lastRun := previous.bind fun other => store.timeStarted other.id
    lastEvent := previous.map EventJobFire.eventOccurrenceID
    failureCount := if receipt.any (fun receipt => !receipt.outcome.isTerminal) then 1 else 0
    lastError := receipt.bind fun receipt => receipt.outcome.error }

end Projections

section Insertions

variable (store : EventStore)

/-- A revision under its primary key and its revision index. -/
def EventStore.insertJob (job : EventJob) : Except EventServiceError EventStore := do
  throwWhen (∃ other ∈ store.jobs, other.id = job.id) (.database "UNIQUE constraint failed: event_job.id")
  throwWhen (∃ other ∈ store.jobs, other.definitionID = job.definitionID ∧ other.revision = job.revision)
    (.database "UNIQUE constraint failed: event_job.definition_id, event_job.revision")
  return { store with jobs := store.jobs ++ [job] }

/-- A tombstone under its primary key and its revision index. -/
def EventStore.insertTombstone (tombstone : EventJobTombstone) : Except EventServiceError EventStore := do
  throwWhen (∃ other ∈ store.tombstones, other.id = tombstone.id)
    (.database "UNIQUE constraint failed: event_job_definition_tombstone.id")
  throwWhen (∃ other ∈ store.tombstones, other.definitionID = tombstone.definitionID ∧
      other.revision = tombstone.revision)
    (.database "UNIQUE constraint failed: event_job_definition_tombstone.definition_id, revision")
  return { store with tombstones := store.tombstones ++ [tombstone] }

def EventStore.TargetsMission (job : EventJob) : Prop :=
  ∃ sessionID ∈ job.sessionID, store.missionView.IsMission sessionID

instance (job : EventJob) : Decidable (store.TargetsMission job) :=
  inferInstanceAs (Decidable (∃ sessionID ∈ job.sessionID, _))

def EventStore.insertFireIfAbsent (fire : EventJobFire) :
    Except EventServiceError (Bool × EventStore) := do
  let definition ← getOrThrow
    (store.jobs.find? fun job => job.id = fire.eventJobRevisionID ∧ job.definitionID = fire.definitionID)
    (.database "event_job_fire: definition queue authority mismatch")
  throwWhen (¬(store.TargetsMission definition ↔ fire.mission ≠ .none)) (.database
    "event_job_fire: Mission target requires one exact active or terminal reservation")
  if ∃ other ∈ store.fires, other.eventJobRevisionID = fire.eventJobRevisionID ∧
      other.eventOccurrenceID = fire.eventOccurrenceID then
    return (false, store)
  else
    throwWhen (∃ other ∈ store.fires, other.id = fire.id) (.database "UNIQUE constraint failed: event_job_fire.id")
    throwWhen (∃ other ∈ store.fires, other.definitionID = fire.definitionID ∧
        other.queuePosition = fire.queuePosition)
      (.database "UNIQUE constraint failed: event_job_fire.definition_id, event_job_fire.queue_position")
    throwWhen (fire.createdSessionID ≠ none ∧ ∃ other ∈ store.fires,
        other.createdSessionID = fire.createdSessionID)
      (.database "UNIQUE constraint failed: event_job_fire.created_session_id")
    return (true, { store with fires := store.fires ++ [fire] })

def ReceiptCloses (fire : EventJobFire) (receipt : EventJobFireReceipt) : Prop :=
  match fire.mission with
  | .closed closureEventID => receipt.outcome = .disposition (.missionClosed closureEventID) none
  | _ => True

instance (fire : EventJobFire) (receipt : EventJobFireReceipt) : Decidable (ReceiptCloses fire receipt) := by
  unfold ReceiptCloses
  split <;> infer_instance

/-- Insert a receipt under the triggers of its table: it names the position of its fire, and one that settles
follows the last settled fire of the queue. -/
def EventStore.insertReceipt (receipt : EventJobFireReceipt) : Except EventServiceError EventStore := do
  let fire ← getOrThrow
    (store.fires.find? fun fire => fire.id = receipt.fireID ∧ fire.definitionID = receipt.definitionID ∧
      fire.queuePosition = receipt.queuePosition)
    (.database "event_job_fire_receipt: Fire frontier authority mismatch")
  throwWhen (receipt.outcome.isTerminal ∧ receipt.queuePosition ≠ store.settledPosition receipt.definitionID + 1)
    (.database "event_job_fire_receipt: terminal settlement must advance the FIFO frontier")
  throwWhen (¬ReceiptCloses fire receipt) (.database
    "event_job_fire_receipt: terminal Mission reservation requires its exact closure receipt")
  throwWhen (∃ other ∈ store.receipts, other.id = receipt.id)
    (.database "UNIQUE constraint failed: event_job_fire_receipt.id")
  throwWhen (receipt.outcome.isTerminal ∧ ∃ other ∈ store.terminals, other.fireID = receipt.fireID)
    (.database "UNIQUE constraint failed: event_job_fire_receipt.fire_id")
  throwWhen (receipt.outcome.isTerminal ∧ ∃ other ∈ store.terminals,
      other.definitionID = receipt.definitionID ∧ other.queuePosition = receipt.queuePosition)
    (.database "UNIQUE constraint failed: event_job_fire_receipt.definition_id, queue_position")
  return { store with receipts := store.receipts ++ [receipt] }

def EventStore.upsertMessage (message : EventWakeMessage) : EventStore :=
  if ∃ other ∈ store.messages, other.id = message.id then
    { store with messages := store.messages.map fun other =>
        if other.id = message.id then { other with fireID := message.fireID } else other }
  else { store with messages := store.messages ++ [message] }

end Insertions

end OpenCorvus.Scheduler
