import Mathlib.Algebra.Group.Int.Defs
import OpenCorvus.Scheduler.EventStore

/-!
# The transactions of the Event service

Definitions are created and removed; an accepted event creates the fires of the definitions that it matches,
page by page; the head of a queue is claimed under a lease, which its owner renews, and is settled or put off
by the owner; and the wake Message of a fire is committed behind a fence.
-/

namespace OpenCorvus.Scheduler

open Transaction Engine

structure EventEnvelope where
  type : String
  /-- The properties in their JSON text. -/
  properties : String
  occurrenceID : String
  /-- The fire that caused the event, if the scheduler did. -/
  causation : Option String

class EventPayloads where
  /-- `Wildcard.match` of a type and a pattern. -/
  wildcardMatch : String → String → Bool
  /-- The value at a path of an event of a type with properties. -/
  pick : String → String → String → Option EventMatchValue
  isDeepStrictEqual : String → String → Bool
  /-- The definition and the fire of a wake reason in the properties. -/
  eventWakeReason : String → Option (String × String)
  eventInfoID : String → Option String
  /-- The id of the wake Message of a fire. -/
  deterministicEventWakeID : String → String

export EventPayloads (wildcardMatch pick isDeepStrictEqual eventWakeReason eventInfoID deterministicEventWakeID)

structure EventFireCausation where
  parentFireID : Option String
  ancestry : List (String × String)

section Definitions

variable (store : EventStore)

def EventJob.revisionKey (job : EventJob) : ℕ ×ₗ String := toLex (job.revision, job.id)

def latestEventDefinitionInTransaction (definitionID : String) : Option EventJob := do
  let row ← (store.jobs.filter fun job => job.definitionID = definitionID).argmax EventJob.revisionKey
  let tombstone := (store.tombstones.filter fun tombstone => tombstone.definitionID = definitionID).argmax
    fun tombstone => (toLex (tombstone.revision, tombstone.id) : ℕ ×ₗ String)
  if ∀ removed ∈ tombstone, removed.revision < row.revision then some row else none

structure CreateEventJobInput where
  /-- The id that is generated. -/
  id : String
  projectID : String
  sessionID : Option String
  eventType : String
  matchJSON : List (String × EventMatchValue)
  oneShot : Bool
  cooldownMs : ℕ

def createEventJob (input : CreateEventJobInput) : Except EventServiceError EventStore :=
  store.insertJob
    { id := input.id, definitionID := input.id, revision := 1, projectID := input.projectID
      sessionID := input.sessionID, eventType := input.eventType, matchJSON := input.matchJSON
      enabled := true, oneShot := input.oneShot, cooldownMs := input.cooldownMs }

def removeEventJob (id projectID tombstoneID : String) : Except EventServiceError (Bool × EventStore) :=
  match latestEventDefinitionInTransaction store id with
  | none => .ok (false, store)
  | some row =>
    if row.projectID ≠ projectID then .ok (false, store)
    else do
      let removed ← store.insertTombstone ⟨tombstoneID, row.definitionID, row.revision + 1⟩
      return (true, removed)

def EventJob.IsCurrent (job : EventJob) : Prop :=
  (∀ other ∈ store.jobs, other.definitionID = job.definitionID → ¬job.revisionKey < other.revisionKey) ∧
    ∀ tombstone ∈ store.tombstones, tombstone.definitionID = job.definitionID → ¬job.revision ≤ tombstone.revision

instance (job : EventJob) : Decidable (job.IsCurrent store) :=
  inferInstanceAs (Decidable (_ ∧ ∀ tombstone ∈ store.tombstones, _))

def EVENT_FRONTIER_PAGE_SIZE : ℕ := 64

def currentEventDefinitionPageInTransaction (projectID : String) (afterDefinitionID : Option String) :
    List EventJob × Bool :=
  let rows := KeysetPagination.page EventJob.definitionID
    (store.jobs.filter fun job => job.projectID = projectID ∧ job.IsCurrent store)
    (EVENT_FRONTIER_PAGE_SIZE + 1) afterDefinitionID
  (rows.take EVENT_FRONTIER_PAGE_SIZE, EVENT_FRONTIER_PAGE_SIZE < rows.length)

def HasSucceeded (definitionID : String) : Prop :=
  ∃ receipt ∈ store.receipts, receipt.definitionID = definitionID ∧ receipt.outcome.messageID.isSome

instance (definitionID : String) : Decidable (HasSucceeded store definitionID) :=
  inferInstanceAs (Decidable (∃ receipt ∈ store.receipts, _))

end Definitions

section Acceptance

variable [EventPayloads]

def eventOk (event : EventEnvelope) (asked : List (String × EventMatchValue)) : Bool :=
  asked.all fun (key, value) => pick event.type event.properties key = some value

variable (store : EventStore)

def EventJob.Matches (event : EventEnvelope) (job : EventJob) : Prop :=
  job.enabled ∧ ¬(job.oneShot ∧ HasSucceeded store job.definitionID) ∧
    wildcardMatch event.type job.eventType ∧ eventOk event job.matchJSON

instance (store : EventStore) (event : EventEnvelope) (job : EventJob) : Decidable (job.Matches store event) :=
  inferInstanceAs (Decidable (_ ∧ _ ∧ _ ∧ _))

def causationFromParent (parent : EventJobFireRow) : EventFireCausation where
  parentFireID := some parent.id
  ancestry := parent.causationAncestry ++ [(parent.id, parent.eventJobID)]

def requireParentFire (projectID fireID : String) (now : ℤ) : Except EventServiceError EventJobFireRow := do
  let missing := EventServiceError.error
    ("Event wake " ++ fireID ++ " has no durable Event Job fire authority")
  let row ← getOrThrow (store.findFire fireID) missing
  let parent ← projectEventFireInTransaction store row now
  throwWhen (parent.projectID ≠ projectID) missing
  return parent

def EventStore.creatorOf (projectID sessionID : String) : Option EventJobFire :=
  (store.fires.filter fun fire => fire.createdSessionID = some sessionID ∧
      ∃ job ∈ store.jobs, job.id = fire.eventJobRevisionID ∧ job.projectID = projectID).argmax
    fun fire => (toLex (fire.timeCreated, fire.id) : ℤ ×ₗ String)

variable (projectID : String)

def resolveCausation (event : EventEnvelope) (now : ℤ) : Except EventServiceError EventFireCausation :=
  match event.causation, eventWakeReason event.properties with
  | some fireID, _ => do
    let parent ← requireParentFire store projectID fireID now
    return causationFromParent parent
  | none, some (jobID, fireID) => do
    let parent ← requireParentFire store projectID fireID now
    throwWhen (parent.eventJobID ≠ jobID) (.error
      ("Event wake " ++ fireID ++ " names job " ++ jobID ++ ", expected " ++ parent.eventJobID))
    return causationFromParent parent
  | none, none =>
    if event.type ≠ "session.created" then .ok ⟨none, []⟩
    else
      match (eventInfoID event.properties).bind (store.creatorOf projectID) with
      | none => .ok ⟨none, []⟩
      | some row => do
        let parent ← projectEventFireInTransaction store row now
        return causationFromParent parent

def EventOccurrenceOwner.Agrees : EventOccurrenceOwner → EventOccurrenceOwner → Prop
  | .outbox stored, .outbox accepted => stored = accepted
  | .recorded projectID eventType properties, .recorded projectID' eventType' properties' =>
    projectID = projectID' ∧ eventType = eventType' ∧ isDeepStrictEqual properties properties' = true
  | _, _ => False

instance (stored accepted : EventOccurrenceOwner) : Decidable (stored.Agrees accepted) := by
  unfold EventOccurrenceOwner.Agrees
  split <;> infer_instance

def EventStore.insertOccurrence (occurrence : EventOccurrence) : Except EventServiceError EventStore :=
  match store.occurrences.find? fun row => row.id = occurrence.id with
  | none => .ok { store with occurrences := store.occurrences ++ [occurrence] }
  | some existing => do
    throwWhen (¬existing.owner.Agrees occurrence.owner) (.error
      ("Event occurrence " ++ occurrence.id ++ " conflicts with its immutable input fact"))
    return store

/-- What an acceptance generates and reads for a definition. -/
structure EventFireInput where
  fireID : String
  createdSessionID : String
  /-- What the Mission of the target answers. -/
  mission : Except String StoredMissionReservation

/-- The fire of a definition that an acceptance inserts. -/
def acceptedFire (input : EventFireInput) (job : EventJob) (queuePosition : ℕ) (occurrenceID : String)
    (causation : EventFireCausation) (mission : StoredMissionReservation) (now : ℤ) : EventJobFire where
  id := input.fireID
  definitionID := job.definitionID
  queuePosition := queuePosition
  eventJobRevisionID := job.id
  eventOccurrenceID := occurrenceID
  causationFireID := causation.parentFireID
  causalCycle := causation.ancestry.any fun entry => entry.2 = job.definitionID
  createdSessionID := if job.sessionID = none then some input.createdSessionID else none
  mission := mission
  timeCreated := now

def createFire (input : EventFireInput) (job : EventJob) (queuePosition : ℕ) (occurrenceID : String)
    (causation : EventFireCausation) (now : ℤ) : Except EventServiceError (EventJobFireRow × EventStore) := do
  let mission ← input.mission.mapError EventServiceError.error
  let fire := acceptedFire input job queuePosition occurrenceID causation mission now
  let (inserted, written) ← store.insertFireIfAbsent fire
  if inserted then
    let row ← projectEventFireInTransaction written fire now
    return (row, written)
  else
    let existing ← getOrThrow
      (store.fires.find? fun other =>
        other.eventJobRevisionID = job.id ∧ other.eventOccurrenceID = occurrenceID)
      (.error ("Event occurrence " ++ occurrenceID ++ " conflict has no durable fire for job " ++
        job.definitionID))
    let row ← projectEventFireInTransaction store existing now
    return (row, store)

/-- Create the fires of an occurrence.  The positions are allocated before the first of them is inserted. -/
def createFires (event : EventEnvelope) (jobs : List EventJob) (inputs : String → EventFireInput)
    (causation : EventFireCausation) (now : ℤ) : Except EventServiceError (List EventJobFireRow × EventStore) := do
  let owner := match store.outbox.find? fun publication => publication.occurrenceID = event.occurrenceID with
    | some publication => EventOccurrenceOwner.outbox publication.occurrenceID
    | none => EventOccurrenceOwner.recorded projectID event.type event.properties
  let occurred ← store.insertOccurrence ⟨event.occurrenceID, owner⟩
  let queuePosition := nextEventFireQueuePositionsInTransaction occurred
  jobs.foldlM (fun (accepted, written) job => do
      let (row, written) ← createFire written (inputs job.id) job (queuePosition job.definitionID)
        event.occurrenceID causation now
      return (accepted ++ [row], written))
    ([], occurred)

/-- An acceptance while it goes through the pages. -/
structure EventAcceptance where
  store : EventStore
  accepted : List EventJobFireRow
  /-- The causation, once it is resolved. -/
  causation : Option EventFireCausation

def acceptPage (event : EventEnvelope) (inputs : String → EventFireInput) (now : ℤ) (page : List EventJob)
    (acceptance : EventAcceptance) : Except EventServiceError EventAcceptance :=
  match page.filter fun job => job.Matches acceptance.store event with
  | [] => .ok acceptance
  | jobs => do
    let causation ← (match acceptance.causation with
      | some causation => .ok causation
      | none => resolveCausation acceptance.store projectID event now)
    let (rows, written) ← createFires acceptance.store projectID event jobs inputs causation now
    return ⟨written, acceptance.accepted ++ rows, some causation⟩

def acceptPages (projectID : String) (event : EventEnvelope) (inputs : String → EventFireInput) (now : ℤ) :
    ℕ → Option String → EventAcceptance → Except EventServiceError EventAcceptance
  | 0, _, _ => .error (.error "Event definition page has no cursor")
  | fuel + 1, afterDefinitionID, acceptance => do
    let (rows, hasMore) :=
      currentEventDefinitionPageInTransaction acceptance.store projectID afterDefinitionID
    let next ← acceptPage projectID event inputs now rows acceptance
    if hasMore then
      let cursor ← getOrThrow (rows.getLast?.map EventJob.definitionID)
        (.error "Event definition page has no cursor")
      acceptPages projectID event inputs now fuel (some cursor) next
    else return next

def accept (event : EventEnvelope) (inputs : String → EventFireInput) (now : ℤ) :
    Except EventServiceError EventAcceptance :=
  if event.type = "server.instance.disposed" then .ok ⟨store, [], none⟩
  else acceptPages projectID event inputs now (store.jobs.length + 1) none ⟨store, [], none⟩

end Acceptance

def FIRE_LEASE_MS : ℤ := 30000

def FIRE_RETRY_BASE_MS : ℤ := 1000

def FIRE_RETRY_MAX_MS : ℤ := 60000

section Ownership

variable (store : EventStore)

/-- An operation on the leases inside a transaction. -/
def leasingFire {β : Type} (x : Except ControlLeaseError β) : Except EventServiceError β :=
  x.mapError .lease

def fireAcquisition (fireID ownerID leaseID : String) (now : ℤ) : AcquireControlLeaseInput where
  target := .eventFire
  targetID := fireID
  ownerOccurrenceID := ownerID
  now := now
  leaseMilliseconds := FIRE_LEASE_MS
  leaseID := none
  supersedeLeaseID := none
  generatedID := leaseID

/-- The head of its queue, if it may be claimed. -/
def claimableEventFire (fireID : String) (now : ℤ) : Option EventJobFire := do
  let fire ← store.findFire fireID
  let job ← store.findJob fire.eventJobRevisionID
  let head ← currentEventFireHeadForOccurrenceInTransaction store job.projectID fireID now
  if head.status = .pending then some fire else none

def claimFire (fireID ownerID leaseID : String) (now : ℤ) :
    Except EventServiceError (Option EventJobFireRow × EventStore) :=
  match claimableEventFire store fireID now with
  | none => .ok (none, store)
  | some fire => do
    let (acquired, leases) ← leasingFire
      (acquireControlLeaseInTransaction store.leases (fireAcquisition fireID ownerID leaseID now))
    if acquired.acquired then
      let written := { store with leases := leases }
      let row ← projectEventFireInTransaction written fire now
      return (some row, written)
    else return (none, store)

def heldFireLease (fireID ownerID : String) (now : ℤ) : Option ControlLease :=
  (currentControlLeaseInTransaction store.leases .eventFire fireID).filter fun lease =>
    lease.ownerOccurrenceID = ownerID ∧ now < lease.expiresAt

def fireLeaseClaim (fireID leaseID ownerID : String) (now : ℤ) : ControlLeaseClaim where
  target := .eventFire
  targetID := fireID
  leaseID := leaseID
  ownerOccurrenceID := ownerID
  now := now

def renewFireLease (fireID ownerID : String) (now : ℤ) : Except EventServiceError (Bool × EventStore) :=
  match heldFireLease store fireID ownerID now with
  | none => .ok (false, store)
  | some lease => do
    let leases ← leasingFire (renewControlLeaseInTransaction store.leases
      (fireLeaseClaim fireID lease.id ownerID now) (now + FIRE_LEASE_MS))
    return (true, { store with leases := leases })

def EventStore.releaseFireLease (fireID leaseID ownerID : String) (now : ℤ) : EventStore :=
  { store with leases :=
      (releaseControlLeaseInTransaction store.leases (fireLeaseClaim fireID leaseID ownerID now)).2 }

variable (fire : EventJobFireRow)

def fireReceipt (receiptID : String) (outcome : EventReceiptOutcome) (now : ℤ) : EventJobFireReceipt where
  id := receiptID
  fireID := fire.id
  definitionID := fire.definitionID
  queuePosition := fire.queuePosition
  outcome := outcome
  timeCreated := now

def settleFire (lease : ControlLease) (ownerID receiptID : String) (outcome : EventReceiptOutcome) (now : ℤ) :
    Except EventServiceError EventStore := do
  let written ← store.insertReceipt (fireReceipt fire receiptID outcome now)
  return written.releaseFireLease fire.id lease.id ownerID now

def settleSuccess (ownerID sessionID messageID receiptID : String) (now : ℤ) :
    Except EventServiceError EventStore :=
  match store.terminalOf fire.id with
  | some terminal => do
    throwWhen (terminal.outcome ≠ .succeeded messageID) (.error
      ("Event fire " ++ fire.id ++ " conflicts with its immutable terminal receipt"))
    return store
  | none => do
    let lost := EventServiceError.error
      ("Event fire " ++ fire.id ++ " owner is no longer authoritative at success")
    let lease ← getOrThrow (heldFireLease store fire.id ownerID now) lost
    throwWhen (fire.targetSessionID ≠ sessionID) lost
    settleFire store fire lease ownerID receiptID (.succeeded messageID) now

def settleDisposition (ownerID : String) (reason : EventDisposition) (error : Option String) (receiptID : String)
    (now : ℤ) : Except EventServiceError (Bool × EventStore) :=
  match store.terminalOf fire.id with
  | some terminal => do
    throwWhen (terminal.outcome ≠ .disposition reason error) (.error
      ("Event fire " ++ fire.id ++ " conflicts with its immutable terminal receipt"))
    return (true, store)
  | none =>
    match heldFireLease store fire.id ownerID now with
    | none => .ok (false, store)
    | some lease => do
      let settled ← settleFire store fire lease ownerID receiptID (.disposition reason error) now
      return (true, settled)

def fireRetryAt (attempt : ℕ) (now : ℤ) : ℤ :=
  now + min FIRE_RETRY_MAX_MS (FIRE_RETRY_BASE_MS * 2 ^ min 16 (attempt - 1))

/-- Put a fire off to its next attempt; whether it is put off. -/
def scheduleRetry (ownerID message receiptID : String) (now : ℤ) : Except EventServiceError (Bool × EventStore) :=
  match heldFireLease store fire.id ownerID now with
  | none => .ok (false, store)
  | some lease => do
    let settled ← settleFire store fire lease ownerID receiptID
      (.retryWait (fireRetryAt fire.attempt now) message) now
    return (true, settled)

def fenceEventWakeCommit (fireID ownerID sessionID : String) (committedAt : ℤ) :
    Except EventServiceError Unit := do
  let lost := EventServiceError.error
    ("Event fire " ++ fireID ++ " lost its lease before wake Message commit")
  let row ← getOrThrow (store.findFire fireID) lost
  let authority ← projectEventFireInTransaction store row committedAt
  throwWhen (authority.status ≠ .running ∨ authority.ownerID ≠ some ownerID ∨
    authority.leaseUntil ≤ committedAt ∨ authority.targetSessionID ≠ sessionID) lost

def findWakeMessageID : Except EventServiceError (Option String) :=
  match store.messages.filter fun message =>
    message.sessionID = fire.targetSessionID ∧ message.fireID = fire.id with
  | [] => .ok none
  | [message] => .ok (some message.id)
  | _ => .error (.error ("Event fire " ++ fire.id ++ " has more than one persisted wake Message"))

def ready (job : EventJobRow) (now : ℤ) : Bool :=
  match job.lastRun with
  | none => true
  | some lastRun => lastRun = 0 || (job.cooldownMs : ℤ) ≤ now - lastRun

end Ownership

end OpenCorvus.Scheduler
