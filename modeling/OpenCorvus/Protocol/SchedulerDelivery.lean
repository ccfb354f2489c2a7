import OpenCorvus.Engine.ControlLeaseFrames
import OpenCorvus.Foundation.ExecutableSystem
import OpenCorvus.Foundation.Transaction

/-!
# The delivery of scheduler messages

A scheduler message is an event with a row in the inbox of its recipient.  Its receipts settle the row, or
put it off; a lease of the row lets one owner at a time deliver it.  A recipient is served in the order of
the events: only the first unresolved row is handed out.
-/

namespace OpenCorvus.Protocol

open EcmaScript Transaction Engine

inductive SchedulerActor where
  | task
  | session
deriving DecidableEq

def SCHEDULER_MESSAGE_EVENT_TYPE : String := "scheduler.message"

structure SchedulerEventRow where
  /-- Primary key. -/
  id : String
  type : String
  aggregateType : SchedulerActor
  aggregateID : String
  /-- The position in the order of the aggregate. -/
  seq : ℕ
  threadID : String
  /-- The message that the payload names as its source. -/
  sourceMessageID : Option String
  /-- The text of all other columns. -/
  rest : String
deriving DecidableEq

structure ProtocolInboxRow where
  id : String
  envelopeID : String
  actor : SchedulerActor
  actorID : String
  visibleAt : ℤ
  timeCreated : ℤ
deriving DecidableEq

inductive ProtocolDeliveryReceipt where
  | retryWait (visibleAt : ℤ) (error : String)
  | taskIngress (messageID ingressID : String)
  | sessionWake (messageID : String)
  | missionClosed (closureEventID : String)
  | deadLetter (errorName message : String)
deriving DecidableEq

def ProtocolDeliveryReceipt.isTerminal : ProtocolDeliveryReceipt → Bool
  | retryWait _ _ => false
  | _ => true

structure ProtocolDeliveryReceiptRow where
  id : String
  inboxID : String
  receipt : ProtocolDeliveryReceipt
  timeCreated : ℤ
deriving DecidableEq

structure DeliveryDatabase where
  events : List SchedulerEventRow
  inbox : List ProtocolInboxRow
  receipts : List ProtocolDeliveryReceiptRow
  leases : ControlLeaseTables
deriving DecidableEq

/-- What an operation raises. -/
inductive DeliveryError where
  | error (message : String)
  | conflict (message eventID : String)
  /-- A constraint of the database aborts the transaction. -/
  | database (message : String)
  | lease (error : ControlLeaseError)

def liftLease {α : Type} : Except ControlLeaseError α → Except DeliveryError α
  | .ok a => .ok a
  | .error e => .error (.lease e)

section Queries

variable (db : DeliveryDatabase) (inboxID : String)

def DeliveryDatabase.findInbox : Option ProtocolInboxRow :=
  db.inbox.find? fun row => row.id = inboxID

def DeliveryDatabase.eventOf (row : ProtocolInboxRow) : Option SchedulerEventRow :=
  db.events.find? fun event => event.id = row.envelopeID

def ProtocolDeliveryReceiptRow.compareCreated (left right : ProtocolDeliveryReceiptRow) : Ordering :=
  (compare left.timeCreated right.timeCreated).then (compare left.id right.id)

def DeliveryDatabase.receiptsOf : List ProtocolDeliveryReceiptRow :=
  toSorted ProtocolDeliveryReceiptRow.compareCreated (db.receipts.filter fun row => row.inboxID = inboxID)

def Resolved : Prop :=
  ∃ row ∈ db.receipts, row.inboxID = inboxID ∧ row.receipt.isTerminal = true

instance (inboxID : String) : Decidable (Resolved db inboxID) :=
  inferInstanceAs (Decidable (∃ row ∈ db.receipts, _))

def deliveryLease : Option ControlLease :=
  currentControlLeaseInTransaction db.leases .protocolDelivery inboxID

def insertDeliveryReceipt (row : ProtocolDeliveryReceiptRow) :
    Except DeliveryError DeliveryDatabase := do
  throwWhen (db.receipts.any fun other => other.id = row.id)
    (.database "UNIQUE constraint failed: protocol_delivery_receipt.id")
  throwWhen (row.receipt.isTerminal = true ∧ Resolved db row.inboxID)
    (.database "UNIQUE constraint failed: index 'protocol_delivery_receipt_terminal_idx'")
  return { db with receipts := db.receipts ++ [row] }

end Queries

inductive ProtocolInboxStatus where
  | pending
  | leased
  | delivered
  | deadLetter
deriving DecidableEq

structure ProtocolDelivery where
  row : ProtocolInboxRow
  visibleAt : ℤ
  status : ProtocolInboxStatus
  leaseOwner : Option String
  leaseUntil : Option ℤ
  attempt : ℕ
  lastError : Option String
  deliveryResult : Option ProtocolDeliveryReceipt
  timeCompleted : Option ℤ
  timeUpdated : ℤ

def deliveryStatus (latest : Option ProtocolDeliveryReceipt) (lease : Option ControlLease) (now : ℤ) :
    ProtocolInboxStatus :=
  let waiting := if lease.any fun lease => now < lease.expiresAt then .leased else .pending
  match latest with
  | none => waiting
  | some (.retryWait _ _) => waiting
  | some (.deadLetter _ _) => .deadLetter
  | some _ => .delivered

def projectProtocolDeliveryInTransaction (db : DeliveryDatabase) (row : ProtocolInboxRow) (now : ℤ) :
    ProtocolDelivery :=
  let receipts := db.receiptsOf row.id
  let latest := receipts.getLast?
  let latestReceipt : Option ProtocolDeliveryReceipt := latest.map (·.receipt)
  let lease := deliveryLease db row.id
  let status := deliveryStatus latestReceipt lease now
  { row := row
    visibleAt := match latestReceipt with
      | some (.retryWait visibleAt _) => visibleAt
      | _ => row.visibleAt
    status := status
    leaseOwner := lease.map (·.ownerOccurrenceID)
    leaseUntil := lease.map (·.expiresAt)
    attempt := (db.leases.ofTarget .protocolDelivery row.id).length
    lastError := match latestReceipt with
      | some (.retryWait _ error) => some error
      | some (.deadLetter _ message) => some message
      | _ => none
    deliveryResult := (receipts.reverse.map (·.receipt)).find? (·.isTerminal)
    timeCompleted :=
      if status = .delivered ∨ status = .deadLetter then latest.map (·.timeCreated) else none
    timeUpdated := (latest.map (·.timeCreated)).getD
      ((lease.map (·.timeActivated)).getD row.timeCreated) }

structure EnqueueSchedulerMessageInput where
  eventID : String
  inboxID : String
  actor : SchedulerActor
  actorID : String
  threadID : String
  sourceMessageID : Option String
  /-- The text of all other columns of the event. -/
  rest : String
  /-- Why the authority or the source of the message is refused, if it is. -/
  refusal : Option DeliveryError

/-- The answer to an enqueue. -/
structure SchedulerDeliveryReceipt where
  eventID : String
  inboxID : String
  threadID : String
  status : ProtocolInboxStatus
  replayed : Bool
deriving DecidableEq

section Operations

variable (db : DeliveryDatabase)

def nextAggregateSequence (aggregateType : SchedulerActor) (aggregateID : String) : ℕ :=
  maxOrZero ((db.events.filter fun event =>
    event.aggregateType = aggregateType ∧ event.aggregateID = aggregateID).map (·.seq)) + 1

def replaySchedulerMessage (input : EnqueueSchedulerMessageInput) (inbox : Option ProtocolInboxRow)
    (event : Option SchedulerEventRow) (now : ℤ) : Except DeliveryError SchedulerDeliveryReceipt := do
  let conflict : DeliveryError :=
    .conflict "Scheduler invocation conflicts with its persisted delivery." input.eventID
  let inbox ← getOrThrow inbox conflict
  let event ← getOrThrow event conflict
  throwWhen (inbox.envelopeID ≠ input.eventID ∨ inbox.actor ≠ input.actor ∨
    inbox.actorID ≠ input.actorID ∨ event.type ≠ SCHEDULER_MESSAGE_EVENT_TYPE ∨
    event.aggregateType ≠ input.actor ∨ event.aggregateID ≠ input.actorID) conflict
  throwWhen (event.threadID ≠ input.threadID ∨ event.sourceMessageID ≠ input.sourceMessageID ∨
      event.rest ≠ input.rest)
    (.conflict "Scheduler invocation was replayed with different content." input.eventID)
  return { eventID := input.eventID, inboxID := input.inboxID, threadID := event.threadID
           status := (projectProtocolDeliveryInTransaction db inbox now).status, replayed := true }

def enqueueSchedulerMessageInTransaction (input : EnqueueSchedulerMessageInput) (now : ℤ) :
    Except DeliveryError (SchedulerDeliveryReceipt × DeliveryDatabase) := do
  match input.refusal with
  | some error => throw error
  | none => do
    let existingInbox := db.findInbox input.inboxID
    let existingEvent := db.events.find? fun event => event.id = input.eventID
    if existingInbox.isSome ∨ existingEvent.isSome then do
      let receipt ← replaySchedulerMessage db input existingInbox existingEvent now
      return (receipt, db)
    else
      let event : SchedulerEventRow :=
        { id := input.eventID, type := SCHEDULER_MESSAGE_EVENT_TYPE, aggregateType := input.actor
          aggregateID := input.actorID, seq := nextAggregateSequence db input.actor input.actorID
          threadID := input.threadID, sourceMessageID := input.sourceMessageID, rest := input.rest }
      let inbox : ProtocolInboxRow :=
        { id := input.inboxID, envelopeID := input.eventID, actor := input.actor
          actorID := input.actorID, visibleAt := now, timeCreated := now }
      return ({ eventID := input.eventID, inboxID := input.inboxID, threadID := input.threadID
                status := .pending, replayed := false },
        { db with events := db.events ++ [event], inbox := db.inbox ++ [inbox] })

def SchedulerEventRow.Precedes (earlier later : SchedulerEventRow) : Prop :=
  earlier.seq < later.seq ∨ earlier.seq = later.seq ∧ earlier.id < later.id

instance (earlier later : SchedulerEventRow) : Decidable (earlier.Precedes later) :=
  inferInstanceAs (Decidable (_ ∨ _))

def IsEarlier (earlier : ProtocolInboxRow) (row : ProtocolInboxRow) (event : SchedulerEventRow) : Prop :=
  earlier.actor = row.actor ∧ earlier.actorID = row.actorID ∧ ∃ earlierEvent ∈ db.eventOf earlier,
      earlierEvent.type = SCHEDULER_MESSAGE_EVENT_TYPE ∧ earlierEvent.Precedes event

instance (earlier row : ProtocolInboxRow) (event : SchedulerEventRow) :
    Decidable (IsEarlier db earlier row event) :=
  inferInstanceAs (Decidable (_ ∧ _ ∧ _))

def schedulerDeliveryIsCurrentUnresolvedHead (row : ProtocolInboxRow) (event : SchedulerEventRow) : Prop :=
  ¬Resolved db row.id ∧ ∀ earlier ∈ db.inbox, IsEarlier db earlier row event → Resolved db earlier.id

instance (row : ProtocolInboxRow) (event : SchedulerEventRow) :
    Decidable (schedulerDeliveryIsCurrentUnresolvedHead db row event) :=
  inferInstanceAs (Decidable (_ ∧ _))

def latestRetryVisibleAt (inboxID : String) : Option ℤ :=
  ((db.receiptsOf inboxID).reverse.map (·.receipt)).findSome? fun receipt =>
    match receipt with
    | .retryWait visibleAt _ => some visibleAt
    | _ => none

def schedulerDeliveryHeadAvailableAt (row : ProtocolInboxRow) (now : ℤ) : ℤ :=
  let visibleAt := (latestRetryVisibleAt db row.id).getD row.visibleAt
  let leaseExpiresAt := ((deliveryLease db row.id).map (·.expiresAt)).getD 0
  max visibleAt (if now < leaseExpiresAt then leaseExpiresAt else 0)

def SchedulerEventRow.compareSeq (left right : SchedulerEventRow) : Ordering :=
  (compare left.seq right.seq).then (compare left.id right.id)

def schedulerDeliveryHeads (actor : SchedulerActor) (actorID : String) (now : ℤ) :
    List (ProtocolInboxRow × SchedulerEventRow) :=
  (db.inbox.filterMap fun row => (db.eventOf row).map fun event => (row, event)).filter fun head =>
    head.1.actor = actor ∧ head.1.actorID = actorID ∧ head.2.type = SCHEDULER_MESSAGE_EVENT_TYPE ∧
      schedulerDeliveryIsCurrentUnresolvedHead db head.1 head.2 ∧
      schedulerDeliveryHeadAvailableAt db head.1 now ≤ now

structure SchedulerDeliveryClaim where
  inboxID : String
  ownerID : String
  leaseMilliseconds : ℤ
  /-- The instant of the claim, also for its second transaction. -/
  now : ℤ
deriving DecidableEq

/-- The first transaction of `claimNextSchedulerDelivery`: choose the head of a recipient. -/
def chooseSchedulerDelivery (actor : SchedulerActor) (actorID ownerID : String)
    (leaseMilliseconds now : ℤ) : Option SchedulerDeliveryClaim :=
  ((toSorted (fun left right => left.2.compareSeq right.2)
    (schedulerDeliveryHeads db actor actorID now)).head?).map fun head =>
      { inboxID := head.1.id, ownerID := ownerID, leaseMilliseconds := leaseMilliseconds, now := now }

/-- The second one: take the lease of the chosen row, and answer with its projection. -/
def leaseSchedulerDelivery (claim : SchedulerDeliveryClaim) (leaseID : String) :
    Except DeliveryError (Option ProtocolDelivery × DeliveryDatabase) := do
  let (acquired, leases) ← liftLease (acquireControlLeaseInTransaction db.leases
    { target := .protocolDelivery, targetID := claim.inboxID, ownerOccurrenceID := claim.ownerID
      now := claim.now, leaseMilliseconds := claim.leaseMilliseconds, leaseID := none
      supersedeLeaseID := none, generatedID := leaseID })
  let leased : DeliveryDatabase := { db with leases := leases }
  if acquired.acquired then do
    let row ← getOrThrow (leased.findInbox claim.inboxID) (.error "row is missing")
    return (some (projectProtocolDeliveryInTransaction leased row claim.now), leased)
  else return (none, db)

variable (inboxID ownerID : String)

def notLeasedBy : DeliveryError :=
  .error ("Scheduler delivery " ++ inboxID ++ " is not leased by " ++ ownerID)

def HoldsLease (now : ℤ) : Prop :=
  ∃ lease ∈ deliveryLease db inboxID, lease.ownerOccurrenceID = ownerID ∧ now < lease.expiresAt

instance (inboxID ownerID : String) (now : ℤ) : Decidable (HoldsLease db inboxID ownerID now) :=
  inferInstanceAs (Decidable (∃ lease ∈ deliveryLease db inboxID, _))

structure SettleSchedulerDeliveryInput where
  inboxID : String
  ownerID : String
  result : ProtocolDeliveryReceipt
  /-- Why the result does not name the occurrence of the delivery, if it does not. -/
  refusal : Option DeliveryError
  /-- The id that is generated for the receipt. -/
  receiptID : String

/-- Settle a row by its terminal receipt; an equal receipt is a replay. -/
def settleSchedulerDeliveryInTransaction (input : SettleSchedulerDeliveryInput) (now : ℤ) :
    Except DeliveryError (ProtocolDelivery × DeliveryDatabase) := do
  throwWhen (input.result.isTerminal = false) (.error "invalid delivery result")
  let current ← getOrThrow (db.findInbox input.inboxID)
    (.error ("Scheduler delivery not found: " ++ input.inboxID))
  match input.refusal with
  | some error => throw error
  | none =>
  match db.receipts.find? fun row => row.inboxID = input.inboxID ∧ row.receipt.isTerminal = true with
  | some terminal => do
    throwWhen (terminal.receipt ≠ input.result) (.error ("Scheduler delivery " ++ input.inboxID ++
        " conflicts with its immutable terminal receipt"))
    return (projectProtocolDeliveryInTransaction db current now, db)
  | none => do
    throwWhen (¬HoldsLease db input.inboxID input.ownerID now) (notLeasedBy input.inboxID input.ownerID)
    let settled ← insertDeliveryReceipt db
      { id := input.receiptID, inboxID := input.inboxID, receipt := input.result, timeCreated := now }
    return (projectProtocolDeliveryInTransaction settled current now, settled)

def deadLetterSchedulerDelivery (inboxID ownerID errorName message receiptID : String) (now : ℤ) :
    Except DeliveryError (ProtocolDelivery × DeliveryDatabase) :=
  settleSchedulerDeliveryInTransaction db
    { inboxID := inboxID, ownerID := ownerID, result := .deadLetter errorName message
      refusal := none, receiptID := receiptID } now

def deliveryLeaseClaim (inboxID ownerID leaseID : String) (now : ℤ) : ControlLeaseClaim where
  target := .protocolDelivery
  targetID := inboxID
  leaseID := leaseID
  ownerOccurrenceID := ownerID
  now := now

def renewSchedulerDeliveryLease (leaseMilliseconds now : ℤ) : Except DeliveryError DeliveryDatabase := do
  let lease ← getOrThrow (deliveryLease db inboxID) (notLeasedBy inboxID ownerID)
  throwWhen (¬HoldsLease db inboxID ownerID now) (notLeasedBy inboxID ownerID)
  let leases ← liftLease (renewControlLeaseInTransaction db.leases
    (deliveryLeaseClaim inboxID ownerID lease.id now) (now + leaseMilliseconds))
  return { db with leases := leases }

structure RescheduleSchedulerDeliveryInput where
  inboxID : String
  ownerID : String
  error : String
  visibleAt : ℤ
  /-- The id that is generated for the receipt. -/
  receiptID : String

/-- Put a row off, and hand its lease back. -/
def rescheduleSchedulerDelivery (input : RescheduleSchedulerDeliveryInput) (now : ℤ) :
    Except DeliveryError (ProtocolDelivery × DeliveryDatabase) := do
  let current ← getOrThrow (db.findInbox input.inboxID) (notLeasedBy input.inboxID input.ownerID)
  let lease ← getOrThrow (deliveryLease db input.inboxID) (notLeasedBy input.inboxID input.ownerID)
  throwWhen (¬HoldsLease db input.inboxID input.ownerID now) (notLeasedBy input.inboxID input.ownerID)
  let delayed ← insertDeliveryReceipt db
    { id := input.receiptID, inboxID := input.inboxID
      receipt := .retryWait input.visibleAt input.error, timeCreated := now }
  let released : DeliveryDatabase :=
    { delayed with
      leases := (releaseControlLeaseInTransaction delayed.leases
        (deliveryLeaseClaim input.inboxID input.ownerID lease.id now)).2 }
  return (projectProtocolDeliveryInTransaction released current now, released)

def unresolvedDeliveries (rows : List ProtocolInboxRow) (now : ℤ) : List ProtocolInboxRow :=
  rows.filter fun row =>
    let status := (projectProtocolDeliveryInTransaction db row now).status
    status = .pending ∨ status = .leased

def appendDeadLetterReceipts (rows : List ProtocolInboxRow) (errorName message : String)
    (receiptIDs : List String) (now : ℤ) : Except DeliveryError DeliveryDatabase :=
  ((unresolvedDeliveries db rows now).zip receiptIDs).foldlM (fun db entry => insertDeliveryReceipt db
      { id := entry.2, inboxID := entry.1.id, receipt := .deadLetter errorName message
        timeCreated := now }) db

/-- Whose deliveries are given up. -/
inductive DeadLetterScope where
  | sessions (sessionIDs : List String)
  | tasks (taskIDs : List String)
  /-- The messages of deleted Sessions are the sources. -/
  | sources (messageIDs : List String)

def DeadLetterScope.rows : DeadLetterScope → List ProtocolInboxRow
  | sessions sessionIDs =>
    db.inbox.filter fun row => row.actor = .session ∧ row.actorID ∈ sessionIDs
  | tasks taskIDs => db.inbox.filter fun row => row.actor = .task ∧ row.actorID ∈ taskIDs
  | sources messageIDs =>
    let eventIDs := (db.events.filter fun event => event.type = SCHEDULER_MESSAGE_EVENT_TYPE ∧
      event.sourceMessageID.any fun messageID => messageID ∈ messageIDs).map (·.id)
    db.inbox.filter fun row => row.envelopeID ∈ eventIDs

end Operations

structure DeliveryState where
  db : DeliveryDatabase
  clock : ℤ
  claims : List SchedulerDeliveryClaim
deriving DecidableEq

inductive DeliveryAction where
  | enqueue (input : EnqueueSchedulerMessageInput)
  | choose (actor : SchedulerActor) (actorID ownerID : String) (leaseMilliseconds : ℤ)
  /-- The second transaction of a claim. -/
  | lease (index : ℕ) (leaseID : String)
  | settle (input : SettleSchedulerDeliveryInput)
  | renew (inboxID ownerID : String) (leaseMilliseconds : ℤ)
  | reschedule (input : RescheduleSchedulerDeliveryInput)
  | deadLetter (inboxID ownerID errorName message receiptID : String)
  | deadLetters (scope : DeadLetterScope) (errorName message : String) (receiptIDs : List String)
  /-- An event of another type. -/
  | appendEvent (event : SchedulerEventRow)
  /-- Leases of other targets change. -/
  | host (leases : ControlLeaseTables)

/-- The effect of an action at the present instant; a transaction that raises has none. -/
def DeliveryAction.run (s : DeliveryState) : DeliveryAction → Option DeliveryState
  | enqueue input =>
    (enqueueSchedulerMessageInTransaction s.db input s.clock).toOption.map fun answer =>
      { s with db := answer.2 }
  | choose actor actorID ownerID leaseMilliseconds =>
    (chooseSchedulerDelivery s.db actor actorID ownerID leaseMilliseconds s.clock).map fun claim =>
      { s with claims := s.claims ++ [claim] }
  | lease index leaseID => do
    let claim ← s.claims[index]?
    let answer ← (leaseSchedulerDelivery s.db claim leaseID).toOption
    return { s with db := answer.2, claims := s.claims.eraseIdx index }
  | settle input =>
    (settleSchedulerDeliveryInTransaction s.db input s.clock).toOption.map fun answer =>
      { s with db := answer.2 }
  | renew inboxID ownerID leaseMilliseconds =>
    (renewSchedulerDeliveryLease s.db inboxID ownerID leaseMilliseconds s.clock).toOption.map
      fun db => { s with db := db }
  | reschedule input =>
    (rescheduleSchedulerDelivery s.db input s.clock).toOption.map fun answer =>
      { s with db := answer.2 }
  | deadLetter inboxID ownerID errorName message receiptID =>
    (deadLetterSchedulerDelivery s.db inboxID ownerID errorName message receiptID
      s.clock).toOption.map fun answer => { s with db := answer.2 }
  | deadLetters scope errorName message receiptIDs =>
    let rows := scope.rows s.db
    if receiptIDs.length = (unresolvedDeliveries s.db rows s.clock).length then
      (appendDeadLetterReceipts s.db rows errorName message receiptIDs s.clock).toOption.map
        fun db => { s with db := db }
    else none
  | appendEvent event =>
    if event.type = SCHEDULER_MESSAGE_EVENT_TYPE then none
    else some { s with db := { s.db with events := s.db.events ++ [event] } }
  | host leases =>
    some { s with db := { s.db with leases := s.db.leases.withOtherLeases .protocolDelivery leases } }

def deliveryStep (s : DeliveryState) (action : ℤ × DeliveryAction) : Option DeliveryState :=
  if action.1 < s.clock then none else action.2.run { s with clock := action.1 }

/-- No scheduler message was enqueued yet. -/
structure DeliveryState.Initial (s : DeliveryState) : Prop where
  inbox : s.db.inbox = []
  receipts : s.db.receipts = []
  leases : ∀ lease ∈ s.db.leases.leases, lease.target ≠ .protocolDelivery
  claims : s.claims = []

instance decidableInitialDelivery (s : DeliveryState) : Decidable s.Initial :=
  decidable_of_iff (s.db.inbox = [] ∧ s.db.receipts = [] ∧
      (∀ lease ∈ s.db.leases.leases, lease.target ≠ .protocolDelivery) ∧ s.claims = [])
    ⟨fun ⟨hinbox, hreceipts, hleases, hclaims⟩ => ⟨hinbox, hreceipts, hleases, hclaims⟩,
      fun ⟨hinbox, hreceipts, hleases, hclaims⟩ => ⟨hinbox, hreceipts, hleases, hclaims⟩⟩

end OpenCorvus.Protocol
