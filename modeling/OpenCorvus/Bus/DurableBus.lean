import OpenCorvus.Engine.ControlLease
import OpenCorvus.Foundation.ExecutableSystem
import OpenCorvus.Foundation.OrderBy
import OpenCorvus.Foundation.Transaction

/-!
# The durable Bus

A durable publication is delivered in three phases.  An execution of a phase registers a delivery
request for each of its subscribers, delivers to each under a lease, and records a receipt of each
delivery and, when nothing failed, one of the phase.
-/

namespace OpenCorvus.Bus

open Engine Transaction OrderBy

inductive DurablePhase where
  | exact
  | wildcard
  | global
deriving DecidableEq

def DurablePhase.text : DurablePhase → String
  | .exact => "exact"
  | .wildcard => "wildcard"
  | .global => "global"

structure DeliveryKey where
  occurrenceID : String
  phase : DurablePhase
  subscriberID : String
deriving DecidableEq

structure BusPublicationDelivery where
  /-- Primary key. -/
  key : DeliveryKey
  /-- The contract `idempotent_by_occurrence`, which durable subscribers have. -/
  effectContract : Bool

inductive DeliveryOutcome where
  | succeeded
  | ignored
  | failed
deriving DecidableEq

def DeliveryOutcome.isTerminal (outcome : DeliveryOutcome) : Bool :=
  outcome = .succeeded ∨ outcome = .ignored

structure BusPublicationDeliveryReceipt where
  key : DeliveryKey
  outcome : DeliveryOutcome
  error : Option String
  timeCreated : ℤ

structure BusDatabase where
  /-- The occurrences of the outbox. -/
  outbox : List String
  requests : List BusPublicationDelivery
  receipts : List BusPublicationDeliveryReceipt
  /-- The settled phases, under the unique index of occurrence and phase. -/
  phaseReceipts : List (String × DurablePhase)
  leases : ControlLeaseTables

/-- What a transaction raises. -/
inductive BusError where
  | error (message : String)
  | database (message : String)

variable (db : BusDatabase)

def receiptsOf (key : DeliveryKey) : List BusPublicationDeliveryReceipt :=
  db.receipts.filter fun receipt => receipt.key = key

/-- `deliveryOutcome(subscriberID)`: the terminal outcome of a delivery, or its last one. -/
def deliveryOutcome (key : DeliveryKey) : Option DeliveryOutcome :=
  let outcomes := (orderBy (·.timeCreated) (receiptsOf db key)).map (·.outcome)
  if .succeeded ∈ outcomes then some .succeeded
  else if .ignored ∈ outcomes then some .ignored
  else outcomes.getLast?

def isSettled (key : DeliveryKey) : Bool :=
  (receiptsOf db key).any fun receipt => receipt.outcome.isTerminal

/-- `phaseSettled(row, phase)` -/
def phaseSettled (occurrenceID : String) (phase : DurablePhase) : Bool :=
  (occurrenceID, phase) ∈ db.phaseReceipts

def durableRequests (occurrenceID : String) (phase : DurablePhase) : List String :=
  (db.requests.filter fun request =>
    request.key.occurrenceID = occurrenceID ∧ request.key.phase = phase ∧
      request.effectContract).map (·.key.subscriberID)

def insertReceipt (receipt : BusPublicationDeliveryReceipt) : Except BusError BusDatabase := do
  throwWhen (receipt.outcome.isTerminal ∧ isSettled db receipt.key)
    (.database "UNIQUE constraint failed: index 'bus_publication_delivery_terminal_idx'")
  return { db with receipts := db.receipts ++ [receipt] }

/-- A subscriber that an execution delivers to. -/
structure DurableTarget where
  id : String
  durable : Bool
  effectContract : Bool
deriving DecidableEq

def DurableTarget.settleFailure (target : DurableTarget) : Bool := !target.durable

def sweepStale (activeIDs : List String) (now : ℤ) (db : BusDatabase)
    (request : BusPublicationDelivery) : Except BusError BusDatabase :=
  if request.key.subscriberID ∈ activeIDs ∨ isSettled db request.key then return db
  else insertReceipt db { key := request.key, outcome := .ignored, error := none, timeCreated := now }

def registerTarget (occurrenceID : String) (phase : DurablePhase) (db : BusDatabase)
    (target : DurableTarget) : Except BusError BusDatabase := do
  let key : DeliveryKey := { occurrenceID := occurrenceID, phase := phase, subscriberID := target.id }
  throwWhen (target.durable ∧ ¬target.effectContract)
    (.error ("Durable Bus subscriber " ++ target.id ++ " must declare occurrenceID idempotency"))
  let conflict : BusError := .error ("Durable Bus subscriber " ++ target.id ++
    " changed its immutable delivery contract")
  match db.requests.find? fun request => request.key = key with
  | some request =>
    throwWhen (request.effectContract ≠ target.durable ∨ request.effectContract ≠ target.effectContract) conflict
    return db
  | none =>
    throwWhen (target.effectContract ≠ target.durable) conflict
    return { db with
      requests := db.requests ++ [{ key := key, effectContract := target.effectContract }] }

/-- The first transaction of an execution: sweep stale requests and register the targets. -/
def registerTargets (occurrenceID : String) (phase : DurablePhase) (targets : List DurableTarget) (now : ℤ) :
    Except BusError BusDatabase := do
  let stale := db.requests.filter fun request =>
    request.key.occurrenceID = occurrenceID ∧ request.key.phase = phase ∧ ¬request.effectContract
  let swept ← stale.foldlM (sweepStale (targets.map (·.id)) now) db
  targets.foldlM (registerTarget occurrenceID phase) swept

/-- The separator in the identity of a delivery. -/
def nul : String := String.singleton (Char.ofNat 0)

def DeliveryKey.deliveryID (key : DeliveryKey) : String :=
  key.occurrenceID ++ nul ++ key.phase.text ++ nul ++ key.subscriberID

def leaseClaim (ownerID leaseID : String) (key : DeliveryKey) (now : ℤ) : ControlLeaseClaim :=
  { target := .busDelivery, targetID := key.deliveryID, leaseID := leaseID,
    ownerOccurrenceID := ownerID, now := now }

def acquireInput (ownerID leaseID : String) (key : DeliveryKey) (now : ℤ) : AcquireControlLeaseInput :=
  { target := .busDelivery, targetID := key.deliveryID, ownerOccurrenceID := ownerID, now := now,
    leaseMilliseconds := 30000, leaseID := none, supersedeLeaseID := none, generatedID := leaseID }

def holdsLease (claim : ControlLeaseClaim) : Bool :=
  (currentControlLeaseInTransaction db.leases claim.target claim.targetID).any fun current =>
    claim.Holds current

def releaseLease (claim : ControlLeaseClaim) : BusDatabase :=
  { db with leases := (releaseControlLeaseInTransaction db.leases claim).2 }

def settleSucceeded (ownerID leaseID : String) (key : DeliveryKey) (now : ℤ) : Except BusError BusDatabase := do
  throwWhen (¬holdsLease db (leaseClaim ownerID leaseID key now))
    (.error ("Durable Bus delivery " ++ key.deliveryID ++ " lost its lease before receipt"))
  let db' ← insertReceipt db
    { key := key, outcome := .succeeded, error := none, timeCreated := now }
  return releaseLease db' (leaseClaim ownerID leaseID key now)

/-- What the transaction after a failed delivery found. -/
inductive FailureSettlement where
  | terminal
  | stale
  | written

def settleFailed (ownerID leaseID : String) (key : DeliveryKey) (settleFailure : Bool) (error : String) (now : ℤ) :
    Except BusError (BusDatabase × FailureSettlement) :=
  let claim := leaseClaim ownerID leaseID key now
  if isSettled db key then
    return (if holdsLease db claim then releaseLease db claim else db, .terminal)
  else if ¬holdsLease db claim then return (db, .stale)
  else do
    let db' ← insertReceipt db
      { key := key, outcome := if settleFailure then .ignored else .failed, error := some error,
        timeCreated := now }
    return (releaseLease db' claim, .written)

def settlePhase (occurrenceID : String) (phase : DurablePhase) : BusDatabase :=
  if (occurrenceID, phase) ∈ db.phaseReceipts then db
  else { db with phaseReceipts := db.phaseReceipts ++ [(occurrenceID, phase)] }

/-- Where an execution stands. -/
inductive DispatchStage where
  /-- It found the phase unsettled. -/
  | registering
  /-- It has targets left; something failed already. -/
  | delivering (rest : List DurableTarget) (failed : Bool)
  /-- It read the outcome of a delivery and goes on to lease it. -/
  | outcomeRead (target : DurableTarget) (rest : List DurableTarget) (failed : Bool)
      (prior : Option DeliveryOutcome)
  /-- It was granted the lease of a delivery and goes on to call the subscriber. -/
  | leased (target : DurableTarget) (leaseID : String) (rest : List DurableTarget) (failed : Bool)
  /-- The subscriber was called. -/
  | invoked (target : DurableTarget) (leaseID : String) (rest : List DurableTarget) (failed : Bool)
  /-- The delivery, or its receipt, failed. -/
  | rejected (target : DurableTarget) (leaseID : String) (rest : List DurableTarget) (failed : Bool)
  /-- It read the durable requests of the phase, and examines the outcome of each; one that it does not
  deliver to is pending. -/
  | examining (read todo : List String) (unavailable failed : Bool)
  | finished
deriving DecidableEq

structure DispatchExecution where
  ownerID : String
  occurrenceID : String
  phase : DurablePhase
  /-- The subscribers when it started. -/
  targets : List DurableTarget
  stage : DispatchStage

def DispatchExecution.key (execution : DispatchExecution) (subscriberID : String) : DeliveryKey :=
  { occurrenceID := execution.occurrenceID, phase := execution.phase, subscriberID := subscriberID }

/-- The lease that an execution was granted for its current delivery. -/
def DispatchStage.leaseID : DispatchStage → Option String
  | .leased _ leaseID _ _ => some leaseID
  | .invoked _ leaseID _ _ => some leaseID
  | .rejected _ leaseID _ _ => some leaseID
  | _ => none

def DispatchStage.leaseTarget : DispatchStage → Option DurableTarget
  | .leased target _ _ _ => some target
  | .invoked target _ _ _ => some target
  | .rejected target _ _ _ => some target
  | _ => none

inductive DispatchStep where
  | register (now : ℤ)
  | readOutcome
  | acquire (leaseID : String) (now : ℤ)
  /-- Call the subscriber. -/
  | invoke
  /-- The subscriber answered. -/
  | settle (now : ℤ)
  /-- The subscriber raised. -/
  | reject
  | settleFailure (error : String) (now : ℤ)
  | readRequests
  | readRequestOutcome
  | settlePhase

def advance (execution : DispatchExecution) : DispatchStage → DispatchStep → Option (BusDatabase × DispatchStage)
  | .registering, .register now =>
    match registerTargets db execution.occurrenceID execution.phase execution.targets now with
    | .ok db' => some (db', .delivering execution.targets false)
    | .error _ => some (db, .finished)
  | .delivering (target :: rest) failed, .readOutcome =>
    let prior := deliveryOutcome db (execution.key target.id)
    if prior = some .succeeded ∨ prior = some .ignored then some (db, .delivering rest failed)
    else some (db, .outcomeRead target rest failed prior)
  | .outcomeRead target rest failed _, .acquire leaseID now =>
    match acquireControlLeaseInTransaction db.leases
      (acquireInput execution.ownerID leaseID (execution.key target.id) now) with
    | .ok (⟨true, lease⟩, leases) =>
      some ({ db with leases := leases }, .leased target lease.id rest failed)
    | .ok (⟨false, _⟩, _) => some (db, .delivering rest true)
    | .error _ => some (db, .finished)
  | .leased target leaseID rest failed, .invoke => some (db, .invoked target leaseID rest failed)
  | .invoked target leaseID rest failed, .settle now =>
    match settleSucceeded db execution.ownerID leaseID (execution.key target.id) now with
    | .ok db' => some (db', .delivering rest failed)
    | .error _ => some (db, .rejected target leaseID rest failed)
  | .invoked target leaseID rest failed, .reject => some (db, .rejected target leaseID rest failed)
  | .rejected target leaseID rest failed, .settleFailure error now =>
    match settleFailed db execution.ownerID leaseID (execution.key target.id) target.settleFailure
      error now with
    | .ok (db', .terminal) => some (db', .delivering rest failed)
    | .ok (db', .stale) => some (db', .delivering rest true)
    | .ok (db', .written) => some (db', .delivering rest (failed || !target.settleFailure))
    | .error _ => some (db, .finished)
  | .delivering [] failed, .readRequests =>
    let read := durableRequests db execution.occurrenceID execution.phase
    some (db, .examining read read false failed)
  | .examining read (subscriberID :: todo) unavailable failed, .readRequestOutcome =>
    let outcome := deliveryOutcome db (execution.key subscriberID)
    let pending := outcome ≠ some .succeeded ∧ outcome ≠ some .ignored
    some (db, .examining read todo
      (unavailable || decide (pending ∧ subscriberID ∉ execution.targets.map (·.id))) failed)
  | .examining _ [] unavailable failed, .settlePhase =>
    if unavailable ∨ failed then some (db, .finished)
    else some (settlePhase db execution.occurrenceID execution.phase, .finished)
  | _, _ => none

structure BusWorld where
  db : BusDatabase
  executions : List DispatchExecution

inductive BusAction where
  /-- A durable occurrence is published. -/
  | publish (occurrenceID : String)
  /-- A runtime starts to execute a phase. -/
  | start (ownerID occurrenceID : String) (phase : DurablePhase) (targets : List DurableTarget)
  | advance (index : ℕ) (step : DispatchStep)
  /-- The renewal of a lease comes due. -/
  | renew (index : ℕ) (now : ℤ)
  /-- An execution stops for ever. -/
  | crash (index : ℕ)

def BusWorld.move (world : BusWorld) (index : ℕ) (execution : DispatchExecution) (db : BusDatabase)
    (stage : DispatchStage) : BusWorld :=
  { db := db, executions := world.executions.set index { execution with stage := stage } }

def busStep (world : BusWorld) : BusAction → Option BusWorld
  | .publish occurrenceID =>
    if occurrenceID ∈ world.db.outbox then none
    else some { world with db := { world.db with outbox := world.db.outbox ++ [occurrenceID] } }
  | .start ownerID occurrenceID phase targets =>
    if occurrenceID ∈ world.db.outbox ∧ ¬phaseSettled world.db occurrenceID phase then
      some { world with executions := world.executions ++
        [{ ownerID := ownerID, occurrenceID := occurrenceID, phase := phase, targets := targets,
           stage := .registering }] }
    else none
  | .advance index step =>
    match world.executions[index]? with
    | none => none
    | some execution =>
      (advance world.db execution execution.stage step).map fun next =>
        world.move index execution next.1 next.2
  | .renew index now =>
    match world.executions[index]? with
    | none => none
    | some execution =>
      match execution.stage.leaseID, execution.stage.leaseTarget with
      | some leaseID, some target =>
        match renewControlLeaseInTransaction world.db.leases
          (leaseClaim execution.ownerID leaseID (execution.key target.id) now) (now + 30000) with
        | .ok leases => some { world with db := { world.db with leases := leases } }
        | .error _ => some world
      | _, _ => none
  | .crash index =>
    match world.executions[index]? with
    | none => none
    | some execution => some (world.move index execution world.db .finished)

def BusWorld.initial : BusWorld :=
  { db := { outbox := [], requests := [], receipts := [], phaseReceipts := [],
            leases := { leases := [], grants := [] } }
    executions := [] }

end OpenCorvus.Bus
