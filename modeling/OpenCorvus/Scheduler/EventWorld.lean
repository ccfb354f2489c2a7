import OpenCorvus.Scheduler.EventService

/-!
# The Event service as a system

Any number of runtimes share the store and one clock that does not go back.  A label is one transaction or one read.
An execution stands for a fire that a runtime has claimed, with what it has read; a runtime has one execution of a
fire at a time, and an execution may end at any point.
-/

namespace OpenCorvus.Scheduler

open Transaction

structure EventExecution where
  /-- The fire as it was claimed. -/
  fire : EventJobFireRow
  ownerID : String
  /-- The wake Message that it looked for. -/
  existing : Option (Option String)
  /-- The definition that it resolved. -/
  job : Option (Option EventJobRow)
  /-- The target may be woken: it is not closed, not a cycle and not deleted. -/
  admitted : Bool
  /-- The answer to whether the definition is ready. -/
  ready : Option Bool
  /-- It has committed the wake Message. -/
  committed : Bool
  /-- The wake Message with which the fire succeeds. -/
  woken : Option String
  /-- An error was raised, and this is the wake Message that was found then. -/
  failed : Option (Option String)
deriving DecidableEq

def startEventExecution (fire : EventJobFireRow) (ownerID : String) : EventExecution :=
  ⟨fire, ownerID, none, none, false, none, false, none, none⟩

structure EventWakeCommit where
  fireID : String
  definitionID : String
  queuePosition : ℕ
  ownerID : String
  committedAt : ℤ

structure EventDecision where
  fireID : String
  definitionID : String
  queuePosition : ℕ
  cooldownMs : ℕ
  ready : Bool
  decidedAt : ℤ

/-- The state of the system. -/
structure EventWorld where
  store : EventStore
  clock : ℤ
  executions : List EventExecution
  /-- The wake Messages that were committed, in order. -/
  commits : List EventWakeCommit
  /-- The decisions that were taken, in order. -/
  decisions : List EventDecision

/-- What may happen.  Ids that a label carries are those that the transaction generates. -/
inductive EventAction where
  | tick (now : ℤ)
  | publish (publication : EventPublication)
  | create (input : CreateEventJobInput)
  | remove (id projectID tombstoneID : String)
  | accept (projectID : String) (event : EventEnvelope) (inputs : String → EventFireInput)
  | claim (fireID ownerID leaseID : String)
  | renew (execution : EventExecution)
  | lookForWake (execution : EventExecution)
  | resolveJob (execution : EventExecution)
  /-- The target is not closed, not a cycle and not deleted. -/
  | admitExecution (execution : EventExecution)
  | closeMission (execution : EventExecution) (closureEventID receiptID : String)
  | breakCycle (execution : EventExecution) (receiptID : String)
  | dropDeletedTarget (execution : EventExecution) (receiptID : String)
  | resumeWake (execution : EventExecution)
  | disable (execution : EventExecution) (receiptID : String)
  /-- Whether the cooldown has elapsed. -/
  | decide (execution : EventExecution)
  | suppress (execution : EventExecution) (receiptID : String)
  | createTargetSession (execution : EventExecution)
  | commitWake (execution : EventExecution)
  | confirmWake (execution : EventExecution)
  | succeed (execution : EventExecution) (receiptID : String)
  | raise (execution : EventExecution)
  | reconcileWake (execution : EventExecution)
  | retry (execution : EventExecution) (message receiptID : String)
  /-- The execution ends without another transaction. -/
  | leave (execution : EventExecution)
  | createSession (session : AutomationSession)
  | appendEvent (event : MissionEvent)
  /-- Remove the row and the Messages of a Session that is deleted. -/
  | purgeSession (sessionID : String)

section Reads

variable (store : EventStore) (fire : EventJobFireRow)

def ClosedForFire (closureEventID : String) : Prop :=
  store.missionView.IsMission fire.targetSessionID ∧
    match fire.mission with
    | .closed storedID => closureEventID = storedID
    | _ => (closureEvent store.missionView closureEventID fire.targetSessionID).isSome

instance (fire : EventJobFireRow) (closureEventID : String) :
    Decidable (ClosedForFire store fire closureEventID) := by
  unfold ClosedForFire
  split <;> infer_instance

def ReservedClosed : Prop :=
  store.missionView.IsMission fire.targetSessionID ∧
    match fire.mission with
    | .closed _ => True
    | _ => False

instance (fire : EventJobFireRow) : Decidable (ReservedClosed store fire) := by
  unfold ReservedClosed
  split <;> infer_instance

def SessionStands (sessionID : String) : Prop :=
  (∃ session ∈ store.sessions, session.id = sessionID) ∧ ¬sessionDeletedInTransaction store sessionID

instance (sessionID : String) : Decidable (SessionStands store sessionID) :=
  inferInstanceAs (Decidable (_ ∧ _))

def resolveEventJob : Except EventServiceError (Option EventJobRow) :=
  match store.jobs.find? fun job => job.id = fire.eventJobRevisionID ∧ job.projectID = fire.projectID with
  | none => .ok none
  | some persisted => do
    let job ← projectEventJobForFireInTransaction store persisted fire.toEventJobFire
    return some job

def MissionsAnswer (inputs : String → EventFireInput) : Prop :=
  ∀ job ∈ store.jobs, ∀ mission ∈ (inputs job.id).mission.toOption,
    MissionReserved store.missionView job.sessionID mission

instance (inputs : String → EventFireInput) : Decidable (MissionsAnswer store inputs) :=
  inferInstanceAs (Decidable (∀ job ∈ store.jobs, ∀ mission ∈ (inputs job.id).mission.toOption, _))

end Reads

variable (execution : EventExecution)

def EventExecution.MayClose : Prop :=
  execution.failed.isSome ∨ execution.job.isSome ∧ execution.admitted = false

instance (execution : EventExecution) : Decidable execution.MayClose :=
  inferInstanceAs (Decidable (_ ∨ _))

/-- The execution has found no wake Message, and goes on to look at its definition. -/
def EventExecution.MayDecide : Prop :=
  execution.failed = none ∧ execution.admitted = true ∧ execution.existing = some none ∧ execution.ready = none

instance (execution : EventExecution) : Decidable execution.MayDecide :=
  inferInstanceAs (Decidable (_ ∧ _))

def EventExecution.activeJob : Option EventJobRow :=
  execution.job.join.filter fun job => job.enabled

def EventExecution.Waking : Prop :=
  execution.failed = none ∧ execution.ready = some true ∧ execution.committed = false

instance (execution : EventExecution) : Decidable execution.Waking :=
  inferInstanceAs (Decidable (_ ∧ _))

def EventExecution.decision (job : EventJobRow) (now : ℤ) : EventDecision where
  fireID := execution.fire.id
  definitionID := execution.fire.definitionID
  queuePosition := execution.fire.queuePosition
  cooldownMs := job.cooldownMs
  ready := Scheduler.ready job now
  decidedAt := now

section Wakes

variable [EventPayloads]

def EventExecution.wakeMessage (execution : EventExecution) : EventWakeMessage where
  id := deterministicEventWakeID execution.fire.id
  sessionID := execution.fire.targetSessionID
  fireID := execution.fire.id

def commitEventWake (store : EventStore) (execution : EventExecution) (now : ℤ) :
    Except EventServiceError EventStore := do
  throwWhen (∀ session ∈ store.sessions, session.id ≠ execution.fire.targetSessionID)
    (.database "FOREIGN KEY constraint failed")
  let written := store.upsertMessage execution.wakeMessage
  fenceEventWakeCommit written execution.fire.id execution.ownerID execution.fire.targetSessionID now
  return written

end Wakes

namespace EventWorld

variable (w : EventWorld)

def withStore (store : EventStore) : EventWorld := { w with store := store }

def advance (execution next : EventExecution) : EventWorld :=
  { w with executions := w.executions.erase execution ++ [next] }

def finish (execution : EventExecution) : EventWorld :=
  { w with executions := w.executions.erase execution }

def settled (execution : EventExecution) (x : Except EventServiceError (Bool × EventStore)) : Option EventWorld :=
  x.toOption.map fun answer => (w.withStore answer.2).finish execution

end EventWorld

section Steps

variable [EventPayloads]

/-- What a label does; a transaction that raises changes nothing. -/
def eventServiceStep (w : EventWorld) : EventAction → Option EventWorld
  | .tick now => if w.clock ≤ now then some { w with clock := now } else none
  | .publish publication =>
    if ∀ other ∈ w.store.outbox, other.occurrenceID ≠ publication.occurrenceID then
      some (w.withStore { w.store with outbox := w.store.outbox ++ [publication] })
    else none
  | .create input => (createEventJob w.store input).toOption.map w.withStore
  | .remove id projectID tombstoneID =>
    (removeEventJob w.store id projectID tombstoneID).toOption.map fun answer => w.withStore answer.2
  | .accept projectID event inputs =>
    if MissionsAnswer w.store inputs then
      (accept w.store projectID event inputs w.clock).toOption.map fun acceptance =>
        w.withStore acceptance.store
    else none
  | .claim fireID ownerID leaseID =>
    if ∀ execution ∈ w.executions, execution.ownerID = ownerID → execution.fire.id ≠ fireID then do
      let (claimed, store) ← (claimFire w.store fireID ownerID leaseID w.clock).toOption
      match claimed with
      | none => some (w.withStore store)
      | some fire => some { w.withStore store with
          executions := w.executions ++ [startEventExecution fire ownerID] }
    else none
  | .renew execution =>
    if execution ∈ w.executions then
      (renewFireLease w.store execution.fire.id execution.ownerID w.clock).toOption.map fun answer =>
        w.withStore answer.2
    else none
  | .lookForWake execution =>
    if execution ∈ w.executions ∧ execution.failed = none ∧ execution.existing = none then
      (findWakeMessageID w.store execution.fire).toOption.map fun found =>
        w.advance execution { execution with existing := some found }
    else none
  | .resolveJob execution =>
    if execution ∈ w.executions ∧ execution.failed = none ∧ execution.existing.isSome ∧ execution.job = none then
      (resolveEventJob w.store execution.fire).toOption.map fun job =>
        w.advance execution { execution with job := some job }
    else none
  | .admitExecution execution =>
    if execution ∈ w.executions ∧ execution.failed = none ∧ execution.job.isSome ∧
        ¬ReservedClosed w.store execution.fire ∧ execution.fire.causalCycle = false ∧
        ¬sessionDeletedInTransaction w.store execution.fire.targetSessionID then
      some (w.advance execution { execution with admitted := true })
    else none
  | .closeMission execution closureEventID receiptID =>
    if execution ∈ w.executions ∧ execution.MayClose ∧ ClosedForFire w.store execution.fire closureEventID then
      w.settled execution (settleDisposition w.store execution.fire execution.ownerID
        (.missionClosed closureEventID) none receiptID w.clock)
    else none
  | .breakCycle execution receiptID =>
    if execution ∈ w.executions ∧ execution.failed = none ∧ execution.job.isSome ∧
        execution.fire.causalCycle = true then
      w.settled execution (settleDisposition w.store execution.fire execution.ownerID
        .causalCycle (some "Event causation cycle") receiptID w.clock)
    else none
  | .dropDeletedTarget execution receiptID =>
    if execution ∈ w.executions ∧ execution.MayClose ∧
        sessionDeletedInTransaction w.store execution.fire.targetSessionID then
      w.settled execution (settleDisposition w.store execution.fire execution.ownerID
        .targetDeleted none receiptID w.clock)
    else none
  | .resumeWake execution =>
    match execution.existing.join with
    | some messageID =>
      if execution ∈ w.executions ∧ execution.failed = none ∧ execution.admitted = true ∧
          SessionStands w.store execution.fire.targetSessionID then
        some (w.advance execution { execution with woken := some messageID })
      else none
    | none => none
  | .disable execution receiptID =>
    if execution ∈ w.executions ∧ execution.MayDecide ∧ execution.activeJob = none then
      w.settled execution (settleDisposition w.store execution.fire execution.ownerID
        .jobDisabled (some "Event Job is no longer enabled") receiptID w.clock)
    else none
  | .decide execution =>
    match execution.activeJob with
    | some job =>
      if execution ∈ w.executions ∧ execution.MayDecide then
        some { w.advance execution { execution with ready := some (ready job w.clock) } with
          decisions := w.decisions ++ [execution.decision job w.clock] }
      else none
    | none => none
  | .suppress execution receiptID =>
    if execution ∈ w.executions ∧ execution.failed = none ∧ execution.ready = some false then
      w.settled execution (settleDisposition w.store execution.fire execution.ownerID
        .cooldown (some "Event Job cooldown has not elapsed") receiptID w.clock)
    else none
  | .createTargetSession execution =>
    if execution ∈ w.executions ∧ execution.Waking ∧ execution.fire.createsSession = true ∧
        ∀ session ∈ w.store.sessions, session.id ≠ execution.fire.targetSessionID then
      some (w.withStore { w.store with
        sessions := w.store.sessions ++ [⟨execution.fire.targetSessionID, false⟩] })
    else none
  | .commitWake execution =>
    if execution ∈ w.executions ∧ execution.Waking then
      (commitEventWake w.store execution w.clock).toOption.map fun store =>
        { (w.withStore store).advance execution { execution with committed := true } with
          commits := w.commits ++ [⟨execution.fire.id, execution.fire.definitionID,
            execution.fire.queuePosition, execution.ownerID, w.clock⟩] }
    else none
  | .confirmWake execution =>
    if execution ∈ w.executions ∧ execution.failed = none ∧ execution.committed = true ∧
        (findWakeMessageID w.store execution.fire).toOption =
          some (some (deterministicEventWakeID execution.fire.id)) then
      some (w.advance execution
        { execution with woken := some (deterministicEventWakeID execution.fire.id) })
    else none
  | .succeed execution receiptID =>
    match execution.woken with
    | some messageID =>
      if execution ∈ w.executions then
        (settleSuccess w.store execution.fire execution.ownerID execution.fire.targetSessionID messageID
          receiptID w.clock).toOption.map fun store => (w.withStore store).finish execution
      else none
    | none => none
  | .raise execution =>
    if execution ∈ w.executions ∧ execution.failed = none then
      (findWakeMessageID w.store execution.fire).toOption.map fun found =>
        w.advance execution { execution with failed := some found, woken := none }
    else none
  | .reconcileWake execution =>
    match execution.failed.join with
    | some messageID =>
      if execution ∈ w.executions ∧ SessionStands w.store execution.fire.targetSessionID then
        some (w.advance execution { execution with woken := some messageID })
      else none
    | none => none
  | .retry execution message receiptID =>
    if execution ∈ w.executions ∧ execution.failed = some none then
      w.settled execution (scheduleRetry w.store execution.fire execution.ownerID message receiptID w.clock)
    else none
  | .leave execution => if execution ∈ w.executions then some (w.finish execution) else none
  | .createSession session =>
    if ∀ other ∈ w.store.sessions, other.id ≠ session.id then
      some (w.withStore { w.store with sessions := w.store.sessions ++ [session] })
    else none
  | .appendEvent event =>
    if ∀ other ∈ w.store.events, other.id ≠ event.id then
      some (w.withStore { w.store with events := w.store.events ++ [event] })
    else none
  | .purgeSession sessionID =>
    if sessionDeletedInTransaction w.store sessionID then
      some (w.withStore { w.store with
        sessions := w.store.sessions.filter fun session => session.id ≠ sessionID
        messages := w.store.messages.filter fun message => message.sessionID ≠ sessionID })
    else none

end Steps

/-- Before anything was created. -/
def initialEventWorld (clock : ℤ) : EventWorld where
  store := ⟨[], [], [], [], [], [], ⟨[], []⟩, [], [], []⟩
  clock := clock
  executions := []
  commits := []
  decisions := []

end OpenCorvus.Scheduler
