import OpenCorvus.Scheduler.SessionDelay
import OpenCorvus.Scheduler.AutomationWakeFence

/-!
# The Automation service as a system

Any number of processes share the store and one clock that does not go back.  A label is one transaction, or
a read of an execution; executions stand for what a process has read and claimed, and between two of its
transactions any other label may happen.  An execution that crashes takes no further step.
-/

namespace OpenCorvus.Scheduler

open EcmaScript UniqueIndex Engine

def ReceiptsAscend (store : AutomationStore) : Prop :=
  ∀ run ∈ store.runs, (store.receiptsOf run.id).Pairwise fun earlier later => earlier.orderKey < later.orderKey

instance (store : AutomationStore) : Decidable (ReceiptsAscend store) :=
  inferInstanceAs (Decidable (∀ run ∈ store.runs, _))

structure AutomationStore.Constraints (store : AutomationStore) : Prop where
  definitionIDs : PrimaryKey AutomationDefinition.id store.definitions
  revisions : PrimaryKey (fun row : AutomationDefinition => (row.definitionID, row.revision)) store.definitions
  fireIDs : PrimaryKey AutomationFire.id store.fires
  scheduled : Unique scheduledKey store.fires
  toolParts : PrimaryKey AutomationToolFire.toolPartID store.toolFires
  attemptIDs : PrimaryKey AutomationFireAttempt.id store.attempts
  attemptReceipts : PrimaryKey AutomationFireAttemptReceipt.attemptID store.attemptReceipts
  runIDs : PrimaryKey AutomationRun.id store.runs
  runReceiptIDs : PrimaryKey AutomationRunReceipt.id store.runReceipts
  receiptsAscend : ReceiptsAscend store
  frontiers : PrimaryKey AutomationFireFrontier.definitionID store.frontiers
  frontierFires : PrimaryKey AutomationFireFrontier.fireID store.frontiers
  messageIDs : PrimaryKey AutomationMessage.id store.messages

instance (store : AutomationStore) : Decidable store.Constraints :=
  decidable_of_iff ((PrimaryKey AutomationDefinition.id store.definitions ∧
      PrimaryKey (fun row : AutomationDefinition => (row.definitionID, row.revision)) store.definitions ∧
      PrimaryKey AutomationFire.id store.fires ∧ Unique scheduledKey store.fires ∧
      PrimaryKey AutomationToolFire.toolPartID store.toolFires ∧
      PrimaryKey AutomationFireAttempt.id store.attempts) ∧
      PrimaryKey AutomationFireAttemptReceipt.attemptID store.attemptReceipts ∧
      PrimaryKey AutomationRun.id store.runs ∧ PrimaryKey AutomationRunReceipt.id store.runReceipts ∧
      ReceiptsAscend store ∧ PrimaryKey AutomationFireFrontier.definitionID store.frontiers ∧
      PrimaryKey AutomationFireFrontier.fireID store.frontiers ∧
      PrimaryKey AutomationMessage.id store.messages)
    ⟨fun ⟨⟨a, b, c, d, e, f⟩, g, h, i, j, k, l, m⟩ => ⟨a, b, c, d, e, f, g, h, i, j, k, l, m⟩,
      fun ⟨a, b, c, d, e, f, g, h, i, j, k, l, m⟩ => ⟨⟨a, b, c, d, e, f⟩, g, h, i, j, k, l, m⟩⟩

structure RunningExecution where
  execution : AutomationExecution
  /-- The targets that it resolved. -/
  targets : List ExecutionTarget
  /-- Its targets are reserved. -/
  reserved : Bool
  /-- The wake identities under which it found no Message. -/
  absent : List String
  /-- The wake identities under which it found a Message or committed one. -/
  woken : List String
deriving DecidableEq

def startExecution (job : AutomationRow) (owner : String) (now : ℤ) : RunningExecution :=
  ⟨⟨job, owner, now⟩, [], false, [], []⟩

structure WakeCommit where
  definitionID : String
  fireID : String
  identityID : String
  messageID : String
  owner : String
  lease : ControlLease
  committedAt : ℤ
deriving DecidableEq

/-- The state of the system. -/
structure AutomationWorld where
  store : AutomationStore
  clock : ℤ
  executions : List RunningExecution
  /-- The manual runs that Tools have reserved and not started, with their owners. -/
  toolClaims : List (ManualToolClaim × String × ℤ)
  /-- The wake Messages that were committed, in order. -/
  commits : List WakeCommit
deriving DecidableEq

def SessionWakeReason.isAutomation : SessionWakeReason → Bool
  | schedulerAutomation _ _ => true
  | _ => false

/-- What may happen.  Functions and ids that a label carries are those that the transaction generates. -/
inductive AutomationAction where
  | tick (now : ℤ)
  | create (input : CreateAutomationInput)
  | createDelay (input : CreateDelayedSessionWakeInput)
  | update (input : UpdateAutomationInput)
  | remove (id tombstoneID : String)
  | claim (input : ClaimInput)
  | runNowFromTool (input : ManualToolInput)
  /-- A reserved manual run reads its row and starts. -/
  | startToolRun (reserved : ManualToolClaim × String × ℤ)
  | resolveTargets (running : RunningExecution)
  | reserve (running : RunningExecution) (missions : List StoredMissionReservation) (receiptID : String → String)
  | reserveDelay (running : RunningExecution) (mission : StoredMissionReservation) (tombstoneID receiptID : String)
  | settleDeletedTarget (running : RunningExecution) (tombstoneID receiptID : String)
  | settleMissionClosed (running : RunningExecution) (closureEventID tombstoneID receiptID : String)
  | lookForWake (running : RunningExecution) (target : ExecutionTarget)
  | commitWake (running : RunningExecution) (target : ExecutionTarget) (pendingDelivery : Bool)
  | settle (running : RunningExecution) (results : List TargetResult) (receiptID : String → String)
  | complete (running : RunningExecution) (tombstoneID receiptID : String)
  | fail (running : RunningExecution) (message tombstoneID : String) (receiptID : String → String)
  | renew (running : RunningExecution)
  | crash (running : RunningExecution)
  | accept (input : AssistantAcceptance) (receiptID : String → String)
  | insertMessage (message : AutomationMessage)
  | createSession (session : AutomationSession)
  | deleteSession (sessionID : String)
  | appendEvent (event : MissionEvent)
  | setProjects (projects : List String)

def AutomationExecution.delayTarget (execution : AutomationExecution) : ExecutionTarget where
  scope := .session
  projectID := execution.job.row.projectID
  sessionID := execution.job.row.sessionID
  targetDeleted := false

def RunningExecution.Aims (running : RunningExecution) (target : ExecutionTarget) : Prop :=
  if running.execution.job.row.IsDelay then target = running.execution.delayTarget
  else target ∈ running.targets

instance (running : RunningExecution) (target : ExecutionTarget) : Decidable (running.Aims target) := by
  unfold RunningExecution.Aims
  split_ifs <;> infer_instance

section Wakes

variable [AutomationHashes] (execution : AutomationExecution) (target : ExecutionTarget)

def AutomationExecution.wakeIdentity : String :=
  targetRunID execution.fireID target

def AutomationExecution.wakeRunID : String :=
  if execution.job.row.IsDelay then delayRunID execution.fireID else targetRunID execution.fireID target

def AutomationExecution.wakeMessage (pendingDelivery : Bool) : AutomationMessage where
  id := wakeMessageID (execution.wakeIdentity target)
  sessionID := automationTargetSessionID target (execution.wakeIdentity target)
  isUser := true
  pendingDelivery := pendingDelivery
  wake := some (.schedulerAutomation execution.definitionID execution.fireID)

variable (store : AutomationStore)

def ExactWake (execution : AutomationExecution) (target : ExecutionTarget) : Prop :=
  ∃ message ∈ store.messages, message.id = (execution.wakeMessage target false).id ∧
    message.sessionID = (execution.wakeMessage target false).sessionID ∧
    message.wake = (execution.wakeMessage target false).wake

instance (store : AutomationStore) (execution : AutomationExecution) (target : ExecutionTarget) :
    Decidable (ExactWake store execution target) :=
  inferInstanceAs (Decidable (∃ message ∈ store.messages, _))

def AutomationExecution.commitInput (target : ExecutionTarget) (now : ℤ) : WakeCommitInput where
  automationID := execution.definitionID
  runID := some (execution.wakeRunID target)
  owner := execution.owner
  sessionID := (execution.wakeMessage target false).sessionID
  now := now

/-- Insert a Message, or replace its data. -/
def AutomationStore.upsertMessage (message : AutomationMessage) : AutomationStore :=
  if ∃ other ∈ store.messages, other.id = message.id then
    { store with messages := store.messages.map fun other =>
        if other.id = message.id then { message with sessionID := other.sessionID } else other }
  else { store with messages := store.messages ++ [message] }

def commitWakeMessage (execution : AutomationExecution) (target : ExecutionTarget) (pendingDelivery : Bool)
    (now : ℤ) : Except AutomationServiceError AutomationStore := do
  let written := store.upsertMessage (execution.wakeMessage target pendingDelivery)
  fenceAutomationWakeCommit written.toAutomationDatabase (execution.commitInput target now)
  return written

def TargetResult.Allowed (running : RunningExecution) (target : ExecutionTarget) : TargetResult → Prop
  | succeeded => running.execution.wakeIdentity target ∈ running.woken ∨
      ∃ receipt ∈ store.receiptsOf (running.execution.wakeRunID target), receipt.outcome = .succeeded
  | targetDeleted => ∃ receipt ∈ store.receiptsOf (running.execution.wakeRunID target),
      receipt.outcome = .disposition .targetDeleted
  | missionClosed closureEventID => ∃ event ∈ store.events, event.id = closureEventID
  | rejected _ => True

instance (store : AutomationStore) (running : RunningExecution) (target : ExecutionTarget)
    (result : TargetResult) : Decidable (result.Allowed store running target) := by
  cases result <;> unfold TargetResult.Allowed <;> infer_instance

end Wakes

def committed (x : Except AutomationServiceError AutomationStore) : Option AutomationStore :=
  x.toOption.filter fun store => store.Constraints

def ForcesPublic (w : AutomationWorld) (input : ClaimInput) : Prop :=
  input.force = true → ∀ row ∈ w.store.definitions, row.definitionID = input.id → ¬row.IsDelay

instance (w : AutomationWorld) (input : ClaimInput) : Decidable (ForcesPublic w input) :=
  inferInstanceAs (Decidable (_ → ∀ row ∈ w.store.definitions, _))

/-- The new leases are not under the owner of an unfinished execution of the definition, unless that is one of
the same fire: the owner of a claim is generated, and that of a manual run names its Tool part. -/
def FreshOwners (w : AutomationWorld) (fireID : Option String) (store : AutomationStore) : Prop :=
  ∀ lease ∈ store.leases.leases, (∀ other ∈ w.store.leases.leases, other.id ≠ lease.id) →
    (∀ running ∈ w.executions, running.execution.definitionID = lease.targetID →
      running.execution.owner = lease.ownerOccurrenceID → some running.execution.fireID = fireID) ∧
    ∀ reserved ∈ w.toolClaims, reserved.1.definition.definitionID = lease.targetID →
      reserved.2.1 = lease.ownerOccurrenceID → some reserved.1.fire.id = fireID

instance (w : AutomationWorld) (fireID : Option String) (store : AutomationStore) :
    Decidable (FreshOwners w fireID store) :=
  inferInstanceAs (Decidable (∀ lease ∈ store.leases.leases, _ → _))

namespace AutomationWorld

variable (w : AutomationWorld)

def withStore (store : AutomationStore) : AutomationWorld := { w with store := store }

def advance (running next : RunningExecution) : AutomationWorld :=
  { w with executions := w.executions.erase running ++ [next] }

def finish (running : RunningExecution) : AutomationWorld :=
  { w with executions := w.executions.erase running }

def start (running : RunningExecution) : AutomationWorld :=
  { w with executions := w.executions ++ [running] }

end AutomationWorld

section Steps

variable [Collation] [RecurrenceRules] [AutomationHashes]

/-- What a label does; a transaction that raises changes nothing. -/
def automationServiceStep (w : AutomationWorld) : AutomationAction → Option AutomationWorld
  | .tick now => if w.clock ≤ now then some { w with clock := now } else none
  | .create input =>
    if input.target.IsPublic then (committed (createAutomation w.store input w.clock)).map w.withStore
    else none
  | .createDelay input => (committed (createDelayedSessionWake w.store input w.clock)).map w.withStore
  | .update input =>
    if input.target.IsPublic then do
      let updated ← (updateAutomation w.store input w.clock).toOption
      let store ← updated
      if store.Constraints then some (w.withStore store) else none
    else none
  | .remove id tombstoneID => do
    let removed ← (removeAutomation w.store id tombstoneID w.clock).toOption
    let store ← removed
    if store.Constraints then some (w.withStore store) else none
  | .claim input => do
    let (job, store) ← (claim w.store input w.clock).toOption
    if store.Constraints ∧ FreshOwners w none store ∧ ForcesPublic w input ∧ input.manualFireID ≠ "" then
      match job with
      | none => some (w.withStore store)
      | some job => some ((w.withStore store).start (startExecution job input.owner w.clock))
    else none
  | .runNowFromTool input => do
    let (reserved, store) ← (runNowFromTool w.store input w.clock).toOption
    if store.Constraints ∧ FreshOwners w (some (manualFireID input.toolPartID)) store then
      match reserved with
      | none => some (w.withStore store)
      | some reserved => some { w.withStore store with
          toolClaims := w.toolClaims ++ [(reserved, input.owner, w.clock)] }
    else none
  | .startToolRun reserved =>
    if reserved ∈ w.toolClaims then do
      let job ← (manualToolJob w.store reserved.1).toOption
      some ({ w with toolClaims := w.toolClaims.erase reserved }.start
        (startExecution job reserved.2.1 reserved.2.2))
    else none
  | .resolveTargets running =>
    if running ∈ w.executions ∧ ¬running.execution.job.row.IsDelay ∧ running.reserved = false then do
      let targets ← (executionTargets w.store running.execution.job.row).toOption
      some (w.advance running { running with targets := targets })
    else none
  | .reserve running missions receiptID =>
    if running ∈ w.executions ∧ ¬running.execution.job.row.IsDelay ∧ running.targets ≠ [] ∧
        running.reserved = false ∧ missions.length = running.targets.length ∧
        ∀ entry ∈ running.targets.zip missions,
          MissionReserved w.store.toAutomationDatabase entry.1.sessionID entry.2 then do
      let (settled, store) ← (reserveRecurring w.store running.execution
        (running.targets.zipWith TargetReservation.mk missions) receiptID w.clock).toOption
      if store.Constraints then
        if settled then some ((w.withStore store).finish running)
        else some ((w.withStore store).advance running { running with reserved := true })
      else none
    else none
  | .reserveDelay running mission tombstoneID receiptID =>
    if running ∈ w.executions ∧ running.execution.job.row.IsDelay ∧ running.reserved = false ∧
        MissionReserved w.store.toAutomationDatabase running.execution.job.row.sessionID mission then
      (committed (reserveDelay w.store running.execution mission tombstoneID receiptID w.clock)).map fun store =>
        (w.withStore store).advance running { running with reserved := true }
    else none
  | .settleDeletedTarget running tombstoneID receiptID =>
    if running ∈ w.executions ∧ running.execution.job.row.IsDelay ∧ running.reserved = false ∧
        ∀ session ∈ w.store.sessions, some session.id ≠ running.execution.job.row.sessionID then
      (committed (settleDeletedDelayTarget w.store running.execution tombstoneID receiptID w.clock)).map
        fun store => (w.withStore store).finish running
    else none
  | .settleMissionClosed running closureEventID tombstoneID receiptID =>
    if running ∈ w.executions ∧ running.execution.job.row.IsDelay ∧ running.reserved = true then
      (committed (settleAutomationMissionClosed w.store running.execution closureEventID tombstoneID receiptID
        w.clock)).map fun store => (w.withStore store).finish running
    else none
  | .lookForWake running target =>
    if running ∈ w.executions ∧ running.reserved = true ∧ running.Aims target then
      let identity := running.execution.wakeIdentity target
      if ExactWake w.store running.execution target then
        some (w.advance running { running with woken := running.woken ++ [identity] })
      else some (w.advance running { running with absent := running.absent ++ [identity] })
    else none
  | .commitWake running target pendingDelivery =>
    let identity := running.execution.wakeIdentity target
    if running ∈ w.executions ∧ running.reserved = true ∧ running.Aims target ∧ identity ∈ running.absent ∧
        identity ∉ running.woken then do
      let store ← committed (commitWakeMessage w.store running.execution target pendingDelivery w.clock)
      let lease ← automationLease w.store.toAutomationDatabase running.execution.definitionID
      some { (w.withStore store).advance running { running with woken := running.woken ++ [identity] } with
        commits := w.commits ++ [⟨running.execution.definitionID, running.execution.fireID, identity,
          wakeMessageID identity, running.execution.owner, lease, w.clock⟩] }
    else none
  | .settle running results receiptID =>
    if running ∈ w.executions ∧ ¬running.execution.job.row.IsDelay ∧ running.reserved = true ∧
        results.length = running.targets.length ∧
        ∀ entry ∈ running.targets.zip results, entry.2.Allowed w.store running entry.1 then
      (committed (settleRecurring w.store running.execution (running.targets.zip results) receiptID
        w.clock)).map fun store => (w.withStore store).finish running
    else none
  | .complete running tombstoneID receiptID =>
    if running ∈ w.executions ∧ running.execution.job.row.IsDelay ∧ running.reserved = true ∧
        running.execution.wakeIdentity running.execution.delayTarget ∈ running.woken then
      (committed (completeDelay w.store running.execution tombstoneID receiptID w.clock)).map fun store =>
        (w.withStore store).finish running
    else none
  | .fail running message tombstoneID receiptID =>
    if running ∈ w.executions then
      (committed (fail w.store running.execution message tombstoneID receiptID w.clock)).map fun store =>
        (w.withStore store).finish running
    else none
  | .renew running =>
    if running ∈ w.executions then (committed (renew w.store running.execution w.clock)).map w.withStore
    else none
  | .crash running => if running ∈ w.executions then some (w.finish running) else none
  | .accept input receiptID =>
    (committed (beginAssistantReplyWithCommit w.store input receiptID w.clock)).map w.withStore
  | .insertMessage message =>
    if message.wake.any SessionWakeReason.isAutomation = false then
      (committed (.ok { w.store with messages := w.store.messages ++ [message] })).map w.withStore
    else none
  | .createSession session =>
    if (∀ other ∈ w.store.sessions, other.id ≠ session.id) ∧
        ∀ definition ∈ w.store.definitions, definition.sessionID ≠ some session.id then
      some (w.withStore { w.store with sessions := w.store.sessions ++ [session] })
    else none
  | .deleteSession sessionID =>
    if ¬w.store.IsMission sessionID then
      some (w.withStore { w.store with
        sessions := w.store.sessions.filter fun session => session.id ≠ sessionID
        messages := w.store.messages.filter fun message => message.sessionID ≠ sessionID })
    else none
  | .appendEvent event =>
    if ∀ other ∈ w.store.events, other.id ≠ event.id then
      some (w.withStore { w.store with events := w.store.events ++ [event] })
    else none
  | .setProjects projects => some (w.withStore { w.store with projects := projects })

end Steps

/-- Before anything was created. -/
def emptyAutomationStore : AutomationStore where
  toAutomationDatabase := emptyAutomations
  frontiers := []
  admissions := []
  toolFires := []
  projectTargets := []
  projects := []
  settlements := []
  messages := []

/-- The first state. -/
def initialAutomationWorld (clock : ℤ) : AutomationWorld := ⟨emptyAutomationStore, clock, [], [], []⟩

end OpenCorvus.Scheduler
