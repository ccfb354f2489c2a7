import Mathlib.Algebra.Group.Int.Defs
import OpenCorvus.Scheduler.AutomationStore

/-!
# The transactions of the Automation service

Definitions are created, revised and deleted; a fire is claimed under the lease of its definition, reserves a run for
each of its targets, wakes them, and is settled, or its failure is recorded.  Each of these is one transaction, with
asynchronous work in between.
-/

namespace OpenCorvus.Scheduler

open EcmaScript Transaction Engine

def LEASE_MS : ℤ := 120000

def HEARTBEAT_BUSY_RETRY_MS : ℤ := 30000

def MAX_BACKOFF_MS : ℤ := 300000

def MAX_FIRE_ATTEMPTS : ℕ := 5

/-- When the attempt after a failed one may start. -/
def automationRetryAt (step : ℕ) (now : ℤ) : ℤ := now + min MAX_BACKOFF_MS (1000 * 2 ^ min step 30)

inductive AutomationTarget where
  | session (sessionID : String)
  | project (projectIDs : List String)
  | global

def AutomationTarget.scope : AutomationTarget → AutomationScope
  | session _ => .session
  | project _ => .project
  | global => .global

def AutomationTarget.sessionID : AutomationTarget → Option String
  | session sessionID => some sessionID
  | _ => none

def AutomationTarget.projectIDs : AutomationTarget → List String
  | project projectIDs => projectIDs
  | _ => []

def AutomationTarget.IsPublic : AutomationTarget → Prop
  | session sessionID => sessionID ≠ ""
  | project projectIDs => projectIDs ≠ [] ∧ projectIDs.Nodup
  | global => True

instance (target : AutomationTarget) : Decidable target.IsPublic := by
  unfold AutomationTarget.IsPublic
  split <;> infer_instance

def projectTargetRows (revisionID : String) (projectIDs : List String) : List AutomationProjectTarget :=
  projectIDs.zipIdx.map fun entry => ⟨revisionID, entry.1, entry.2⟩

/-- Input of a creation; `Recurrence.normalize` has normalised the recurrence. -/
structure CreateAutomationInput where
  id : String
  target : AutomationTarget
  recurrence : String
  rest : String

def CreateAutomationInput.definition (input : CreateAutomationInput) (now : ℤ) : AutomationDefinition where
  id := input.id
  definitionID := input.id
  revision := 1
  projectID := none
  sessionID := input.target.sessionID
  kind := .recurring input.recurrence
  scope := some input.target.scope
  active := true
  timeCreated := now
  rest := input.rest

structure CreateDelayedSessionWakeInput where
  id : String
  projectID : String
  sessionID : String
  dueAt : ℤ
  rest : String

def CreateDelayedSessionWakeInput.definition (input : CreateDelayedSessionWakeInput) (now : ℤ) :
    AutomationDefinition where
  id := input.id
  definitionID := input.id
  revision := 1
  projectID := some input.projectID
  sessionID := some input.sessionID
  kind := .delay (some input.dueAt)
  scope := none
  active := true
  timeCreated := now
  rest := input.rest

structure UpdateAutomationInput where
  id : String
  currentRevision : ℕ
  revisionID : String
  target : AutomationTarget
  recurrence : String
  active : Bool
  rest : String

def UpdateAutomationInput.definition (input : UpdateAutomationInput) (latest : AutomationDefinition)
    (now : ℤ) : AutomationDefinition where
  id := input.revisionID
  definitionID := input.id
  revision := latest.revision + 1
  projectID := latest.projectID
  sessionID := input.target.sessionID
  kind := .recurring input.recurrence
  scope := some input.target.scope
  active := input.active
  timeCreated := now
  rest := input.rest

def AutomationDefinition.IsDelay (definition : AutomationDefinition) : Prop :=
  match definition.kind with
  | .delay _ => True
  | .recurring _ => False

def AutomationKind.isDelay : AutomationKind → Bool
  | .delay _ => true
  | .recurring _ => false

lemma AutomationDefinition.isDelay_iff (definition : AutomationDefinition) :
    definition.kind.isDelay = true ↔ definition.IsDelay := by
  unfold AutomationDefinition.IsDelay
  cases definition.kind with
  | delay => exact ⟨fun _ => trivial, fun _ => rfl⟩
  | recurring => exact ⟨Bool.false_ne_true, False.elim⟩

instance (definition : AutomationDefinition) : Decidable definition.IsDelay :=
  decidable_of_iff _ definition.isDelay_iff

def LeaseLive (db : AutomationDatabase) (definitionID : String) (now : ℤ) : Prop :=
  ∃ lease ∈ automationLease db definitionID, now < lease.expiresAt

instance (db : AutomationDatabase) (definitionID : String) (now : ℤ) : Decidable (LeaseLive db definitionID now) :=
  inferInstanceAs (Decidable (∃ lease ∈ automationLease db definitionID, _))

section Definitions

variable [Collation] [RecurrenceRules] [AutomationHashes] (store : AutomationStore)

def AutomationStore.insertDefinition (row : AutomationDefinition) (projectIDs : List String) : AutomationStore :=
  { store with
    definitions := store.definitions ++ [row]
    projectTargets := store.projectTargets ++ projectTargetRows row.id projectIDs }

def createAutomation (input : CreateAutomationInput) (now : ℤ) : Except AutomationServiceError AutomationStore :=
  let row := input.definition now
  ensureScheduledAutomationFireFrontierInTransaction (store.insertDefinition row input.target.projectIDs)
    row (RecurrenceRules.nextRun input.recurrence now) now

def createDelayedSessionWake (input : CreateDelayedSessionWakeInput) (now : ℤ) :
    Except AutomationServiceError AutomationStore :=
  let row := input.definition now
  ensureScheduledAutomationFireFrontierInTransaction (store.insertDefinition row []) row
    (some input.dueAt) row.timeCreated

def pendingFireIDInTransaction (row : AutomationDefinition) :
    Except AutomationServiceError (Option String) := do
  let projected ← projecting (projectAutomationFrontierInTransaction store.toAutomationDatabase row)
  return truthy projected.pendingFireID

/-- Append a revision, unless the definition is running or has changed. -/
def updateAutomation (input : UpdateAutomationInput) (now : ℤ) :
    Except AutomationServiceError (Option AutomationStore) :=
  match latestAutomationDefinitionInTransaction store.toAutomationDatabase input.id with
  | none => .ok none
  | some latest =>
    if latest.IsDelay ∨ LeaseLive store.toAutomationDatabase input.id now then .ok none
    else do
      let pending ← pendingFireIDInTransaction store latest
      if pending.isSome ∨ latest.revision ≠ input.currentRevision then return none
      let row := input.definition latest now
      let inserted := store.insertDefinition row input.target.projectIDs
      if row.active then
        let scheduled ← ensureScheduledAutomationFireFrontierInTransaction inserted row
          (RecurrenceRules.nextRun input.recurrence now) now
        return some scheduled
      return some (clearAutomationFireFrontierInTransaction inserted row.definitionID)

/-- Delete a definition, unless it is running. -/
def removeAutomation (id tombstoneID : String) (now : ℤ) :
    Except AutomationServiceError (Option AutomationStore) :=
  match latestAutomationDefinitionInTransaction store.toAutomationDatabase id with
  | none => .ok none
  | some latest =>
    if latest.IsDelay ∨ LeaseLive store.toAutomationDatabase id now then .ok none
    else do
      let pending ← pendingFireIDInTransaction store latest
      if pending.isSome then return none
      let deleted ← appendAutomationTombstoneInTransaction store latest tombstoneID
      return some deleted

end Definitions

section Fires

variable [AutomationHashes] (store : AutomationStore)

/-- The fire exists with exactly these columns; one that is not a Tool's is created. -/
def ensureAutomationFireInTransaction (revisionID fireID : String) (scheduledDueAt now : ℤ)
    (origin : AutomationFireOrigin) : Except AutomationServiceError AutomationStore := do
  let changed := AutomationServiceError.error
    ("Automation logical fire " ++ fireID ++ " changed its immutable occurrence")
  match store.findFire fireID with
  | some existing =>
    throwWhen (existing.automationRevisionID ≠ revisionID ∨ existing.scheduledDueAt ≠ scheduledDueAt ∨
      existing.origin ≠ origin) changed
    return store
  | none =>
    throwWhen (origin = .manualTool) (.error ("Automation manual Tool Fire " ++ fireID ++ " lost its occurrence"))
    let inserted := store.insertFireIfAbsent ⟨fireID, revisionID, scheduledDueAt, origin, now⟩
    let fire ← getOrThrow (inserted.findFire fireID) changed
    throwWhen (fire.automationRevisionID ≠ revisionID ∨ fire.scheduledDueAt ≠ scheduledDueAt ∨
      fire.origin ≠ origin) changed
    return inserted

def ownedLease (definitionID owner : String) (now : ℤ) (e : AutomationServiceError) :
    Except AutomationServiceError ControlLease := do
  let lease ← getOrThrow (automationLease store.toAutomationDatabase definitionID) e
  throwWhen (lease.ownerOccurrenceID ≠ owner ∨ lease.expiresAt ≤ now) e
  return lease

def releaseAutomationLease (definitionID leaseID owner : String) (now : ℤ) : AutomationStore :=
  { store with leases :=
      (releaseControlLeaseInTransaction store.leases ⟨.automation, definitionID, leaseID, owner, now⟩).2 }

def latestLeaseGrant (leaseID : String) : Option ControlLeaseGrant :=
  (store.leases.grants.filter fun grant => grant.leaseID = leaseID).argmax fun grant => grant.ordinal

def attemptOwner (attemptID : String) : String :=
  ((store.admissions.find? fun admission => admission.attemptID = attemptID).map (·.ownerOccurrenceID)).getD ""

def settleLatestAttempt (fireID : String) (now : ℤ) : Except AutomationServiceError AutomationStore :=
  match lastAttempt store.toAutomationDatabase fireID with
  | none => .ok store
  | some latest =>
    match store.attemptReceipt latest.id with
    | none => store.insertAttemptReceipt ⟨latest.id, .retryWait now
        ("Automation fire owner " ++ attemptOwner store latest.id ++ " expired before target reservation"), now⟩
    | some receipt =>
      match receipt.outcome with
      | .reserved => .ok store
      | .failed _ => .error (.runningConflict ("Automation fire " ++ fireID ++ " is already terminal") fireID)
      | .retryWait retryAt _ =>
        if now < retryAt then .error (.runningConflict
          ("Automation fire " ++ fireID ++ " is not ready for its next attempt") fireID)
        else .ok store

def reserveAutomationFireAttemptInTransaction (fireID owner : String) (now : ℤ) :
    Except AutomationServiceError AutomationStore := do
  let noOwner := AutomationServiceError.error
    ("Automation fire " ++ fireID ++ " has no live owner admission")
  let fire ← getOrThrow (store.findFire fireID) noOwner
  let definition ← getOrThrow (store.findDefinition fire.automationRevisionID) noOwner
  let lease ← ownedLease store definition.definitionID owner now noOwner
  let noGrant := AutomationServiceError.error
    ("Automation fire " ++ fireID ++ " has no current immutable lease grant")
  let leaseGrant ← getOrThrow (latestLeaseGrant store lease.id) noGrant
  throwWhen (leaseGrant.expiresAt ≠ lease.expiresAt ∨ now < leaseGrant.timeCreated) noGrant
  let settled ← settleLatestAttempt store fireID now
  let ordinal := ((lastAttempt store.toAutomationDatabase fireID).map (·.ordinal)).getD 0 + 1
  let attemptID := fireAttemptID fireID ordinal
  return { settled with
    attempts := settled.attempts ++ [⟨attemptID, fireID, ordinal⟩]
    admissions := settled.admissions ++
      [⟨attemptID, owner, lease.id, leaseGrant.ordinal, lease.expiresAt, now⟩] }

/-- The stored name of an outcome. -/
def AutomationAttemptState.text : AutomationAttemptState → String
  | reserved => "reserved"
  | retryWait => "retry_wait"
  | failed => "failed"

def settleAutomationFireAttemptReservedInTransaction (job : AutomationRow) (now : ℤ) :
    Except AutomationServiceError AutomationStore := do
  let attemptID ← getOrThrow (truthy job.attemptID) (.error
    ("Automation fire " ++ job.pendingFireID.getD job.row.definitionID ++ " has no physical attempt"))
  match store.attemptReceipt attemptID with
  | some existing =>
    throwWhen (existing.outcome ≠ .reserved) (.error
      ("Automation fire attempt " ++ attemptID ++ " was already settled as " ++ existing.outcome.state.text))
    return store
  | none => store.insertAttemptReceipt ⟨attemptID, .reserved, now⟩

end Fires

/-- Input of a claim; `busy` says that another execution is active in the Session of the definition. -/
structure ClaimInput where
  id : String
  owner : String
  force : Bool
  scheduledFireID : Option String
  /-- The id of the manual fire of a forced claim. -/
  manualFireID : String
  leaseID : String
  busy : Bool

def AutomationDefinition.WaitsForSession (definition : AutomationDefinition) : Prop :=
  ¬definition.IsDelay ∧ definition.scope = some .session ∧ (truthy definition.sessionID).isSome

instance (definition : AutomationDefinition) : Decidable definition.WaitsForSession :=
  inferInstanceAs (Decidable (_ ∧ _ ∧ _))

def automationLeaseInput (id owner leaseID : String) (now leaseMilliseconds : ℤ) :
    AcquireControlLeaseInput where
  target := .automation
  targetID := id
  ownerOccurrenceID := owner
  now := now
  leaseMilliseconds := leaseMilliseconds
  leaseID := none
  supersedeLeaseID := none
  generatedID := leaseID

section Claims

variable [Collation] [RecurrenceRules] [AutomationHashes] (store : AutomationStore)

/-- The fire that a claim without force may take: the available frontier of the current revision. -/
def claimableFire (persisted : AutomationDefinition) (input : ClaimInput) (now : ℤ) : Option AutomationFire :=
  match currentAutomationFireFrontierInTransaction store input.id with
  | none => none
  | some frontier =>
    if frontier.automationRevisionID ≠ persisted.id ∨ now < frontier.availableAt ∨
        ∃ fireID ∈ truthy input.scheduledFireID, frontier.fireID ≠ fireID then none
    else (store.findFire frontier.fireID).filter fun fire => fire.automationRevisionID = persisted.id ∧
      ¬(¬persisted.active ∧ fire.origin = .scheduled)

/-- Put off a claim while the Session of the definition is busy. -/
def delayBusyClaim (projected : AutomationRow) (fire : AutomationFire) (input : ClaimInput) (now : ℤ) :
    Except AutomationServiceError AutomationStore := do
  let delayed ← leasing (acquireControlLeaseInTransaction store.leases (automationLeaseInput input.id
    (busySessionDelayID input.id projected.nextRun) input.leaseID now HEARTBEAT_BUSY_RETRY_MS))
  if delayed.1.acquired then
    deferAutomationFireFrontierInTransaction { store with leases := delayed.2 } input.id fire.id
      delayed.1.lease.expiresAt
  else
    return { store with leases := delayed.2 }

def claimedOccurrence (input : ClaimInput) (fire : Option AutomationFire) (now : ℤ) :
    String × ℤ × AutomationFireOrigin :=
  match fire with
  | some fire => (fire.id, fire.scheduledDueAt, fire.origin)
  | none => (input.manualFireID, now, .manualApi)

/-- Take the lease and admit an attempt of the fire, which becomes or stays the frontier. -/
def takeClaim (persisted : AutomationDefinition) (input : ClaimInput) (fire : Option AutomationFire)
    (now : ℤ) : Except AutomationServiceError (Option AutomationRow × AutomationStore) := do
  let acquired ← leasing (acquireControlLeaseInTransaction store.leases
    (automationLeaseInput input.id input.owner input.leaseID now LEASE_MS))
  if ¬acquired.1.acquired then return (none, { store with leases := acquired.2 })
  let (fireID, scheduledDueAt, origin) := claimedOccurrence input fire now
  let ensured ← ensureAutomationFireInTransaction { store with leases := acquired.2 } persisted.id fireID
    scheduledDueAt now origin
  let claimedFire ← getOrThrow (ensured.findFire fireID) (.error ("Automation fire " ++ fireID))
  let fronted ←
    if input.force then
      publishAutomationFireFrontierInTransaction ensured persisted claimedFire acquired.1.lease.expiresAt
    else
      deferAutomationFireFrontierInTransaction ensured input.id fireID acquired.1.lease.expiresAt
  let reserved ← reserveAutomationFireAttemptInTransaction fronted fireID input.owner now
  let claimed ← projecting (projectAutomationFrontierInTransaction reserved.toAutomationDatabase persisted)
  return (some { claimed with
    leaseOwner := some acquired.1.lease.ownerOccurrenceID
    leaseUntil := acquired.1.lease.expiresAt }, reserved)

/-- Take the fire owner for the revision that is claimed: by force a new manual fire while none is unsettled,
otherwise the fire at the frontier. -/
def claim (input : ClaimInput) (now : ℤ) :
    Except AutomationServiceError (Option AutomationRow × AutomationStore) :=
  match latestAutomationDefinitionInTransaction store.toAutomationDatabase input.id with
  | none => .ok (none, store)
  | some persisted => do
    let projected ← projecting (projectAutomationFrontierInTransaction store.toAutomationDatabase persisted)
    if input.force then
      if (truthy projected.pendingFireID).isSome ∨ persisted.WaitsForSession ∧ input.busy then
        return (none, store)
      takeClaim store persisted input none now
    else
      match claimableFire store persisted input now with
      | none => return (none, store)
      | some fire =>
        if persisted.WaitsForSession ∧ input.busy then
          let delayed ← delayBusyClaim store projected fire input now
          return (none, delayed)
        takeClaim store persisted input (some fire) now

end Claims

structure ManualToolInput where
  id : String
  toolPartID : String
  inputDigest : String
  owner : String
  leaseID : String
  busy : Bool

structure ManualToolClaim where
  definition : AutomationDefinition
  fire : AutomationFire
deriving DecidableEq

section ManualTool

variable [Collation] [RecurrenceRules] [AutomationHashes] (store : AutomationStore)

def findToolFire (toolPartID : String) : Option (AutomationToolFire × AutomationFire) := do
  let toolFire ← store.toolFires.find? fun row => row.toolPartID = toolPartID
  let fire ← store.findFire toolFire.fireID
  return (toolFire, fire)

def takeManualTool (definition : AutomationDefinition) (fire : AutomationFire) (input : ManualToolInput)
    (lease : ControlLease) (now : ℤ) :
    Except AutomationServiceError (Option ManualToolClaim × AutomationStore) := do
  let published ← publishAutomationFireFrontierInTransaction store definition fire lease.expiresAt
  let reserved ← reserveAutomationFireAttemptInTransaction published fire.id input.owner now
  return (some ⟨definition, fire⟩, reserved)

/-- The first run of a Tool part: a new fire of the current revision. -/
def insertManualToolFire (input : ManualToolInput) (now : ℤ) :
    Except AutomationServiceError (Option ManualToolClaim × AutomationStore) := do
  let definition ← getOrThrow (latestAutomationDefinitionInTransaction store.toAutomationDatabase input.id)
    (.error ("Automation not found: " ++ input.id))
  throwWhen definition.IsDelay (.error ("Automation not found: " ++ input.id))
  throwWhen (definition.WaitsForSession ∧ input.busy) (.runningConflict ("Automation " ++ input.id ++
    " cannot run while session " ++ definition.sessionID.getD "" ++ " is busy") input.id)
  let pending ← pendingFireIDInTransaction store definition
  throwWhen pending.isSome (.runningConflict ("Automation " ++ input.id ++
    " already has unsettled fire " ++ pending.getD "") input.id)
  let acquired ← leasing (acquireControlLeaseInTransaction store.leases
    (automationLeaseInput input.id input.owner input.leaseID now LEASE_MS))
  throwWhen (¬acquired.1.acquired) (.runningConflict ("Automation " ++ input.id ++
    " manual Tool occurrence is owned by another runtime") input.id)
  let fire : AutomationFire := ⟨manualFireID input.toolPartID, definition.id, now, .manualTool, now⟩
  takeManualTool
    { store with
      leases := acquired.2
      fires := store.fires ++ [fire]
      toolFires := store.toolFires ++ [⟨fire.id, input.toolPartID, input.inputDigest⟩] }
    definition fire input acquired.1.lease now

def replayManualToolFire (toolFire : AutomationToolFire) (fire : AutomationFire) (input : ManualToolInput)
    (now : ℤ) : Except AutomationServiceError (Option ManualToolClaim × AutomationStore) := do
  let changed := AutomationServiceError.error
    ("schedule Tool occurrence " ++ input.toolPartID ++ " changed its manual run input")
  let definition ← getOrThrow (store.findDefinition fire.automationRevisionID) changed
  throwWhen (definition.definitionID ≠ input.id ∨ fire.id ≠ manualFireID input.toolPartID ∨
    toolFire.inputDigest ≠ input.inputDigest ∨ fire.origin ≠ .manualTool) changed
  let projected ← projecting (projectAutomationFireInTransaction store.toAutomationDatabase fire)
  if projected.reduced.state.isTerminal then return (none, store)
  throwWhen (definition.WaitsForSession ∧ input.busy) (.runningConflict ("Automation " ++ input.id ++
    " cannot run while session " ++ definition.sessionID.getD "" ++ " is busy") input.id)
  let acquired ← leasing (acquireControlLeaseInTransaction store.leases
    (automationLeaseInput input.id input.owner input.leaseID now LEASE_MS))
  if ¬acquired.1.acquired then return (none, { store with leases := acquired.2 })
  takeManualTool { store with leases := acquired.2 } definition fire input acquired.1.lease now

def runNowFromTool (input : ManualToolInput) (now : ℤ) :
    Except AutomationServiceError (Option ManualToolClaim × AutomationStore) :=
  match findToolFire store input.toolPartID with
  | some (toolFire, fire) => replayManualToolFire store toolFire fire input now
  | none => insertManualToolFire store input now

def manualToolJob (reserved : ManualToolClaim) : Except AutomationServiceError AutomationRow := do
  let projected ← projecting (projectAutomationInTransaction store.toAutomationDatabase reserved.definition)
  return { projected with
    pendingFireID := some reserved.fire.id
    scheduledDueAt := some reserved.fire.scheduledDueAt }

end ManualTool

end OpenCorvus.Scheduler
