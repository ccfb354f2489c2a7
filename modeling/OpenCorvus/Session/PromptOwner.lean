import OpenCorvus.Engine.ControlLease
import OpenCorvus.Foundation.ExecutableSystem
import OpenCorvus.Foundation.Transaction

/-!
# The owner of a Session Prompt

A row names the process occurrence that may run the Prompt of a Session.  A process acquires it in one
transaction, after it observed the current owner outside of it; it releases the exact generation that
it acquired; and a recovery releases the exact dead owner that it observed.
-/

namespace OpenCorvus.Session

open Engine Transaction

structure RuntimeProcessOccurrenceInfo where
  pid : ℕ
  processInstanceID : String
  occurrenceID : String
deriving DecidableEq

structure PromptAuthority where
  /-- Primary key. -/
  sessionID : String
  projectID : String
  directory : String
  generation : String
  owner : RuntimeProcessOccurrenceInfo
  timeAcquired : ℤ
deriving DecidableEq

inductive RuntimeProcessOccurrenceObservation where
  | exactLive
  | deadOrReused
  | unknownLive
deriving DecidableEq

structure ObservedAuthority where
  authority : PromptAuthority
  observation : RuntimeProcessOccurrenceObservation
deriving DecidableEq

structure PromptSessionRow where
  /-- Primary key. -/
  id : String
  projectID : String
  directory : String

/-- The reason of a recovery Message (`mission.process_recovery`). -/
structure RecoveryWakeReason where
  version : ℕ
  openedEventID : String
  /-- The reason parses under its strict schema. -/
  strict : Bool

inductive PromptMessageData where
  | user (recovery : Option RecoveryWakeReason)
  /-- A reply; `interrupted` marks the exact error of an interrupted process. -/
  | assistant (parentID : Option String) (completed interrupted : Bool)

structure PromptMessageRow where
  id : String
  sessionID : String
  data : PromptMessageData

/-- An event that opens, closes, or ends the closing of the execution of a Mission. -/
structure ClosureEventRow where
  id : String
  sessionID : String
  seq : ℕ

structure PromptSurroundings where
  sessions : List PromptSessionRow
  /-- The leases, of which it reads those of Session deletions. -/
  leases : ControlLeaseTables
  /-- The `session.deleted` events: their ids and Sessions. -/
  tombstones : List (String × String)
  closures : List ClosureEventRow
  messages : List PromptMessageRow

/-- The tables. -/
structure PromptDatabase where
  owners : List PromptAuthority
  surroundings : PromptSurroundings

/-- What an operation raises. -/
inductive PromptOwnerError where
  | error (message : String)
  | sessionDeletionFence (message : String)
  | recoveryFence (sessionID recoveryMessageID : String)
  /-- The caller's own check refused. -/
  | preflight (message : String)

/-- What the code takes from its host: the normal form of a path, and the occurrence that a deletion
fence encodes. -/
structure PromptHost where
  resolve : String → String
  decodeFenceOwner : String → Except PromptOwnerError String

/-- `currentInTransaction(db, sessionID)` -/
def currentInTransaction (db : PromptDatabase) (sessionID : String) : Option PromptAuthority :=
  db.owners.find? fun row => row.sessionID = sessionID

/-- `sameAuthority(left, right)`: the columns that identify an acquisition agree. -/
def sameAuthority (left right : Option PromptAuthority) : Bool :=
  match left, right with
  | none, none => true
  | some left, some right =>
    left.sessionID = right.sessionID ∧ left.generation = right.generation ∧ left.owner = right.owner
  | _, _ => false

/-- The key of a closure event: `ORDER BY seq, id`. -/
def ClosureEventRow.orderKey (row : ClosureEventRow) : ℕ ×ₗ String := toLex (row.seq, row.id)

variable (db : PromptSurroundings) (sessionID : String)

def currentClosureID : Option String :=
  ((db.closures.filter fun row => row.sessionID = sessionID).argmax ClosureEventRow.orderKey).map (·.id)

def hasTerminalRecoveryReply (sessionID messageID : String) : Bool :=
  db.messages.any fun row =>
    match row.data with
    | .assistant parentID completed interrupted =>
      row.sessionID = sessionID ∧ parentID = some messageID ∧ completed ∧ ¬interrupted
    | .user _ => false

def actionableRecoveryReason (row : PromptMessageRow) : Option RecoveryWakeReason :=
  match row.data with
  | .user (some reason) =>
    if row.sessionID = sessionID ∧ reason.version = 3 ∧
        currentClosureID db sessionID = some reason.openedEventID ∧
        ¬hasTerminalRecoveryReply db sessionID row.id then some reason
    else none
  | _ => none

def actionableRecoveryMessageIDsInTransaction : Except PromptOwnerError (List String) :=
  (db.messages.filter fun row => (actionableRecoveryReason db sessionID row).isSome).mapM fun row => do
    throwWhen (((actionableRecoveryReason db sessionID row).map (·.strict)) = some false)
      (.error ("Session " ++ sessionID ++ " recovery Message " ++ row.id ++ " violates its strict durable reason"))
    return row.id

variable (host : PromptHost)

def PromptSurroundings.assertSessionDeletionAdmissionInTransaction (db : PromptSurroundings) (sessionID : String)
    (now : ℤ) : Except PromptOwnerError Unit := do
  match currentControlLeaseInTransaction db.leases .sessionDeletion sessionID with
  | none => pure ()
  | some lease =>
    if lease.expiresAt ≤ now then pure ()
    else do
      let ownerOccurrenceID ← host.decodeFenceOwner lease.ownerOccurrenceID
      .error (.sessionDeletionFence ("Session " ++ sessionID ++
        " admission is fenced by deletion owner " ++ ownerOccurrenceID))
  match db.tombstones.find? fun row => row.2 = sessionID with
  | none => pure ()
  | some tombstone =>
    .error (.sessionDeletionFence ("Session " ++ sessionID ++
      " admission is fenced by terminal deletion " ++ tombstone.1))

structure RecoveryFencePermit where
  sessionID : String
  messageID : String
deriving DecidableEq

structure PromptPreflight where
  permit : Option RecoveryFencePermit
  answer : Except String Unit

structure AcquirePromptInput where
  sessionID : String
  projectID : String
  directory : String
  preflight : Option PromptPreflight

/-- The answer of an acquisition. -/
inductive PromptAdmission where
  | acquired (authority : PromptAuthority)
  | refused (authority : PromptAuthority) (observation : RuntimeProcessOccurrenceObservation)
  /-- The owner changed since it was observed: observe again. -/
  | retry

variable (input : AcquirePromptInput)

/-- The preflight lets the acquisition pass. -/
def runPreflight : Except PromptOwnerError Unit :=
  match input.preflight with
  | none => return ()
  | some preflight => preflight.answer.mapError .preflight

/-- A waiting recovery Message admits only the acquisition with its permit. -/
def assertRecoveryFence : Except PromptOwnerError Unit := do
  let recoveryMessages ← actionableRecoveryMessageIDsInTransaction db input.sessionID
  throwWhen (1 < recoveryMessages.length)
    (.error ("Session " ++ input.sessionID ++ " has multiple actionable Mission recovery Messages"))
  match recoveryMessages.head? with
  | none => return ()
  | some recoveryMessageID =>
    throwWhen (input.preflight.bind (·.permit) ≠
        some { sessionID := input.sessionID, messageID := recoveryMessageID })
      (.recoveryFence input.sessionID recoveryMessageID)

def deleteAuthority (db : PromptDatabase) (sessionID generation : String) : PromptDatabase :=
  { db with owners := db.owners.filter fun row =>
      ¬(row.sessionID = sessionID ∧ row.generation = generation) }

def insertAuthority (db : PromptDatabase) (authority : PromptAuthority) :
    Except PromptOwnerError PromptDatabase := do
  throwWhen (∃ row ∈ db.owners, row.sessionID = authority.sessionID)
    (.error "UNIQUE constraint failed: session_prompt_owner.session_id")
  return { db with owners := db.owners ++ [authority] }

/-- The row that an acquisition inserts. -/
def AcquirePromptInput.authority (owner : RuntimeProcessOccurrenceInfo) (generation : String) (now : ℤ) :
    PromptAuthority :=
  { sessionID := input.sessionID, projectID := input.projectID,
    directory := host.resolve input.directory, generation := generation, owner := owner,
    timeAcquired := now }

def acquireInTransaction (db : PromptDatabase) (owner : RuntimeProcessOccurrenceInfo) (input : AcquirePromptInput)
    (priorObservation : Option ObservedAuthority) (generation : String) (now : ℤ) :
    Except PromptOwnerError (PromptDatabase × PromptAdmission) :=
  let prior := currentInTransaction db input.sessionID
  if ¬sameAuthority prior (priorObservation.map (·.authority)) then return (db, .retry)
  else do
    let session ← getOrThrow (db.surroundings.sessions.find? fun row => row.id = input.sessionID)
      (.error ("Session prompt owner cannot acquire missing Session " ++ input.sessionID))
    throwWhen (session.projectID ≠ input.projectID ∨ host.resolve session.directory ≠ host.resolve input.directory)
      (.error ("Session prompt owner authority does not match Session " ++ input.sessionID))
    PromptSurroundings.assertSessionDeletionAdmissionInTransaction host db.surroundings input.sessionID now
    runPreflight input
    assertRecoveryFence db.surroundings input
    match prior, priorObservation with
    | some row, some observed =>
      if row.owner ≠ owner ∧ observed.observation ≠ .deadOrReused then
        return (db, .refused row observed.observation)
      else do
        let db' ← insertAuthority (deleteAuthority db row.sessionID row.generation)
          (input.authority host owner generation now)
        return (db', .acquired (input.authority host owner generation now))
    | _, _ => do
      let db' ← insertAuthority db (input.authority host owner generation now)
      return (db', .acquired (input.authority host owner generation now))

/-- `release(authority)`: whether the row is gone, and the tables. -/
def release (db : PromptDatabase) (authority : PromptAuthority) : PromptDatabase × Bool :=
  match currentInTransaction db authority.sessionID with
  | none => (db, true)
  | some current =>
    if current.generation ≠ authority.generation then (db, false)
    else (deleteAuthority db authority.sessionID authority.generation, true)

def releaseDeadInTransaction (db : PromptDatabase) (observed : ObservedAuthority) :
    Except PromptOwnerError (PromptDatabase × PromptAuthority) := do
  let expected := observed.authority
  throwWhen (observed.observation ≠ .deadOrReused)
    (.error ("Session " ++ expected.sessionID ++ " Prompt owner " ++ expected.generation ++ " is still live"))
  let current ← getOrThrow (currentInTransaction db expected.sessionID)
    (.error ("Session " ++ expected.sessionID ++ " Prompt owner " ++ expected.generation ++
      " disappeared before recovery claim"))
  throwWhen (¬sameAuthority (some current) (some expected))
    (.error ("Session " ++ expected.sessionID ++ " Prompt owner changed from " ++
      expected.generation ++ " to " ++ current.generation))
  return (deleteAuthority db current.sessionID current.generation, current)

/-- The tables, and what the processes hold in their memory.  What a process once read or observed it
may use at any later time. -/
structure PromptWorld where
  db : PromptDatabase
  /-- The occurrences that have ended. -/
  ended : List RuntimeProcessOccurrenceInfo
  /-- Rows that a process read. -/
  reads : List (RuntimeProcessOccurrenceInfo × PromptAuthority)
  /-- Observations that a process made. -/
  observations : List (RuntimeProcessOccurrenceInfo × ObservedAuthority)
  /-- Authorities that a process acquired. -/
  acquired : List (RuntimeProcessOccurrenceInfo × PromptAuthority)

inductive PromptAction where
  /-- A process reads the owner of a Session. -/
  | read (process : RuntimeProcessOccurrenceInfo) (sessionID : String)
  /-- A process observes an owner that it read. -/
  | observe (process : RuntimeProcessOccurrenceInfo) (observed : ObservedAuthority)
  | acquire (process : RuntimeProcessOccurrenceInfo) (input : AcquirePromptInput)
      (priorObservation : Option ObservedAuthority) (generation : String) (now : ℤ)
  | release (process : RuntimeProcessOccurrenceInfo) (authority : PromptAuthority)
  | releaseDead (process : RuntimeProcessOccurrenceInfo) (observed : ObservedAuthority)
  /-- The occurrence of a process ends. -/
  | finish (process : RuntimeProcessOccurrenceInfo)
  /-- Anything else happens to the tables that an acquisition only reads. -/
  | surround (surroundings : PromptSurroundings)

def PromptAction.process : PromptAction → Option RuntimeProcessOccurrenceInfo
  | .read process _ => some process
  | .observe process _ => some process
  | .acquire process _ _ _ _ => some process
  | .release process _ => some process
  | .releaseDead process _ => some process
  | .finish process => some process
  | .surround _ => none

variable (world : PromptWorld) (process : RuntimeProcessOccurrenceInfo)

def PromptWorld.MayObserve (priorObservation : Option ObservedAuthority) : Prop :=
  ∀ observed ∈ priorObservation,
    if observed.authority.owner = process then
      observed.observation = .exactLive ∧ (process, observed.authority) ∈ world.reads
    else (process, observed) ∈ world.observations

def PromptWorld.MayRelease (authority : PromptAuthority) : Prop :=
  (process, authority) ∈ world.acquired ∨
    (process, { authority := authority, observation := .deadOrReused }) ∈ world.observations

instance (world : PromptWorld) (process : RuntimeProcessOccurrenceInfo)
    (priorObservation : Option ObservedAuthority) :
    Decidable (world.MayObserve process priorObservation) :=
  inferInstanceAs (Decidable (∀ observed ∈ priorObservation, _))

instance (world : PromptWorld) (process : RuntimeProcessOccurrenceInfo)
    (authority : PromptAuthority) : Decidable (world.MayRelease process authority) :=
  inferInstanceAs (Decidable (_ ∨ _))

def PromptWorld.admitOwner (db : PromptDatabase) : PromptAdmission → PromptWorld
  | .acquired authority =>
    { world with db := db, acquired := (process, authority) :: world.acquired }
  | .refused _ _ => { world with db := db }
  | .retry => { world with db := db }

def promptStep (host : PromptHost) (world : PromptWorld) : PromptAction → Option PromptWorld
  | .read process sessionID =>
    if process ∈ world.ended then none
    else
      match currentInTransaction world.db sessionID with
      | none => some world
      | some authority => some { world with reads := (process, authority) :: world.reads }
  | .observe process observed =>
    if process ∉ world.ended ∧ (process, observed.authority) ∈ world.reads ∧
        (observed.observation = .deadOrReused → observed.authority.owner ∈ world.ended) then
      some { world with observations := (process, observed) :: world.observations }
    else none
  | .acquire process input priorObservation generation now =>
    if process ∉ world.ended ∧ world.MayObserve process priorObservation ∧
        ∀ held ∈ world.acquired, held.2.generation ≠ generation then
      match acquireInTransaction host world.db process input priorObservation generation now with
      | .ok (db, admission) => some (world.admitOwner process db admission)
      | .error _ => none
    else none
  | .release process authority =>
    if process ∉ world.ended ∧ world.MayRelease process authority then
      some { world with db := (release world.db authority).1 }
    else none
  | .releaseDead process observed =>
    if process ∉ world.ended ∧ (process, observed) ∈ world.observations then
      match releaseDeadInTransaction world.db observed with
      | .ok (db, _) => some { world with db := db }
      | .error _ => none
    else none
  | .finish process => some { world with ended := process :: world.ended }
  | .surround surroundings =>
    some { world with db := { world.db with surroundings := surroundings } }

def PromptWorld.initial (surroundings : PromptSurroundings) : PromptWorld :=
  { db := { owners := [], surroundings := surroundings }, ended := [], reads := [],
    observations := [], acquired := [] }

end OpenCorvus.Session
