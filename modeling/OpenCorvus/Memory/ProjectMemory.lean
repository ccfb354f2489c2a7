import OpenCorvus.Memory.ProjectEntry

/-!
# The project memory

The pending entries of each Project and its document.  An entry is stored once under an identity that is derived from
its occurrence; an organizer that holds the lease of the document replaces a first part of the pending entries by a
new revision, or the oldest entry is dropped when the organizer is unavailable.
-/

namespace OpenCorvus.Memory

open EcmaScript OrderBy Transaction

structure Key where
  projectID : String
  kind : OccurrenceKind
  occurrenceID : String
deriving DecidableEq

/-- `fileID`: a digest of the identity. -/
class FileIdentity where
  fileID : Key → String

export FileIdentity (fileID)

def Entry.key (entry : Entry) : Key := ⟨entry.projectID, entry.occurrenceKind, entry.occurrenceID⟩

/-- A row of `memory_file` with its one row of `memory_chunk`. -/
structure FileRow where
  id : String
  key : Key
  timeCreated : ℕ
  content : Entry
deriving DecidableEq

def FileRow.orderKey (row : FileRow) : ℕ ×ₗ String := toLex (row.timeCreated, row.id)

inductive OrganizerStatus where
  | idle
  | organizing
  | capacityReached
  | evidenceTooLarge
  | modelContextIncompatible
  | unavailable
  | retryWait
deriving DecidableEq

/-- `organizerLease` -/
structure Lease where
  id : String
  availabilityGeneration : ℕ
  revision : ℕ
  expiresAt : ℕ
deriving DecidableEq

structure Notice where
  status : OrganizerStatus
  message : String
  generation : String
  acknowledged : Bool

/-- `DocumentEnvelope` -/
structure Envelope where
  revision : ℕ
  markdown : String
  tokenCount : ℕ
  status : OrganizerStatus
  recentCoveredOccurrenceIDs : List String
  droppedPendingCount : ℕ
  availabilityGeneration : ℕ
  organizerLease : Option Lease
  notice : Option Notice
  timeCreated : ℕ
  timeUpdated : ℕ

def initialEnvelope (now : ℕ) : Envelope where
  revision := 0
  markdown := ""
  tokenCount := 0
  status := .idle
  recentCoveredOccurrenceIDs := []
  droppedPendingCount := 0
  availabilityGeneration := 0
  organizerLease := none
  notice := none
  timeCreated := now
  timeUpdated := now

/-- `RECENT_COVERAGE_LIMIT` -/
def recentCoverageLimit : ℕ := 500

/-- `ORGANIZER_LEASE_TTL_MS` -/
def organizerLeaseTtl : ℕ := 15 * 60000

/-- `DEFAULT_DOCUMENT_TOKEN_LIMIT` -/
def defaultDocumentTokenLimit : ℕ := 10000

def Envelope.OwnsOrganizerLease (envelope : Envelope) (leaseID : String) (expectedRevision time : ℕ) : Prop :=
  ∃ lease ∈ envelope.organizerLease, lease.id = leaseID ∧
    lease.availabilityGeneration = envelope.availabilityGeneration ∧
    lease.revision = expectedRevision ∧ time < lease.expiresAt

instance (envelope : Envelope) (leaseID : String) (expectedRevision time : ℕ) :
    Decidable (envelope.OwnsOrganizerLease leaseID expectedRevision time) :=
  inferInstanceAs (Decidable (∃ _ ∈ _, _))

structure Tables where
  files : List FileRow
  envelopes : String → Option Envelope

namespace Tables

variable (db : Tables) (projectID : String)

/-- The document of a Project, which is created when it is first read. -/
def envelope (now : ℕ) : Envelope := (db.envelopes projectID).getD (initialEnvelope now)

def writeEnvelope (envelope : Envelope) : Tables :=
  { db with envelopes := fun id => if id = projectID then some envelope else db.envelopes id }

/-- `envelopeInTransaction`, of the tables. -/
def openEnvelope (now : ℕ) : Tables := db.writeEnvelope projectID (db.envelope projectID now)

def pendingRows : List FileRow :=
  orderBy FileRow.orderKey (db.files.filter fun row => row.key.projectID = projectID)

def deleteFiles (ids : List String) : Tables :=
  { db with files := db.files.filter fun row => ¬(row.key.projectID = projectID ∧ row.id ∈ ids) }

variable [TextRules] [FileIdentity]

def insert (entry : Entry) : Except MemoryError Tables :=
  match db.files.find? fun row => row.id = fileID entry.key with
  | some row => do
    throwWhen (row.key ≠ entry.key) (.invariant entry.occurrenceID)
    throwWhen (row.content ≠ entry) (.invariant entry.occurrenceID)
    return db
  | none =>
    .ok { db with files := db.files ++ [⟨fileID entry.key, entry.key, entry.timeCreated, entry⟩] }

end Tables

section Organizer

variable [TextRules]

/-- The input of `setStatusInTransaction`. -/
structure StatusInput where
  status : OrganizerStatus
  generation : String
  message : Option String
  expectedRevision : Option ℕ
  leaseID : Option String

def StatusInput.notice (input : StatusInput) : Option Notice :=
  (input.message.filter (· ≠ "")).map fun message =>
    { status := input.status
      message := safeMetadata message "Project MEMORY.MD requires attention"
      generation := input.generation
      acknowledged := false }

def StatusInput.Admitted (input : StatusInput) (envelope : Envelope) (time : ℕ) : Prop :=
  (∀ expected ∈ input.expectedRevision, envelope.revision = expected) ∧ (∀ leaseID ∈ input.leaseID.filter (· ≠ ""),
      envelope.OwnsOrganizerLease leaseID (input.expectedRevision.getD envelope.revision) time) ∧
    (input.leaseID.filter (· ≠ "") = none → envelope.organizerLease = none)

instance (input : StatusInput) (envelope : Envelope) (time : ℕ) : Decidable (input.Admitted envelope time) :=
  inferInstanceAs (Decidable (_ ∧ _ ∧ _))

/-- The input of `markUnavailableAndTrimInTransaction`. -/
structure UnavailableInput where
  leaseID : String
  generation : String
  expectedRevision : ℕ
  expectedOccurrenceIDs : List String
  pendingAvailabilityLimit : ℕ
  allowTrim : Bool
  message : String

/-- The input of `commitOrganizationInTransaction`. -/
structure CommitInput where
  leaseID : String
  baseRevision : ℕ
  coveredOccurrenceIDs : List String
  markdown : String
  documentTokenLimit : Option ℕ

/-- What `commitOrganizationInTransaction` answers. -/
structure Organized where
  revision : ℕ
  tokenCount : ℕ
  coveredOccurrenceIDs : List String
deriving DecidableEq

/-- Identities as they are compared. -/
def joinIDs (ids : List String) : String := "\x00".intercalate ids

def occurrenceIDs (rows : List FileRow) : List String := rows.map fun row => row.content.occurrenceID

def Envelope.leaseFor (envelope : Envelope) (leaseID : String) (time : ℕ) : Option (Option Lease) :=
  envelope.organizerLease.bind fun lease =>
    if lease.id = leaseID ∧ lease.availabilityGeneration = envelope.availabilityGeneration ∧
        lease.revision = envelope.revision then some (some lease)
    else if time < lease.expiresAt then some none
    else none

/-- How many of the oldest pending entries are dropped: never more than one. -/
def UnavailableInput.excess (input : UnavailableInput) (pending : List FileRow) : ℕ :=
  if input.allowTrim = true ∧ input.pendingAvailabilityLimit < pending.length then 1 else 0

def UnavailableInput.text (input : UnavailableInput) (excess : ℕ) : String :=
  safeMetadata (if 0 < excess then
      input.message ++ " " ++ toString excess ++
        " oldest pending input(s) were removed by the unavailable-only FIFO limit."
    else input.message)
    "Project MEMORY.MD Organizer is unavailable"

/-- The document is what the candidate would make of it: the organizer repeats its commit. -/
def CommitInput.Replays (input : CommitInput) (envelope : Envelope) : Prop :=
  envelope.revision = input.baseRevision + 1 ∧
    input.coveredOccurrenceIDs <:+ envelope.recentCoveredOccurrenceIDs ∧
    envelope.markdown = trim input.markdown ++ "\n"

instance (input : CommitInput) (envelope : Envelope) : Decidable (input.Replays envelope) :=
  inferInstanceAs (Decidable (_ ∧ _ ∧ _))

def CommitInput.organize (input : CommitInput) (envelope : Envelope) (time : ℕ) : Envelope :=
  { envelope with
    revision := envelope.revision + 1
    markdown := trim input.markdown ++ "\n"
    tokenCount := estimate (trim input.markdown ++ "\n")
    status := .idle
    organizerLease := none
    recentCoveredOccurrenceIDs :=
      (envelope.recentCoveredOccurrenceIDs ++ input.coveredOccurrenceIDs).rtake recentCoverageLimit
    notice := none
    timeUpdated := time }

namespace Tables

variable (db : Tables) (projectID : String) (time : ℕ)

/-- `setStatusInTransaction` -/
def setStatus (input : StatusInput) : Except MemoryError (Bool × Tables) :=
  let envelope := db.envelope projectID time
  if input.Admitted envelope time then do
    throwWhen (input.notice.isSome = true ∧ input.generation = "") .schema
    return (true, db.writeEnvelope projectID
      { envelope with status := input.status, organizerLease := none, notice := input.notice, timeUpdated := time })
  else .ok (false, db.openEnvelope projectID time)

/-- `beginOrganizerAttemptInTransaction` -/
def beginOrganizerAttempt (leaseID : String) (expectedRevision : ℕ) (leaseTtl : Option ℕ) :
    Except MemoryError (Option Lease × Tables) :=
  let envelope := db.envelope projectID time
  if envelope.revision ≠ expectedRevision then .ok (none, db.openEnvelope projectID time)
  else
    match envelope.leaseFor leaseID time with
    | some answer => .ok (answer, db.openEnvelope projectID time)
    | none => do
      let lease : Lease :=
        { id := leaseID
          availabilityGeneration := envelope.availabilityGeneration
          revision := envelope.revision
          expiresAt := time + leaseTtl.getD organizerLeaseTtl }
      throwWhen (leaseID = "") .schema
      return (some lease, db.writeEnvelope projectID
        { envelope with status := .organizing, organizerLease := some lease, timeUpdated := time })

/-- `releaseOrganizerAttemptInTransaction` -/
def releaseOrganizerAttempt (leaseID : String) : Bool × Tables :=
  let envelope := db.envelope projectID time
  if envelope.OwnsOrganizerLease leaseID envelope.revision time then
    (true, db.writeEnvelope projectID
      { envelope with organizerLease := none, status := .retryWait, timeUpdated := time })
  else (false, db.openEnvelope projectID time)

/-- `invalidateOrganizerAvailabilityInTransaction` -/
def invalidateOrganizerAvailability : ℕ × Tables :=
  let envelope := db.envelope projectID time
  (envelope.availabilityGeneration + 1, db.writeEnvelope projectID
    { envelope with
      availabilityGeneration := envelope.availabilityGeneration + 1
      organizerLease := none
      status := if envelope.organizerLease.isSome ∨ envelope.status = .unavailable then .retryWait else envelope.status
      timeUpdated := time })

/-- `acknowledgeNoticeInTransaction` -/
def acknowledgeNotice (generation : String) : Bool × Tables :=
  let envelope := db.envelope projectID time
  match envelope.notice.filter fun notice => notice.generation = generation with
  | none => (false, db.openEnvelope projectID time)
  | some notice =>
    if notice.acknowledged then (true, db.openEnvelope projectID time)
    else (true, db.writeEnvelope projectID
      { envelope with notice := some { notice with acknowledged := true }, timeUpdated := time })

/-- `markUnavailableAndTrimInTransaction`: whether it applied, and the occurrences that were dropped. -/
def markUnavailableAndTrim (input : UnavailableInput) : Except MemoryError ((Bool × List String) × Tables) :=
  let envelope := db.envelope projectID time
  let pending := db.pendingRows projectID
  if envelope.revision = input.expectedRevision ∧
      envelope.OwnsOrganizerLease input.leaseID input.expectedRevision time ∧
      joinIDs (occurrenceIDs pending) = joinIDs input.expectedOccurrenceIDs then do
    let excess := input.excess pending
    let dropped := pending.take excess
    throwWhen (input.generation = "") .schema
    return ((true, occurrenceIDs dropped), (db.writeEnvelope projectID
        { envelope with
          status := .unavailable
          organizerLease := none
          droppedPendingCount := envelope.droppedPendingCount + excess
          notice := some ⟨.unavailable, input.text excess, input.generation, false⟩
          timeUpdated := time }).deleteFiles projectID (dropped.map FileRow.id))
  else .ok ((false, []), db.openEnvelope projectID time)

/-- `commitOrganizationInTransaction` -/
def commitOrganization (input : CommitInput) : Except MemoryError (Organized × Tables) :=
  let envelope := db.envelope projectID time
  if input.Replays envelope then
    .ok (⟨envelope.revision, envelope.tokenCount, input.coveredOccurrenceIDs⟩, db.openEnvelope projectID time)
  else do
    let occurrenceID := input.coveredOccurrenceIDs.head?.getD "<empty-prefix>"
    throwWhen (¬envelope.OwnsOrganizerLease input.leaseID input.baseRevision time) (.invariant occurrenceID)
    let expected := (db.pendingRows projectID).take input.coveredOccurrenceIDs.length
    throwWhen (envelope.revision ≠ input.baseRevision ∨
      joinIDs (occurrenceIDs expected) ≠ joinIDs input.coveredOccurrenceIDs) (.invariant occurrenceID)
    throwWhen (expected = []) (.invariant "<empty-prefix>")
    let markdown := trim input.markdown ++ "\n"
    throwWhen (trim input.markdown = "" ∨ input.documentTokenLimit.getD defaultDocumentTokenLimit < estimate markdown ∨
      sanitizeText markdown ≠ markdown) (.invariant occurrenceID)
    return (⟨envelope.revision + 1, estimate markdown, input.coveredOccurrenceIDs⟩,
      (db.writeEnvelope projectID (input.organize envelope time)).deleteFiles projectID (expected.map FileRow.id))

end Tables

end Organizer

end OpenCorvus.Memory
