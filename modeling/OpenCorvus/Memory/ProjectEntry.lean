import OpenCorvus.Foundation.EcmaScript
import OpenCorvus.Foundation.OrderBy
import OpenCorvus.Foundation.Transaction
import Mathlib.Data.Prod.Lex
import Mathlib.Data.String.Basic

/-!
# What the project memory captures

An occurrence of user input is captured with the name of its owner and with the two Messages before it, as computed
from the rows that are there when it is captured.

The redaction of secrets and the derivation of titles and attachment names are parameters: they work on one text.
-/

namespace OpenCorvus.Memory

open EcmaScript OrderBy Transaction

/-- The functions on single texts that an entry is computed with. -/
class TextRules where
  sanitizeText : String → String
  /-- `sanitizeJSON`, on the text of a JSON value. -/
  sanitizeJSON : String → String
  deriveTitle : String → String
  /-- `AttachmentStore.displayFilename` of the index. -/
  displayFilename : Option String → String → ℕ → String
  /-- `AttachmentStore.nameFromUrl`: the Project and the name. -/
  nameFromUrl : String → Option (String × String)
  /-- `Token.estimate` -/
  estimate : String → ℕ

export TextRules (sanitizeText sanitizeJSON deriveTitle displayFilename nameFromUrl estimate)

/-- Replace every longest run of at least `least` characters of `p` by one blank. -/
def replaceRuns (p : Char → Bool) (least : ℕ) (text : String) : String :=
  String.ofList ((text.toList.splitBy fun left right => p left && p right).flatMap fun run =>
    if run.all p && least ≤ run.length then [' '] else run)

variable [TextRules]

def safeMetadata (input fallback : String) : String :=
  let value := trim (replaceRuns isWhiteSpace 2
    (replaceRuns (fun c => c == '\r' || c == '\n' || c == '\t') 1 (sanitizeText input)))
  if value = "" then fallback else value

structure FileData where
  url : String
  mime : String
  filename : Option String
  size : Option ℕ

inductive PartData where
  | text (text : String)
  | file (file : FileData)
  | other (data : String)

structure Part where
  id : String
  data : PartData

/-- The author's mark of user input. -/
structure Provenance where
  surface : String
  literalText : String

inductive Role where
  | user
  | assistant
deriving DecidableEq

/-- A Message; `extra` is its valid mark, if it has one, and `fields` is all other data. -/
structure Info where
  id : String
  sessionID : String
  role : Role
  author : String
  created : ℕ
  extra : Option Provenance
  fields : String

structure SessionRow where
  id : String
  projectID : String
  parentID : Option String
  title : String

structure TaskRow where
  id : String
  sessionID : Option String
  title : String

structure PartRow where
  part : Part
  messageID : String
  timeCreated : ℕ

structure Transcript where
  sessions : List SessionRow
  tasks : List TaskRow
  messages : List Info
  parts : List PartRow

structure Attachment where
  filename : String
  mime : String
  reference : String
  size : Option ℕ
deriving DecidableEq

structure Snapshot where
  messageID : String
  role : Role
  author : String
  text : String
  attachments : List Attachment
deriving DecidableEq

inductive OccurrenceKind where
  | message
  | taskCreate
  | interactionReply
  | interactionReject
deriving DecidableEq

inductive OwnerKind where
  | task
  | conversation
deriving DecidableEq

structure Entry where
  occurrenceKind : OccurrenceKind
  occurrenceID : String
  projectID : String
  sessionID : Option String
  taskID : Option String
  ownerKind : OwnerKind
  ownerID : String
  ownerNameAtCapture : String
  surface : String
  timeCreated : ℕ
  text : String
  structured : Option String
  attachments : List Attachment
  context : List Snapshot
deriving DecidableEq

inductive MemoryError where
  /-- `ProjectMemoryInvariantError` -/
  | invariant (occurrenceID : String)
  | sessionNotFound (id : String)
  | taskOwnerNotFound (id : String)
  | sessionOwnerNotFound (id : String)
  | ownerRequired
  /-- A field that the schema wants not to be empty is. -/
  | schema
  /-- Another check of the transaction fails. -/
  | refused
deriving DecidableEq

def safeAttachment (projectID : String) (input : FileData) (index : ℕ) : Attachment where
  filename := safeMetadata (displayFilename input.filename input.mime index)
    ("attachment-" ++ toString (index + 1))
  mime := safeMetadata input.mime "application/octet-stream"
  reference :=
    match nameFromUrl input.url with
    | some (located, name) =>
      if located = projectID then "/attachment/" ++ located ++ "/" ++ name else "<external-reference-omitted>"
    | none => "<external-reference-omitted>"
  size := input.size

def fileParts (parts : List Part) : List FileData :=
  parts.filterMap fun part =>
    match part.data with
    | .file file => some file
    | _ => none

def textParts (parts : List Part) : List String :=
  parts.filterMap fun part =>
    match part.data with
    | .text text => some text
    | _ => none

def safeAttachments (projectID : String) (files : List FileData) : List Attachment :=
  files.mapIdx fun index file => safeAttachment projectID file index

def snapshot (projectID : String) (info : Info) (parts : List Part) : Snapshot where
  messageID := info.id
  role := info.role
  author := info.author
  text := sanitizeText ("\n\n".intercalate (textParts parts))
  attachments := safeAttachments projectID (fileParts parts)

def Info.orderKey (info : Info) : ℕ ×ₗ String := toLex (info.created, info.id)

def PartRow.orderKey (row : PartRow) : ℕ ×ₗ String := toLex (row.timeCreated, row.part.id)

namespace Transcript

variable (t : Transcript)

def partsOf (messageID : String) : List Part :=
  (orderBy PartRow.orderKey (t.parts.filter fun row => row.messageID = messageID)).map PartRow.part

def previousContext (sessionID : String) (before : Option (ℕ ×ₗ String)) (projectID : String) : List Snapshot :=
  let rows := t.messages.filter fun row => row.sessionID = sessionID && before.all fun key => row.orderKey < key
  let rows := ((orderBy Info.orderKey rows).reverse.take 2).reverse
  rows.map fun row => snapshot projectID row (t.partsOf row.id)

structure Owner where
  ownerKind : OwnerKind
  ownerID : String
  ownerNameAtCapture : String

def session? (id : String) : Option SessionRow := t.sessions.find? fun row => row.id = id

def taskOwner (task : TaskRow) : Owner where
  ownerKind := .task
  ownerID := task.id
  ownerNameAtCapture := safeMetadata task.title "Untitled task"

def conversationOwner (session : SessionRow) (title : String) : Owner where
  ownerKind := .conversation
  ownerID := session.id
  ownerNameAtCapture := safeMetadata title "Untitled conversation"

def capturedTitle (session : SessionRow) (text : String) : String :=
  if session.title ∈ ["Chat", "Work", "Mission Control"] ∧ trim text ≠ "" then deriveTitle (sanitizeText text)
  else session.title

omit [TextRules] in
lemma length_unvisited_lt {id : String} {visited : List String} {session : SessionRow} (hvisited : id ∉ visited)
    (hsession : t.session? id = some session) :
    (t.sessions.filter fun row => row.id ∉ id :: visited).length <
      (t.sessions.filter fun row => row.id ∉ visited).length := by
  have hmem : session ∈ t.sessions := List.mem_of_find?_eq_some hsession
  have hid : session.id = id := by simpa using List.find?_some hsession
  have hfilter : (t.sessions.filter fun row => row.id ∉ id :: visited) =
      (t.sessions.filter fun row => row.id ∉ visited).filter fun row => row.id ≠ id := by
    rw [List.filter_filter]
    refine List.filter_congr fun row _ => ?_
    simp [List.mem_cons, not_or]
  rw [hfilter, List.length_filter_lt_length_iff_exists]
  refine ⟨session, List.mem_filter.mpr ⟨hmem, ?_⟩, ?_⟩
  · rw [hid]
    exact decide_eq_true hvisited
  · simp [hid]

/-- The walk from a Session to the Sessions above it; `visited` are the ones that it has passed. -/
def walkOwner (sessionID text : String) (visited : List String) (current : Option String) : Option Owner :=
  match current with
  | none => none
  | some id =>
    if _ : id ∈ visited then none
    else
      match t.tasks.find? fun row => row.sessionID = some id with
      | some task => some (taskOwner task)
      | none =>
        match _ : t.session? id with
        | none => none
        | some session =>
          if id = sessionID ∧ session.parentID = none then
            some (conversationOwner session (capturedTitle session text))
          else walkOwner sessionID text (id :: visited) session.parentID
termination_by (t.sessions.filter fun row => row.id ∉ visited).length
decreasing_by exact t.length_unvisited_lt ‹_› ‹_›

def owner (sessionID taskID : Option String) (text : String) : Except MemoryError Owner :=
  match taskID with
  | some taskID => do
    let task ← getOrThrow (t.tasks.find? fun row => row.id = taskID) (.taskOwnerNotFound taskID)
    return taskOwner task
  | none => do
    let sessionID ← getOrThrow sessionID .ownerRequired
    match t.walkOwner sessionID text [] (some sessionID) with
    | some owner => return owner
    | none => do
      let session ← getOrThrow (t.session? sessionID) (.sessionOwnerNotFound sessionID)
      return conversationOwner session session.title

/-- The entry of `captureMessageInTransaction`; `none` when the Message has no mark. -/
def messageEntry (info : Info) (parts : List Part) : Except MemoryError (Option Entry) :=
  match if info.role = .user then info.extra else none with
  | none => return none
  | some marker => do
    let session ← getOrThrow (t.session? info.sessionID) (.sessionNotFound info.sessionID)
    let owner ← t.owner (some session.id) none marker.literalText
    return some {
        occurrenceKind := .message
        occurrenceID := info.id
        projectID := session.projectID
        sessionID := some session.id
        taskID := if owner.ownerKind = .task then some owner.ownerID else none
        ownerKind := owner.ownerKind
        ownerID := owner.ownerID
        ownerNameAtCapture := owner.ownerNameAtCapture
        surface := marker.surface
        timeCreated := info.created
        text := sanitizeText marker.literalText
        structured := none
        attachments := safeAttachments session.projectID (fileParts parts)
        context := t.previousContext session.id (some info.orderKey) session.projectID }

/-- The input of `captureOccurrenceInTransaction`; its kind is not that of a Message. -/
structure OccurrenceInput where
  occurrenceKind : OccurrenceKind
  notMessage : occurrenceKind ≠ .message
  occurrenceID : String
  projectID : String
  sessionID : Option String
  taskID : Option String
  surface : String
  timeCreated : ℕ
  text : String
  structured : Option String
  attachments : List FileData

/-- The entry of `captureOccurrenceInTransaction`. -/
def occurrenceEntry (input : OccurrenceInput) : Except MemoryError Entry := do
  let owner ← t.owner input.sessionID input.taskID input.text
  return {
      occurrenceKind := input.occurrenceKind
      occurrenceID := input.occurrenceID
      projectID := input.projectID
      sessionID := input.sessionID
      taskID := input.taskID
      ownerKind := owner.ownerKind
      ownerID := owner.ownerID
      ownerNameAtCapture := owner.ownerNameAtCapture
      surface := input.surface
      timeCreated := input.timeCreated
      text := sanitizeText input.text
      structured := input.structured.map sanitizeJSON
      attachments := safeAttachments input.projectID input.attachments
      context := (input.sessionID.map fun id => t.previousContext id none input.projectID).getD [] }

end Transcript

end OpenCorvus.Memory
