import OpenCorvus.Engine.TaskRootActivation

/-!
# The writers of a conversation

The operations that write messages, parts, Tool calls and Provider calls of a Session.  Requests and
outcomes are immutable facts, a completed assistant message and its parts are immutable, and every
new fact of an assistant message that names an activation passes the fence of this activation.
-/

namespace OpenCorvus.Session

open Engine Transaction

/-- The ids that `Identifier.ascending` generates for a kind, told apart by their body. -/
def ascendingID (kind body : String) : String := kind ++ "_" ++ body

abbrev partID (body : String) : String := ascendingID "prt" body

abbrev activityID (body : String) : String := ascendingID "act" body

lemma partID_ne_activityID (part activity : String) : partID part ≠ activityID activity := by
  intro h
  have hlists := congrArg String.toList h
  simp [ascendingID, String.toList_append] at hlists

variable (db : TaskRootDatabase)

def assertSessionDeletionAdmissionInTransaction (sessionID : String) : Except EngineError Unit :=
  match db.fencedSessions.find? fun fenced => fenced.1 = sessionID with
  | none => .ok ()
  | some fenced => .error (.error fenced.2)

def completedAssistant (data : MessageData) : Bool :=
  data.assistant?.any (·.timeCompleted.isSome)

def persistedCreated (msg : MessageRow) : ℤ :=
  match db.findMessage msg.id with
  | some existing => existing.timeCreated
  | none =>
    match ((db.messages.filter fun row => row.sessionID = msg.sessionID).map (·.timeCreated)).max? with
    | none => msg.timeCreated
    | some latest => max msg.timeCreated (latest + 1)

variable (messageID : String)

def acceptedIngressMessage : Bool :=
  db.ingresses.any fun row => row.source = .message ∧ row.sourceID = messageID

def protocolCausalMessage : Bool :=
  db.protocolEvents.any fun row => row.inputMessageID = some messageID

def taskRootMessageIsImmutable : Bool :=
  acceptedIngressMessage db messageID ∨ protocolCausalMessage db messageID ∨
    (db.findMessage messageID).any (fun row => row.activationID.any (· ≠ "")) ∨
    db.messages.any fun row =>
      row.data.assistant?.any fun message => message.identity.parentID = messageID

def assertTaskRootMessageMutable : Except EngineError Unit :=
  throwWhen (taskRootMessageIsImmutable db messageID)
    (.error ("Task-root causal Message " ++ messageID ++ " is immutable"))

def assertAcceptedIngressMessageMutable : Except EngineError Unit :=
  throwWhen (acceptedIngressMessage db messageID ∨ protocolCausalMessage db messageID)
    (.error ("Accepted ingress Message " ++ messageID ++ " is immutable"))

/-- The checks of an update against the stored data; the answer says whether the update may be the
settlement of accepted activities. -/
def assertMessageUpdate (prior next : MessageData) : Except EngineError Bool :=
  match prior, next with
  | .assistant priorMessage, .assistant nextMessage => do
    let effectBound := priorMessage.identity.activationID.any (· ≠ "") ∨ hasActivity db messageID
    throwWhen (effectBound ∧ priorMessage.identity ≠ nextMessage.identity)
      (.error ("Assistant Message " ++ messageID ++ " effect causal/model identity is immutable"))
    return priorMessage.timeCompleted.isNone ∧ nextMessage.timeCompleted.isSome
  | .assistant _, .user _ _ => .ok false
  | .user _ _, _ => do
    if prior ≠ next then assertTaskRootMessageMutable db messageID
    return false

def triggerIdentity (data : MessageData) : Option AssistantIdentity :=
  data.assistant?.map fun message => { message.identity with acceptedInputMessageIDs := [] }

def storeMessage (msg : MessageRow) : Except EngineError TaskRootDatabase :=
  match db.findMessage msg.id with
  | none => .ok { db with messages := db.messages ++ [msg] }
  | some existing => do
    throwWhen ((triggerIdentity existing.data).isSome ∧
        (existing.activationID.isSome ∨ hasActivity db msg.id) ∧
        triggerIdentity existing.data ≠ triggerIdentity msg.data)
      (.database "message: assistant effect causal/model identity is immutable")
    throwWhen (acceptedIngressMessage db msg.id ∨ protocolCausalMessage db msg.id)
      (.database "message: accepted Task-root causal facts are immutable")
    return { db with messages := db.messages.map fun row =>
      if row.id = msg.id then { row with data := msg.data } else row }

def assertMessageFence (msg : MessageRow) (now : ℤ) (allowAcceptedActivitySettlement : Bool) :
    Except EngineError Unit :=
  match msg.data with
  | .user _ _ => .ok ()
  | .assistant message =>
    match message.identity.activationID.filter (· ≠ "") with
    | none => .ok ()
    | some activationID =>
      assertTaskRootAssistantActivationFenceInTransaction db msg.id now
        (some { sessionID := msg.sessionID, parentID := message.identity.parentID,
                activationID := activationID })
        allowAcceptedActivitySettlement

/-- Write a message.  A completed assistant message only admits the replay of its data. -/
def upsertMessageRow (msg : MessageRow) (now : ℤ) : Except EngineError TaskRootDatabase := do
  assertSessionDeletionAdmissionInTransaction db msg.sessionID
  let persistedMessage : MessageRow := { msg with timeCreated := persistedCreated db msg }
  match db.findMessage msg.id with
  | none => do
    assertMessageFence db persistedMessage now false
    storeMessage db persistedMessage
  | some existing =>
    if completedAssistant existing.data then do
      throwWhen (existing.data ≠ persistedMessage.data)
        (.error ("Completed assistant Message " ++ msg.id ++ " is immutable"))
      return db
    else do
      let settlement ← assertMessageUpdate db msg.id existing.data persistedMessage.data
      assertMessageFence db persistedMessage now settlement
      storeMessage db persistedMessage

/-- The state of a Tool call; of an end, the text stands for all that is stored with it. -/
inductive ToolPartState where
  | pending
  | running
  | completed (rest : String)
  | error (rest : String)
deriving DecidableEq

structure ToolPart where
  id : String
  messageID : String
  sessionID : String
  callID : String
  tool : String
  input : ToolInput
  metadata : Option String
  state : ToolPartState

structure ContentPart where
  id : String
  messageID : String
  sessionID : String
  data : PartData

def findPart (id : String) : Option PartRow :=
  db.parts.find? fun row => row.id = id

def findToolRequest (id : String) : Option ToolPartRequestRow :=
  db.toolRequests.find? fun row => row.id = id

def assertPartMessage (id messageID sessionID : String) : Except EngineError MessageRow := do
  assertSessionDeletionAdmissionInTransaction db sessionID
  let message ← getOrThrow
    (db.messages.find? fun row => row.id = messageID ∧ row.sessionID = sessionID)
    (.notFound ("Message not found: " ++ messageID))
  throwWhen ((findPart db id).any fun row => row.messageID ≠ messageID) (.notFound ("Part not found: " ++ id))
  throwWhen ((findToolRequest db id).any fun row => row.messageID ≠ messageID)
    (.notFound ("Part not found: " ++ id))
  return message

def reconcileToolRequestFact (stored : ToolPartRequestRow) (part : ToolPart) : Bool :=
  stored.callID = part.callID ∧ stored.tool = part.tool ∧ stored.input = part.input ∧
    (stored.metadata = part.metadata ∨ stored.metadata = none)

def storeToolRequest (part : ToolPart) (time : ℤ) : Except EngineError TaskRootDatabase :=
  match findToolRequest db part.id with
  | none => do
    assertTaskRootAssistantActivationFenceInTransaction db part.messageID time none false
    throwWhen (db.toolRequests.any fun row =>
        row.messageID = part.messageID ∧ row.callID = part.callID)
      (.database "UNIQUE constraint failed: index 'tool_part_request_call_idx'")
    return { db with toolRequests := db.toolRequests ++
      [{ id := part.id, messageID := part.messageID, timeCreated := time, callID := part.callID,
         tool := part.tool, input := part.input, metadata := part.metadata }] }
  | some stored => do
    throwWhen (¬reconcileToolRequestFact stored part) (.hostProcessingFault
      ("Tool request Part " ++ part.id ++ " conflicts with its immutable request fact"))
    return db

def toolOutcomeData (state : ToolPartState) : Option (Bool × String) :=
  match state with
  | .pending | .running => none
  | .completed rest => some (true, rest)
  | .error rest => some (false, rest)

def storeToolOutcome [TaskRootIdentity] (db : TaskRootDatabase) (requestID : String)
    (outcome : Bool × String) : Except EngineError TaskRootDatabase := do
  let row : ToolPartOutcomeRow :=
    { id := toolOutcomePartIdentity requestID, requestPartID := requestID, completed := outcome.1,
      rest := outcome.2 }
  match toolOutcomeOf db requestID with
  | some existing => do
    throwWhen (existing ≠ row) (.hostProcessingFault
      ("Tool outcome Part " ++ row.id ++ " conflicts with its immutable receipt"))
    return db
  | none => do
    throwWhen (db.toolOutcomes.any fun other => other.id = row.id)
      (.database "UNIQUE constraint failed: tool_part_outcome.id")
    return { db with toolOutcomes := db.toolOutcomes ++ [row] }

/-- Write a Tool call: its request before the outcome, and each at most once. -/
def updateToolPart [TaskRootIdentity] (db : TaskRootDatabase) (part : ToolPart)
    (requestedTime : ℤ) : Except EngineError TaskRootDatabase := do
  let message ← assertPartMessage db part.id part.messageID part.sessionID
  if part.state = .pending then return db
  throwWhen ((findToolRequest db part.id).isNone ∧ completedAssistant message.data) (.hostProcessingFault
      ("Tool request Part " ++ part.id ++ " cannot be appended after assistant completion"))
  throwWhen (findPart db part.id).isSome (.hostProcessingFault
    ("Tool request Part identity " ++ part.id ++ " is occupied by a non-Tool fact"))
  let requested ← storeToolRequest db part (max requestedTime message.timeCreated)
  match toolOutcomeData part.state with
  | none => return requested
  | some outcome => storeToolOutcome requested part.id outcome

def PartData.streams (current data : PartData) : Bool :=
  (current.type = "text" ∨ current.type = "reasoning") ∧ current.type = data.type

def assertUserPartMutable (message : MessageRow) : Except EngineError Unit :=
  if message.data.assistant?.isNone then assertAcceptedIngressMessageMutable db message.id
  else .ok ()

def storePart (row : PartRow) : TaskRootDatabase :=
  match findPart db row.id with
  | none => { db with parts := db.parts ++ [row] }
  | some _ => { db with parts := db.parts.map fun other =>
      if other.id = row.id then { other with data := row.data } else other }

/-- Write a part that is not a Tool call. -/
def updateContentPart (part : ContentPart) (requestedTime : ℤ) (completedCompactionCheckpoint : Bool) :
    Except EngineError TaskRootDatabase := do
  let message ← assertPartMessage db part.id part.messageID part.sessionID
  let time := max requestedTime message.timeCreated
  throwWhen (findToolRequest db part.id).isSome (.hostProcessingFault
    ("Part identity " ++ part.id ++ " is occupied by an immutable Tool request fact"))
  assertUserPartMutable db message
  if (findPart db part.id).any fun row => row.data = part.data then return db
  throwWhen (completedAssistant message.data ∧ ¬(completedCompactionCheckpoint ∧
      part.data.type = "compaction" ∧ (findPart db part.id).isNone))
    (.hostProcessingFault ("Part " ++ part.id ++ " is immutable after assistant completion"))
  throwWhen ((findPart db part.id).any fun row => ¬PartData.streams row.data part.data)
    (.hostProcessingFault ("Non-streaming Part " ++ part.id ++ " is immutable"))
  assertTaskRootAssistantActivationFenceInTransaction db part.messageID time none false
  return storePart db
    { id := part.id, messageID := part.messageID, timeCreated := time, data := part.data }

/-- The error name of a receipt that recovery writes for a call whose owner is gone. -/
def PROVIDER_ACTIVITY_INTERRUPTION_ERROR_NAME : String := "ProcessExecutionInterruptedError"

inductive LLMActivityEvent where
  | started (id sessionID : String)
  | terminal (id : String) (outcome : ProviderActivityOutcome) (errorName : Option String) (rest : String)

def recordProviderActivityEvent [TaskRootIdentity] (db : TaskRootDatabase)
    (assistantMessageID : String) (event : LLMActivityEvent) (ts : ℤ) :
    Except EngineError TaskRootDatabase :=
  match event with
  | .started id sessionID => do
    assertTaskRootAssistantActivationFenceInTransaction db assistantMessageID ts none false
    throwWhen (¬(db.findMessage assistantMessageID).any fun message =>
        message.sessionID = sessionID)
      (.error ("Provider activity " ++ id ++ " does not belong to assistant Message " ++
        assistantMessageID ++ "."))
    match db.providerRequests.find? fun request => request.id = id with
    | some existing => do
      throwWhen (existing.assistantMessageID ≠ assistantMessageID) (.error ("Provider activity " ++ id ++
          " already belongs to a different assistant Message."))
      return db
    | none => return { db with providerRequests := db.providerRequests ++
        [{ id := id, assistantMessageID := assistantMessageID }] }
  | .terminal id outcome errorName rest => do
    throwWhen (¬(db.providerRequests.find? fun request => request.id = id).any fun request =>
        request.assistantMessageID = assistantMessageID)
      (.error ("Provider activity " ++ id ++ " terminal receipt has no matching request."))
    let row : ProviderActivityOutcomeRow :=
      { id := providerOutcomeIdentity id, requestID := id, outcome := outcome,
        errorName := errorName, rest := rest }
    match providerOutcomeOf db id with
    | some existing => do
      throwWhen (existing ≠ row ∧ existing.errorName ≠ some PROVIDER_ACTIVITY_INTERRUPTION_ERROR_NAME)
        (.error ("Provider activity " ++ id ++ " has conflicting terminal receipts."))
      return db
    | none => do
      throwWhen (db.providerOutcomes.any fun other => other.id = row.id)
        (.database "UNIQUE constraint failed: provider_activity_outcome.id")
      return { db with providerOutcomes := db.providerOutcomes ++ [row] }

end OpenCorvus.Session
