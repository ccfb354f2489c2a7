import OpenCorvus.Engine.TaskLifecycle
import OpenCorvus.Protocol.SchedulerDelivery

/-!
# The enqueue of scheduler messages

A scheduler message goes from one scheduler to another: of a Mission, or of a Task.  Its sender names the occurrence
that it rests on, a Message with its Part or the terminal event of a Task, and an enqueue checks both endpoints, the
source, and the execution epochs before it writes an event and a row of the recipient's inbox.

The identity of a delivery is derived from its endpoints, its kind and the invocation, so a repeated enqueue finds
what the first one wrote.  The model stores an endpoint where the event has its encoding, which determines it.
-/

namespace OpenCorvus.Protocol.SchedulerMessage

open EcmaScript Transaction Engine

/-! ## Endpoints -/

structure MissionScheduler where
  projectID : String
  missionID : String
  sessionID : String
deriving DecidableEq

structure TaskScheduler where
  projectID : String
  taskID : String
  rootSessionID : String
deriving DecidableEq

inductive SchedulerEndpoint where
  | mission (endpoint : MissionScheduler)
  | task (endpoint : TaskScheduler)
deriving DecidableEq

def SchedulerEndpoint.projectID : SchedulerEndpoint → String
  | .mission endpoint => endpoint.projectID
  | .task endpoint => endpoint.projectID

def SchedulerEndpoint.isTask : SchedulerEndpoint → Bool
  | .mission _ => false
  | .task _ => true

/-- The characters after the tag of a canonical identifier. -/
def canonicalBody (body : List Char) : Bool :=
  (body.all fun c => c.isAlphanum ∨ c = '.' ∨ c = '_' ∨ c = '-') ∧
    (body.head?.any fun c => c.isAlphanum ∨ c = '-') ∧ body.getLast?.any fun c => c.isAlphanum

/-- `Identifier.isCanonical` for a tag. -/
def isCanonical (tag id : String) : Bool :=
  (tag.toList ++ ['_']).isPrefixOf id.toList ∧ canonicalBody (id.toList.drop (tag.length + 1))

def SchedulerEndpoint.parses : SchedulerEndpoint → Bool
  | .mission endpoint =>
    endpoint.projectID ≠ "" ∧ endpoint.missionID ≠ "" ∧ isCanonical "ses" endpoint.sessionID
  | .task endpoint =>
    endpoint.projectID ≠ "" ∧ isCanonical "tsk" endpoint.taskID ∧ isCanonical "ses" endpoint.rootSessionID

inductive SchedulerMessageKind where
  | request
  | reply
  | notification
deriving DecidableEq

/-! ## Tables -/

inductive TaskCreatorMetadata where
  | mission (missionID sessionID : String)
  | other
  /-- The metadata does not pass its schema. -/
  | malformed
deriving DecidableEq

structure TaskRow where
  /-- Primary key. -/
  id : String
  projectID : String
  sessionID : Option String
  creator : TaskCreatorMetadata
deriving DecidableEq

inductive SessionKind where
  | mission
  | orchestrator
  | other (name : String)
deriving DecidableEq

def SessionKind.text : SessionKind → String
  | .mission => "mission"
  | .orchestrator => "orchestrator"
  | .other name => name

structure SessionRow where
  id : String
  projectID : String
  kind : SessionKind
  parentID : Option String
  /-- The id of the Mission in its metadata. -/
  missionID : Option String
deriving DecidableEq

inductive MessageData where
  | user
  /-- The activation of a reply whose data passes its schema. -/
  | assistant (activationID : Option String)
deriving DecidableEq

structure MessageRow where
  id : String
  sessionID : String
  data : MessageData
deriving DecidableEq

structure PartRow where
  id : String
  messageID : String
  /-- The message in the input of a call of the Tool `scheduler_message`. -/
  body : Option String
deriving DecidableEq

structure IngressRow where
  id : String
  taskID : String
  executionEpoch : ℕ
deriving DecidableEq

inductive ProtocolKind where
  | command
  | event
  | reply
deriving DecidableEq

structure SchedulerMessagePayload where
  invocationID : String
  messageKind : SchedulerMessageKind
  threadID : String
  sourceMessageID : Option String
  sourcePartID : Option String
  sourceTerminalEventID : Option String
  sourceTaskExecutionEpoch : Option ℕ
  targetTaskExecutionEpoch : Option ℕ
  sourceBodySHA256 : String
  subject : String
deriving DecidableEq

structure SchedulerEnvelope where
  id : String
  kind : ProtocolKind
  aggregate : SchedulerActor
  aggregateID : String
  sessionID : Option String
  source : SchedulerEndpoint
  target : SchedulerEndpoint
  correlationID : String
  causationID : Option String
  replyTo : Option String
  seq : ℕ
  emittedAt : ℤ
  payload : SchedulerMessagePayload
deriving DecidableEq

inductive ProtocolEventRow where
  | schedulerMessage (envelope : SchedulerEnvelope)
  /-- A lifecycle event of a Task, and its payload as a text. -/
  | task (event : TaskEvent) (payload : String)
  /-- An event of another type; its aggregate, if it is a Task or a Session. -/
  | other (id : String) (aggregate : Option (SchedulerActor × String)) (seq : ℕ)
deriving DecidableEq

/-- Primary key. -/
def ProtocolEventRow.id : ProtocolEventRow → String
  | .schedulerMessage envelope => envelope.id
  | .task event _ => event.id
  | .other id _ _ => id

def ProtocolEventRow.envelope? : ProtocolEventRow → Option SchedulerEnvelope
  | .schedulerMessage envelope => some envelope
  | _ => none

def ProtocolEventRow.taskEvent? : ProtocolEventRow → Option TaskEvent
  | .task event _ => some event
  | _ => none

def ProtocolEventRow.seqIn (aggregate : SchedulerActor) (aggregateID : String) : ProtocolEventRow → Option ℕ
  | .schedulerMessage envelope =>
    if envelope.aggregate = aggregate ∧ envelope.aggregateID = aggregateID then some envelope.seq
    else none
  | .task event _ => if aggregate = .task ∧ event.aggregateID = aggregateID then some event.seq else none
  | .other _ owner seq => if owner = some (aggregate, aggregateID) then some seq else none

structure Surroundings where
  tasks : List TaskRow
  sessions : List SessionRow
  messages : List MessageRow
  parts : List PartRow
  toolRequests : List PartRow
  ingresses : List IngressRow
  receipts : List ProtocolDeliveryReceiptRow
  leases : ControlLeaseTables
deriving DecidableEq

/-- The tables. -/
structure MessageDatabase where
  surroundings : Surroundings
  events : List ProtocolEventRow
  inbox : List ProtocolInboxRow
deriving DecidableEq

/-- What an enqueue raises. -/
inductive MessageError where
  | authority (message : String)
  | conflict (message : String) (eventID : Option String)
  | targetOccurrenceStale (message taskID : String) (expectedEpoch currentEpoch : ℕ)
  /-- A value does not pass its schema. -/
  | schema (name : String)
  | engine (error : EngineError)
  | error (message : String)
  | database (message : String)
deriving DecidableEq

/-- What the code takes from its host: identifiers derived from a text, the text of the material of a
delivery, and the digest of a body. -/
structure MessageHost where
  deterministic : String → String → String
  identityMaterial : SchedulerEndpoint → SchedulerEndpoint → String → SchedulerMessageKind → String
  sha256 : String → String

variable (db : MessageDatabase)

def MessageDatabase.taskEvents : List TaskEvent :=
  db.events.filterMap ProtocolEventRow.taskEvent?

def MessageDatabase.findEvent (id : String) : Option ProtocolEventRow :=
  db.events.find? fun row => row.id = id

def MessageDatabase.findInbox (id : String) : Option ProtocolInboxRow :=
  db.inbox.find? fun row => row.id = id

/-- The tables that the status of a delivery is projected from. -/
def MessageDatabase.deliveries : DeliveryDatabase where
  events := []
  inbox := db.inbox
  receipts := db.surroundings.receipts
  leases := db.surroundings.leases

def liftEngine {α : Type} : Except EngineError α → Except MessageError α
  | .ok a => .ok a
  | .error e => .error (.engine e)

/-! ## The authority of the endpoints -/

section Authority

variable (db : MessageDatabase)

def requireMissionEndpoint (endpoint : MissionScheduler) : Except MessageError Unit :=
  let session := db.surroundings.sessions.find? fun row => row.id = endpoint.sessionID
  throwWhen (¬session.any fun row => row.projectID = endpoint.projectID ∧ row.kind = .mission ∧
      row.missionID = some endpoint.missionID)
    (.authority ("Mission scheduler endpoint " ++ endpoint.missionID ++ "/" ++ endpoint.sessionID ++
      " is not a current Project Mission."))

def requireTaskEndpoint (endpoint : TaskScheduler) :
    Except MessageError (TaskRow × TaskLifecycleProjection) := do
  let refused : MessageError := .authority ("Task scheduler endpoint " ++ endpoint.taskID ++
    " is not bound to the declared Project/root Session.")
  let task ← getOrThrow (db.surroundings.tasks.find? fun row => row.id = endpoint.taskID) refused
  throwWhen (task.projectID ≠ endpoint.projectID ∨ task.sessionID ≠ some endpoint.rootSessionID) refused
  throwWhen (taskDeletedInTransaction db.taskEvents task.id) (.engine (.taskDeleted task.id))
  let lifecycle ← liftEngine (taskLifecycleProjectionInTransaction db.taskEvents task.id)
  return (task, lifecycle)

def missionOwner (task : TaskRow) : Except MessageError (Option (String × String)) :=
  match task.creator with
  | .mission missionID sessionID => .ok (some (missionID, sessionID))
  | .other => .ok none
  | .malformed => .error (.schema "TaskCreatorMetadata")

/-- The sender may address the recipient. -/
def requireEndpointAuthority (source target : SchedulerEndpoint) : Except MessageError Unit := do
  throwWhen (source.projectID ≠ target.projectID) (.authority "Scheduler messages cannot cross Projects.")
  match source, target with
  | .mission source, .task target => do
    requireMissionEndpoint db source
    let (targetTask, _) ← requireTaskEndpoint db target
    let owner ← missionOwner targetTask
    throwWhen (owner ≠ some (source.missionID, source.sessionID))
      (.authority ("Mission does not own target Task " ++ targetTask.id ++ "."))
  | .task source, .mission target => do
    let (sourceTask, _) ← requireTaskEndpoint db source
    requireMissionEndpoint db target
    let owner ← missionOwner sourceTask
    throwWhen (owner ≠ some (target.missionID, target.sessionID))
      (.authority ("Task " ++ sourceTask.id ++ " is not owned by target Mission."))
  | .task source, .task target => do
    let (sourceTask, _) ← requireTaskEndpoint db source
    let (targetTask, _) ← requireTaskEndpoint db target
    throwWhen (sourceTask.id = targetTask.id) (.authority ("Task scheduler " ++ sourceTask.id ++
        " cannot address itself; peer messages require a sibling Task."))
    let sourceOwner ← missionOwner sourceTask
    let targetOwner ← missionOwner targetTask
    throwWhen (sourceOwner = none ∨ sourceOwner ≠ targetOwner)
      (.authority "Scheduler peer Tasks must share one exact owning Mission.")
  | .mission _, .mission _ =>
    .error (.authority "Mission-to-Mission scheduler messages are not authorized.")

end Authority

/-! ## The source -/

structure EnqueueInput where
  invocationID : String
  kind : SchedulerMessageKind
  source : SchedulerEndpoint
  target : SchedulerEndpoint
  subject : String
  sourceMessageID : Option String
  sourcePartID : Option String
  sourceTerminalEventID : Option String
  correlationID : Option String
  threadID : Option String
  replyTo : Option String

/-- The text of an optional field, unless it is empty. -/
def truthy : Option String → Option String
  | none => none
  | some value => if value = "" then none else some value

/-- An optional text without its outer blanks, or a default when nothing is left. -/
def trimmedOr (value : Option String) (default : String) : String :=
  (truthy (value.map trim)).getD default

def EnqueueInput.correlation (input : EnqueueInput) : String :=
  trimmedOr input.correlationID input.invocationID

def EnqueueInput.thread (input : EnqueueInput) : String :=
  trimmedOr input.threadID input.correlation

section Source

variable (db : MessageDatabase)

def inLineage (rootSessionID : String) : ℕ → List SessionRow → String → Bool
  | 0, _, cursor => cursor ≠ "" ∧ cursor = rootSessionID
  | steps + 1, remaining, cursor =>
    if cursor = "" then false
    else if cursor = rootSessionID then true
    else
      match remaining.find? fun row => row.id = cursor with
      | none => false
      | some row =>
        match row.parentID with
        | none => false
        | some parentID =>
          inLineage rootSessionID steps (remaining.filter fun row => row.id ≠ cursor) parentID

variable (source : SchedulerEndpoint)

def sourceSessionAuthorized (message : MessageRow) : Bool :=
  match source with
  | .mission endpoint => message.sessionID = endpoint.sessionID
  | .task endpoint => inLineage endpoint.rootSessionID db.surroundings.sessions.length
      db.surroundings.sessions message.sessionID

/-- The Session that the refusal of a Message names. -/
def SchedulerEndpoint.expectedSessionID : SchedulerEndpoint → String
  | .mission endpoint => endpoint.sessionID
  | .task endpoint => endpoint.rootSessionID

def requireSourceMessage (messageID : String) (partID : Option String) : Except MessageError Unit := do
  let outside : MessageError := .authority ("Scheduler source Message " ++ messageID ++
    " does not belong to source endpoint Session lineage " ++ source.expectedSessionID ++ ".")
  let message ← getOrThrow (db.surroundings.messages.find? fun row => row.id = messageID) outside
  throwWhen (¬sourceSessionAuthorized db source message) outside
  let session := db.surroundings.sessions.find? fun row => row.id = message.sessionID
  throwWhen (source.isTask ∧ session.map (·.kind) ≠ some .orchestrator)
    (.authority ("Task scheduler source Message " ++ messageID ++
      " must belong to its Orchestrator Session, not " ++
      ((session.map (·.kind.text)).getD "a missing Session") ++ "."))
  throwWhen (message.data = .user) (.authority ("Scheduler source Message " ++ messageID ++
      " must be the assistant tool-call Message."))
  match truthy partID with
  | none => return ()
  | some partID =>
    let belongs := fun row : PartRow => row.id = partID ∧ row.messageID = messageID
    throwWhen (¬(db.surroundings.parts.any (fun row => belongs row) ∨
        db.surroundings.toolRequests.any fun row => belongs row))
      (.authority ("Scheduler source Part " ++ partID ++ " does not belong to source Message " ++
        messageID ++ "."))

def requireSourceTerminal (eventID : String) : Except MessageError Unit :=
  match source with
  | .mission _ => .error (.authority "Mission scheduler cannot author a Task terminal occurrence.")
  | .task endpoint =>
    throwWhen (¬((db.findEvent eventID).bind ProtocolEventRow.taskEvent?).any fun event =>
        event.aggregateID = endpoint.taskID ∧ event.type.isTerminal)
      (.authority ("Scheduler terminal source " ++ eventID ++ " does not belong to Task " ++
        endpoint.taskID ++ "."))

variable (input : EnqueueInput)

def requireSourceOccurrence : Except MessageError Unit := do
  let messageID := truthy input.sourceMessageID
  let partID := truthy input.sourcePartID
  let terminalID := truthy input.sourceTerminalEventID
  let hasMessage := messageID.isSome || partID.isSome
  throwWhen (hasMessage = terminalID.isSome) (.authority ("Scheduler message requires exactly one " ++
    "source occurrence: Message/Part or Task terminal event."))
  throwWhen (hasMessage ∧ (messageID = none ∨ partID = none)) (.authority ("Scheduler Message source " ++
    "requires both source Message and exact Part identities."))
  match messageID with
  | none => pure ()
  | some messageID => requireSourceMessage db input.source messageID input.sourcePartID
  match terminalID with
  | none => pure ()
  | some terminalID => requireSourceTerminal db input.source terminalID

/-- The epoch of the ingress that the activation of a Message serves. -/
def requireTaskSourceMessageOccurrence (source : TaskScheduler) (messageID : String) :
    Except MessageError ℕ := do
  let activationID ← getOrThrow
    ((db.surroundings.messages.find? fun row => row.id = messageID).bind fun message =>
      match message.data with
      | .assistant activationID => truthy activationID
      | .user => none)
    (.authority ("Task scheduler source Message " ++ messageID ++ " has no exact Task ingress occurrence."))
  let ingress := (db.surroundings.leases.leases.find? fun lease =>
      lease.id = activationID ∧ lease.target = .taskRootIngress).bind fun lease =>
    db.surroundings.ingresses.find? fun row => row.id = lease.targetID
  let outside : MessageError := .authority ("Task scheduler source Message " ++ messageID ++
    " names an ingress outside Task " ++ source.taskID ++ ".")
  let ingress ← getOrThrow ingress outside
  throwWhen (ingress.taskID ≠ source.taskID) outside
  throwWhen (((db.surroundings.tasks.find? fun row => row.id = ingress.taskID).bind (·.sessionID)) ≠
      some source.rootSessionID)
    (.authority ("Task scheduler source Message " ++ messageID ++
      " does not match its persisted Task ingress provenance."))
  return ingress.executionEpoch

def schedulerSourceBodyInTransaction : Except MessageError String := do
  requireSourceOccurrence db input
  match truthy input.sourceTerminalEventID with
  | some terminalID =>
    match db.findEvent terminalID with
    | some (.task _ payload) => return payload
    | _ => .error (.authority "Scheduler terminal source is missing.")
  | none =>
    let ofPart := fun row : PartRow => some row.id = input.sourcePartID
    let part := (db.surroundings.toolRequests.find? fun row => ofPart row).or
      (db.surroundings.parts.find? fun row => ofPart row)
    let missing : MessageError := .authority ("Scheduler source Part " ++ input.sourcePartID.getD "" ++
      " has no message body.")
    let body ← getOrThrow (part.bind (·.body)) missing
    throwWhen (trim body = "") missing
    return body

/-! ## Execution epochs -/

def isTaskActive (lifecycle : TaskLifecycleProjection) : Bool :=
  lifecycle.status = .active ∨ lifecycle.status = .cancelling

def deriveTaskStatus (lifecycle : TaskLifecycleProjection) : String :=
  match lifecycle.status with
  | .active => "active"
  | .cancelling => "active"
  | status => status.text

def sourceTaskExecutionEpoch : Except MessageError (Option ℕ) :=
  match input.source with
  | .mission _ => .ok none
  | .task source => do
    let (task, lifecycle) ← requireTaskEndpoint db source
    match truthy input.sourceMessageID with
    | none => return some lifecycle.epoch
    | some messageID => do
      throwWhen (¬isTaskActive lifecycle)
        (.authority ("Scheduler Message source requires active Task " ++ task.id ++ " (status=" ++
          deriveTaskStatus lifecycle ++ ")."))
      let epoch ← requireTaskSourceMessageOccurrence db source messageID
      throwWhen (epoch ≠ lifecycle.epoch)
        (.authority ("Scheduler source Message " ++ messageID ++ " belongs to Task " ++ task.id ++
          " epoch " ++ toString epoch ++ ", not current epoch " ++ toString lifecycle.epoch ++ "."))
      return some epoch

def targetTaskExecutionEpoch (target : SchedulerEndpoint) : Except MessageError (Option ℕ) :=
  match target with
  | .mission _ => .ok none
  | .task target => do
    let (task, lifecycle) ← requireTaskEndpoint db target
    throwWhen (¬isTaskActive lifecycle)
      (.authority ("Scheduler message requires active Task " ++ task.id ++ " (status=" ++
        deriveTaskStatus lifecycle ++ ")."))
    return some lifecycle.epoch

end Source

/-! ## Replies -/

def staleReversedTaskOccurrence (requestID : String) (endpoint : SchedulerEndpoint)
    (expectedEpoch currentEpoch : Option ℕ) : Except MessageError Unit :=
  match endpoint with
  | .mission _ => .ok ()
  | .task endpoint =>
    if expectedEpoch = currentEpoch then .ok ()
    else
      match expectedEpoch, currentEpoch with
      | some expectedEpoch, some currentEpoch =>
        .error (.targetOccurrenceStale ("Scheduler reply to " ++ requestID ++ " targets stale Task " ++
          endpoint.taskID ++ " epoch " ++ toString expectedEpoch ++ "; current epoch is " ++
          toString currentEpoch ++ ".") endpoint.taskID expectedEpoch currentEpoch)
      | _, _ =>
        .error (.conflict ("Scheduler reply does not preserve the Task occurrence of request " ++
          requestID ++ ".") (some requestID))

def existingReply (db : MessageDatabase) (requestID : String) : Option SchedulerEnvelope :=
  (db.events.filterMap ProtocolEventRow.envelope?).find? fun envelope =>
    envelope.kind = .reply ∧ envelope.replyTo = some requestID

/-- A reply answers a stored request from its recipient to its sender, in the same epochs, and no reply
to the request is stored yet. -/
def requireReplyAuthority (db : MessageDatabase) (input : EnqueueInput)
    (sourceEpoch targetEpoch : Option ℕ) : Except MessageError Unit :=
  if input.kind ≠ .reply then
    throwWhen ((truthy input.replyTo).isSome) (.conflict "Only a reply may carry reply_to." none)
  else do
    let replyTo ← getOrThrow (truthy input.replyTo)
      (.conflict "Scheduler reply requires reply_to." none)
    let notPending : MessageError := .conflict "Scheduler reply target is not a pending request." none
    let request ← getOrThrow ((db.findEvent replyTo).bind ProtocolEventRow.envelope?) notPending
    throwWhen (request.kind ≠ .command) notPending
    throwWhen (request.payload.messageKind ≠ .request) (.conflict "Scheduler reply target is not a request." none)
    throwWhen (request.source ≠ input.target ∨ request.target ≠ input.source ∨
        request.correlationID ≠ input.correlation ∨ request.payload.threadID ≠ input.thread)
      (.conflict ("Scheduler reply endpoints, correlation, or thread do not reverse request " ++
        request.id ++ ".") (some request.id))
    staleReversedTaskOccurrence request.id input.source request.payload.targetTaskExecutionEpoch sourceEpoch
    staleReversedTaskOccurrence request.id input.target request.payload.sourceTaskExecutionEpoch targetEpoch
    match existingReply db request.id with
    | none => return ()
    | some reply =>
      .error (.conflict ("Scheduler request " ++ request.id ++ " already has reply " ++ reply.id ++ ".")
        (some reply.id))

/-! ## Enqueue -/

def schedulerDeliveryIdentity (host : MessageHost) (input : EnqueueInput) : String × String :=
  let material := host.identityMaterial input.source input.target input.invocationID input.kind
  let nul := String.singleton (Char.ofNat 0)
  let eventID := host.deterministic "protocol_event" ("scheduler-delivery" ++ nul ++ material)
  (eventID, host.deterministic "protocol_inbox" ("scheduler-delivery" ++ nul ++ eventID))

def endpointRecipient : SchedulerEndpoint → SchedulerActor × String
  | .mission endpoint => (.session, endpoint.sessionID)
  | .task endpoint => (.task, endpoint.taskID)

def expectedEventKind : SchedulerMessageKind → ProtocolKind
  | .request => .command
  | .reply => .reply
  | .notification => .event

def expectedSessionID : SchedulerEndpoint → Option String
  | .mission _ => none
  | .task endpoint => some endpoint.rootSessionID

def EnqueueInput.expectedCausationID (input : EnqueueInput) : Option String :=
  input.replyTo.or input.sourceTerminalEventID

def hasTag (tag : String) (id : Option String) : Bool :=
  id.all fun id => tag.toList.isPrefixOf id.toList

/-- The payload passes its schema; the form of the digest and the source are the host's and that of
`requireSourceOccurrence`. -/
def SchedulerMessagePayload.parses (payload : SchedulerMessagePayload) : Bool :=
  payload.invocationID ≠ "" ∧ payload.threadID ≠ "" ∧ hasTag "msg" payload.sourceMessageID ∧
    hasTag "prt" payload.sourcePartID ∧ hasTag "pev" payload.sourceTerminalEventID ∧
    payload.sourceTaskExecutionEpoch ≠ some 0 ∧ payload.targetTaskExecutionEpoch ≠ some 0 ∧
    payload.subject ≠ "" ∧ stringLength payload.subject ≤ 500

def EnqueueInput.payload (input : EnqueueInput) (sourceEpoch targetEpoch : Option ℕ)
    (sourceBodySHA256 : String) : SchedulerMessagePayload where
  invocationID := input.invocationID
  messageKind := input.kind
  threadID := input.thread
  sourceMessageID := input.sourceMessageID
  sourcePartID := input.sourcePartID
  sourceTerminalEventID := input.sourceTerminalEventID
  sourceTaskExecutionEpoch := sourceEpoch
  targetTaskExecutionEpoch := targetEpoch
  sourceBodySHA256 := sourceBodySHA256
  subject := input.subject

/-- The columns of the event of a message that a replay compares. -/
def EnqueueInput.Matches (input : EnqueueInput) (envelope : SchedulerEnvelope) : Prop :=
  envelope.kind = expectedEventKind input.kind ∧
    envelope.aggregate = (endpointRecipient input.target).1 ∧
    envelope.aggregateID = (endpointRecipient input.target).2 ∧
    envelope.sessionID = expectedSessionID input.target ∧ envelope.source = input.source ∧
    envelope.target = input.target ∧ envelope.correlationID = input.correlation ∧
    envelope.causationID = input.expectedCausationID ∧ envelope.replyTo = input.replyTo

instance (input : EnqueueInput) (envelope : SchedulerEnvelope) : Decidable (input.Matches envelope) :=
  inferInstanceAs (Decidable (_ ∧ _))

section Enqueue

variable (host : MessageHost) (db : MessageDatabase) (input : EnqueueInput)

/-- A message that is stored already: what is stored must be the same. -/
def replaySchedulerMessage (existingInbox : Option ProtocolInboxRow)
    (existingEvent : Option ProtocolEventRow) (payload : SchedulerMessagePayload) (now : ℤ) :
    Except MessageError SchedulerDeliveryReceipt := do
  let (eventID, inboxID) := schedulerDeliveryIdentity host input
  let conflict : MessageError := .conflict ("Scheduler invocation " ++ input.invocationID ++
    " conflicts with its persisted delivery.") (some eventID)
  let inbox ← getOrThrow existingInbox conflict
  let envelope ← getOrThrow (existingEvent.bind ProtocolEventRow.envelope?) conflict
  throwWhen (inbox.envelopeID ≠ eventID ∨ (inbox.actor, inbox.actorID) ≠ endpointRecipient input.target ∨
    ¬input.Matches envelope ∨ ¬envelope.payload.parses) conflict
  throwWhen (envelope.payload ≠ payload) (.conflict ("Scheduler invocation " ++ input.invocationID ++
      " was replayed with different content.") (some eventID))
  return { eventID := eventID, inboxID := inboxID, threadID := envelope.payload.threadID
           status := (projectProtocolDeliveryInTransaction db.deliveries inbox now).status
           replayed := true }

def nextAggregateSequence (aggregate : SchedulerActor) (aggregateID : String) : ℕ :=
  maxOrZero (db.events.filterMap fun row => row.seqIn aggregate aggregateID) + 1

def EnqueueInput.envelope (payload : SchedulerMessagePayload) (now : ℤ) : SchedulerEnvelope where
  id := (schedulerDeliveryIdentity host input).1
  kind := expectedEventKind input.kind
  aggregate := (endpointRecipient input.target).1
  aggregateID := (endpointRecipient input.target).2
  sessionID := expectedSessionID input.target
  source := input.source
  target := input.target
  correlationID := input.correlation
  causationID := input.expectedCausationID
  replyTo := input.replyTo
  seq := nextAggregateSequence db (endpointRecipient input.target).1 (endpointRecipient input.target).2
  emittedAt := now
  payload := payload

def EnqueueInput.inboxRow (now : ℤ) : ProtocolInboxRow where
  id := (schedulerDeliveryIdentity host input).2
  envelopeID := (schedulerDeliveryIdentity host input).1
  actor := (endpointRecipient input.target).1
  actorID := (endpointRecipient input.target).2
  visibleAt := now
  timeCreated := now

def appendSchedulerEvent (envelope : SchedulerEnvelope) : Except MessageError MessageDatabase := do
  let sessionID := match envelope.target with
    | .mission endpoint => endpoint.sessionID
    | .task endpoint => endpoint.rootSessionID
  throwWhen (envelope.target.isTask ∧ ¬(db.surroundings.tasks.any fun row => row.id = envelope.aggregateID))
    (.error ("Protocol Task event " ++ SCHEDULER_MESSAGE_EVENT_TYPE ++ " references missing Task " ++
      envelope.aggregateID))
  throwWhen (¬db.surroundings.sessions.any fun row => row.id = sessionID)
    (.error ("Protocol event " ++ SCHEDULER_MESSAGE_EVENT_TYPE ++ " references missing Session " ++ sessionID))
  throwWhen (db.events.any fun row => row.id = envelope.id)
    (.database "UNIQUE constraint failed: protocol_event.id")
  throwWhen (envelope.kind = .reply ∧ envelope.replyTo.any fun requestID =>
      (existingReply db requestID).isSome)
    (.database "UNIQUE constraint failed: index 'protocol_event_scheduler_reply_idx'")
  return { db with events := db.events ++ [.schedulerMessage envelope] }

def insertInboxRow (row : ProtocolInboxRow) : Except MessageError MessageDatabase := do
  throwWhen (db.inbox.any fun other => other.id = row.id) (.database "UNIQUE constraint failed: protocol_inbox.id")
  throwWhen (db.inbox.any fun other =>
      other.envelopeID = row.envelopeID ∧ other.actor = row.actor ∧ other.actorID = row.actorID)
    (.database "UNIQUE constraint failed: index 'protocol_inbox_envelope_actor_idx'")
  return { db with inbox := db.inbox ++ [row] }

def enqueueSchedulerMessageInTransaction (now : ℤ) :
    Except MessageError (SchedulerDeliveryReceipt × MessageDatabase) := do
  throwWhen (¬(input.source.parses ∧ input.target.parses)) (.schema "SchedulerEndpoint")
  requireEndpointAuthority db input.source input.target
  let sourceBody ← schedulerSourceBodyInTransaction db input
  let sourceEpoch ← sourceTaskExecutionEpoch db input
  let targetEpoch ← targetTaskExecutionEpoch db input.target
  requireReplyAuthority db input sourceEpoch targetEpoch
  let payload := input.payload sourceEpoch targetEpoch (host.sha256 sourceBody)
  let (eventID, inboxID) := schedulerDeliveryIdentity host input
  let existingInbox := db.findInbox inboxID
  let existingEvent := db.findEvent eventID
  if existingInbox.isSome ∨ existingEvent.isSome then do
    let receipt ← replaySchedulerMessage host db input existingInbox existingEvent payload now
    return (receipt, db)
  else do
    throwWhen (¬payload.parses) (.schema "SchedulerMessagePayload")
    let appended ← appendSchedulerEvent db (input.envelope host db payload now)
    let inserted ← insertInboxRow appended (input.inboxRow host now)
    return ({ eventID := eventID, inboxID := inboxID, threadID := input.thread
              status := .pending, replayed := false }, inserted)

end Enqueue

/-! ## Runs -/

inductive MessageAction where
  | enqueue (input : EnqueueInput) (now : ℤ)
  | appendEvent (row : ProtocolEventRow)
  | change (surroundings : Surroundings)

def messageStep (host : MessageHost) (db : MessageDatabase) : MessageAction → Option MessageDatabase
  | .enqueue input now =>
    (enqueueSchedulerMessageInTransaction host db input now).toOption.map Prod.snd
  | .appendEvent row =>
    if row.envelope?.isSome ∨ (db.findEvent row.id).isSome then none
    else some { db with events := db.events ++ [row] }
  | .change surroundings => some { db with surroundings := surroundings }

def MessageDatabase.initial (surroundings : Surroundings) : MessageDatabase :=
  { surroundings := surroundings, events := [], inbox := [] }

end OpenCorvus.Protocol.SchedulerMessage
