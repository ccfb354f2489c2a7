import Mathlib.Logic.Function.Basic
import OpenCorvus.Foundation.EcmaScript
import OpenCorvus.Foundation.ExecutableSystem

/-!
# The live replay of a Task

Events whose source of truth is another table are pushed to subscribers without being stored.  A process
numbers those of a Task and keeps the recent ones, so that a subscriber that lost its connection can ask
for what came after the last number that it has.
-/

namespace OpenCorvus.Protocol.LiveReplay

open EcmaScript

inductive ProtocolAggregate where
  | task
  | interaction
  | session
  | stream
deriving DecidableEq

inductive LiveEventType where
  | partDelta
  | partUpdated
  | partRemoved
  | messageRemoved
  | other (name : String)
deriving DecidableEq

inductive PartType where
  | text
  | reasoning
  | tool
  | other (name : String)
deriving DecidableEq

structure PayloadPart where
  id : Option String
  messageID : Option String
  sessionID : Option String
  type : PartType
  /-- The part has an end. -/
  ended : Bool
  /-- The status of a Tool. -/
  status : Option String
deriving DecidableEq

structure LivePayload where
  part : Option PayloadPart
  partID : Option String
  messageID : Option String
  sessionID : Option String
  field : Option String
  /-- The id in `info`. -/
  infoID : Option String
deriving DecidableEq

structure LiveEvent where
  type : LiveEventType
  taskID : String
  sessionID : Option String
  orderKey : String
  payload : LivePayload
  liveSequence : ℕ
  emitted : ℤ
deriving DecidableEq

/-- `eventLiveReplayKey(event)` -/
def eventLiveReplayKey (event : LiveEvent) : String :=
  let payload := event.payload
  let outerSession := (payload.sessionID.or event.sessionID).getD ""
  match event.type with
  | .partDelta =>
    event.taskID ++ "|" ++ outerSession ++ "|" ++ payload.messageID.getD "" ++ "|" ++
      payload.partID.getD "" ++ "|" ++ payload.field.getD ""
  | _ =>
    let partID := ((payload.part.bind (·.id)).or payload.partID).getD ""
    let messageID := ((payload.part.bind (·.messageID)).or payload.messageID).getD ""
    let sessionID := (payload.part.bind (·.sessionID)).getD outerSession
    event.taskID ++ "|" ++ sessionID ++ "|" ++ messageID ++ "|" ++ partID ++ "|"

/-- `key.startsWith(start)` -/
def startsWith (key start : String) : Bool := start.toList.isPrefixOf key.toList

def partUpdatedClosed (payload : LivePayload) : Bool :=
  payload.part.any fun part =>
    ((part.type = .text ∨ part.type = .reasoning) ∧ part.ended) ∨
      part.type = .tool ∧ part.status.any fun status => status ≠ "" ∧ status ≠ "pending"

def removedMessageID (payload : LivePayload) : String := (payload.messageID.or payload.infoID).getD ""

def candidateMessage (event : LiveEvent) : String × String :=
  let payload := event.payload
  (((payload.part.bind (·.messageID)).or payload.messageID).getD "",
    ((payload.part.bind (·.sessionID)).or (payload.sessionID.or event.sessionID)).getD "")

/-- The event supersedes an earlier one: it closes the part of a delta, or it removes the part or the
Message of the earlier event. -/
def supersedes (event candidate : LiveEvent) : Bool :=
  match event.type with
  | .partUpdated =>
    partUpdatedClosed event.payload ∧ candidate.type = .partDelta ∧
      startsWith (eventLiveReplayKey candidate) (eventLiveReplayKey event)
  | .partRemoved => startsWith (eventLiveReplayKey candidate) (eventLiveReplayKey event)
  | .messageRemoved =>
    candidateMessage candidate =
      (removedMessageID event.payload, (event.payload.sessionID.or event.sessionID).getD "")
  | _ => false

def TASK_LIVE_REPLAY_MAX_EVENTS : ℕ := 4096

def TASK_LIVE_REPLAY_MAX_AGE_MS : ℤ := 30000

/-- What the process keeps of a Task; nothing, zero and an empty list are the same to every reader. -/
structure TaskLive where
  /-- The last number given out. -/
  sequence : ℕ
  /-- The recent events. -/
  events : List LiveEvent
  /-- The greatest number dropped by age or by size. -/
  floor : ℕ

def TaskLive.empty : TaskLive := { sequence := 0, events := [], floor := 0 }

abbrev LiveState : Type := String → TaskLive

/-- Drop the first events as long as there are too many or they are too old; the rest, and the floor
then. -/
def trimEvents (minTime : ℤ) : List LiveEvent → ℕ → List LiveEvent × ℕ
  | [], floor => ([], floor)
  | event :: rest, floor =>
    if TASK_LIVE_REPLAY_MAX_EVENTS < (event :: rest).length ∨ event.emitted < minTime then
      trimEvents minTime rest (max floor event.liveSequence)
    else (event :: rest, floor)

/-- `trimTaskLiveReplay(taskID, now)` -/
def trimTaskLiveReplay (now : ℤ) (live : TaskLive) : TaskLive :=
  let trimmed := trimEvents (now - TASK_LIVE_REPLAY_MAX_AGE_MS) live.events live.floor
  { live with events := trimmed.1, floor := trimmed.2 }

/-- `compactTaskLiveReplay(now)` -/
def compactTaskLiveReplay (now : ℤ) (state : LiveState) : LiveState :=
  fun taskID => trimTaskLiveReplay now (state taskID)

variable (state : LiveState)

/-- `clearTaskLiveReplay(taskID)` -/
def clearTaskLiveReplay (taskID : String) : LiveState :=
  Function.update state taskID .empty

structure DispatchEphemeralInput where
  type : LiveEventType
  aggregate : ProtocolAggregate
  taskID : Option String
  sessionID : Option String
  orderKey : String
  payload : LivePayload

variable (input : DispatchEphemeralInput)

def DispatchEphemeralInput.liveTaskID : Option String :=
  if input.aggregate = .task ∧ trim input.orderKey ≠ "" then input.taskID.filter (· ≠ "") else none

def DispatchEphemeralInput.event (taskID : String) (liveSequence : ℕ) (now : ℤ) : LiveEvent where
  type := input.type
  taskID := taskID
  sessionID := input.sessionID
  orderKey := trim input.orderKey
  payload := input.payload
  liveSequence := liveSequence
  emitted := now

def TaskLive.push (live : TaskLive) (event : LiveEvent) : TaskLive where
  sequence := event.liveSequence
  events := live.events.filter (fun candidate => !supersedes event candidate) ++ [event]
  floor := live.floor

/-- `dispatchEphemeral(input)`: the state, and the event of a Task that was pushed. -/
def dispatchEphemeral (now : ℤ) : LiveState × Option LiveEvent :=
  match input.liveTaskID with
  | none => (state, none)
  | some taskID =>
    let event := input.event taskID ((state taskID).sequence + 1) now
    (compactTaskLiveReplay now (Function.update state taskID ((state taskID).push event)), some event)

def TASK_TERMINAL_EVENT_TYPES : List String := ["task.completed", "task.failed", "task.cancelled"]

def endsTask (aggregate : ProtocolAggregate) (type : String) : Bool :=
  aggregate = .task ∧ type ∈ TASK_TERMINAL_EVENT_TYPES

/-- `publishEventSideEffects(input, event)`, after an event was persisted. -/
def publishEventSideEffects (aggregate : ProtocolAggregate) (aggregateID type : String) : LiveState :=
  if endsTask aggregate type then clearTaskLiveReplay state aggregateID else state

/-- The answer to a subscriber. -/
inductive TaskLiveReplayResult where
  | expired (reason : String)
  | events (events : List LiveEvent)

/-- `listTaskLiveEventsAfter(taskID, liveSequence, { liveEpoch })` in a process of an epoch. -/
def listTaskLiveEventsAfter (epoch : ℤ) (state : LiveState) (taskID : String) (after : ℕ)
    (liveEpoch : Option ℤ) (now : ℤ) : LiveState × TaskLiveReplayResult :=
  let compacted := compactTaskLiveReplay now state
  let live := compacted taskID
  (compacted,
    if liveEpoch.any fun liveEpoch => liveEpoch ≠ epoch then
      .expired "selected task live replay epoch changed"
    else if 0 < after ∧ after < live.floor then
      .expired "selected task live replay retention expired"
    else .events (live.events.filter fun event => after < event.liveSequence))

/-- What happens in a process.  The opening of a Task again is the persistence of an event as any
other. -/
inductive LiveAction where
  | dispatch (input : DispatchEphemeralInput) (now : ℤ)
  | persist (aggregate : ProtocolAggregate) (aggregateID type : String)
  | sweep (now : ℤ)
  /-- A subscriber asks, which sweeps as well. -/
  | list (now : ℤ)

def LiveAction.run : LiveAction → LiveState
  | .dispatch input now => (dispatchEphemeral state input now).1
  | .persist aggregate aggregateID type => publishEventSideEffects state aggregate aggregateID type
  | .sweep now => compactTaskLiveReplay now state
  | .list now => compactTaskLiveReplay now state

def runLive (actions : List LiveAction) : LiveState :=
  actions.foldl LiveAction.run state

def LiveAction.pushed (taskID : String) (state : LiveState) : LiveAction → List LiveEvent
  | .dispatch input now => (dispatchEphemeral state input now).2.toList.filter (·.taskID = taskID)
  | _ => []

def liveEventsOf (taskID : String) : LiveState → List LiveAction → List LiveEvent
  | _, [] => []
  | state, action :: rest => action.pushed taskID state ++ liveEventsOf taskID (action.run state) rest

/-- The process when it starts. -/
def LiveState.initial : LiveState := fun _ => .empty

end OpenCorvus.Protocol.LiveReplay
