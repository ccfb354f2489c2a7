import OpenCorvus.Scheduler.AutomationExecution

/-!
# One-shot delays at the acceptance of input

An assistant that accepts a batch of Messages settles the delays of its Session in the same transaction.  A
due wake of a delay in the batch is admitted while the delay is owned; otherwise ordinary input in the batch
consumes the delay and supersedes its runs.
-/

namespace OpenCorvus.Scheduler

open Transaction OrderBy

structure AssistantAcceptance where
  sessionID : String
  assistantMessageID : String
  acceptedInputMessageIDs : List String

section Batch

variable (store : AutomationStore) (input : AssistantAcceptance)

def AutomationStore.findMessage (messageID : String) : Option AutomationMessage :=
  store.messages.find? fun message => message.id = messageID

def acceptedInput (messageID : String) : Except AutomationServiceError AutomationMessage := do
  let missing := AutomationServiceError.error
    ("Session delay acceptance references missing input Message " ++ messageID)
  let message ← getOrThrow (store.findMessage messageID) missing
  throwWhen (message.sessionID ≠ input.sessionID) missing
  throwWhen (message.isUser = false)
    (.error ("Session delay acceptance input " ++ messageID ++ " is not a user Message"))
  return message

def acceptedInputsInTransaction : Except AutomationServiceError (List AutomationMessage) :=
  input.acceptedInputMessageIDs.mapM (acceptedInput store input)

def AutomationMessage.isOrdinary (message : AutomationMessage) : Bool :=
  !message.wake.any SessionWakeReason.isScheduler

def AutomationMessage.wakeOf (message : AutomationMessage) (definitionID : String) : Option String :=
  match message.wake with
  | some (.schedulerAutomation jobID fireID) => if jobID = definitionID then some fireID else none
  | _ => none

def currentSessionDelayDefinitionsInTransaction (sessionID : String) : List AutomationDefinition :=
  orderBy (fun row : AutomationDefinition =>
      (toLex (row.definitionID, toLex (OrderDual.toDual row.revision, OrderDual.toDual row.id)) :
        String ×ₗ ℕᵒᵈ ×ₗ Stringᵒᵈ))
    ((currentAutomationDefinitionsInTransaction store.toAutomationDatabase).filter fun row =>
      row.sessionID = some sessionID ∧ row.IsDelay ∧ row.active)

def runsOfRevision (revisionID : String) : List AutomationRun :=
  store.runs.filter fun run => run.automationRevisionID = revisionID

def unsettledRuns (revisionID : String) : List AutomationRun :=
  (runsOfRevision store revisionID).filter fun run =>
    ∀ receipt ∈ store.receiptsOf run.id, ¬receipt.outcome.IsTerminal

def pendingWakeFires (definitionID : String) : List String :=
  (store.messages.filter fun message =>
    message.sessionID = input.sessionID ∧ message.isUser ∧ message.pendingDelivery).filterMap fun message =>
      message.wakeOf definitionID

def acceptedDueFire (accepted : List AutomationMessage) (delay : AutomationDefinition) : Option String :=
  (accepted.filterMap fun message => message.wakeOf delay.definitionID).find? fun fireID =>
    ∃ run ∈ runsOfRevision store delay.id, run.fireID = fireID

end Batch

section Settlement

variable [AutomationHashes] (store : AutomationStore) (input : AssistantAcceptance)

def admitDueWake (delay : AutomationDefinition) (fireID : String) (now : ℤ) (written : AutomationStore) :
    Except AutomationServiceError AutomationStore := do
  throwWhen (¬LeaseLive store.toAutomationDatabase delay.definitionID now) (.error ("Session delay " ++
    delay.definitionID ++ " due wake lost its Automation owner before assistant " ++
    input.assistantMessageID ++ " acceptance"))
  let settlement : AutomationDelaySettlement := ⟨delay.definitionID, .dueAccepted, input.assistantMessageID,
    input.acceptedInputMessageIDs, some fireID, now⟩
  match written.settlements.find? fun row => row.definitionID = delay.definitionID with
  | none => return { written with settlements := written.settlements ++ [settlement] }
  | some stored =>
    throwWhen ({ stored with timeCreated := now } ≠ settlement) (.error ("Session delay " ++
      delay.definitionID ++ " already has a conflicting assistant admission"))
    return written

def consumeDelay (delay : AutomationDefinition) (receiptID : String → String) (now : ℤ)
    (written : AutomationStore) : Except AutomationServiceError AutomationStore := do
  throwWhen (LeaseLive store.toAutomationDatabase delay.definitionID now) (.error ("Session delay " ++
    delay.definitionID ++ " owns a live due occurrence; assistant " ++ input.assistantMessageID ++
    " must retry"))
  let unsettled := unsettledRuns store delay.id
  let fireIDs := (unsettled.map (·.fireID)).dedup
  throwWhen (1 < fireIDs.length) (.error ("Session delay " ++ delay.definitionID ++
    " owns multiple unsettled due occurrences"))
  throwWhen (∃ fireID ∈ pendingWakeFires store input delay.definitionID, fireID ∈ fireIDs)
    (.error ("Session delay " ++ delay.definitionID ++ " has a persisted due wake outside assistant " ++
      input.assistantMessageID ++ " accepted input batch"))
  let deleted ← appendAutomationTombstoneInTransaction written delay
    (inputConsumptionID delay.definitionID input.assistantMessageID)
  let superseded ← insertRunReceipts
    (unsettled.map fun run => ⟨receiptID run.id, run.id, .disposition .superseded, now⟩) deleted
  superseded.insertSettlement ⟨delay.definitionID, .inputAccepted, input.assistantMessageID,
    input.acceptedInputMessageIDs, fireIDs.head?, now⟩

def settleSessionDelay (accepted : List AutomationMessage) (receiptID : String → String) (now : ℤ)
    (written : AutomationStore) (delay : AutomationDefinition) :
    Except AutomationServiceError AutomationStore :=
  match acceptedDueFire store accepted delay with
  | some fireID => admitDueWake store input delay fireID now written
  | none =>
    if accepted.any AutomationMessage.isOrdinary then consumeDelay store input delay receiptID now written
    else .ok written

def settleSessionDelays (accepted : List AutomationMessage) (receiptID : String → String) (now : ℤ)
    (delays : List AutomationDefinition) (written : AutomationStore) :
    Except AutomationServiceError AutomationStore :=
  delays.foldlM (settleSessionDelay store input accepted receiptID now) written

def settleSessionDelaysAtAssistantAcceptanceInTransaction (receiptID : String → String) (now : ℤ) :
    Except AutomationServiceError AutomationStore := do
  let accepted ← acceptedInputsInTransaction store input
  settleSessionDelays store input accepted receiptID now
    (currentSessionDelayDefinitionsInTransaction store input.sessionID) store

def deliverAcceptedInputs : AutomationStore :=
  { store with
    messages := (store.messages.map fun message =>
      if message.id ∈ input.acceptedInputMessageIDs then { message with pendingDelivery := false }
      else message) ++
      if ∃ message ∈ store.messages, message.id = input.assistantMessageID then []
      else [⟨input.assistantMessageID, input.sessionID, false, false, none⟩] }

def beginAssistantReplyWithCommit (receiptID : String → String) (now : ℤ) :
    Except AutomationServiceError AutomationStore :=
  settleSessionDelaysAtAssistantAcceptanceInTransaction (deliverAcceptedInputs store input) input receiptID now

end Settlement

end OpenCorvus.Scheduler
