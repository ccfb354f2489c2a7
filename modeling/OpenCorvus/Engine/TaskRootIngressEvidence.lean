import OpenCorvus.Engine.TaskRootFactStore

/-!
# Evidence of a Task-root ingress

The reading of the conversation of an ingress: the assistant messages of its activations, their Tool and Provider
calls, the decisions they made, and the questions they asked.  It first checks the authority of every assistant
message, and raises an integrity error when it is broken.  What it then collects is a function of the tables alone.
-/

namespace OpenCorvus.Engine

open EcmaScript Transaction

def ORCHESTRATOR_DECISION_TOOL_NAMES : List String :=
  ["dispatch_agent", "dispatch_agents", "respond_agent_coordination", "manage_task", "question",
    "wait", "no_action"]

def isOrchestratorDecisionToolName (value : String) : Bool :=
  value ∈ ORCHESTRATOR_DECISION_TOOL_NAMES

def AGENT_COORDINATION_DECISIONS : List String :=
  ["cancel_worker", "redispatch", "fail_task", "ask_user", "acknowledge_terminal"]

inductive OrchestratorDecisionToolCompletionEffect where
  | satisfiesCurrentEpoch
  | requiresFollowupDecision
  | inspectDispatchOutcome
deriving DecidableEq

/-- The input of `manage_task` edits the goals of the Task. -/
def ToolInput.editsGoals (input : ToolInput) : Bool :=
  input.isObject ∧ (input.action.any (fun action => action ∈ ["add_goal", "modify_goal", "delete_goal"]) ∨
      input.hasGoal ∨ input.hasGoalID ∨ input.hasUpdates)

def orchestratorDecisionToolCompletionEffect (tool : String) (stateInput : ToolInput) :
    Except EngineError OrchestratorDecisionToolCompletionEffect :=
  if tool = "dispatch_agent" ∨ tool = "dispatch_agents" then .ok .inspectDispatchOutcome
  else if tool = "question" then .ok .requiresFollowupDecision
  else if tool = "manage_task" ∧ stateInput.editsGoals then .ok .requiresFollowupDecision
  else if tool = "respond_agent_coordination" then do
    throwWhen (¬stateInput.isObject) (.error "respond_agent_coordination input is not an object")
    throwWhen (¬stateInput.decision.any fun decision => decision ∈ AGENT_COORDINATION_DECISIONS)
      (.error "respond_agent_coordination input has no recognized decision")
    return if stateInput.decision = some "redispatch" ∨ stateInput.decision = some "ask_user" then
      .requiresFollowupDecision else .satisfiesCurrentEpoch
  else .ok .satisfiesCurrentEpoch

/-- The contract could be read, and it decides the ingress. -/
def effectDecides : Except EngineError OrchestratorDecisionToolCompletionEffect → Bool
  | .ok effect => effect ≠ .requiresFollowupDecision
  | .error _ => false

def isDecision (request : ToolPartRequestRow) : Bool :=
  isOrchestratorDecisionToolName request.tool ∧
    effectDecides (orchestratorDecisionToolCompletionEffect request.tool request.input)

/-- The text is `length` letters and digits. -/
def isIdentitySuffix (text : List Char) : Bool := text.length = 19 ∧ text.all Char.isAlphanum

/-- `/^art_h[A-Za-z0-9]{19}$/` -/
def isCanonicalIngressID (id : String) : Bool :=
  match id.toList with
  | 'a' :: 'r' :: 't' :: '_' :: 'h' :: rest => isIdentitySuffix rest
  | _ => false

/-- `/^(?:art|msg)_[gh-][A-Za-z0-9]{19}$/` -/
def isCanonicalPredecessorID (id : String) : Bool :=
  match id.toList with
  | 'a' :: 'r' :: 't' :: '_' :: mark :: rest => mark ∈ ['g', 'h', '-'] ∧ isIdentitySuffix rest
  | 'm' :: 's' :: 'g' :: '_' :: mark :: rest => mark ∈ ['g', 'h', '-'] ∧ isIdentitySuffix rest
  | _ => false

def orchestratorControlOccurrenceIdentity (ingressID predecessorID : String) :
    Except EngineError String := do
  throwWhen (¬isCanonicalIngressID ingressID) (.error
    "Orchestrator control occurrence requires one canonical Task-root ingress identity")
  throwWhen (¬isCanonicalPredecessorID predecessorID) (.error
    "Orchestrator control occurrence requires one canonical predecessor identity")
  return "msg_task-root-control_" ++ ingressID ++ "_" ++ predecessorID

variable (db : TaskRootDatabase)

def assertContinuationParent (sessionID parentID ingressID : String) (rejected : EngineError) :
    Except EngineError String := do
  let parent ← getOrThrow (db.findMessage parentID) rejected
  throwWhen (parent.sessionID ≠ sessionID) rejected
  let control ← getOrThrow parent.data.control? rejected
  throwWhen (control.ingressID ≠ some ingressID) rejected
  let predecessorID ← getOrThrow control.predecessorID rejected
  let messageID ← orchestratorControlOccurrenceIdentity ingressID predecessorID
  throwWhen (messageID ≠ parentID) rejected
  return predecessorID

def predecessorOf (parentID : String) : String :=
  (((db.findMessage parentID).bind (·.data.control?)).bind (·.predecessorID)).getD ""

/-- Oldest first, and by id within one instant. -/
def compareCreated {ρ : Type} (time : ρ → ℤ) (id : ρ → String) (left right : ρ) : Ordering :=
  (compare (time left) (time right)).then (compare (id left) (id right))

def activationIDs (ingressID : String) : List String :=
  (db.activations.ofTarget .taskRootIngress ingressID).map (·.id)

def activationMessages (ingressID : String) : List MessageRow :=
  toSorted (compareCreated (·.timeCreated) (·.id))
    (db.messages.filter fun row =>
      row.activationID.any fun activationID => activationID ∈ activationIDs db ingressID)

variable (messageID : String)

def toolRequestsOf : List ToolPartRequestRow :=
  toSorted (compareCreated (·.timeCreated) (·.id))
    (db.toolRequests.filter fun request => request.messageID = messageID)

def toolOutcomeOf (requestID : String) : Option ToolPartOutcomeRow :=
  db.toolOutcomes.find? fun outcome => outcome.requestPartID = requestID

def providerOutcomeOf (requestID : String) : Option ProviderActivityOutcomeRow :=
  db.providerOutcomes.find? fun outcome => outcome.requestID = requestID

def decided (request : ToolPartRequestRow) : Bool :=
  (toolOutcomeOf db request.id).any (·.completed) ∧ isDecision request

def decisionsOf : List DecisionFact :=
  ((toolRequestsOf db messageID).filter (decided db)).map fun request =>
    { id := request.id, assistantMessageID := messageID, command := request.tool }

def PartData.isDecisionGap (data : PartData) : Bool :=
  data.type = "step-finish" ∧ data.reason.any (· ≠ "tool-calls")

def decisionGapsOf (activationID messageID : String) : List DecisionGapFact :=
  ((toSorted (compareCreated (·.timeCreated) (·.id))
    (db.parts.filter fun part => part.messageID = messageID)).filter (·.data.isDecisionGap)).map
      fun part => { id := part.id, activationID := activationID, assistantMessageID := messageID }

def boundaryOf (message : AssistantMessage) : AssistantTurnBoundary :=
  if message.hasError then .providerError
  else if message.finish.any includesTool ∨
      (toolRequestsOf db messageID).any fun request => (toolOutcomeOf db request.id).isNone then
    .toolCalls
  else .final

def turnOf (activationID messageID : String) (message : AssistantMessage) : Option AssistantTurnFact :=
  (message.timeCompleted.filter (· ≠ 0)).map fun timeCompleted =>
    { id := messageID, activationID := activationID,
      predecessorID := predecessorOf db message.identity.parentID,
      timeCompleted := timeCompleted, boundary := boundaryOf db messageID message }

def toolActivityRequestsOf (activationID messageID : String) : List ActivityRequestFact :=
  (toolRequestsOf db messageID).map fun request =>
    { id := request.id, activationID := activationID, assistantMessageID := messageID,
      idempotency := .queryRequired }

def toolActivityOutcomesOf : List ActivityOutcomeFact :=
  (toolRequestsOf db messageID).filterMap fun request =>
    (toolOutcomeOf db request.id).map fun outcome =>
      { id := outcome.id, requestID := request.id,
        outcome := if outcome.completed then .completed else .failed }

def activationAssistants (ingressID : String) : List (String × MessageRow × AssistantMessage) :=
  (activationMessages db ingressID).filterMap fun row =>
    row.data.assistant?.bind fun message =>
      (message.identity.activationID.filter (· ≠ "")).map fun activationID =>
        (activationID, row, message)

variable (ingress : TaskRootIngressRow)

def interactionFacts (assistantIDs : List String) : List InteractionFact :=
  let rootSessionID := ((db.findTask ingress.taskID).bind (·.sessionID)).getD ""
  (db.interactions.filter fun row =>
    row.taskID = some ingress.taskID ∨
      (row.taskID = none ∧ row.sessionID.any fun sessionID =>
        (db.sessions.filter fun session =>
          session.parentID = some rootSessionID ∨ session.id = rootSessionID).any fun session =>
            session.id = sessionID)).filterMap fun row =>
    let assistantMessageID :=
      match row.activityReconciliation.filter fun asked => asked.ingressID = ingress.id with
      | some asked => asked.assistantMessageID
      | none => row.toolMessageID
    (assistantMessageID.filter fun id => id ≠ "" ∧ id ∈ assistantIDs).map fun assistantMessageID =>
      { id := row.id, ingressID := ingress.id, assistantMessageID := assistantMessageID,
        outcome := row.outcome, resumeAt := row.timeExpires,
        activityRequestID :=
          (row.activityReconciliation.bind (·.requestID)).filter (· ≠ "") }

/-- Everything the tables say about the conversation of an ingress. -/
def collectEvidence : TaskRootIngressEvidence :=
  let rows := activationMessages db ingress.id
  let assistants := activationAssistants db ingress.id
  let providerRequests := db.providerRequests.filter fun request =>
    request.assistantMessageID ∈ rows.map (·.id)
  let interactions := interactionFacts db ingress (rows.map (·.id))
  { turns := assistants.filterMap fun (activationID, row, message) =>
      turnOf db activationID row.id message
    decisions := assistants.flatMap fun (_, row, _) => decisionsOf db row.id
    decisionGaps := assistants.flatMap fun (activationID, row, _) =>
      decisionGapsOf db activationID row.id
    interactions := interactions
    activityRequests :=
      (assistants.flatMap fun (activationID, row, _) =>
        toolActivityRequestsOf db activationID row.id) ++
      providerRequests.map fun request =>
        { id := request.id
          activationID := ((rows.find? fun row => row.id = request.assistantMessageID).bind
            (·.activationID)).getD ""
          assistantMessageID := request.assistantMessageID, idempotency := .queryRequired }
    activityOutcomes :=
      (assistants.flatMap fun (_, row, _) => toolActivityOutcomesOf db row.id) ++
      (providerRequests.filterMap fun request =>
        (providerOutcomeOf db request.id).map fun outcome =>
          { id := outcome.id, requestID := request.id,
            outcome := if outcome.outcome = .done then .completed else .failed }) ++
      (interactions.filter fun interaction => interaction.outcome = some .answered).filterMap
        fun interaction => interaction.activityRequestID.map fun requestID =>
          { id := interaction.id, requestID := requestID, outcome := .reconciledUnknown } }

def hasOrchestratorAuthority (task : TaskRow) (sessionID : String) : Bool :=
  (db.findSession sessionID).any fun session =>
    session.parentID = task.sessionID ∧ session.projectID = task.projectID ∧ session.kind = .orchestrator

def assertDecisionInputs : Except EngineError Unit :=
  (toolRequestsOf db messageID).forM fun request =>
    if (toolOutcomeOf db request.id).any (·.completed) ∧ isOrchestratorDecisionToolName request.tool
    then (orchestratorDecisionToolCompletionEffect request.tool request.input).map fun _ => ()
    else .ok ()

def assertAssistantAuthority (task : TaskRow) (earlier : List (String × MessageRow × AssistantMessage))
    (activationID : String) (row : MessageRow) (message : AssistantMessage) : Except EngineError Unit := do
  throwWhen (¬hasOrchestratorAuthority db task row.sessionID ∨
      earlier.any fun other => other.1 = activationID ∧ other.2.1.id ≠ row.id)
    (.integrity ingress.id ("Task-root activation " ++ activationID ++ " has conflicting assistant authority"))
  throwWhen (earlier.any fun other =>
      other.2.2.identity.parentID = message.identity.parentID ∧ other.2.1.id ≠ row.id)
    (.integrity ingress.id ("Task-root continuation " ++ message.identity.parentID ++
        " has multiple assistant Messages"))
  let _ ← assertContinuationParent db row.sessionID message.identity.parentID ingress.id
    (.integrity ingress.id ("Assistant Message " ++ row.id ++ " is outside ingress " ++ ingress.id ++
        " continuation chain"))
  assertDecisionInputs db row.id

def assertEvidenceAuthority (db : TaskRootDatabase) (ingress : TaskRootIngressRow) (task : TaskRow) :
    List (String × MessageRow × AssistantMessage) → List (String × MessageRow × AssistantMessage) →
      Except EngineError Unit
  | _, [] => .ok ()
  | earlier, (activationID, row, message) :: rest => do
    assertAssistantAuthority db ingress task earlier activationID row message
    assertEvidenceAuthority db ingress task (earlier ++ [(activationID, row, message)]) rest

def readTaskRootIngressEvidence : TaskRootIngressEvidenceReader := fun db ingress =>
  if activationIDs db ingress.id = [] then .ok EMPTY_EVIDENCE
  else do
    let unauthorized : EngineError := .integrity ingress.id
      ("Task-root ingress " ++ ingress.id ++ " has no root Session authority")
    let task ← getOrThrow (db.findTask ingress.taskID) unauthorized
    throwWhen (task.sessionID.all (· = "")) unauthorized
    assertEvidenceAuthority db ingress task [] (activationAssistants db ingress.id)
    return collectEvidence db ingress

end OpenCorvus.Engine
