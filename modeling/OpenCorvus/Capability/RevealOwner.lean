import OpenCorvus.Capability.RevealFold
import OpenCorvus.Foundation.ExecutableSystem

/-!
# The owner of capability reveals

A call of `capability_search` folds the receipts of its occurrence, computes a candidate and its receipt, and
commits both in one transaction that folds the receipts again.  The reads of a call are made in one synchronous
turn, so they are one step; what the catalog and the materializer answer comes from outside.
-/

namespace OpenCorvus.Capability

open EcmaScript Transaction
open Json (canonicalJSONValue)

structure OccurrenceMessage where
  id : String
  assistant : Bool
  parentID : Option String

structure CatalogBinding where
  snapshotRef : String
  snapshotHash : String
  deriving DecidableEq

structure RevealContext where
  callID : Option String
  messageID : String
  toolPartID : String

structure PreparedReveal where
  params : CapabilitySearchInput
  callID : String
  prior : CapabilityRevealState
  activated : List ActivatedCapability
  candidate : RevealCandidate
  receipt : CapabilityRevealReceiptV2
  output : String
  details : Json

inductive RevealPhase where
  | read (params : CapabilitySearchInput) (callID : String) (prior : CapabilityRevealState)
  | prepared (reveal : PreparedReveal)
  | committed (reveal : PreparedReveal)
  | replayed (title output : String) (metadata : ToolMetadata)
  | failed (error : RevealError)
  /-- The process ended. -/
  | lost

/-- A call of `execute`. -/
structure RevealCall where
  context : RevealContext
  phase : RevealPhase

structure WrittenReveal where
  part : ToolPart
  reveal : PreparedReveal

structure RevealSession where
  messages : List OccurrenceMessage
  binding : Option CatalogBinding
  parts : List ToolPart
  calls : List RevealCall
  written : List WrittenReveal

def PreparedReveal.state (reveal : PreparedReveal) : CapabilityRevealState where
  revision := reveal.receipt.revision
  active := reveal.candidate.active
  definitions := reveal.candidate.definitions
  payloadChars := reveal.candidate.payloadChars
  payloadTokens := reveal.candidate.payloadTokens
  definitionDigest := reveal.candidate.definitionDigest
  baseDefinition := reveal.prior.baseDefinition
  receipts := reveal.prior.receipts ++ [reveal.receipt]

def PreparedReveal.metadata (reveal : PreparedReveal) : ToolMetadata where
  receipt := some reveal.receipt
  details := reveal.details

/-- A committed reveal as readers find it. -/
def WrittenReveal.entry (w : WrittenReveal) : RevealEntry where
  part := w.part
  receipt := w.reveal.receipt

/-- `part.state.status === "running"` -/
def ToolPart.isRunning (part : ToolPart) : Bool :=
  match part.state with
  | .running => true
  | _ => false

/-- `part.state.status === "pending" || part.state.status === "running"` -/
def ToolPart.isOpen (part : ToolPart) : Bool :=
  match part.state with
  | .pending | .running => true
  | _ => false

namespace RevealSession

variable (s : RevealSession) (occurrenceID : String)

/-- `occurrenceAssistantMessageIDsInTransaction` -/
def occurrenceAssistantMessageIDs : List String :=
  (s.messages.filter fun m => m.assistant && m.parentID = some occurrenceID).map OccurrenceMessage.id

def transactionParts : List ToolPart :=
  s.parts.filter fun part => part.messageID ∈ s.occurrenceAssistantMessageIDs occurrenceID

def capabilityRevealOccurrenceParts : List ToolPart :=
  (s.occurrenceAssistantMessageIDs occurrenceID).flatMap fun messageID =>
    s.parts.filter fun part => part.messageID = messageID

end RevealSession

section Execute

variable (authority : RevealAuthority)

/-- What a completed call answers when it is made again. -/
def replayReveal (context : RevealContext) (params : CapabilitySearchInput) (callID : String) (priorCall : ToolPart) :
    Except RevealError RevealPhase := do
  throwWhen (priorCall.id ≠ context.toolPartID ∨
      canonicalJSONValue priorCall.input.json ≠ canonicalJSONValue params.arguments.json)
    (.conflict (.changedCall callID))
  match priorCall.state with
  | .completed title output metadata => return .replayed title output metadata
  | _ => .error (.corrupt (.multipleReceipts callID))

/-- `execute` up to the read of the occurrence's parts.  The checks of the catalog are `catalog`. -/
def beginReveal (s : RevealSession) (context : RevealContext) (arguments : SearchArguments)
    (catalog : Except RevealError Unit) : Except RevealError RevealPhase := do
  let params ← getOrThrow (CapabilitySearchInput.parse arguments) .invalidInput
  let callID := trim (context.callID.getD "")
  throwWhen (callID = "") .noCallIdentity
  catalog
  throwWhen (context.messageID ∉ s.occurrenceAssistantMessageIDs authority.occurrenceID)
    (.outsideOccurrence context.messageID)
  let parts := s.capabilityRevealOccurrenceParts authority.occurrenceID
  let prior ← foldCapabilityRevealReceipts authority parts
  let priorCalls := parts.filter fun part => part.search?.isSome && part.callID = callID
  throwWhen (priorCalls.length > 1) (.corrupt (.multipleReceipts callID))
  match priorCalls.head? with
  | some priorCall => replayReveal context params callID priorCall
  | none => return .read params callID prior

structure MaterializedExecutable where
  providerName : String
  executableRef : CapabilityRef
  description : String
  inputSchema : Json
  strict : Bool
  materializerBindingDigest : String

/-- What a call learns from outside: the results of the search, the executable that the catalog publishes and the
harness grants for a reference, its materialization, and the texts of the answer. -/
structure RevealAnswers where
  results : Except RevealError (List CapabilityRef)
  executable : CapabilityRef → Except RevealError CapabilityRef
  materialize : CapabilityRef → CapabilityRef → Except RevealError MaterializedExecutable
  output : CapabilityRevealReceiptV2 → String
  details : CapabilityRevealReceiptV2 → Json

/-- The activation of one of `exact_refs`. -/
def activateRef (answers : RevealAnswers) (requestedRef : CapabilityRef) : Except RevealError ActivatedCapability := do
  throwWhen (requestedRef.kind = .tool ∧ requestedRef.owner_ref.value = "tool-registry" ∧
      requestedRef.local_ref.value = "capability_search") .permanentTool
  let executableRef ← answers.executable requestedRef
  let materialized ← answers.materialize requestedRef executableRef
  throwWhen (materialized.executableRef.encode ≠ executableRef.encode)
    (.executableMismatch materialized.executableRef.encode executableRef.encode)
  let name ← getOrThrow (TrimmedText.parse materialized.providerName) .invalidActivation
  let definition : NormalizedProviderToolDefinition :=
    { name, description := materialized.description, input_schema := materialized.inputSchema,
      strict := materialized.strict }
  throwWhen (definition.chars > capabilityRevealMaxActiveChars) (.definitionChars requestedRef.encode definition.chars)
  ActivatedCapability.parse
    { requested_ref := requestedRef, executable_ref := executableRef, provider_name := name, definition,
      definition_digest := definition.digest, payload_chars := definition.chars,
      payload_tokens := definition.tokens, materializer_binding_digest := materialized.materializerBindingDigest }

/-- `execute` between the read and the commit. -/
def prepareReveal (params : CapabilitySearchInput) (callID : String) (prior : CapabilityRevealState)
    (answers : RevealAnswers) : Except RevealError PreparedReveal := do
  let results ← answers.results
  let activated ← params.exact_refs.mapM (activateRef answers)
  let candidate ← reduceCapabilityRevealCandidate prior params.deactivate_refs activated
  let resultRefs := toSorted (compareEncoded id) results
  let fingerprint ← capabilityRevealMaterializationFingerprint authority callID prior.revision params.arguments
    resultRefs activated candidate.activeRefs candidate.definitionDigest candidate.payloadChars candidate.payloadTokens
  let receipt ← createCapabilityRevealReceipt {
    occurrence_id := authority.occurrenceID
    search_call_id := callID
    prior_revision := prior.revision
    revision := prior.revision + 1
    harness_projection_hash := authority.harnessProjectionHash
    catalog_snapshot_ref := authority.catalogSnapshotRef
    catalog_snapshot_hash := authority.catalogSnapshotHash
    materialization_fingerprint := fingerprint
    result_refs := resultRefs
    deactivate_refs := params.deactivate_refs
    activated
    active_refs := candidate.activeRefs
    active_definition_digest := candidate.definitionDigest
    active_payload_chars := candidate.payloadChars
    active_payload_tokens := candidate.payloadTokens }
  return {
    params
    callID
    prior
    activated
    candidate
    receipt
    output := answers.output receipt
    details := answers.details receipt }

def commitReveal (s : RevealSession) (context : RevealContext) (reveal : PreparedReveal) :
    Except RevealError ToolPart := do
  throwWhen (context.messageID ∉ s.occurrenceAssistantMessageIDs authority.occurrenceID)
    (.conflict (.occurrence context.messageID))
  throwWhen (s.binding ≠ some ⟨authority.catalogSnapshotRef, authority.catalogSnapshotHash⟩) (.conflict .binding)
  let current ← getOrThrow
    (s.parts.find? fun part => part.id = context.toolPartID && part.messageID = context.messageID)
    (.conflict (.disappeared context.toolPartID))
  throwWhen (current.tool ≠ "capability_search" ∨ current.callID ≠ reveal.callID ∨ current.isRunning = false)
    (.conflict (.notRunning reveal.callID))
  throwWhen (canonicalJSONValue current.input.json ≠ canonicalJSONValue reveal.params.arguments.json)
    (.conflict (.changedInput reveal.callID))
  let currentParts := s.transactionParts authority.occurrenceID
  let openExecutions := currentParts.filter fun part =>
    part.id ≠ context.toolPartID && part.tool ≠ "capability_search" && part.isOpen
  throwWhen (openExecutions ≠ []) (.conflict (.openExecutions (openExecutions.map ToolPart.callID)))
  let currentState ← foldCapabilityRevealReceipts authority currentParts
  throwWhen (currentState.revision ≠ reveal.prior.revision)
    (.conflict (.compareAndSwap reveal.prior.revision currentState.revision))
  let currentCandidate ← reduceCapabilityRevealCandidate currentState reveal.params.deactivate_refs reveal.activated
  throwWhen (currentCandidate.definitionDigest ≠ reveal.candidate.definitionDigest ∨
      currentCandidate.payloadChars ≠ reveal.candidate.payloadChars ∨
      currentCandidate.payloadTokens ≠ reveal.candidate.payloadTokens ∨
      canonicalJSONValue (refsJson currentCandidate.activeRefs) ≠
        canonicalJSONValue (refsJson reveal.candidate.activeRefs))
    (.conflict .changedCandidate)
  -- The request of a part is immutable: an outcome is written for the input that it has.
  throwWhen (current.input.search? ≠ some reveal.params.arguments) (.conflict (.immutableRequest current.id))
  return { current with state := .completed "Capability search" reveal.output reveal.metadata }

end Execute

/-- What may happen next. -/
inductive RevealAction where
  | message (row : OccurrenceMessage)
  /-- A Tool call is recorded. -/
  | request (part : ToolPart)
  /-- The outcome of a part is written by another owner, or a search fails. -/
  | settle (partID : String) (state : ToolState)
  | call (context : RevealContext) (arguments : SearchArguments) (catalog : Except RevealError Unit)
  | prepare (call : ℕ) (answers : RevealAnswers)
  | commit (call : ℕ)
  /-- The process ends, with all calls that have not ended. -/
  | crash

def RevealPhase.afterCrash : RevealPhase → RevealPhase
  | .read _ _ _ | .prepared _ => .lost
  | phase => phase

namespace RevealSession

variable (authority : RevealAuthority) (s : RevealSession)

def withPhase (call : ℕ) (phase : RevealPhase) : RevealSession :=
  { s with calls := s.calls.modify call fun c => { c with phase } }

def withPart (part : ToolPart) : RevealSession :=
  { s with parts := s.parts.map fun p => if p.id = part.id then part else p }

/-- A call ends as far as `execute` comes up to its read. -/
def begun (context : RevealContext) (arguments : SearchArguments) (catalog : Except RevealError Unit) :
    RevealPhase :=
  match beginReveal authority s context arguments catalog with
  | .ok phase => phase
  | .error error => .failed error

def preparation (params : CapabilitySearchInput) (callID : String) (prior : CapabilityRevealState)
    (answers : RevealAnswers) : RevealPhase :=
  match prepareReveal authority params callID prior answers with
  | .ok reveal => .prepared reveal
  | .error error => .failed error

def committing (call : ℕ) (context : RevealContext) (reveal : PreparedReveal) : RevealSession :=
  match commitReveal authority s context reveal with
  | .ok part => { (s.withPart part).withPhase call (.committed reveal) with written := s.written ++ [⟨part, reveal⟩] }
  | .error error => s.withPhase call (.failed error)

def Settles (part : ToolPart) (state : ToolState) : Prop :=
  part.isOpen = true ∧ ((ToolPart.search? { part with state := state }).isSome = true →
    part.messageID ∉ s.occurrenceAssistantMessageIDs authority.occurrenceID)

instance (s : RevealSession) (part : ToolPart) (state : ToolState) : Decidable (Settles authority s part state) :=
  inferInstanceAs (Decidable (_ ∧ (_ → _)))

end RevealSession

def revealStep (authority : RevealAuthority) (s : RevealSession) : RevealAction → Option RevealSession
  | .message row =>
    if row.id ∈ s.messages.map OccurrenceMessage.id then none else some { s with messages := s.messages ++ [row] }
  | .request part =>
    if part.id ∉ s.parts.map ToolPart.id ∧ part.messageID ∈ s.messages.map OccurrenceMessage.id ∧ part.isOpen = true
    then some { s with parts := s.parts ++ [part] } else none
  | .settle partID state =>
    (s.parts.find? fun part => part.id = partID).bind fun part =>
      if s.Settles authority part state then some (s.withPart { part with state := state }) else none
  | .call context arguments catalog =>
    some { s with calls := s.calls ++ [⟨context, s.begun authority context arguments catalog⟩] }
  | .prepare call answers =>
    s.calls[call]?.bind fun c =>
      match c.phase with
      | .read params callID prior =>
        some (s.withPhase call (RevealSession.preparation authority params callID prior answers))
      | _ => none
  | .commit call =>
    s.calls[call]?.bind fun c =>
      match c.phase with
      | .prepared reveal => some (s.committing authority call c.context reveal)
      | _ => none
  | .crash => some { s with calls := s.calls.map fun c => { c with phase := c.phase.afterCrash } }

end OpenCorvus.Capability
