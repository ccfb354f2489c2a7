import OpenCorvus.Capability.RevealReceipt

/-!
# Folding receipts

`foldCapabilityRevealReceipts` sorts the receipts of the completed calls by their revisions and reduces them
one after the other; `reduceCapabilityRevealCandidate` computes what the next call would lead to.
-/

namespace OpenCorvus.Capability

open EcmaScript Transaction
open Json (canonicalJSONValue)
open Util (canonicalDigest)

structure ActiveDefinitions where
  definitions : List ActivatedCapability
  payloadChars : ℕ
  payloadTokens : ℕ
  digest : String

/-- One active capability of `activeDefinitionState`. -/
def collectProvider (base : CapabilityRevealBaseDefinition)
    (byProviderName : InsertionMap TrimmedText ActivatedCapability) (a : ActivatedCapability) :
    Except RevealError (InsertionMap TrimmedText ActivatedCapability) := do
  throwWhen (a.provider_name ∈ base.providerNames) (.corrupt (.ownedByBase a.provider_name.value))
  throwWhen (∃ previous ∈ byProviderName.get? a.provider_name,
      previous.definition_digest ≠ a.definition_digest ∨ previous.executable_ref.encode ≠ a.executable_ref.encode)
    (.corrupt (.conflictingDefinitions a.provider_name.value))
  return byProviderName.set a.provider_name a

def activeDefinitionState (active : InsertionMap String ActivatedCapability) (base : CapabilityRevealBaseDefinition) :
    Except RevealError ActiveDefinitions := do
  let base ← parseBaseDefinition base
  let byProviderName ← active.values.foldlM (collectProvider base) .empty
  let definitions := toSorted (compareNames ActivatedCapability.provider_name) byProviderName.values
  return {
    definitions
    payloadChars := definitions.foldl (fun total a => total + a.payload_chars) base.payloadChars
    payloadTokens := definitions.foldl (fun total a => total + a.payload_tokens) base.payloadTokens
    digest := canonicalDigest "active-provider-tool-definitions-v2" <| Json.fields
      [("base_definition_digest", .text base.definitionDigest),
        ("leaves", .arr (definitions.map fun a => Json.fields
          [("provider_name", .text a.provider_name.value), ("executable_ref", a.executable_ref.raw.json),
            ("definition_digest", .text a.definition_digest),
            ("materializer_binding_digest", .text a.materializer_binding_digest)]))] }

def revealActive (active : InsertionMap String ActivatedCapability) (deactivate : List CapabilityRef)
    (activated : List ActivatedCapability) : InsertionMap String ActivatedCapability :=
  activated.foldl (fun active a => active.set a.key a) (deactivate.foldl (fun active ref => active.delete ref.encode) active)

structure CapabilityRevealReceiptV2 where
  occurrence_id : String
  search_call_id : String
  prior_revision : ℕ
  revision : ℕ
  harness_projection_hash : String
  catalog_snapshot_ref : String
  catalog_snapshot_hash : String
  materialization_fingerprint : String
  result_refs : List CapabilityRef
  deactivate_refs : List CapabilityRef
  activated : List ActivatedCapability
  active_refs : List CapabilityRef
  active_definition_digest : String
  active_payload_chars : ℕ
  active_payload_tokens : ℕ

namespace CapabilityRevealReceiptV2

/-- At most so many references, each once, in the order of their encodings. -/
def CanonicalRefs (bound : ℕ) (refs : List CapabilityRef) : Prop :=
  refs.length ≤ bound ∧ (refs.map CapabilityRef.encode).Nodup ∧
  canonicalJSONValue (textsJson (refs.map CapabilityRef.encode)) =
    canonicalJSONValue (textsJson (toSorted codeUnitCompare (refs.map CapabilityRef.encode)))

instance (bound : ℕ) (refs : List CapabilityRef) : Decidable (CanonicalRefs bound refs) :=
  inferInstanceAs (Decidable (_ ∧ _ ∧ _))

/-- What the schema accepts. -/
def Valid (r : CapabilityRevealReceiptV2) : Prop :=
  (r.occurrence_id ≠ "" ∧ r.search_call_id ≠ "" ∧ 0 < r.revision ∧ r.catalog_snapshot_ref ≠ "") ∧
  (Sha256.isSHA256 r.harness_projection_hash = true ∧ Sha256.isSHA256 r.catalog_snapshot_hash = true ∧
    Sha256.isSHA256 r.materialization_fingerprint = true ∧ Sha256.isSHA256 r.active_definition_digest = true) ∧
  r.activated.length ≤ capabilityRevealMaxResults ∧ (∀ a ∈ r.activated, a.Valid) ∧
  r.revision = r.prior_revision + 1 ∧
  CanonicalRefs capabilityRevealMaxResults r.result_refs ∧
  CanonicalRefs capabilityRevealMaxActiveRefs r.deactivate_refs ∧
  CanonicalRefs capabilityRevealMaxActiveRefs r.active_refs ∧
  (r.activated.map ActivatedCapability.key).Nodup

instance (r : CapabilityRevealReceiptV2) : Decidable r.Valid :=
  inferInstanceAs (Decidable (_ ∧ _ ∧ _ ∧ _ ∧ _ ∧ _ ∧ _ ∧ _ ∧ _))

/-- `CapabilityRevealReceiptV2.parse` -/
def parse (r : CapabilityRevealReceiptV2) : Except RevealError CapabilityRevealReceiptV2 := do
  throwWhen (¬r.Valid) .invalidReceipt
  return r

lemma parse_eq_ok {r r' : CapabilityRevealReceiptV2} : r.parse = .ok r' ↔ r.Valid ∧ r' = r := by
  unfold parse
  rw [throwWhen_bind_eq_ok, pure_eq_ok, not_not]
  exact and_congr_right fun _ => eq_comm

end CapabilityRevealReceiptV2

def createCapabilityRevealReceipt (r : CapabilityRevealReceiptV2) : Except RevealError CapabilityRevealReceiptV2 := do
  let result_refs ← canonicalRefs r.result_refs
  let deactivate_refs ← canonicalRefs r.deactivate_refs
  let activated ← canonicalActivations r.activated
  let active_refs ← canonicalRefs r.active_refs
  CapabilityRevealReceiptV2.parse { r with result_refs, deactivate_refs, activated, active_refs }

structure RevealAuthority where
  occurrenceID : String
  harnessProjectionHash : String
  catalogSnapshotRef : String
  catalogSnapshotHash : String
  baseDefinition : CapabilityRevealBaseDefinition

def capabilityRevealMaterializationFingerprint (authority : RevealAuthority) (callID : String) (priorRevision : ℕ)
    (params : SearchArguments) (resultRefs : List CapabilityRef) (activated : List ActivatedCapability)
    (activeRefs : List CapabilityRef) (activeDefinitionDigest : String) (activePayloadChars activePayloadTokens : ℕ) :
    Except RevealError String := do
  let params ← getOrThrow (CapabilitySearchInput.parse params) .invalidInput
  let result_refs ← canonicalRefs resultRefs
  let activated ← canonicalActivations activated
  let active_refs ← canonicalRefs activeRefs
  return canonicalDigest "capability-reveal-preparation-v2" <| Json.fields
    [("occurrence_id", .text authority.occurrenceID), ("call_id", .text callID), ("prior_revision", .nat priorRevision),
      ("harness_projection_hash", .text authority.harnessProjectionHash),
      ("catalog_snapshot_ref", .text authority.catalogSnapshotRef),
      ("catalog_snapshot_hash", .text authority.catalogSnapshotHash), ("params", params.arguments.json),
      ("result_refs", refsJson result_refs), ("activated", .arr (activated.map ActivatedCapability.json)),
      ("active_refs", refsJson active_refs), ("active_definition_digest", .text activeDefinitionDigest),
      ("active_payload_chars", .nat activePayloadChars), ("active_payload_tokens", .nat activePayloadTokens)]

/-- The metadata of a completed part: the receipt that it may carry, and the rest. -/
structure ToolMetadata where
  receipt : Option CapabilityRevealReceiptV2
  details : Json

inductive ToolState where
  | pending
  | running
  | completed (title output : String) (metadata : ToolMetadata)
  | error (failure : String)

inductive ToolInput where
  | search (arguments : SearchArguments)
  | other (value : Json)

def ToolInput.json : ToolInput → Json
  | search arguments => arguments.json
  | other value => value

def ToolInput.search? : ToolInput → Option SearchArguments
  | search arguments => some arguments
  | other _ => none

/-- `Message.ToolPart` -/
structure ToolPart where
  id : String
  messageID : String
  callID : String
  tool : String
  input : ToolInput
  state : ToolState

def ToolPart.search? (part : ToolPart) : Option ToolMetadata :=
  match part.state with
  | .completed _ _ metadata => if part.tool = "capability_search" then some metadata else none
  | _ => none

structure RevealEntry where
  part : ToolPart
  receipt : CapabilityRevealReceiptV2

def receiptEntry (part : ToolPart) : Except RevealError (Option RevealEntry) :=
  match part.search? with
  | none => .ok none
  | some metadata => do
    let raw ← getOrThrow metadata.receipt (.corrupt (.noReceipt part.id))
    let receipt ← raw.parse.mapError fun _ => .corrupt (.invalidReceipt part.id)
    return some { part, receipt }

def persistedRevealReceiptEntries (parts : List ToolPart) : Except RevealError (List RevealEntry) := do
  let entries ← parts.mapM receiptEntry
  return entries.reduceOption

structure CapabilityRevealState where
  revision : ℕ
  active : InsertionMap String ActivatedCapability
  definitions : List ActivatedCapability
  payloadChars : ℕ
  payloadTokens : ℕ
  definitionDigest : String
  baseDefinition : CapabilityRevealBaseDefinition
  receipts : List CapabilityRevealReceiptV2

structure RevealFold where
  callIDs : List String
  active : InsertionMap String ActivatedCapability
  revision : ℕ

def RevealFold.initial : RevealFold where
  callIDs := []
  active := .empty
  revision := 0

/-- The fingerprint that a receipt must carry, from the input that its part stores. -/
def expectedFingerprint (authority : RevealAuthority) (revision : ℕ) (entry : RevealEntry) :
    Except RevealError String := do
  let arguments ← getOrThrow entry.part.input.search? .invalidInput
  let params ← getOrThrow (CapabilitySearchInput.parse arguments) .invalidInput
  let requestedRefs ← canonicalRefs params.exact_refs
  let activatedRefs ← canonicalRefs (entry.receipt.activated.map ActivatedCapability.requested_ref)
  throwWhen (canonicalJSONValue (refsJson requestedRefs) ≠ canonicalJSONValue (refsJson activatedRefs)) .invalidInput
  let deactivateRefs ← canonicalRefs params.deactivate_refs
  throwWhen (canonicalJSONValue (refsJson deactivateRefs) ≠ canonicalJSONValue (refsJson entry.receipt.deactivate_refs))
    .invalidInput
  capabilityRevealMaterializationFingerprint authority entry.part.callID revision params.arguments
    entry.receipt.result_refs entry.receipt.activated entry.receipt.active_refs entry.receipt.active_definition_digest
    entry.receipt.active_payload_chars entry.receipt.active_payload_tokens

def foldReceipt (authority : RevealAuthority) (s : RevealFold) (entry : RevealEntry) : Except RevealError RevealFold := do
  throwWhen (entry.receipt.search_call_id ≠ entry.part.callID)
    (.corrupt (.belongsToCall entry.part.id entry.receipt.search_call_id entry.part.callID))
  throwWhen (entry.receipt.search_call_id ∈ s.callIDs) (.corrupt (.multipleReceipts entry.receipt.search_call_id))
  throwWhen (entry.receipt.occurrence_id ≠ authority.occurrenceID ∨
      entry.receipt.harness_projection_hash ≠ authority.harnessProjectionHash ∨
      entry.receipt.catalog_snapshot_ref ≠ authority.catalogSnapshotRef ∨
      entry.receipt.catalog_snapshot_hash ≠ authority.catalogSnapshotHash)
    (.corrupt (.changedAuthority entry.receipt.revision))
  throwWhen (entry.receipt.prior_revision ≠ s.revision ∨ entry.receipt.revision ≠ s.revision + 1)
    (.corrupt (.chain (s.revision + 1) entry.receipt.revision))
  let active := revealActive s.active entry.receipt.deactivate_refs entry.receipt.activated
  throwWhen (active.size > capabilityRevealMaxActiveRefs) (.corrupt (.activeRefBudget entry.receipt.revision))
  let expectedRefs := toSorted (compareEncoded id) (active.values.map ActivatedCapability.requested_ref)
  throwWhen (canonicalJSONValue (refsJson expectedRefs) ≠ canonicalJSONValue (refsJson entry.receipt.active_refs))
    (.corrupt (.activeRefs entry.receipt.revision))
  let definitions ← activeDefinitionState active authority.baseDefinition
  throwWhen (definitions.payloadChars ≠ entry.receipt.active_payload_chars ∨
      definitions.payloadTokens ≠ entry.receipt.active_payload_tokens ∨
      definitions.digest ≠ entry.receipt.active_definition_digest)
    (.corrupt (.activeTotals entry.receipt.revision))
  let fingerprint ← (expectedFingerprint authority s.revision entry).mapError fun _ =>
    .corrupt (.searchInput entry.part.id)
  throwWhen (entry.receipt.materialization_fingerprint ≠ fingerprint) (.corrupt (.fingerprint entry.part.id))
  return { callIDs := entry.receipt.search_call_id :: s.callIDs, active, revision := entry.receipt.revision }

def compareRevisions (left right : RevealEntry) : Ordering :=
  compare left.receipt.revision right.receipt.revision

instance : Std.TransCmp compareRevisions :=
  inferInstanceAs (Std.TransCmp (compareOn fun entry : RevealEntry => entry.receipt.revision))

def finishFold (authority : RevealAuthority) (s : RevealFold) (receipts : List CapabilityRevealReceiptV2) :
    Except RevealError CapabilityRevealState := do
  let definitions ← activeDefinitionState s.active authority.baseDefinition
  throwWhen (definitions.payloadChars - authority.baseDefinition.payloadChars > capabilityRevealMaxActiveChars ∨
      definitions.payloadTokens - authority.baseDefinition.payloadTokens > capabilityRevealMaxActiveTokens)
    (.corrupt .payloadBudget)
  let baseDefinition ← parseBaseDefinition authority.baseDefinition
  return {
    revision := s.revision
    active := s.active
    definitions := definitions.definitions
    payloadChars := definitions.payloadChars
    payloadTokens := definitions.payloadTokens
    definitionDigest := definitions.digest
    baseDefinition
    receipts }

def foldCapabilityRevealReceipts (authority : RevealAuthority) (parts : List ToolPart) :
    Except RevealError CapabilityRevealState := do
  let entries ← persistedRevealReceiptEntries parts
  let entries := toSorted compareRevisions entries
  let s ← entries.foldlM (foldReceipt authority) .initial
  finishFold authority s (entries.map RevealEntry.receipt)

/-- What a call would lead to. -/
structure RevealCandidate where
  active : InsertionMap String ActivatedCapability
  activeRefs : List CapabilityRef
  definitions : List ActivatedCapability
  payloadChars : ℕ
  payloadTokens : ℕ
  definitionDigest : String

def reduceCapabilityRevealCandidate (prior : CapabilityRevealState) (deactivateRefs : List CapabilityRef)
    (activated : List ActivatedCapability) : Except RevealError RevealCandidate := do
  let base ← parseBaseDefinition prior.baseDefinition
  let deactivateRefs ← canonicalRefs deactivateRefs
  let activated ← canonicalActivations activated
  activated.forM fun a => throwWhen (a.provider_name ∈ base.providerNames) (.baseDefinitionConflict a.provider_name.value)
  let active := revealActive prior.active deactivateRefs activated
  throwWhen (active.size > capabilityRevealMaxActiveRefs) (.activeRefs active.size)
  let definitions ← activeDefinitionState active prior.baseDefinition
  throwWhen (definitions.payloadChars - prior.baseDefinition.payloadChars > capabilityRevealMaxActiveChars)
    (.payloadChars (definitions.payloadChars - prior.baseDefinition.payloadChars))
  throwWhen (definitions.payloadTokens - prior.baseDefinition.payloadTokens > capabilityRevealMaxActiveTokens)
    (.payloadTokens (definitions.payloadTokens - prior.baseDefinition.payloadTokens))
  let activeRefs ← canonicalRefs (active.values.map ActivatedCapability.requested_ref)
  return {
    active
    activeRefs
    definitions := definitions.definitions
    payloadChars := definitions.payloadChars
    payloadTokens := definitions.payloadTokens
    definitionDigest := definitions.digest }

end OpenCorvus.Capability
