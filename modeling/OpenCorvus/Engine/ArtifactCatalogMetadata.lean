import OpenCorvus.Foundation.Json
import OpenCorvus.Foundation.Sha256

/-!
# Engine Artifact catalog metadata

The columns of an Engine Artifact row, the digests that its writer derives from the payload, and the
digest over the bounded catalog index that every reader recomputes.
-/

namespace OpenCorvus

open Utf16 (Units)

inductive PackageScope where
  | builtIn
  | project
  | global

structure PackageRevision where
  scope : PackageScope
  projectID : Option Units
  namespaceName : Units
  id : Units
  version : Units
  packageDigest : String

/-- Which projection an expert package runs as. -/
inductive ProjectedOwnerKind where
  | projectedScheduler
  | projectedWorker

inductive ArtifactProducer where
  | projected (ownerKind : ProjectedOwnerKind) (expertSquadID : Units)
      (packageRevision : PackageRevision) (agentID : Units) (projectionHash : String)
      (sessionID messageID toolCallID : Units)
  | mission (missionID sessionID messageID toolCallID : Units)
  | core (componentID operationID : Units)

def PackageScope.name : PackageScope → String
  | .builtIn => "built_in"
  | .project => "project"
  | .global => "global"

def ProjectedOwnerKind.name : ProjectedOwnerKind → String
  | .projectedScheduler => "projected-scheduler"
  | .projectedWorker => "projected-worker"

def PackageRevision.json (revision : PackageRevision) : Json :=
  .fields [("scope", .text revision.scope.name), ("project_id", .nullable .str revision.projectID),
      ("namespace", .str revision.namespaceName), ("id", .str revision.id),
      ("version", .str revision.version), ("package_digest", .text revision.packageDigest)]

def ArtifactProducer.json : ArtifactProducer → Json
  | .projected ownerKind expertSquadID packageRevision agentID projectionHash sessionID messageID
      toolCallID =>
    .fields [("owner_kind", .text ownerKind.name), ("expert_squad_id", .str expertSquadID),
        ("package_revision", packageRevision.json), ("agent_id", .str agentID),
        ("projection_hash", .text projectionHash), ("session_id", .str sessionID),
        ("message_id", .str messageID), ("tool_call_id", .str toolCallID)]
  | .mission missionID sessionID messageID toolCallID =>
    .fields [("owner_kind", .text "mission"), ("mission_id", .str missionID),
        ("session_id", .str sessionID), ("message_id", .str messageID),
        ("tool_call_id", .str toolCallID)]
  | .core componentID operationID =>
    .fields [("owner_kind", .text "core"), ("component_id", .str componentID), ("operation_id", .str operationID)]

structure EngineArtifactRow where
  id : String
  taskID : String
  kind : String
  label : Units
  /-- The bytes of the stored payload. -/
  payload : List UInt8
  payloadSHA256 : String
  payloadBytes : ℕ
  payloadBlockSHA256s : List String
  payloadBlockIndexSHA256 : String
  artifactType : Option Units
  schemaDiagnostic : Option Units
  producer : Option ArtifactProducer
  importSourceTaskID : Option Units
  resourceCount : ℕ
  resourceMediaTypes : List Units
  searchText : Units
  searchTextTruncated : Bool
  metadataSHA256 : String
  catalogRevision : ℕ
  timeCreated : ℕ
  timeUpdated : ℕ

/-- `ENGINE_ARTIFACT_PAYLOAD_BLOCK_BYTES`. -/
def payloadBlockLimit : ℕ :=
  64 * 1024

/-- `createHash("sha256").update(text).digest("hex")` of a string. -/
def textSHA256 (text : Units) : String :=
  Sha256.sha256 (Utf16.toUtf8 text)

def blockSHA256s : ℕ → List UInt8 → List String
  | 0, _ => []
  | count + 1, bytes =>
    Sha256.sha256 (bytes.take payloadBlockLimit) :: blockSHA256s count (bytes.drop payloadBlockLimit)

def blockCount (payloadBytes : ℕ) : ℕ :=
  (payloadBytes + (payloadBlockLimit - 1)) / payloadBlockLimit

def payloadBlockSHA256s (bytes : List UInt8) : List String :=
  blockSHA256s (blockCount bytes.length) bytes

variable [EcmaScript.Collation]

def engineArtifactPayloadBlockIndexSHA256 (payloadSHA256 : String) (payloadBytes : ℕ)
    (blockSHA256s : List String) : String :=
  textSHA256 <| Json.stableJSON <| .fields [("version", .nat 2), ("payload_sha256", .text payloadSHA256),
      ("payload_bytes", .nat payloadBytes), ("payload_block_bytes", .nat payloadBlockLimit),
      ("payload_block_sha256s", .arr (blockSHA256s.map Json.text))]

def takeCodePoints : ℕ → Units → Units
  | 0, _ => []
  | _, [] => []
  | _ + 1, [unit] => [unit]
  | count + 1, unit :: next :: units =>
    if Utf16.isHigh unit && Utf16.isLow next then unit :: next :: takeCodePoints count units
    else unit :: takeCodePoints count (next :: units)

def engineArtifactCatalogLabelIndex (label : Units) : Units :=
  takeCodePoints 513 label

def engineArtifactCatalogMetadataSHA256 (row : EngineArtifactRow) : String :=
  textSHA256 <| Json.stableJSON <| .fields
    [("version", .nat 2), ("artifact_id", .text row.id), ("task_id", .text row.taskID),
      ("kind", .text row.kind), ("label_index", .str (engineArtifactCatalogLabelIndex row.label)),
      ("time_created", .nat row.timeCreated), ("time_updated", .nat row.timeUpdated),
      ("payload_sha256", .text row.payloadSHA256), ("payload_bytes", .nat row.payloadBytes),
      ("payload_block_index_sha256", .text row.payloadBlockIndexSHA256),
      ("catalog_artifact_type", .nullable .str row.artifactType),
      ("catalog_schema_diagnostic", .nullable .str row.schemaDiagnostic),
      ("catalog_producer", .nullable ArtifactProducer.json row.producer),
      ("catalog_import_source_task_id", .nullable .str row.importSourceTaskID),
      ("catalog_resource_count", .nat row.resourceCount),
      ("catalog_resource_media_types", .arr (row.resourceMediaTypes.map Json.str)),
      ("catalog_search_text", .str row.searchText),
      ("catalog_search_text_truncated", .bool row.searchTextTruncated)]

def assertEngineArtifactCatalogIndexIdentity (row : EngineArtifactRow) : Except String Unit :=
  if row.metadataSHA256 ≠ engineArtifactCatalogMetadataSHA256 row then
    throw ("Engine Artifact " ++ row.id ++
      " catalog index digest does not match its bounded metadata")
  else pure ()

omit [EcmaScript.Collation] in
@[simp] lemma length_blockSHA256s (count : ℕ) (bytes : List UInt8) :
    (blockSHA256s count bytes).length = count := by
  induction count generalizing bytes with
  | zero => rfl
  | succ _ ih => rw [blockSHA256s, List.length_cons, ih]

omit [EcmaScript.Collation] in
lemma getElem?_blockSHA256s {count block : ℕ} (bytes : List UInt8) (h : block < count) :
    (blockSHA256s count bytes)[block]? =
      some (Sha256.sha256 ((bytes.drop (block * payloadBlockLimit)).take payloadBlockLimit)) := by
  induction count generalizing block bytes with
  | zero => omega
  | succ _ ih =>
    cases block with
    | zero => simp [blockSHA256s]
    | succ block =>
      have hstart : payloadBlockLimit + block * payloadBlockLimit = (block + 1) * payloadBlockLimit := by
        rw [Nat.succ_mul, Nat.add_comm]
      rw [blockSHA256s, List.getElem?_cons_succ, ih _ (by omega), List.drop_drop, hstart]

omit [EcmaScript.Collation] in
lemma isSHA256_of_mem_blockSHA256s {count : ℕ} {bytes : List UInt8} {digest : String}
    (h : digest ∈ blockSHA256s count bytes) : Sha256.isSHA256 digest = true := by
  induction count generalizing bytes with
  | zero => simp [blockSHA256s] at h
  | succ _ ih =>
    rcases List.mem_cons.mp h with rfl | hrest
    · exact Sha256.isSHA256_sha256 _
    · exact ih hrest

structure EngineArtifactRow.Intact (row : EngineArtifactRow) : Prop where
  digest : row.payloadSHA256 = Sha256.sha256 row.payload
  size : row.payloadBytes = row.payload.length
  blocks : row.payloadBlockSHA256s = OpenCorvus.payloadBlockSHA256s row.payload
  blockIndex : row.payloadBlockIndexSHA256 =
    engineArtifactPayloadBlockIndexSHA256 row.payloadSHA256 row.payloadBytes row.payloadBlockSHA256s
  metadata : row.metadataSHA256 = engineArtifactCatalogMetadataSHA256 row

end OpenCorvus
