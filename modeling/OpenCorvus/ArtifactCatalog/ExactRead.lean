import OpenCorvus.Engine.ArtifactCatalogMetadata

/-!
# Exact Artifact reads

One page of an exact Artifact, cut by the Host out of a stored payload, a snapshot manifest or a text resource; the
client that assembles the pages of a locator; and the audit that judges from the recorded requests and pages which
locators were read completely.

Only inline delivery is modelled, and no grammar that no modelled function reads.
-/

namespace OpenCorvus

open Utf16 (Units)

/-! ## Locators -/

structure TaskArtifactSnapshotIdentity where
  projectID : String
  taskID : String
  snapshotID : String
  manifestSHA256 : String

structure TaskArtifactRef where
  snapshot : TaskArtifactSnapshotIdentity
  tree : String
  path : String
  mediaType : String
  bytes : ℕ
  sha256 : String

inductive ArtifactReadLocator where
  | engineArtifact (artifactID : String) (catalogRevision : ℕ) (expectedSHA256 : String)
  | taskArtifactSnapshot (snapshot : TaskArtifactSnapshotIdentity)
  | taskArtifactResource (ref : TaskArtifactRef)

def TaskArtifactSnapshotIdentity.json (snapshot : TaskArtifactSnapshotIdentity) : Json :=
  .fields [("schema_version", .nat 2), ("project_id", .text snapshot.projectID),
      ("task_id", .text snapshot.taskID), ("snapshot_id", .text snapshot.snapshotID),
      ("manifest_sha256", .text snapshot.manifestSHA256)]

/-- The JSON form of a resource reference. -/
def TaskArtifactRef.json (ref : TaskArtifactRef) : Json :=
  .fields [("snapshot", ref.snapshot.json), ("tree", .text ref.tree), ("path", .text ref.path),
      ("media_type", .text ref.mediaType), ("bytes", .nat ref.bytes), ("sha256", .text ref.sha256)]

def ArtifactReadLocator.json : ArtifactReadLocator → Json
  | .engineArtifact artifactID catalogRevision expectedSHA256 =>
    .fields [("source", .text "engine_artifact"), ("artifact_id", .text artifactID),
        ("catalog_revision", .nat catalogRevision), ("expected_sha256", .text expectedSHA256)]
  | .taskArtifactSnapshot snapshot =>
    .fields [("source", .text "task_artifact_snapshot"), ("snapshot", snapshot.json)]
  | .taskArtifactResource ref =>
    .fields [("source", .text "task_artifact_resource"), ("ref", ref.json)]

variable (locator : ArtifactReadLocator)

def artifactReadLocatorKey : Units :=
  locator.json.stringify

def artifactReadLocatorSHA256 : ArtifactReadLocator → String
  | .engineArtifact _ _ expectedSHA256 => expectedSHA256
  | .taskArtifactSnapshot snapshot => snapshot.manifestSHA256
  | .taskArtifactResource ref => ref.sha256

def artifactReadLocatorMediaType : ArtifactReadLocator → String
  | .taskArtifactResource ref => ref.mediaType
  | _ => "application/json"

def artifactReadLocatorBytes : ArtifactReadLocator → Option ℕ
  | .taskArtifactResource ref => some ref.bytes
  | _ => none

def isMediaTypeHead (c : Char) : Bool :=
  ('a' ≤ c && c ≤ 'z') || ('0' ≤ c && c ≤ '9')

def isMediaTypeTail (c : Char) : Bool :=
  isMediaTypeHead c || "!#$&^_.+-".toList.contains c

def isRestrictedName : List Char → Bool
  | [] => false
  | c :: rest => isMediaTypeHead c && rest.all isMediaTypeTail && decide (rest.length + 1 ≤ 127)

/-- `TaskArtifactMediaTypeSchema`. -/
def isMediaType (text : String) : Bool :=
  match text.toList.splitOn '/' with
  | [type, subtype] => isRestrictedName type && isRestrictedName subtype
  | _ => false

/-- `ArtifactIdentifierSchema`. -/
def isArtifactIdentifier (text : String) : Bool :=
  0 < (Utf16.ofString text).length && (Utf16.ofString text).length ≤ 512

/-- `TaskArtifactSnapshotIdentitySchema`. -/
def TaskArtifactSnapshotIdentity.parses (snapshot : TaskArtifactSnapshotIdentity) : Bool :=
  snapshot.projectID != "" && snapshot.taskID != "" && Sha256.isSHA256 snapshot.manifestSHA256

/-- `ArtifactReadLocatorSchema`. -/
def ArtifactReadLocator.parses : ArtifactReadLocator → Bool
  | .engineArtifact artifactID catalogRevision expectedSHA256 =>
    isArtifactIdentifier artifactID && 0 < catalogRevision && Sha256.isSHA256 expectedSHA256
  | .taskArtifactSnapshot snapshot => snapshot.parses
  | .taskArtifactResource ref =>
    ref.snapshot.parses && isMediaType ref.mediaType && Sha256.isSHA256 ref.sha256

/-! ## Requests and pages -/

/-- `ArtifactSchemaLimits.maxReadBytes`. -/
def maxReadBytes : ℕ :=
  64 * 1024

/-- An exact-read request for inline delivery. -/
structure ArtifactReadInput where
  locator : ArtifactReadLocator
  byteOffset : ℕ
  maxBytes : ℕ

/-- `ArtifactReadMaxBytesSchema`. -/
def parseMaxBytes (maxBytes : ℕ) : Except String ℕ :=
  if maxBytes < 1 ∨ maxReadBytes < maxBytes then throw "ArtifactReadMaxBytesSchema"
  else pure maxBytes

/-- `ArtifactReadLocatorSchema.parse`. -/
def parseLocator : Except String ArtifactReadLocator :=
  if locator.parses then pure locator else throw "ArtifactReadLocatorSchema"

/-- `ArtifactReadInputSchema.parse`. -/
def parseReadInput (request : ArtifactReadInput) : Except String ArtifactReadInput := do
  let _ ← parseLocator request.locator
  let _ ← parseMaxBytes request.maxBytes
  return request

structure ArtifactReadChunk where
  locator : ArtifactReadLocator
  mediaType : String
  byteStart : ℕ
  byteEnd : ℕ
  nextOffset : Option ℕ
  totalBytes : ℕ
  complete : Bool
  sha256 : String
  text : Option Units
  attachment : Bool

/-- `ArtifactReadChunkSchema.parse`. -/
def parseChunk (chunk : ArtifactReadChunk) : Except String ArtifactReadChunk :=
  if chunk.locator.parses && isMediaType chunk.mediaType && Sha256.isSHA256 chunk.sha256 &&
      chunk.text.all (fun text => decide (text.length ≤ maxReadBytes)) then
    pure chunk
  else throw "ArtifactReadChunkSchema"

structure ArtifactAttachment where
  bytes : List UInt8
  filename : String

/-- `EngineArtifactReadResult`. -/
structure ArtifactReadResult where
  chunk : ArtifactReadChunk
  attachment : Option ArtifactAttachment

structure ArtifactReadWindowFact where
  request : ArtifactReadInput
  chunk : ArtifactReadChunk

/-! ## Cutting a page -/

/-- The character that a decoder drops at the start of its input. -/
def byteOrderMark : Char := '\uFEFF'

def dropByteOrderMark : List Char → List Char
  | [] => []
  | c :: text => if c = byteOrderMark then text else c :: text

/-- `new TextDecoder("utf-8", { fatal: true }).decode(bytes)`. -/
def decodeText (bytes : List UInt8) : Option Units :=
  (Utf8.decode? bytes).map fun text => Utf16.encode (dropByteOrderMark text)

def utf8Chunk (bytes : List UInt8) (offset maxBytes : ℕ) (context : String) : Except String (Units × ℕ) :=
  if bytes.length < offset then
    throw (context ++ ": byte_offset " ++ toString offset ++ " exceeds " ++ toString bytes.length)
  else if offset = bytes.length then pure ([], offset)
  else if decodeText (bytes.take offset) = none then
    throw (context ++ ": byte_offset " ++ toString offset ++ " is not a UTF-8 boundary")
  else
    match Utf8.backOff decodeText (bytes.drop offset)
        (min bytes.length (offset + maxBytes) - offset) with
    | some (text, count) => pure (text, offset + count)
    | none =>
      throw (context ++ ": max_bytes " ++ toString maxBytes ++
        " cannot contain the complete UTF-8 code point at byte_offset " ++ toString offset)

def textReadResult (bytes : List UInt8) (mediaType : String) (byteOffset maxBytes : ℕ) (context : String) :
    Except String ArtifactReadResult := do
  let page ← utf8Chunk bytes byteOffset maxBytes context
  let complete := page.2 == bytes.length
  return {
    chunk := {
      locator
      mediaType
      byteStart := byteOffset
      byteEnd := page.2
      nextOffset := if complete then none else some page.2
      totalBytes := bytes.length
      complete
      sha256 := Sha256.sha256 bytes
      text := some page.1
      attachment := false }
    attachment := none }

/-! ## The store -/

/-- The tables and files that exact reads use.  A current row is keyed by its identifier, a
historical one by its identifier and revision. -/
structure ArtifactStore where
  current : String → Option EngineArtifactRow
  history : String → ℕ → Option EngineArtifactRow
  /-- The manifest file of a committed snapshot. -/
  manifestFile : TaskArtifactSnapshotIdentity → Option (List UInt8)
  /-- The file of a resource in a committed snapshot. -/
  resourceFile : TaskArtifactRef → Option (List UInt8)

/-- Where a version of an Engine Artifact is stored. -/
inductive Partition where
  | current
  | history

def ArtifactStore.version (store : ArtifactStore) (partition : Partition) (artifactID : String)
    (catalogRevision : ℕ) : Option EngineArtifactRow :=
  match partition with
  | .current => (store.current artifactID).filter fun row => row.catalogRevision == catalogRevision
  | .history => store.history artifactID catalogRevision

def exactEngineArtifactReadIndex [EcmaScript.Collation] (store : ArtifactStore)
    (taskID artifactID : String) (catalogRevision : ℕ) (expectedSHA256 : String) :
    Except String (EngineArtifactRow × Partition) := do
  let matching (partition : Partition) :=
    (store.version partition artifactID catalogRevision).filter fun row =>
      row.taskID == taskID && row.payloadSHA256 == expectedSHA256
  let selected :=
    match matching .current with
    | some row => some (row, Partition.current)
    | none => (matching .history).map fun row => (row, Partition.history)
  match selected with
  | none =>
    if (store.current artifactID).any fun row => row.taskID != taskID then
      throw ("artifact_read: Engine Artifact " ++ artifactID ++ " belongs to another Task")
    else
      throw ("Exact Engine Artifact " ++ artifactID ++ "@revision=" ++ toString catalogRevision ++
        "@" ++ expectedSHA256 ++ " does not exist")
  | some selected =>
    assertEngineArtifactCatalogIndexIdentity selected.1
    return selected

def exactEngineArtifactReadWindow [EcmaScript.Collation] (store : ArtifactStore)
    (index : EngineArtifactRow) (partition : Partition) (byteOffset maxBytes : ℕ) :
    Except String (List UInt8 × ℕ) := do
  if index.payloadBytes < byteOffset then
    throw ("artifact_read " ++ index.id ++ ": byte_offset " ++ toString byteOffset ++ " exceeds " ++
      toString index.payloadBytes ++ " bytes")
  let firstBlock := byteOffset / payloadBlockLimit
  let requestedEnd := min index.payloadBytes (byteOffset + maxBytes + 3)
  let lastBlockExclusive := blockCount requestedEnd
  let windowStart := firstBlock * payloadBlockLimit
  let windowEnd := min index.payloadBytes (lastBlockExclusive * payloadBlockLimit)
  let length := windowEnd - windowStart
  match (store.version partition index.id index.catalogRevision).filter
      (fun row => row.taskID == index.taskID) with
  | none =>
    throw ("artifact_read: Engine Artifact " ++ index.id ++ " changed during its exact read")
  | some selectedWindow =>
    let bytes := (selectedWindow.payload.drop windowStart).take length
    if bytes.length ≠ length then
      throw ("artifact_read: Engine Artifact " ++ index.id ++
        " payload bytes do not match its canonical catalog metadata")
    let allHashes := selectedWindow.payloadBlockSHA256s
    if allHashes.any fun hash => !Sha256.isSHA256 hash then
      throw ("artifact_read: Engine Artifact " ++ index.id ++ " payload block index is malformed")
    if engineArtifactPayloadBlockIndexSHA256 index.payloadSHA256 index.payloadBytes allHashes ≠
        index.payloadBlockIndexSHA256 then
      throw ("artifact_read: Engine Artifact " ++ index.id ++
        " payload block index does not match its canonical catalog metadata")
    -- three digests are selected with the window
    let coveredHashes := [0, 1, 2].map fun offset => allHashes[firstBlock + offset]?
    let blockBytes (offset : ℕ) := (bytes.drop (offset * payloadBlockLimit)).take payloadBlockLimit
    match (List.range (lastBlockExclusive - firstBlock)).find? fun offset =>
        coveredHashes[offset]?.join != some (Sha256.sha256 (blockBytes offset)) with
    | some offset =>
      throw ("artifact_read: Engine Artifact " ++ index.id ++
        " payload bytes do not match its canonical catalog metadata; payload block " ++
        toString (firstBlock + offset) ++ " does not match its canonical catalog metadata")
    | none => return (bytes, windowStart)

def boundedEngineArtifactTextReadResult (locator : ArtifactReadLocator) (index : EngineArtifactRow)
    (bytes : List UInt8) (windowStart byteOffset maxBytes : ℕ) :
    Except String ArtifactReadResult := do
  let relativeOffset := byteOffset - windowStart
  if bytes[relativeOffset]?.any Utf8.isContinuation then
    throw ("artifact_read " ++ index.id ++ ": byte_offset " ++ toString byteOffset ++ " is not a UTF-8 boundary")
  let limit := min bytes.length (relativeOffset + maxBytes)
  -- an empty run is always accepted, so backing off ends there at the latest
  let page := (Utf8.backOff decodeText (bytes.drop relativeOffset) (limit - relativeOffset)).getD
    ([], 0)
  if limit < relativeOffset ∨ (page.2 = 0 ∧ byteOffset < index.payloadBytes) then
    throw ("artifact_read " ++ index.id ++ ": max_bytes " ++ toString maxBytes ++
      " cannot contain the complete UTF-8 code point at byte_offset " ++ toString byteOffset)
  let byteEnd := windowStart + (relativeOffset + page.2)
  let complete := byteEnd == index.payloadBytes
  return {
    chunk := {
      locator
      mediaType := "application/json"
      byteStart := byteOffset
      byteEnd
      nextOffset := if complete then none else some byteEnd
      totalBytes := index.payloadBytes
      complete
      sha256 := index.payloadSHA256
      text := some page.1
      attachment := false }
    attachment := none }

/-! ## Resources -/

def readTaskArtifactSnapshotManifest (store : ArtifactStore)
    (snapshot : TaskArtifactSnapshotIdentity) : Except String (List UInt8) :=
  match store.manifestFile snapshot with
  | none => throw "TaskArtifactStore manifest"
  | some bytes =>
    if Sha256.sha256 bytes ≠ snapshot.manifestSHA256 then
      throw "TaskArtifactStore: manifest digest mismatch"
    else pure bytes

def readTaskArtifactRef (store : ArtifactStore) (ref : TaskArtifactRef) : Except String (List UInt8) :=
  match store.resourceFile ref with
  | none => throw "TaskArtifactStore artifact"
  | some bytes =>
    if bytes.length ≠ ref.bytes ∨ Sha256.sha256 bytes ≠ ref.sha256 then
      throw "TaskArtifactStore: artifact bytes do not match ref"
    else pure bytes

/-- `TEXT_APP_MIMES`. -/
def textAppMimes : List String :=
  ["application/json", "application/xml", "application/yaml", "application/x-yaml",
    "application/toml", "application/x-toml", "application/javascript", "application/typescript",
    "application/x-sh", "application/x-shellscript", "application/sql"]

/-- `TEXT_EXTS`. -/
def textExts : List String :=
  ["ts", "tsx", "js", "jsx", "mjs", "cjs", "py", "go", "rs", "c", "cpp", "h", "hpp", "java", "rb",
    "sh", "bat", "ps1", "html", "css", "scss", "less", "sql", "toml", "yaml", "yml", "json", "xml",
    "csv", "log", "md", "markdown", "txt", "rst"]

/-- The lower case of a character as far as ASCII letters tell it apart: besides the ASCII capitals
only the Kelvin sign has an ASCII letter as its lower case. -/
def lowerCase (c : Char) : Char :=
  if c = '\u212A' then 'k' else c.toLower

def isDecodableText (mime filename : String) : Bool :=
  let normalizedMime :=
    (EcmaScript.trim (String.ofList ((mime.toList.splitOn ';').headD []))).map lowerCase
  if "text/".toList.isPrefixOf normalizedMime.toList then true
  else if textAppMimes.contains normalizedMime then true
  else if "+json".toList.isSuffixOf normalizedMime.toList ||
      "+xml".toList.isSuffixOf normalizedMime.toList then true
  else if normalizedMime == "application/octet-stream" && filename != "" then
    textExts.contains (String.ofList (((filename.toList.splitOn '.').getLastD []).map lowerCase))
  else false

/-! ## The Host -/

def readTaskArtifact [EcmaScript.Collation] (store : ArtifactStore) (taskID : String)
    (request : ArtifactReadInput) : Except String ArtifactReadResult := do
  let read ← parseReadInput request
  match read.locator with
  | .engineArtifact artifactID catalogRevision expectedSHA256 =>
    let index ← exactEngineArtifactReadIndex store taskID artifactID catalogRevision expectedSHA256
    let window ← exactEngineArtifactReadWindow store index.1 index.2 read.byteOffset read.maxBytes
    boundedEngineArtifactTextReadResult read.locator index.1 window.1 window.2 read.byteOffset read.maxBytes
  | .taskArtifactSnapshot snapshot =>
    if snapshot.taskID ≠ taskID then
      throw "artifact_read: Task Artifact snapshot belongs to another Task"
    let bytes ← readTaskArtifactSnapshotManifest store snapshot
    textReadResult read.locator bytes "application/json" read.byteOffset read.maxBytes
      ("artifact_read snapshot " ++ snapshot.snapshotID)
  | .taskArtifactResource ref =>
    if ref.snapshot.taskID ≠ taskID then
      throw "artifact_read: Task Artifact resource belongs to another Task"
    let bytes ← readTaskArtifactRef store ref
    if isDecodableText ref.mediaType ref.path then
      textReadResult read.locator bytes ref.mediaType read.byteOffset read.maxBytes
        ("artifact_read resource " ++ ref.tree ++ "/" ++ ref.path)
    else
      if read.byteOffset ≠ 0 then
        throw ("artifact_read binary resource: byte_offset must be 0 because binary media is " ++
          "returned as one complete attachment")
      let filename := String.ofList ((ref.path.toList.splitOn '/').getLastD "artifact".toList)
      return {
        chunk := {
          locator := read.locator
          mediaType := ref.mediaType
          byteStart := 0
          byteEnd := bytes.length
          nextOffset := none
          totalBytes := bytes.length
          complete := true
          sha256 := Sha256.sha256 bytes
          text := none
          attachment := true }
        attachment := some { bytes, filename } }

/-! ## The client -/

/-- What the client keeps between two pages. -/
structure ExactReadState where
  byteOffset : ℕ
  streamTotalBytes : Option ℕ
  chunks : List (List UInt8)
  /-- The requests and pages so far, as their caller may record them. -/
  windows : List ArtifactReadWindowFact

structure ExactArtifactRead where
  locator : ArtifactReadLocator
  mediaType : String
  bytes : List UInt8
  sha256 : String

def transportedBytes (locator : ArtifactReadLocator) (maxBytes : ℕ) (chunk : ArtifactReadChunk)
    (attachment : Option ArtifactAttachment) : Except String (List UInt8) :=
  if chunk.attachment then
    match attachment with
    | none => throw "artifact exact-read: Host returned invalid attachment transport"
    | some attachment =>
      if chunk.text.isSome || attachment.filename == "" then
        throw "artifact exact-read: Host returned invalid attachment transport"
      else if (artifactReadLocatorBytes locator).isNone || chunk.byteStart != 0 || !chunk.complete ||
          chunk.nextOffset.isSome || chunk.byteEnd != chunk.totalBytes then
        throw "artifact exact-read: binary attachments must contain one complete resource"
      else pure attachment.bytes
  else
    match attachment, chunk.text with
    | none, some text =>
      if maxBytes < (Utf16.toUtf8 text).length then
        throw "artifact exact-read: Host text chunk exceeds the requested byte limit"
      else pure (Utf16.toUtf8 text)
    | _, _ => throw "artifact exact-read: Host returned invalid UTF-8 text transport"

/-- The checks of one page in `readExactArtifact`, and whether it is the last one. -/
def acceptChunk (locator : ArtifactReadLocator) (maxBytes : ℕ) (state : ExactReadState)
    (result : ArtifactReadResult) : Except String (ExactReadState × Bool) := do
  let chunk ← parseChunk result.chunk
  if artifactReadLocatorKey chunk.locator ≠ artifactReadLocatorKey locator then
    throw "artifact exact-read: Host returned a different locator"
  if chunk.mediaType ≠ artifactReadLocatorMediaType locator then
    throw ("artifact exact-read: Host returned media type " ++ chunk.mediaType ++ "; expected " ++
      artifactReadLocatorMediaType locator)
  if chunk.sha256 ≠ artifactReadLocatorSHA256 locator then
    throw "artifact exact-read: Host digest does not match the exact locator"
  if chunk.byteStart ≠ state.byteOffset ∨ chunk.byteEnd < chunk.byteStart then
    throw "artifact exact-read: Host returned a non-contiguous byte range"
  if chunk.totalBytes < chunk.byteEnd then
    throw "artifact exact-read: Host byte range exceeds the declared total"
  let streamTotalBytes := state.streamTotalBytes.getD chunk.totalBytes
  if chunk.totalBytes ≠ streamTotalBytes then
    throw "artifact exact-read: Artifact byte count changed while reading"
  if (artifactReadLocatorBytes locator).any fun bytes => chunk.totalBytes != bytes then
    throw "artifact exact-read: Host byte count does not match the exact resource locator"
  let bytes ← transportedBytes locator maxBytes chunk result.attachment
  if bytes.length ≠ chunk.byteEnd - chunk.byteStart then
    throw "artifact exact-read: transported bytes do not match the declared byte range"
  let accepted : ExactReadState := {
    byteOffset := chunk.byteEnd
    streamTotalBytes := some streamTotalBytes
    chunks := state.chunks ++ [bytes]
    windows := state.windows ++
      [{ request := { locator, byteOffset := state.byteOffset, maxBytes }, chunk }] }
  if chunk.complete then
    if chunk.nextOffset.isSome ∨ chunk.byteEnd ≠ chunk.totalBytes then
      throw "artifact exact-read: Host returned an invalid terminal range"
    return (accepted, true)
  else
    if chunk.nextOffset ≠ some chunk.byteEnd ∨ chunk.totalBytes ≤ chunk.byteEnd ∨
        chunk.byteEnd ≤ state.byteOffset then
      throw "artifact exact-read: Host returned a missing or non-advancing chunk"
    return (accepted, false)

/-- A Host, by the number of the call: what is stored may have moved between two calls. -/
abbrev ArtifactHost := ℕ → ArtifactReadInput → Except String ArtifactReadResult

/-- The loop of `readExactArtifact`, for a number of pages; `none` when that was not enough. -/
def readChunks (host : ArtifactHost) (locator : ArtifactReadLocator) (maxBytes : ℕ) :
    ℕ → ExactReadState → Option (Except String ExactReadState)
  | 0, _ => none
  | fuel + 1, state =>
    match host state.windows.length { locator, byteOffset := state.byteOffset, maxBytes } with
    | .error error => some (.error error)
    | .ok result =>
      match acceptChunk locator maxBytes state result with
      | .error error => some (.error error)
      | .ok (accepted, true) => some (.ok accepted)
      | .ok (accepted, false) => readChunks host locator maxBytes fuel accepted

/-- The checks of the assembled bytes, at the end of `readExactArtifact`. -/
def assembleChunks (locator : ArtifactReadLocator) (state : ExactReadState) :
    Except String ExactArtifactRead := do
  let bytes := state.chunks.flatten
  if some bytes.length ≠ state.streamTotalBytes then
    throw "artifact exact-read: assembled bytes do not match the declared total"
  if Sha256.sha256 bytes ≠ artifactReadLocatorSHA256 locator then
    throw "artifact exact-read: assembled bytes do not match the exact locator digest"
  return {
    locator
    mediaType := artifactReadLocatorMediaType locator
    bytes
    sha256 := artifactReadLocatorSHA256 locator }

def readExactArtifact (host : ArtifactHost) (locatorInput : ArtifactReadLocator) (maxBytesInput fuel : ℕ) :
    Option (Except String (ExactArtifactRead × List ArtifactReadWindowFact)) :=
  match parseLocator locatorInput, parseMaxBytes maxBytesInput with
  | .ok locator, .ok maxBytes =>
    (readChunks host locator maxBytes fuel
        { byteOffset := 0, streamTotalBytes := none, chunks := [], windows := [] }).map fun outcome =>
      outcome.bind fun state =>
        (assembleChunks locator state).map fun read => (read, state.windows)
  | .error error, _ => some (.error error)
  | _, .error error => some (.error error)

/-! ## The audit -/

def addToGroup (fact : ArtifactReadWindowFact) : List (ArtifactReadLocator × List ArtifactReadWindowFact) →
      List (ArtifactReadLocator × List ArtifactReadWindowFact)
  | [] => [(fact.request.locator, [fact])]
  | group :: groups =>
    if artifactReadLocatorKey group.1 = artifactReadLocatorKey fact.request.locator then
      (group.1, group.2 ++ [fact]) :: groups
    else group :: addToGroup fact groups

/-- Whether the transport of a page contradicts its byte range. -/
def transportDisagrees (locator : ArtifactReadLocator) (fact : ArtifactReadWindowFact) : Bool :=
  let chunk := fact.chunk
  if chunk.attachment then
    (artifactReadLocatorBytes locator).isNone || fact.request.byteOffset != 0 ||
      chunk.byteStart != 0 || chunk.text.isSome || !chunk.complete || chunk.nextOffset.isSome ||
      chunk.byteEnd != chunk.totalBytes || artifactReadLocatorBytes locator != some chunk.totalBytes
  else
    match chunk.text with
    | none => true
    | some text =>
      (Utf16.toUtf8 text).length != chunk.byteEnd - chunk.byteStart ||
        decide (fact.request.maxBytes < (Utf16.toUtf8 text).length)

/-- Whether a page contradicts its locator, its request or itself. -/
def invalidWindow (locator : ArtifactReadLocator) (totalBytes : ℕ) (fact : ArtifactReadWindowFact) : Bool :=
  let chunk := fact.chunk
  decide (artifactReadLocatorKey chunk.locator ≠ artifactReadLocatorKey locator) ||
    chunk.mediaType != artifactReadLocatorMediaType locator ||
    chunk.sha256 != artifactReadLocatorSHA256 locator || chunk.totalBytes != totalBytes ||
    decide (chunk.byteEnd < chunk.byteStart) || decide (totalBytes < chunk.byteEnd) ||
    chunk.byteStart != fact.request.byteOffset || transportDisagrees locator fact ||
    (chunk.complete && chunk.byteEnd != chunk.totalBytes) ||
    (!chunk.complete &&
      (decide (chunk.byteEnd ≤ chunk.byteStart) || decide (chunk.totalBytes ≤ chunk.byteEnd))) ||
    chunk.nextOffset != (if chunk.complete then none else some chunk.byteEnd)

/-- The order of two byte ranges. -/
def compareIntervals (left right : ℕ × ℕ) : Ordering :=
  (compare left.1 right.1).then (compare left.2 right.2)

/-- How far sorted byte ranges cover the bytes from an offset on, or `none` at a gap. -/
def coverThrough : ℕ → List (ℕ × ℕ) → Option ℕ
  | covered, [] => some covered
  | covered, interval :: intervals =>
    if covered < interval.1 then none else coverThrough (max covered interval.2) intervals

inductive LocatorVerdict where
  | invalid
  | complete
  | incomplete
  deriving DecidableEq

def judgeWindows (locator : ArtifactReadLocator) (windows : List ArtifactReadWindowFact) : LocatorVerdict :=
  let totalBytes := (windows.head?.map fun fact => fact.chunk.totalBytes).getD 0
  if windows.any (invalidWindow locator totalBytes) then .invalid
  else
    let intervals := EcmaScript.toSorted compareIntervals
      (windows.map fun fact => (fact.chunk.byteStart, fact.chunk.byteEnd))
    if coverThrough 0 intervals = some totalBytes ∧
        windows.any fun fact => fact.chunk.complete && fact.chunk.byteEnd == totalBytes then
      .complete
    else .incomplete

structure ArtifactReadAudit where
  completeLocators : List ArtifactReadLocator
  invalidLocators : List ArtifactReadLocator

def compareLocators [EcmaScript.Collation] (left right : ArtifactReadLocator) : Ordering :=
  EcmaScript.localeCompare (String.ofList (Utf16.decode (artifactReadLocatorKey left)))
    (String.ofList (Utf16.decode (artifactReadLocatorKey right)))

def auditArtifactReadLocatorsFromFacts [EcmaScript.Collation]
    (facts : List ArtifactReadWindowFact) : Except String ArtifactReadAudit := do
  let _ ← facts.mapM fun fact => do
    let _ ← parseReadInput fact.request
    parseChunk fact.chunk
  let groups := facts.foldl (fun groups fact => addToGroup fact groups) []
  let judged (verdict : LocatorVerdict) :=
    (groups.filter fun group => decide (judgeWindows group.1 group.2 = verdict)).map Prod.fst
  return {
    completeLocators := EcmaScript.toSorted compareLocators (judged .complete)
    invalidLocators := EcmaScript.toSorted compareLocators (judged .invalid) }

end OpenCorvus
