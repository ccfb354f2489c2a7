import OpenCorvus.ArtifactCatalog.ExactRead

/-!
# The pages the Host returns

For valid UTF-8, both page cutters return the same page at every page boundary: the longest run of whole code points
that fits, as the decoder gives it back.  The cutter of block windows sees enough bytes around the page, and every
block digest that it checks is the recorded one.
-/

namespace OpenCorvus

open Utf8

lemma decodeText_encode (text : List Char) :
    decodeText (Utf8.encode text) = some (Utf16.encode (dropByteOrderMark text)) := by
  rw [decodeText, decode?_eq_some_iff.mpr rfl, Option.map_some]

variable {maxBytes : ℕ}

lemma backOff_decodeText {text : List Char} (hmax : 4 ≤ maxBytes) (htext : text ≠ []) :
    Utf8.backOff decodeText (Utf8.encode text) (min (Utf8.encode text).length maxBytes) =
      some (Utf16.encode (dropByteOrderMark (Utf8.fit maxBytes text)),
        (Utf8.encode (Utf8.fit maxBytes text)).length) := by
  have hfit := length_encode_fit_le maxBytes text
  have hlength := length_encode_le_of_prefix (fit_isPrefix maxBytes text)
  exact backOff_decode (fun text => Utf16.encode (dropByteOrderMark text))
    (fit_ne_nil hmax htext) (Nat.le_min.mpr ⟨hlength, hfit⟩) (Nat.min_le_right _ _)
    (Nat.min_le_left _ _)

/-- The page of a text at a boundary between two code points. -/
lemma utf8Chunk_encode (hmax : 4 ≤ maxBytes) (front rest : List Char) (context : String) :
    utf8Chunk (Utf8.encode (front ++ rest)) (Utf8.encode front).length maxBytes context =
      .ok (Utf16.encode (dropByteOrderMark (Utf8.fit maxBytes rest)),
        (Utf8.encode front).length + (Utf8.encode (Utf8.fit maxBytes rest)).length) := by
  have hsize : (encode (front ++ rest)).length = (encode front).length + (encode rest).length := by
    rw [encode_append, List.length_append]
  rw [utf8Chunk, if_neg (by omega)]
  rcases eq_or_ne rest [] with rfl | hrest
  · have hend : (encode front).length = (encode (front ++ [])).length := by
      rw [List.append_nil]
    rw [if_pos hend]
    rfl
  · have hpos : 0 < (encode rest).length := List.length_pos_of_ne_nil (by simpa using hrest)
    have hboundary : decodeText ((encode (front ++ rest)).take (encode front).length) ≠
        none := by
      rw [encode_append, List.take_left, decodeText_encode]
      exact Option.some_ne_none _
    have hdrop : (encode (front ++ rest)).drop (encode front).length = encode rest := by
      rw [encode_append, List.drop_left]
    have hcount : min (encode (front ++ rest)).length ((encode front).length + maxBytes) -
        (encode front).length = min (encode rest).length maxBytes := by
      omega
    rw [if_neg (by omega), if_neg hboundary, hdrop, hcount, backOff_decodeText hmax hrest]
    rfl

/-- The page that the Host returns at an offset, for content that goes on with a text. -/
def pageChunk (locator : ArtifactReadLocator) (total start : ℕ) (page : List Char) :
    ArtifactReadChunk where
  locator := locator
  mediaType := artifactReadLocatorMediaType locator
  byteStart := start
  byteEnd := start + (Utf8.encode page).length
  nextOffset :=
    if start + (Utf8.encode page).length = total then none
    else some (start + (Utf8.encode page).length)
  totalBytes := total
  complete := start + (Utf8.encode page).length == total
  sha256 := artifactReadLocatorSHA256 locator
  text := some (Utf16.encode (dropByteOrderMark page))
  attachment := false

variable {locator : ArtifactReadLocator}

lemma textReadResult_encode {mediaType : String} (hmax : 4 ≤ maxBytes) (front rest : List Char) (context : String)
    (hmedia : artifactReadLocatorMediaType locator = mediaType)
    (hsha : artifactReadLocatorSHA256 locator = Sha256.sha256 (Utf8.encode (front ++ rest))) :
    textReadResult locator (Utf8.encode (front ++ rest)) mediaType (Utf8.encode front).length maxBytes context =
      .ok { chunk := pageChunk locator (Utf8.encode (front ++ rest)).length
              (Utf8.encode front).length (Utf8.fit maxBytes rest)
            attachment := none } := by
  rw [textReadResult, utf8Chunk_encode hmax front rest context, pageChunk, hmedia, hsha]
  simp only [beq_iff_eq]
  rfl

lemma le_blockCount_mul (bytes : ℕ) : bytes ≤ blockCount bytes * payloadBlockLimit := by
  simp only [blockCount, payloadBlockLimit]
  omega

lemma blockCount_le {bytes total : ℕ} (h : bytes ≤ total) : blockCount bytes ≤ blockCount total := by
  simp only [blockCount, payloadBlockLimit]
  omega

lemma take_drop_window {bytes : List UInt8} {start finish offset block : ℕ}
    (hend : min bytes.length (start + offset + block) ≤ finish) :
    (((bytes.drop start).take (finish - start)).drop offset).take block =
      (bytes.drop (start + offset)).take block := by
  rw [List.drop_take, List.take_take, List.drop_drop, List.take_eq_take_iff]
  simp only [List.length_drop]
  omega

lemma exactEngineArtifactReadWindow_eq [EcmaScript.Collation] {store : ArtifactStore}
    {row : EngineArtifactRow} {kept : Partition} {byteOffset : ℕ}
    (hrow : store.version kept row.id row.catalogRevision = some row) (hintact : row.Intact)
    (hoffset : byteOffset ≤ row.payload.length) (hmax : maxBytes ≤ maxReadBytes) :
    ∃ start length, exactEngineArtifactReadWindow store row kept byteOffset maxBytes =
        .ok ((row.payload.drop start).take length, start) ∧
      start ≤ byteOffset ∧ start + length ≤ row.payload.length ∧
      min row.payload.length (byteOffset + maxBytes) ≤ start + length := by
  obtain ⟨start, hstart⟩ : ∃ start, start = byteOffset / payloadBlockLimit * payloadBlockLimit := ⟨_, rfl⟩
  obtain ⟨requestedEnd, hrequested⟩ : ∃ requestedEnd, requestedEnd = min row.payloadBytes (byteOffset + maxBytes + 3) := ⟨_, rfl⟩
  obtain ⟨last, hlast⟩ : ∃ last, last = blockCount requestedEnd := ⟨_, rfl⟩
  obtain ⟨finish, hfinish⟩ : ∃ finish, finish = min row.payloadBytes (last * payloadBlockLimit) := ⟨_, rfl⟩
  have hsize : row.payloadBytes = row.payload.length := hintact.size
  have hstartle : start ≤ byteOffset := hstart.le.trans (Nat.div_mul_le_self _ _)
  have hlastle : requestedEnd ≤ last * payloadBlockLimit := by
    rw [hlast]
    exact le_blockCount_mul requestedEnd
  have hcover : requestedEnd ≤ finish := by
    rw [hfinish]
    omega
  have hstartfinish : start ≤ finish := by omega
  refine ⟨start, finish - start, ?_, hstartle, by omega, by omega⟩
  have hlength : ((row.payload.drop start).take (finish - start)).length = finish - start := by
    simp only [List.length_take, List.length_drop]
    omega
  have hhashes : (row.payloadBlockSHA256s.any fun hash => !Sha256.isSHA256 hash) = false := by
    rw [List.any_eq_false]
    intro hash hhash
    rw [hintact.blocks] at hhash
    have hdigest : Sha256.isSHA256 hash = true := isSHA256_of_mem_blockSHA256s hhash
    simp [hdigest]
  have hblocks : ((List.range (last - byteOffset / payloadBlockLimit)).find? fun offset =>
      (([0, 1, 2].map fun offset =>
          row.payloadBlockSHA256s[byteOffset / payloadBlockLimit + offset]?)[offset]?).join !=
        some (Sha256.sha256 ((((row.payload.drop start).take (finish - start)).drop
          (offset * payloadBlockLimit)).take payloadBlockLimit))) = none := by
    rw [List.find?_eq_none]
    intro offset hoffset'
    rw [List.mem_range] at hoffset'
    have hblock : byteOffset / payloadBlockLimit + offset < last := by omega
    -- a page with its slack touches at most three blocks
    have hthree : offset < 3 := by
      simp only [hlast, blockCount, hrequested, payloadBlockLimit, maxReadBytes] at hblock hmax
      omega
    have hrecorded : row.payloadBlockSHA256s[byteOffset / payloadBlockLimit + offset]? =
        some (Sha256.sha256 ((row.payload.drop ((byteOffset / payloadBlockLimit + offset) *
          payloadBlockLimit)).take payloadBlockLimit)) := by
      rw [hintact.blocks]
      have hcount : blockCount requestedEnd ≤ blockCount row.payload.length := blockCount_le (by omega)
      exact getElem?_blockSHA256s row.payload (by omega)
    have hposition : start + offset * payloadBlockLimit =
        (byteOffset / payloadBlockLimit + offset) * payloadBlockLimit := by
      rw [hstart, Nat.add_mul]
    have hbytes : (((row.payload.drop start).take (finish - start)).drop
          (offset * payloadBlockLimit)).take payloadBlockLimit =
        (row.payload.drop ((byteOffset / payloadBlockLimit + offset) *
          payloadBlockLimit)).take payloadBlockLimit := by
      have hbounded : (byteOffset / payloadBlockLimit + offset) * payloadBlockLimit + payloadBlockLimit ≤
          last * payloadBlockLimit := by
        rw [← Nat.succ_mul]
        exact Nat.mul_le_mul_right _ hblock
      -- the window ends with a block or with the payload
      have hend : min row.payload.length (start + offset * payloadBlockLimit + payloadBlockLimit) ≤ finish := by
        rw [hposition, hfinish, hsize]
        exact Nat.le_min.mpr ⟨Nat.min_le_left _ _, (Nat.min_le_right _ _).trans hbounded⟩
      rw [take_drop_window hend, hposition]
    have hcovered : (([0, 1, 2].map fun offset =>
        row.payloadBlockSHA256s[byteOffset / payloadBlockLimit + offset]?)[offset]?).join =
        row.payloadBlockSHA256s[byteOffset / payloadBlockLimit + offset]? := by
      have hcases : offset = 0 ∨ offset = 1 ∨ offset = 2 := by omega
      rcases hcases with rfl | rfl | rfl <;> rfl
    rw [hcovered, hrecorded, hbytes]
    simp
  have hselected : (store.version kept row.id row.catalogRevision).filter
      (fun selected => selected.taskID == row.taskID) = some row := by
    rw [hrow]
    simp
  have hindex := hintact.blockIndex
  unfold exactEngineArtifactReadWindow
  simp only [← hrequested, ← hstart, ← hlast, ← hfinish]
  rw [if_neg (by omega), hselected]
  simp only [hlength, ne_eq, not_true_eq_false, if_false, hhashes, Bool.false_eq_true, ← hindex]
  simp only [pure, Except.pure]
  rw [hblocks]

lemma boundedEngineArtifactTextReadResult_encode {start length : ℕ} {row : EngineArtifactRow}
    {front rest : List Char} (hmax : 4 ≤ maxBytes) (hpayload : row.payload = Utf8.encode (front ++ rest))
    (hsize : row.payloadBytes = row.payload.length)
    (hmedia : artifactReadLocatorMediaType locator = "application/json")
    (hsha : artifactReadLocatorSHA256 locator = row.payloadSHA256) (hstart : start ≤ (Utf8.encode front).length)
    (hend : start + length ≤ row.payload.length)
    (hcover : min row.payload.length ((Utf8.encode front).length + maxBytes) ≤ start + length) :
    boundedEngineArtifactTextReadResult locator row ((row.payload.drop start).take length) start
        (Utf8.encode front).length maxBytes =
      .ok { chunk := pageChunk locator row.payload.length (Utf8.encode front).length
              (Utf8.fit maxBytes rest)
            attachment := none } := by
  have htotal : row.payload.length = (encode front).length + (encode rest).length := by
    rw [hpayload, encode_append, List.length_append]
  set relative := (encode front).length - start with hrelative
  have hwindow : ((row.payload.drop start).take length).length = length := by
    simp only [List.length_take, List.length_drop]
    omega
  have hrest : ((row.payload.drop start).take length).drop relative =
      (encode rest).take (length - relative) := by
    have hposition : start + relative = (encode front).length := by omega
    rw [List.drop_take, List.drop_drop, hposition, hpayload, encode_append, List.drop_left]
  have hhead : ((row.payload.drop start).take length)[relative]?.any isContinuation = false := by
    have hfirst : ((row.payload.drop start).take length)[relative]? =
        ((encode rest).take (length - relative))[0]? := by
      rw [← hrest, List.getElem?_drop, Nat.add_zero]
    have hcontinuation := isContinuation_head_encode rest
    rw [hfirst, List.getElem?_take]
    split
    · exact hcontinuation
    · rfl
  have hlimit : min length (relative + maxBytes) - relative = min (encode rest).length maxBytes := by
    omega
  have hpage : (backOff decodeText (((row.payload.drop start).take length).drop relative)
      (min length (relative + maxBytes) - relative)).getD ([], 0) =
      (Utf16.encode (dropByteOrderMark (fit maxBytes rest)),
        (encode (fit maxBytes rest)).length) := by
    rw [hrest, backOff_take (by omega), hlimit]
    rcases eq_or_ne rest [] with rfl | hne
    · rfl
    · rw [backOff_decodeText hmax hne, Option.getD_some]
  have hempty : (encode (fit maxBytes rest)).length = 0 →
      ¬(encode front).length < row.payloadBytes := by
    intro hzero
    have hnil : fit maxBytes rest = [] :=
      encode_eq_nil.mp (List.eq_nil_of_length_eq_zero hzero)
    have hover : rest = [] := by
      by_contra hne
      exact fit_ne_nil hmax hne hnil
    simp only [hover, encode_nil, List.length_nil] at htotal
    omega
  have hfinish : start + (relative + (encode (fit maxBytes rest)).length) =
      (encode front).length + (encode (fit maxBytes rest)).length := by
    omega
  unfold boundedEngineArtifactTextReadResult
  simp only [hwindow, ← hrelative, hhead, Bool.false_eq_true, if_false, hpage, hfinish]
  rw [if_neg (by rintro (hlt | ⟨hzero, hlt⟩); exacts [by omega, hempty hzero hlt])]
  simp only [pageChunk, hmedia, hsha, hsize, beq_iff_eq]
  rfl

def ArtifactStore.Holds [EcmaScript.Collation] (store : ArtifactStore) (taskID : String)
    (bytes : List UInt8) : ArtifactReadLocator → Prop
  | .engineArtifact artifactID catalogRevision expectedSHA256 =>
    ∃ kept row, store.version kept artifactID catalogRevision = some row ∧
      (kept = .history → store.version .current artifactID catalogRevision = none) ∧
      row.id = artifactID ∧ row.catalogRevision = catalogRevision ∧ row.taskID = taskID ∧
      row.Intact ∧ row.payload = bytes ∧ expectedSHA256 = row.payloadSHA256
  | .taskArtifactSnapshot snapshot =>
    snapshot.taskID = taskID ∧ store.manifestFile snapshot = some bytes ∧
      snapshot.manifestSHA256 = Sha256.sha256 bytes
  | .taskArtifactResource ref =>
    ref.snapshot.taskID = taskID ∧ store.resourceFile ref = some bytes ∧
      ref.bytes = bytes.length ∧ ref.sha256 = Sha256.sha256 bytes ∧
      isDecodableText ref.mediaType ref.path = true

section

variable [EcmaScript.Collation] {store : ArtifactStore} {taskID : String} {maxBytes : ℕ}
  {locator : ArtifactReadLocator}

lemma ArtifactStore.Holds.sha256 {bytes : List UInt8} (h : store.Holds taskID bytes locator) :
    artifactReadLocatorSHA256 locator = Sha256.sha256 bytes := by
  cases locator with
  | engineArtifact =>
    obtain ⟨_, _, -, -, -, -, -, hintact, hpayload, hsha⟩ := h
    rw [artifactReadLocatorSHA256, hsha, hintact.digest, hpayload]
  | taskArtifactSnapshot => exact h.2.2
  | taskArtifactResource => exact h.2.2.2.1

lemma ArtifactStore.Holds.size {bytes : List UInt8} {size : ℕ}
    (h : store.Holds taskID bytes locator) (hsize : artifactReadLocatorBytes locator = some size) :
    size = bytes.length := by
  cases locator with
  | engineArtifact | taskArtifactSnapshot => simp [artifactReadLocatorBytes] at hsize
  | taskArtifactResource ref =>
    have href : ref.bytes = size := Option.some.inj hsize
    rw [← href, h.2.2.1]

lemma exactEngineArtifactReadIndex_eq {kept : Partition} {row : EngineArtifactRow}
    (hrow : store.version kept row.id row.catalogRevision = some row)
    (hcurrent : kept = .history → store.version .current row.id row.catalogRevision = none)
    (hintact : row.Intact) :
    exactEngineArtifactReadIndex store row.taskID row.id row.catalogRevision row.payloadSHA256 =
      .ok (row, kept) := by
  have hidentity : assertEngineArtifactCatalogIndexIdentity row = .ok () := by
    rw [assertEngineArtifactCatalogIndexIdentity, if_neg (not_not.mpr hintact.metadata)]
    rfl
  unfold exactEngineArtifactReadIndex
  cases kept with
  | current =>
    simp only [hrow, Option.filter_some, beq_self_eq_true, Bool.and_self, if_true, hidentity]
    rfl
  | history =>
    simp only [hcurrent rfl, hrow, Option.filter_none, Option.filter_some, beq_self_eq_true,
      Bool.and_self, if_true, Option.map_some, hidentity]
    rfl

/-- At every boundary between two code points the Host returns the page that fits. -/
theorem readTaskArtifact_eq {front rest : List Char} (hparses : locator.parses = true)
    (hstored : store.Holds taskID (Utf8.encode (front ++ rest)) locator) (hmax : 4 ≤ maxBytes)
    (hlimit : maxBytes ≤ maxReadBytes) :
    readTaskArtifact store taskID
        { locator, byteOffset := (Utf8.encode front).length, maxBytes } =
      .ok { chunk := pageChunk locator (Utf8.encode (front ++ rest)).length
              (Utf8.encode front).length (Utf8.fit maxBytes rest)
            attachment := none } := by
  have hsha := hstored.sha256
  have hrequest : parseReadInput { locator, byteOffset := (encode front).length, maxBytes } =
      .ok { locator, byteOffset := (encode front).length, maxBytes } := by
    simp only [parseReadInput, parseLocator, hparses, if_true, parseMaxBytes]
    rw [if_neg (by omega)]
    rfl
  unfold readTaskArtifact
  rw [hrequest]
  cases locator with
  | engineArtifact =>
    obtain ⟨_, row, hrow, hcurrent, rfl, rfl, rfl, hintact, hpayload, rfl⟩ := hstored
    have hoffset : (encode front).length ≤ row.payload.length := by
      rw [hpayload, encode_append, List.length_append]
      omega
    obtain ⟨_, _, hwindow, hstart, hend, hcover⟩ :=
      exactEngineArtifactReadWindow_eq hrow hintact hoffset hlimit
    have hindex := exactEngineArtifactReadIndex_eq hrow hcurrent hintact
    have hsha : artifactReadLocatorSHA256 (.engineArtifact row.id row.catalogRevision row.payloadSHA256) =
        row.payloadSHA256 := rfl
    have hpage := boundedEngineArtifactTextReadResult_encode hmax hpayload hintact.size rfl hsha hstart hend hcover
    simp only [bind, Except.bind, hindex, hwindow]
    rw [hpage, ← hpayload]
  | taskArtifactSnapshot snapshot =>
    obtain ⟨htask, hfile, hdigest⟩ := hstored
    have hread : readTaskArtifactSnapshotManifest store snapshot = .ok (encode (front ++ rest)) := by
      rw [readTaskArtifactSnapshotManifest, hfile]
      simp only [hdigest, ne_eq, not_true_eq_false, if_false]
      rfl
    simp only [bind, Except.bind, htask, ne_eq, not_true_eq_false, if_false, hread]
    exact textReadResult_encode hmax front rest _ rfl hsha
  | taskArtifactResource ref =>
    obtain ⟨htask, hfile, hbytes, hdigest, htext⟩ := hstored
    have hread : readTaskArtifactRef store ref = .ok (encode (front ++ rest)) := by
      rw [readTaskArtifactRef, hfile]
      simp only [hbytes, hdigest, ne_eq, not_true_eq_false, or_self, if_false]
      rfl
    simp only [bind, Except.bind, htask, ne_eq, not_true_eq_false, if_false, hread, htext, if_true]
    exact textReadResult_encode hmax front rest _ rfl hsha

end

end OpenCorvus
