import OpenCorvus.ArtifactCatalog.ExactReadPages
import OpenCorvus.ArtifactCatalog.ReadAudit

/-!
# Exact reads are lossless

The decoder drops a byte order mark at the start of every page, and the client then finds fewer
bytes than the page declares.  Content whose pages do not start with that character is returned
byte by byte and its read is audited as complete; any other content cannot be read at all.
-/

namespace OpenCorvus

open List Utf8 ExactReadState ArtifactReadLocator

/-! ## The claim about one read -/

/-- Pages that follow one another from one offset to another. -/
def Contiguous : ℕ → List ArtifactReadWindowFact → ℕ → Prop
  | start, [], stop => start = stop
  | start, fact :: facts, stop =>
    fact.chunk.byteStart = start ∧ Contiguous fact.chunk.byteEnd facts stop

/-- The read of a locator ends, returns exactly the content, over non-empty contiguous pages, and
the audit of its requests and pages reports it as complete. -/
def LosslessRead [EcmaScript.Collation] (host : ArtifactHost) (locator : ArtifactReadLocator)
    (bytes : List UInt8) (maxBytes : ℕ) : Prop :=
  ∃ windows, (∃ enough, ∀ fuel, enough ≤ fuel → readExactArtifact host locator maxBytes fuel =
      some (.ok ({ locator
                   mediaType := artifactReadLocatorMediaType locator
                   bytes
                   sha256 := artifactReadLocatorSHA256 locator }, windows))) ∧
    (bytes ≠ [] → ∀ fact ∈ windows, fact.chunk.byteStart < fact.chunk.byteEnd) ∧
    Contiguous 0 windows bytes.length ∧
    auditArtifactReadLocatorsFromFacts windows = .ok { completeLocators := [locator], invalidLocators := [] }

/-- A page that the decoder gives back whole. -/
def KeepsPage (page : List Char) : Prop :=
  page.head? ≠ some byteOrderMark

instance (page : List Char) : Decidable (KeepsPage page) :=
  inferInstanceAs (Decidable (_ ≠ _))

lemma dropByteOrderMark_of_keeps {page : List Char} (h : KeepsPage page) : dropByteOrderMark page = page := by
  cases page with
  | nil => rfl
  | cons =>
    rw [dropByteOrderMark, if_neg]
    rintro rfl
    exact h rfl

lemma length_encode_dropByteOrderMark_lt {page : List Char} (h : ¬KeepsPage page) :
    (Utf8.encode (dropByteOrderMark page)).length < (Utf8.encode page).length := by
  cases page with
  | nil => exact absurd (by simp [KeepsPage]) h
  | cons c =>
    have hc : c = byteOrderMark := by
      by_contra hne
      exact h (by simpa [KeepsPage] using hne)
    have hsize : 0 < c.utf8Size := Char.utf8Size_pos c
    rw [dropByteOrderMark, if_pos hc, encode_cons, length_append, String.length_utf8EncodeChar]
    omega

lemma length_encode_dropByteOrderMark_le (page : List Char) :
    (Utf8.encode (dropByteOrderMark page)).length ≤ (Utf8.encode page).length := by
  by_cases h : KeepsPage page
  · rw [dropByteOrderMark_of_keeps h]
  · exact (length_encode_dropByteOrderMark_lt h).le

lemma isMediaType_json : isMediaType "application/json" = true := by
  decide

variable {locator : ArtifactReadLocator}

lemma isMediaType_of_parses (h : locator.parses = true) :
    isMediaType (artifactReadLocatorMediaType locator) = true := by
  cases locator with
  | engineArtifact | taskArtifactSnapshot => exact isMediaType_json
  | taskArtifactResource =>
    simp only [parses, Bool.and_eq_true] at h
    exact h.1.2

lemma isSHA256_of_parses (h : locator.parses = true) :
    Sha256.isSHA256 (artifactReadLocatorSHA256 locator) = true := by
  cases locator with
  | engineArtifact | taskArtifactResource =>
    simp only [parses, Bool.and_eq_true] at h
    exact h.2
  | taskArtifactSnapshot =>
    simp only [parses, TaskArtifactSnapshotIdentity.parses, Bool.and_eq_true] at h
    exact h.2

/-! ## One page at the client -/

def pageFact (locator : ArtifactReadLocator) (maxBytes total start : ℕ) (page : List Char) :
    ArtifactReadWindowFact where
  request := { locator, byteOffset := start, maxBytes }
  chunk := pageChunk locator total start page

def ExactReadState.after (state : ExactReadState) (locator : ArtifactReadLocator)
    (maxBytes total : ℕ) (page : List Char) : ExactReadState where
  byteOffset := state.byteOffset + (Utf8.encode page).length
  streamTotalBytes := some total
  chunks := state.chunks ++ [Utf8.encode page]
  windows := state.windows ++ [pageFact locator maxBytes total state.byteOffset page]

section

variable {locator : ArtifactReadLocator} {maxBytes total : ℕ} {state : ExactReadState}
  {page : List Char}

lemma parseChunk_page (hparses : locator.parses = true) (hlimit : maxBytes ≤ maxReadBytes)
    (hfit : (Utf8.encode page).length ≤ maxBytes) (start : ℕ) :
    parseChunk (pageChunk locator total start page) = .ok (pageChunk locator total start page) := by
  have hmedia : isMediaType (artifactReadLocatorMediaType locator) = true :=
    isMediaType_of_parses hparses
  have hsha : Sha256.isSHA256 (artifactReadLocatorSHA256 locator) = true :=
    isSHA256_of_parses hparses
  have htext : (Utf16.encode (dropByteOrderMark page)).length ≤ maxReadBytes := by
    have hunits := Utf16.length_encode_le (dropByteOrderMark page)
    have hkept := length_encode_dropByteOrderMark_le page
    omega
  simp only [parseChunk, pageChunk, hparses, hmedia, hsha, Option.all_some, htext, decide_true,
    Bool.and_self, if_true]
  rfl

lemma transportedBytes_page (hfit : (Utf8.encode page).length ≤ maxBytes) (start : ℕ) :
    transportedBytes locator maxBytes (pageChunk locator total start page) none =
      .ok (Utf8.encode (dropByteOrderMark page)) := by
  have hkept := length_encode_dropByteOrderMark_le page
  simp only [transportedBytes, pageChunk, Bool.false_eq_true, if_false, Utf16.toUtf8_encode]
  rw [if_neg (by omega)]
  rfl

variable (hparses : locator.parses = true) (hlimit : maxBytes ≤ maxReadBytes)
  (hfit : (Utf8.encode page).length ≤ maxBytes)
  (hend : state.byteOffset + (Utf8.encode page).length ≤ total)
  (htotal : ∀ size ∈ state.streamTotalBytes, size = total)
  (hsize : ∀ size ∈ artifactReadLocatorBytes locator, size = total)
  (hadvance : page = [] → state.byteOffset = total)

include hparses hlimit hfit hend htotal hsize hadvance

lemma acceptChunk_page_eq :
    acceptChunk locator maxBytes state
        { chunk := pageChunk locator total state.byteOffset page, attachment := none } =
      if (Utf8.encode (dropByteOrderMark page)).length ≠ (Utf8.encode page).length then
        .error "artifact exact-read: transported bytes do not match the declared byte range"
      else
        .ok ({ state.after locator maxBytes total page with
                chunks := state.chunks ++ [Utf8.encode (dropByteOrderMark page)] },
          state.byteOffset + (Utf8.encode page).length == total) := by
  have hstream : state.streamTotalBytes.getD total = total := by
    rcases hstate : state.streamTotalBytes with _ | size
    · rfl
    · exact htotal size hstate
  have hbytes : (artifactReadLocatorBytes locator).any (fun bytes => total != bytes) = false := by
    rcases hlocator : artifactReadLocatorBytes locator with _ | size
    · rfl
    · have hsame := hsize size hlocator
      simp [hsame]
  have hrange : state.byteOffset + (encode page).length - state.byteOffset = (encode page).length := by
    omega
  have hkeptless : ¬total < state.byteOffset + (encode page).length := by omega
  have hparse : parseChunk (pageChunk locator total state.byteOffset page) =
      .ok (pageChunk locator total state.byteOffset page) :=
    parseChunk_page hparses hlimit hfit state.byteOffset
  have htransport : transportedBytes locator maxBytes (pageChunk locator total state.byteOffset page) none =
      .ok (encode (dropByteOrderMark page)) :=
    transportedBytes_page hfit state.byteOffset
  unfold acceptChunk
  simp only [hparse, bind, Except.bind, htransport]
  simp only [pageChunk, ne_eq, not_true_eq_false, if_false, hstream, hbytes, hrange, hkeptless,
    Bool.false_eq_true, false_or, Nat.not_lt_of_le (Nat.le_add_right _ _)]
  split
  · rfl
  · by_cases hlast : state.byteOffset + (encode page).length = total
    · simp [hlast, ExactReadState.after, pageFact, pageChunk, pure, Except.pure]
    · have hpos : ¬state.byteOffset + (encode page).length ≤ state.byteOffset := by
        intro hle
        have hnil : page = [] :=
          encode_eq_nil.mp (eq_nil_of_length_eq_zero (by omega))
        have hover := hadvance hnil
        omega
      have hless : ¬total ≤ state.byteOffset + (encode page).length := by omega
      simp [hlast, hless, hpos, ExactReadState.after, pageFact, pageChunk, pure, Except.pure]

lemma acceptChunk_page (hkeeps : KeepsPage page) :
    acceptChunk locator maxBytes state
        { chunk := pageChunk locator total state.byteOffset page, attachment := none } =
      .ok (state.after locator maxBytes total page,
        state.byteOffset + (Utf8.encode page).length == total) := by
  rw [acceptChunk_page_eq hparses hlimit hfit hend htotal hsize hadvance,
    dropByteOrderMark_of_keeps hkeeps, if_neg (not_not.mpr rfl)]
  rfl

lemma acceptChunk_page_of_lost (hkeeps : ¬KeepsPage page) :
    acceptChunk locator maxBytes state
        { chunk := pageChunk locator total state.byteOffset page, attachment := none } =
      .error "artifact exact-read: transported bytes do not match the declared byte range" := by
  have hlost := length_encode_dropByteOrderMark_lt hkeeps
  rw [acceptChunk_page_eq hparses hlimit hfit hend htotal hsize hadvance, if_pos hlost.ne]

end

/-! ## The whole run -/

/-- The requests and pages of a run from an offset on. -/
def pageFacts (locator : ArtifactReadLocator) (maxBytes total : ℕ) :
    ℕ → List (List Char) → List ArtifactReadWindowFact
  | _, [] => []
  | start, page :: later =>
    pageFact locator maxBytes total start page ::
      pageFacts locator maxBytes total (start + (Utf8.encode page).length) later

def ServesPages (host : ArtifactHost) (locator : ArtifactReadLocator) (content : List Char)
    (maxBytes : ℕ) : Prop :=
  ∀ call front rest, front ++ rest = content →
    host call { locator, byteOffset := (Utf8.encode front).length, maxBytes } =
      .ok { chunk := pageChunk locator (Utf8.encode content).length (Utf8.encode front).length
              (Utf8.fit maxBytes rest)
            attachment := none }

section

variable {host : ArtifactHost} {locator : ArtifactReadLocator} {content : List Char} {maxBytes : ℕ}

section

variable (hserves : ServesPages host locator content maxBytes) (hparses : locator.parses = true)
  (hlimit : maxBytes ≤ maxReadBytes)
  (hsize : ∀ size ∈ artifactReadLocatorBytes locator, size = (Utf8.encode content).length)

include hserves

lemma served_page {front page rest : List Char} {state : ExactReadState}
    (hcontent : front ++ (page ++ rest) = content) (hoffset : state.byteOffset = (Utf8.encode front).length)
    (fits : Utf8.fit maxBytes (page ++ rest) = page) :
    host state.windows.length { locator, byteOffset := state.byteOffset, maxBytes } =
        .ok { chunk := pageChunk locator (Utf8.encode content).length state.byteOffset page, attachment := none } ∧
      (Utf8.encode page).length ≤ maxBytes ∧
      state.byteOffset + (Utf8.encode page).length + (Utf8.encode rest).length = (Utf8.encode content).length := by
  have hread := hserves state.windows.length front (page ++ rest) hcontent
  have hfit := length_encode_fit_le maxBytes (page ++ rest)
  rw [fits] at hread hfit
  rw [← hoffset] at hread
  refine ⟨hread, hfit, ?_⟩
  rw [hoffset, ← hcontent, encode_append, encode_append, length_append, length_append, Nat.add_assoc]

include hparses hlimit hsize

lemma readChunks_eq_ok {rest : List Char} {cut : List (List Char)} (hcut : Utf8.Cut maxBytes rest cut)
    (hkeeps : ∀ page ∈ cut, KeepsPage page) (front : List Char) (state : ExactReadState) (fuel : ℕ)
    (hcontent : front ++ rest = content) (hoffset : state.byteOffset = (Utf8.encode front).length)
    (htotal : ∀ size ∈ state.streamTotalBytes, size = (Utf8.encode content).length)
    (hfuel : cut.length ≤ fuel) :
    readChunks host locator maxBytes fuel state =
      some (.ok { byteOffset := (Utf8.encode content).length
                  streamTotalBytes := some (Utf8.encode content).length
                  chunks := state.chunks ++ cut.map Utf8.encode
                  windows := state.windows ++ pageFacts locator maxBytes
                    (Utf8.encode content).length state.byteOffset cut }) := by
  induction hcut generalizing front state fuel with
    obtain ⟨fuel, rfl⟩ : ∃ fuel', fuel = fuel' + 1 := ⟨fuel - 1, by simp at hfuel; omega⟩
  | @last page fits =>
    rw [← List.append_nil page] at hcontent fits
    obtain ⟨hread, hfit, hend⟩ := served_page hserves hcontent hoffset (by rwa [List.append_nil] at fits ⊢)
    simp only [encode_nil, length_nil, Nat.add_zero] at hend
    have haccept := acceptChunk_page hparses hlimit hfit hend.le htotal hsize
      (fun hnil => by rw [hnil] at hend; simpa using hend) (hkeeps page (mem_singleton_self _))
    rw [readChunks, hread]
    simp only [haccept, hend, beq_self_eq_true]
    simp [ExactReadState.after, pageFacts, hend]
  | @next page rest _ page_ne rest_ne fits _ ih =>
    obtain ⟨hread, hfit, _⟩ := served_page hserves hcontent hoffset fits
    have hmore : 0 < (encode rest).length := length_pos_of_ne_nil (by simpa using rest_ne)
    have haccept := acceptChunk_page hparses hlimit hfit (by omega) htotal hsize
      (fun hnil => absurd hnil page_ne) (hkeeps page mem_cons_self)
    have hopen : (state.byteOffset + (encode page).length == (encode content).length) = false := by
      simp only [beq_eq_false_iff_ne]
      omega
    have hnext := ih (fun other hother => hkeeps other (mem_cons_of_mem page hother))
      (front ++ page) (state.after locator maxBytes (encode content).length page) fuel
      (by rw [append_assoc, hcontent])
      (by rw [ExactReadState.after, hoffset, encode_append, length_append])
      (by simp [ExactReadState.after]) (by simpa using hfuel)
    rw [readChunks, hread]
    simp only [haccept, hopen, hnext]
    simp [ExactReadState.after, pageFacts]

lemma readChunks_ne_ok {rest : List Char} {cut : List (List Char)} (hcut : Utf8.Cut maxBytes rest cut)
    (hlost : ∃ page ∈ cut, ¬KeepsPage page) (front : List Char) (state : ExactReadState)
    (hcontent : front ++ rest = content) (hoffset : state.byteOffset = (Utf8.encode front).length)
    (htotal : ∀ size ∈ state.streamTotalBytes, size = (Utf8.encode content).length) (fuel : ℕ)
    (final : ExactReadState) : readChunks host locator maxBytes fuel state ≠ some (.ok final) := by
  induction hcut generalizing front state fuel with
  | @last page fits =>
    cases fuel with
    | zero => simp [readChunks]
    | succ =>
      have hpage : ¬KeepsPage page := by
        obtain ⟨_, hother, hbad⟩ := hlost
        rwa [mem_singleton.mp hother] at hbad
      rw [← List.append_nil page] at hcontent fits
      obtain ⟨hread, hfit, hend⟩ := served_page hserves hcontent hoffset (by rwa [List.append_nil] at fits ⊢)
      simp only [encode_nil, length_nil, Nat.add_zero] at hend
      have hrefuse := acceptChunk_page_of_lost hparses hlimit hfit hend.le htotal hsize
        (fun hnil => by rw [hnil] at hend; simpa using hend) hpage
      rw [readChunks, hread]
      simp [hrefuse]
  | @next page rest later page_ne rest_ne fits _ ih =>
    cases fuel with
    | zero => simp [readChunks]
    | succ fuel =>
      obtain ⟨hread, hfit, _⟩ := served_page hserves hcontent hoffset fits
      have hmore : 0 < (encode rest).length := length_pos_of_ne_nil (by simpa using rest_ne)
      rw [readChunks, hread]
      by_cases hpage : KeepsPage page
      · have haccept := acceptChunk_page hparses hlimit hfit (by omega) htotal hsize
          (fun hnil => absurd hnil page_ne) hpage
        have hopen : (state.byteOffset + (encode page).length == (encode content).length) = false := by
          simp only [beq_eq_false_iff_ne]
          omega
        have hlater : ∃ other ∈ later, ¬KeepsPage other := by
          obtain ⟨other, hother, hbad⟩ := hlost
          rcases mem_cons.mp hother with rfl | hother
          · exact absurd hpage hbad
          · exact ⟨other, hother, hbad⟩
        have hnext := ih hlater (front ++ page) (state.after locator maxBytes (encode content).length page)
          (by rw [append_assoc, hcontent])
          (by rw [ExactReadState.after, hoffset, encode_append, length_append])
          (by simp [ExactReadState.after]) fuel
        simp only [haccept, hopen]
        exact hnext
      · have hrefuse := acceptChunk_page_of_lost hparses hlimit hfit (by omega) htotal hsize
          (fun hnil => absurd hnil page_ne) hpage
        simp [hrefuse]

end

end

/-! ## The audit of a run -/

section

variable {locator : ArtifactReadLocator} {maxBytes total start : ℕ} {rest : List Char}
  {cut : List (List Char)}

lemma contiguous_pageFacts (start : ℕ) (cut : List (List Char)) :
    Contiguous start (pageFacts locator maxBytes total start cut)
      (start + (Utf8.encode cut.flatten).length) := by
  induction cut generalizing start with
  | nil => rfl
  | cons page _ ih =>
    refine ⟨rfl, ?_⟩
    have hnext := ih (start + (encode page).length)
    rwa [flatten_cons, encode_append, length_append, ← Nat.add_assoc]

lemma exists_page_of_mem_pageFacts {fact : ArtifactReadWindowFact}
    (hcut : Utf8.Cut maxBytes rest cut) (hend : start + (Utf8.encode rest).length = total)
    (hfact : fact ∈ pageFacts locator maxBytes total start cut) :
    ∃ offset page, fact = pageFact locator maxBytes total offset page ∧ page ∈ cut ∧
      (Utf8.encode page).length ≤ maxBytes ∧ offset + (Utf8.encode page).length ≤ total ∧
      (page = [] → rest = [] ∧ offset = total) := by
  induction hcut generalizing start with
  | @last page fits =>
    have hfit := length_encode_fit_le maxBytes page
    rw [fits] at hfit
    refine ⟨start, page, mem_singleton.mp hfact, mem_singleton_self _, hfit, hend.le,
      fun hnil => ⟨hnil, ?_⟩⟩
    rw [hnil] at hend
    simpa using hend
  | @next page rest _ page_ne rest_ne fits _ ih =>
    rw [encode_append, length_append, ← Nat.add_assoc] at hend
    rcases mem_cons.mp hfact with rfl | hlater
    · have hfit := length_encode_fit_le maxBytes (page ++ rest)
      rw [fits] at hfit
      exact ⟨start, page, rfl, mem_cons_self, hfit, by omega, fun hnil => absurd hnil page_ne⟩
    · obtain ⟨offset, other, hsame, hmem, hfit, hwithin, hnil⟩ := ih hend hlater
      exact ⟨offset, other, hsame, mem_cons_of_mem page hmem, hfit, hwithin,
        fun h => absurd (hnil h).1 rest_ne⟩

lemma invalidWindow_pageFact {offset : ℕ} {page : List Char} (hkeeps : KeepsPage page)
    (hfit : (Utf8.encode page).length ≤ maxBytes) (hwithin : offset + (Utf8.encode page).length ≤ total)
    (hnil : page = [] → offset = total) :
    invalidWindow locator total (pageFact locator maxBytes total offset page) = false := by
  have hfits : ¬maxBytes < (encode page).length := by omega
  have hover : ¬total < offset + (encode page).length := by omega
  simp only [invalidWindow, transportDisagrees, pageFact, pageChunk, Utf16.toUtf8_encode,
    dropByteOrderMark_of_keeps hkeeps]
  by_cases hlast : offset + (encode page).length = total
  · have hback : total - offset = (encode page).length := by omega
    have hle : offset ≤ total := by omega
    simp [hlast, hback, hfits, hle]
  · have hpage : page ≠ [] := by
      rintro rfl
      have hsame := hnil rfl
      simp only [encode_nil, length_nil, Nat.add_zero] at hlast
      exact hlast hsame
    have hpos : 0 < (encode page).length := length_pos_of_ne_nil (by simpa using hpage)
    have hempty : ¬offset + (encode page).length ≤ offset := by omega
    have hless : ¬total ≤ offset + (encode page).length := by omega
    simp only [hfits, hover, hempty, hless]
    simp [hlast]

lemma exists_pageFact_covering {byte : ℕ} (hle : start ≤ byte) (hlt : byte < start + (Utf8.encode cut.flatten).length) :
    ∃ fact ∈ pageFacts locator maxBytes total start cut, fact.chunk.byteStart ≤ byte ∧ byte < fact.chunk.byteEnd := by
  induction cut generalizing start with
  | nil => exact absurd hle (not_le.mpr hlt)
  | cons page _ ih =>
    rw [flatten_cons, encode_append, length_append, ← Nat.add_assoc] at hlt
    rw [pageFacts]
    by_cases hinside : byte < start + (encode page).length
    · exact ⟨_, mem_cons_self, hle, hinside⟩
    · obtain ⟨fact, hfact, hrange⟩ := ih (not_lt.mp hinside) hlt
      exact ⟨fact, mem_cons_of_mem _ hfact, hrange⟩

lemma exists_complete_pageFact (hcut : Utf8.Cut maxBytes rest cut)
    (hend : start + (Utf8.encode rest).length = total) :
    ∃ fact ∈ pageFacts locator maxBytes total start cut, fact.chunk.complete = true ∧ fact.chunk.byteEnd = total := by
  induction hcut generalizing start with
  | last => simp [pageFacts, pageFact, pageChunk, hend]
  | @next _ _ _ _ _ _ _ ih =>
    rw [encode_append, length_append, ← Nat.add_assoc] at hend
    obtain ⟨fact, hfact, hlast⟩ := ih hend
    exact ⟨fact, mem_cons_of_mem _ hfact, hlast⟩

lemma completelyRead_pageFacts (hcut : Utf8.Cut maxBytes rest cut)
    (hend : 0 + (Utf8.encode rest).length = total) (hkeeps : ∀ page ∈ cut, KeepsPage page)
    (hlocators : ∀ fact ∈ pageFacts locator maxBytes total 0 cut, fact.request.locator = locator) :
    CompletelyRead (pageFacts locator maxBytes total 0 cut) locator := by
  have hconsistent : ∀ fact ∈ pageFacts locator maxBytes total 0 cut, ConsistentWindow locator total fact := by
    intro fact hfact
    obtain ⟨_, page, rfl, hmem, hfit, hwithin, hnil⟩ := exists_page_of_mem_pageFacts hcut hend hfact
    exact invalidWindow_eq_false_iff.mp
      (invalidWindow_pageFact (hkeeps page hmem) hfit hwithin fun h => (hnil h).2)
  refine ⟨total, fun fact hfact _ => hconsistent fact hfact, fun byte => ⟨?_, fun hlt => ?_⟩, ?_⟩
  · rintro ⟨fact, hfact, -, -, hlt⟩
    exact hlt.trans_le (hconsistent fact hfact).within
  · rw [← hend, ← hcut.flatten] at hlt
    obtain ⟨fact, hfact, hrange⟩ := exists_pageFact_covering (Nat.zero_le byte) hlt
    exact ⟨fact, hfact, hlocators fact hfact, hrange⟩
  · obtain ⟨fact, hfact, hlast⟩ := exists_complete_pageFact hcut hend
    exact ⟨fact, hfact, hlocators fact hfact, hlast⟩

lemma auditArtifactReadLocatorsFromFacts_pageFacts [EcmaScript.Collation]
    (hparses : locator.parses = true) (hmax : 1 ≤ maxBytes) (hlimit : maxBytes ≤ maxReadBytes)
    (hcut : Utf8.Cut maxBytes rest cut) (hend : (Utf8.encode rest).length = total)
    (hkeeps : ∀ page ∈ cut, KeepsPage page) :
    auditArtifactReadLocatorsFromFacts (pageFacts locator maxBytes total 0 cut) =
      .ok { completeLocators := [locator], invalidLocators := [] } := by
  have hzero : 0 + (encode rest).length = total := by rw [Nat.zero_add, hend]
  have hparse : ∀ fact ∈ pageFacts locator maxBytes total 0 cut, fact.Parses := by
    intro fact hfact
    obtain ⟨offset, page, rfl, -, hfit, -, -⟩ := exists_page_of_mem_pageFacts hcut hzero hfact
    have hrequest : parseReadInput { locator, byteOffset := offset, maxBytes } =
        .ok { locator, byteOffset := offset, maxBytes } := by
      simp only [parseReadInput, parseLocator, hparses, if_true, parseMaxBytes]
      rw [if_neg (by omega)]
      rfl
    refine ⟨pageChunk locator total offset page, ?_⟩
    rw [pageFact, hrequest]
    exact parseChunk_page hparses hlimit hfit offset
  have hlocators : ∀ fact ∈ pageFacts locator maxBytes total 0 cut, fact.request.locator = locator := by
    intro fact hfact
    obtain ⟨_, _, rfl, -⟩ := exists_page_of_mem_pageFacts hcut hzero hfact
    rfl
  have hread : CompletelyRead (pageFacts locator maxBytes total 0 cut) locator :=
    completelyRead_pageFacts hcut hzero hkeeps hlocators
  have honly (other : ArtifactReadLocator) (h : ∃ fact ∈ pageFacts locator maxBytes total 0 cut,
      fact.request.locator = other) : other = locator := by
    obtain ⟨fact, hfact, rfl⟩ := h
    exact hlocators fact hfact
  have hcomplete : judgedLocators (pageFacts locator maxBytes total 0 cut) .complete = [locator] := by
    refine perm_singleton.mp ((perm_ext_iff_of_nodup (nodup_judgedLocators _ _)
      (nodup_singleton locator)).mpr fun other => ?_)
    rw [mem_judgedLocators_complete, mem_singleton]
    exact ⟨fun h => honly other h.exists_fact, fun h => h ▸ hread⟩
  have hinvalid : judgedLocators (pageFacts locator maxBytes total 0 cut) .invalid = [] := by
    refine eq_nil_iff_forall_not_mem.mpr fun other h => ?_
    rw [mem_judgedLocators_invalid] at h
    exact h (honly other (exists_fact_of_not_consistentlyRead h) ▸ hread.consistentlyRead)
  rw [auditArtifactReadLocatorsFromFacts_eq hparse, hcomplete, hinvalid]
  rfl

end

/-! ## The law -/

section

variable [EcmaScript.Collation] {locator : ArtifactReadLocator} {content : List Char} {maxBytes : ℕ}
  {host : ArtifactHost}

lemma losslessRead_of_keeps (hserves : ServesPages host locator content maxBytes) (hparses : locator.parses = true)
    (hsize : ∀ size ∈ artifactReadLocatorBytes locator, size = (Utf8.encode content).length)
    (hsha : artifactReadLocatorSHA256 locator = Sha256.sha256 (Utf8.encode content))
    (hmax : 4 ≤ maxBytes) (hlimit : maxBytes ≤ maxReadBytes)
    (hkeeps : ∀ page ∈ Utf8.pages maxBytes content, KeepsPage page) :
    LosslessRead host locator (Utf8.encode content) maxBytes := by
  obtain ⟨cut, hcut, hpages⟩ := exists_cut hmax content
  have hcutkeeps : ∀ page ∈ cut, KeepsPage page := by
    rcases hpages with rfl | ⟨-, rfl⟩
    · exact hkeeps
    · simp [KeepsPage]
  have hparsed : parseLocator locator = .ok locator := by
    rw [parseLocator, if_pos hparses]
    rfl
  have hparsedMax : parseMaxBytes maxBytes = .ok maxBytes := by
    rw [parseMaxBytes, if_neg (by omega)]
    rfl
  have hbytes : (cut.map encode).flatten = encode content := by
    rw [← hcut.flatten, encode_flatten]
  refine ⟨pageFacts locator maxBytes (encode content).length 0 cut,
    ⟨cut.length, fun fuel hfuel => ?_⟩, fun hne fact hfact => ?_, ?_, ?_⟩
  · have hrun := readChunks_eq_ok hserves hparses hlimit hsize hcut hcutkeeps []
      { byteOffset := 0, streamTotalBytes := none, chunks := [], windows := [] } fuel rfl rfl (by simp) hfuel
    have hassemble : assembleChunks locator
        { byteOffset := (encode content).length
          streamTotalBytes := some (encode content).length
          chunks := cut.map encode
          windows := pageFacts locator maxBytes (encode content).length 0 cut } =
        .ok { locator
              mediaType := artifactReadLocatorMediaType locator
              bytes := encode content
              sha256 := artifactReadLocatorSHA256 locator } := by
      simp only [assembleChunks, hbytes, ne_eq, not_true_eq_false, if_false, hsha]
      rfl
    simp only [nil_append] at hrun
    simp only [readExactArtifact, hparsed, hparsedMax, hrun, Option.map_some, Except.bind, hassemble]
    rfl
  · have hzero : 0 + (encode content).length = (encode content).length := Nat.zero_add _
    obtain ⟨offset, page, rfl, -, -, -, hnil⟩ := exists_page_of_mem_pageFacts hcut hzero hfact
    have hpage : page ≠ [] := by
      intro h
      exact hne (by rw [(hnil h).1, encode_nil])
    have hpos : 0 < (encode page).length := length_pos_of_ne_nil (by simpa using hpage)
    change offset < offset + (encode page).length
    omega
  · have hcontiguous : Contiguous 0 (pageFacts locator maxBytes (encode content).length 0 cut)
        (0 + (encode cut.flatten).length) :=
      contiguous_pageFacts 0 cut
    rwa [hcut.flatten, Nat.zero_add] at hcontiguous
  · exact auditArtifactReadLocatorsFromFacts_pageFacts hparses (by omega) hlimit hcut rfl hcutkeeps

lemma not_losslessRead_of_lost (hserves : ServesPages host locator content maxBytes)
    (hparses : locator.parses = true)
    (hsize : ∀ size ∈ artifactReadLocatorBytes locator, size = (Utf8.encode content).length)
    (hmax : 4 ≤ maxBytes) (hlimit : maxBytes ≤ maxReadBytes)
    (hlost : ∃ page ∈ Utf8.pages maxBytes content, ¬KeepsPage page) :
    ¬LosslessRead host locator (Utf8.encode content) maxBytes := by
  rintro ⟨windows, ⟨enough, hrun⟩, -⟩
  obtain ⟨cut, hcut, hpages⟩ := exists_cut hmax content
  have hcutlost : ∃ page ∈ cut, ¬KeepsPage page := by
    rcases hpages with rfl | ⟨rfl, -⟩
    · exact hlost
    · simp [pages] at hlost
  have hparsed : parseLocator locator = .ok locator := by
    rw [parseLocator, if_pos hparses]
    rfl
  have hparsedMax : parseMaxBytes maxBytes = .ok maxBytes := by
    rw [parseMaxBytes, if_neg (by omega)]
    rfl
  have hfinal := readChunks_ne_ok hserves hparses hlimit hsize hcut hcutlost []
    { byteOffset := 0, streamTotalBytes := none, chunks := [], windows := [] } rfl rfl (by simp) enough
  have hread := hrun enough le_rfl
  simp only [readExactArtifact, hparsed, hparsedMax] at hread
  obtain ⟨outcome, houtcome, hanswer⟩ := Option.map_eq_some_iff.mp hread
  cases outcome with
  | error => cases hanswer
  | ok final => exact hfinal final houtcome

lemma not_losslessRead_of_limit (hlimit : maxReadBytes < maxBytes) (bytes : List UInt8) :
    ¬LosslessRead host locator bytes maxBytes := by
  rintro ⟨_, ⟨enough, hrun⟩, -⟩
  have hrefused : parseMaxBytes maxBytes = .error "ArtifactReadMaxBytesSchema" := by
    rw [parseMaxBytes, if_pos (.inr hlimit)]
    rfl
  have hread := hrun enough le_rfl
  rw [readExactArtifact, hrefused] at hread
  rcases hlocator : parseLocator locator with _ | _ <;> simp [hlocator] at hread

end

/-- An exact read of stored valid UTF-8 is lossless exactly when the page size is within the
schema's limit and no page of the content starts with a byte order mark. -/
theorem readExactArtifact_lossless_iff [EcmaScript.Collation] (stores : ℕ → ArtifactStore)
    (taskID : String) (locator : ArtifactReadLocator) (content : List Char) (maxBytes : ℕ)
    (hparses : locator.parses = true)
    (hstored : ∀ call, (stores call).Holds taskID (Utf8.encode content) locator)
    (hmax : 4 ≤ maxBytes) :
    LosslessRead (fun call => readTaskArtifact (stores call) taskID) locator (Utf8.encode content) maxBytes ↔
      maxBytes ≤ maxReadBytes ∧
        ∀ page ∈ Utf8.pages maxBytes content, page.head? ≠ some byteOrderMark := by
  have hserves (hlimit : maxBytes ≤ maxReadBytes) :
      ServesPages (fun call => readTaskArtifact (stores call) taskID) locator content maxBytes := by
    rintro call _ _ rfl
    exact readTaskArtifact_eq hparses (hstored call) hmax hlimit
  have hsize : ∀ size ∈ artifactReadLocatorBytes locator, size = (encode content).length :=
    fun size hsize => (hstored 0).size hsize
  refine ⟨fun hread => ?_, fun ⟨hlimit, hkeeps⟩ => ?_⟩
  · have hlimit : maxBytes ≤ maxReadBytes := by
      by_contra hover
      exact not_losslessRead_of_limit (not_le.mp hover) (encode content) hread
    refine ⟨hlimit, fun page hpage hmark => ?_⟩
    exact not_losslessRead_of_lost (hserves hlimit) hparses hsize hmax hlimit
      ⟨page, hpage, fun hkeeps => hkeeps hmark⟩ hread
  · exact losslessRead_of_keeps (hserves hlimit) hparses hsize (hstored 0).sha256 hmax hlimit hkeeps

/-! ## A text resource in a store -/

def textResource (content : List Char) : TaskArtifactRef where
  snapshot := {
    projectID := "project"
    taskID := "task"
    snapshotID := "6f1c7f0e-8d1f-4a58-9f0e-1a2b3c4d5e6f"
    manifestSHA256 := Sha256.sha256 [] }
  tree := "resources"
  path := "table.csv"
  mediaType := "text/csv"
  bytes := (Utf8.encode content).length
  sha256 := Sha256.sha256 (Utf8.encode content)

def textStore (content : List Char) : ArtifactStore where
  current := fun _ => none
  history := fun _ _ => none
  manifestFile := fun _ => none
  resourceFile := fun _ => some (Utf8.encode content)

lemma parses_textResource (content : List Char) :
    (ArtifactReadLocator.taskArtifactResource (textResource content)).parses = true := by
  have hmedia : isMediaType "text/csv" = true := by decide
  simp [parses, TaskArtifactSnapshotIdentity.parses, textResource, hmedia]

lemma holds_textStore [EcmaScript.Collation] (content : List Char) :
    (textStore content).Holds "task" (Utf8.encode content)
      (.taskArtifactResource (textResource content)) := by
  have htext : isDecodableText "text/csv" "table.csv" = true := by decide +kernel
  exact ⟨rfl, rfl, rfl, rfl, htext⟩

/-- Two pages of a text without byte order marks. -/
theorem readExactArtifact_lossless_iff_of_table :
    letI := EcmaScript.codePointCollation
    LosslessRead (fun _ => readTaskArtifact (textStore "a,ü,b".toList) "task")
        (.taskArtifactResource (textResource "a,ü,b".toList)) (Utf8.encode "a,ü,b".toList) 4 ↔
      4 ≤ maxReadBytes ∧
        ∀ page ∈ Utf8.pages 4 "a,ü,b".toList, page.head? ≠ some byteOrderMark :=
  letI := EcmaScript.codePointCollation
  readExactArtifact_lossless_iff (fun _ => textStore "a,ü,b".toList) "task"
    (.taskArtifactResource (textResource "a,ü,b".toList)) "a,ü,b".toList 4
    (parses_textResource _) (fun _ => holds_textStore _) (by decide)

/-- A table that its editor saved with a byte order mark cannot be read. -/
theorem marked_table_unreadable :
    letI := EcmaScript.codePointCollation
    ¬LosslessRead (fun _ => readTaskArtifact (textStore (byteOrderMark :: "a,b".toList)) "task")
        (.taskArtifactResource (textResource (byteOrderMark :: "a,b".toList)))
        (Utf8.encode (byteOrderMark :: "a,b".toList)) maxReadBytes := by
  let _ : EcmaScript.Collation := EcmaScript.codePointCollation
  have hmax : 4 ≤ maxReadBytes := by decide
  refine not_losslessRead_of_lost ?_ (parses_textResource _)
    (fun size hsize => (holds_textStore _).size hsize) hmax le_rfl ?_
  · rintro _ _ _ hcontent
    have hstored := holds_textStore (byteOrderMark :: "a,b".toList)
    rw [← hcontent] at hstored ⊢
    exact readTaskArtifact_eq (parses_textResource _) hstored hmax le_rfl
  · have hpages : pages maxReadBytes (byteOrderMark :: "a,b".toList) =
        [byteOrderMark :: "a,b".toList] := by
      have hfit : fit maxReadBytes (byteOrderMark :: "a,b".toList) = byteOrderMark :: "a,b".toList := by
        decide
      have hcut : pages maxReadBytes ((byteOrderMark :: "a,b".toList) ++ []) =
          (byteOrderMark :: "a,b".toList) :: pages maxReadBytes [] :=
        pages_append (cons_ne_nil byteOrderMark "a,b".toList) (by rw [List.append_nil, hfit])
      rwa [List.append_nil, show pages maxReadBytes [] = [] by rw [pages]] at hcut
    rw [hpages]
    exact ⟨_, mem_singleton_self _, fun hkeeps => hkeeps rfl⟩

end OpenCorvus
