import OpenCorvus.Foundation.Utf16Text

/-!
# Parsing patches

The parser of the patch language: a text between two markers, with a header for each file and, below
the header of an updated file, chunks of kept, removed and added lines.
-/

namespace OpenCorvus.Patch

open Utf16 List

structure UpdateFileChunk where
  oldLines : List Units
  newLines : List Units
  changeContext : Option Units
  isEndOfFile : Bool
deriving DecidableEq

inductive Hunk where
  | add (path contents : Units)
  | delete (path : Units)
  | update (path : Units) (movePath : Option Units) (chunks : List UpdateFileChunk)
deriving DecidableEq

def ADD_FILE : Units := ofString "*** Add File:"

def DELETE_FILE : Units := ofString "*** Delete File:"

def UPDATE_FILE : Units := ofString "*** Update File:"

def MOVE_TO : Units := ofString "*** Move to:"

def END_OF_FILE : Units := ofString "*** End of File"

def beginMarker : Units := ofString "*** Begin Patch"

def endMarker : Units := ofString "*** End Patch"

/-- `"***"` -/
def STARS : Units := ofString "***"

/-- `"@@"` -/
def AT_SIGNS : Units := ofString "@@"

/-- `line.startsWith(start)` -/
def startsWith (line start : Units) : Bool := start <+: line

structure Header where
  filePath : Units
  movePath : Option Units
  rest : List Units

def behind (marker line : Units) : Units := trim (line.drop marker.length)

def parsePatchHeader : List Units → Option Header
  | [] => none
  | line :: rest =>
    if startsWith line ADD_FILE then
      if behind ADD_FILE line = [] then none else some ⟨behind ADD_FILE line, none, rest⟩
    else if startsWith line DELETE_FILE then
      if behind DELETE_FILE line = [] then none else some ⟨behind DELETE_FILE line, none, rest⟩
    else if startsWith line UPDATE_FILE then
      let moved : Option Units × List Units :=
        match rest with
        | [] => (none, [])
        | next :: below => if startsWith next MOVE_TO then (some (behind MOVE_TO next), below) else (none, rest)
      if behind UPDATE_FILE line = [] then none else some ⟨behind UPDATE_FILE line, moved.1, moved.2⟩
    else none

structure ChangeLines where
  oldLines : List Units
  newLines : List Units
  isEndOfFile : Bool
  rest : List Units

def parseChangeLines : List Units → ChangeLines
  | [] => ⟨[], [], false, []⟩
  | changeLine :: rest =>
    if startsWith changeLine AT_SIGNS ∨ startsWith changeLine STARS then ⟨[], [], false, changeLine :: rest⟩
    else if changeLine = END_OF_FILE then ⟨[], [], true, rest⟩
    else
      let below := parseChangeLines rest
      if startsWith changeLine (ofString " ") then
        { below with oldLines := changeLine.drop 1 :: below.oldLines
                     newLines := changeLine.drop 1 :: below.newLines }
      else if startsWith changeLine (ofString "-") then
        { below with oldLines := changeLine.drop 1 :: below.oldLines }
      else if startsWith changeLine (ofString "+") then
        { below with newLines := changeLine.drop 1 :: below.newLines }
      else below

variable (lines : List Units)

lemma rest_parseChangeLines_suffix : (parseChangeLines lines).rest <:+ lines := by
  induction lines with
  | nil => exact suffix_refl []
  | cons line rest ih =>
    have hbelow : (parseChangeLines rest).rest <:+ line :: rest := ih.trans (suffix_cons line rest)
    unfold parseChangeLines
    split_ifs
    · exact suffix_refl _
    · exact suffix_cons line rest
    · exact hbelow
    · exact hbelow
    · exact hbelow
    · exact hbelow

def parseUpdateFileChunks (lines : List Units) : List UpdateFileChunk × List Units :=
  match lines with
  | [] => ([], [])
  | line :: rest =>
    if startsWith line STARS then ([], line :: rest)
    else if startsWith line AT_SIGNS then
      let contextLine := behind AT_SIGNS line
      let changes := parseChangeLines rest
      let below := parseUpdateFileChunks changes.rest
      ({ oldLines := changes.oldLines, newLines := changes.newLines
         changeContext := if contextLine = [] then none else some contextLine
         isEndOfFile := changes.isEndOfFile } :: below.1, below.2)
    else parseUpdateFileChunks rest
termination_by lines.length
decreasing_by
  · exact Nat.lt_succ_of_le (rest_parseChangeLines_suffix rest).length_le
  · exact Nat.lt_succ_self _

def addedContent : Units :=
  ((lines.takeWhile fun line => ¬startsWith line STARS).filter fun line => startsWith line (ofString "+")).flatMap
    fun line => line.drop 1 ++ [newline]

def parseAddFileContent : Units × List Units :=
  let content := addedContent lines
  (if content.getLast? = some newline then content.dropLast else content,
    lines.dropWhile fun line => ¬startsWith line STARS)

/-- `[A-Za-z0-9_]` -/
def isWordUnit (unit : UInt16) : Bool :=
  (0x30 ≤ unit.toNat ∧ unit.toNat ≤ 0x39) ∨ (0x41 ≤ unit.toNat ∧ unit.toNat ≤ 0x5A) ∨ unit = 0x5F ∨
    (0x61 ≤ unit.toNat ∧ unit.toNat ≤ 0x7A)

def skipQuote : Units → Units
  | [] => []
  | unit :: rest => if unit = 0x27 ∨ unit = 0x22 then rest else unit :: rest

/-- The opening of a here-document: its word, and the text behind it. -/
def heredocOpening (input : Units) : Option (Units × Units) :=
  let command : Units :=
    if startsWith input (ofString "cat") ∧ (input.drop 3).head?.any isWhiteSpace then
      (input.drop 3).dropWhile isWhiteSpace
    else input
  if startsWith command (ofString "<<") then
    let quoted := skipQuote (command.drop 2)
    let word := quoted.takeWhile isWordUnit
    if word = [] then none else some (word, skipQuote (quoted.dropWhile isWordUnit))
  else none

/-- The body of a here-document that is closed by its word on a line of its own, at the end. -/
def heredocBody (word text : Units) : Option Units :=
  (List.range (text.length + 1)).findSome? fun p =>
    match text.drop p with
    | [] => none
    | unit :: rest =>
      if unit = newline ∧ word <+: rest ∧ (rest.drop word.length).all isWhiteSpace then some (text.take p) else none

def stripHeredoc (input : Units) : Units :=
  match heredocOpening input with
  | none => input
  | some (word, text) =>
    ((List.range (text.takeWhile isWhiteSpace).length).reverse.findSome? fun q =>
      if text[q]? = some newline then heredocBody word (text.drop (q + 1)) else none).getD input

variable {line : Units} {rest : List Units} {stop : ℕ}

lemma rest_parsePatchHeader_suffix {header : Header} (h : parsePatchHeader (line :: rest) = some header) :
    header.rest <:+ rest := by
  unfold parsePatchHeader at h
  dsimp only at h
  split_ifs at h
  · cases h
    exact suffix_refl rest
  · cases h
    exact suffix_refl rest
  · split at h
    · cases h
      exact suffix_refl []
    · split_ifs at h
      · cases h
        exact suffix_cons _ _
      · cases h
        exact suffix_refl _

lemma rest_parseUpdateFileChunks_suffix : (parseUpdateFileChunks lines).2 <:+ lines := by
  induction lines using parseUpdateFileChunks.induct with
  | case1 => simp [parseUpdateFileChunks]
  | case2 _ _ hstars => simp [parseUpdateFileChunks, hstars]
  | case3 line rest hstars hsigns _ ih =>
    rw [parseUpdateFileChunks, if_neg hstars, if_pos hsigns]
    have hchanges := rest_parseChangeLines_suffix rest
    exact (ih.trans hchanges).trans (suffix_cons line rest)
  | case4 line rest hstars hsigns ih =>
    rw [parseUpdateFileChunks, if_neg hstars, if_neg hsigns]
    exact ih.trans (suffix_cons line rest)

lemma rest_parseAddFileContent_suffix : (parseAddFileContent lines).2 <:+ lines :=
  dropWhile_suffix _

/-- Read the hunks, while more lines are left than `stop`. -/
def parseHunks (stop : ℕ) (lines : List Units) : List Hunk :=
  if lines.length ≤ stop then []
  else
    match lines with
    | [] => []
    | line :: rest =>
      match _hheader : parsePatchHeader (line :: rest) with
      | none => parseHunks stop rest
      | some header =>
        if startsWith line ADD_FILE then
          let body := parseAddFileContent header.rest
          .add header.filePath body.1 :: parseHunks stop body.2
        else if startsWith line DELETE_FILE then
          .delete header.filePath :: parseHunks stop header.rest
        else if startsWith line UPDATE_FILE then
          let body := parseUpdateFileChunks header.rest
          .update header.filePath header.movePath body.1 :: parseHunks stop body.2
        else parseHunks stop rest
termination_by lines.length
decreasing_by
  · exact Nat.lt_succ_self _
  · have hbody := rest_parseAddFileContent_suffix header.rest
    exact Nat.lt_succ_of_le (hbody.trans (rest_parsePatchHeader_suffix _hheader)).length_le
  · exact Nat.lt_succ_of_le (rest_parsePatchHeader_suffix _hheader).length_le
  · have hbody := rest_parseUpdateFileChunks_suffix header.rest
    exact Nat.lt_succ_of_le (hbody.trans (rest_parsePatchHeader_suffix _hheader)).length_le
  · exact Nat.lt_succ_self _

/-- Nothing is read behind the end marker. -/
lemma parseHunks_of_length_le {lines : List Units} (h : lines.length ≤ stop) : parseHunks stop lines = [] := by
  unfold parseHunks
  rw [if_pos h]

lemma parseHunks_of_header_eq_none (hstop : stop < (line :: rest).length)
    (hheader : parsePatchHeader (line :: rest) = none) :
    parseHunks stop (line :: rest) = parseHunks stop rest := by
  rw [parseHunks.eq_def stop (line :: rest), if_neg (Nat.not_le.mpr hstop)]
  dsimp only
  rw [hheader]

lemma parseHunks_of_header {header : Header} (hstop : stop < (line :: rest).length)
    (hheader : parsePatchHeader (line :: rest) = some header) :
    parseHunks stop (line :: rest) =
      if startsWith line ADD_FILE then
        .add header.filePath (parseAddFileContent header.rest).1 :: parseHunks stop (parseAddFileContent header.rest).2
      else if startsWith line DELETE_FILE then .delete header.filePath :: parseHunks stop header.rest
      else if startsWith line UPDATE_FILE then
        .update header.filePath header.movePath (parseUpdateFileChunks header.rest).1 ::
          parseHunks stop (parseUpdateFileChunks header.rest).2
      else parseHunks stop rest := by
  rw [parseHunks.eq_def stop (line :: rest), if_neg (Nat.not_le.mpr hstop)]
  dsimp only
  rw [hheader]

def parsePatch (patchText : Units) : Except String (List Hunk) :=
  let lines := splitLines (stripHeredoc (trim patchText))
  match lines.findIdx? fun line => trim line = beginMarker, lines.findIdx? fun line => trim line = endMarker with
  | some beginIdx, some endIdx =>
    if endIdx ≤ beginIdx then .error "Invalid patch format: missing Begin/End markers"
    else .ok (parseHunks (lines.length - endIdx) (lines.drop (beginIdx + 1)))
  | _, _ => .error "Invalid patch format: missing Begin/End markers"

end OpenCorvus.Patch
