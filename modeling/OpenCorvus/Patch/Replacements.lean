import OpenCorvus.Foundation.Splice
import OpenCorvus.Foundation.StableSort
import OpenCorvus.Patch.Parse

/-!
# Applying the chunks of an updated file

Each chunk is looked for in the lines of the file from a cursor on, first as it is and then ever less
exactly, and recorded as a replacement of the lines it was found at.  A chunk without old lines is an
addition at the end of the file.  The replacements are then made one after another, from the last one.
-/

namespace OpenCorvus.Patch

open Utf16 Splice List

/-- Punctuation without its typographic forms. -/
def normalizeUnicode (text : Units) : Units :=
  text.flatMap fun unit =>
    if unit.toNat ∈ [0x2018, 0x2019, 0x201A, 0x201B] then ofString "'"
    else if unit.toNat ∈ [0x201C, 0x201D, 0x201E, 0x201F] then ofString "\""
    else if unit.toNat ∈ [0x2010, 0x2011, 0x2012, 0x2013, 0x2014, 0x2015] then ofString "-"
    else if unit.toNat = 0x2026 then ofString "..."
    else if unit.toNat = 0x00A0 then ofString " "
    else [unit]

def matchesAt (lines pattern : List Units) (compare : Units → Units → Bool) (i : ℕ) : Bool :=
  ((lines.drop i).zip pattern).all fun pair => compare pair.1 pair.2

/-- Where the pattern is found, at the end of the file first if it belongs there. -/
def tryMatch (lines pattern : List Units) (startIndex : ℕ) (compare : Units → Units → Bool) (eof : Bool) : Option ℕ :=
  if eof = true ∧ startIndex + pattern.length ≤ lines.length ∧
      matchesAt lines pattern compare (lines.length - pattern.length) = true then
    some (lines.length - pattern.length)
  else
    (List.range' startIndex (lines.length + 1 - pattern.length - startIndex)).find? (matchesAt lines pattern compare)

/-- Where the pattern is found, by ever weaker comparisons. -/
def seekSequence (lines pattern : List Units) (startIndex : ℕ) (eof : Bool) : Option ℕ :=
  if pattern = [] then none
  else
    (tryMatch lines pattern startIndex (fun a b => a = b) eof).or <|
      (tryMatch lines pattern startIndex (fun a b => trimEnd a = trimEnd b) eof).or <|
        (tryMatch lines pattern startIndex (fun a b => trim a = trim b) eof).or <|
          tryMatch lines pattern startIndex (fun a b => normalizeUnicode (trim a) = normalizeUnicode (trim b)) eof

structure Progress where
  replacements : List (Replacement Units)
  lineIndex : ℕ

variable (lines : List Units)

def insertionIdx : ℕ :=
  if lines.getLast? = some [] then lines.length - 1 else lines.length

def seekContext (lineIndex : ℕ) (chunk : UpdateFileChunk) : Option ℕ :=
  match chunk.changeContext with
  | none => some lineIndex
  | some context =>
    if context = [] then some lineIndex else (seekSequence lines [context] lineIndex false).map (· + 1)

def seekOldLines (lineIndex : ℕ) (chunk : UpdateFileChunk) : Option (Replacement Units) :=
  match seekSequence lines chunk.oldLines lineIndex chunk.isEndOfFile with
  | some found => some ⟨found, chunk.oldLines.length, chunk.newLines⟩
  | none =>
    if chunk.oldLines.getLast? = some [] then
      let pattern := chunk.oldLines.dropLast
      let newSlice := if chunk.newLines.getLast? = some [] then chunk.newLines.dropLast else chunk.newLines
      (seekSequence lines pattern lineIndex chunk.isEndOfFile).map fun found => ⟨found, pattern.length, newSlice⟩
    else none

def recordChunk (filePath : Units) (lines : List Units) (progress : Progress) (chunk : UpdateFileChunk) :
    Except Units Progress :=
  match seekContext lines progress.lineIndex chunk with
  | none =>
    .error (ofString "Failed to find context '" ++ chunk.changeContext.getD [] ++ ofString "' in " ++ filePath)
  | some lineIndex =>
    if chunk.oldLines = [] then
      .ok ⟨progress.replacements ++ [⟨insertionIdx lines, 0, chunk.newLines⟩], lineIndex⟩
    else
      match seekOldLines lines lineIndex chunk with
      | none =>
        .error (ofString "Failed to find expected lines in " ++ filePath ++ ofString ":\n" ++ joinLines chunk.oldLines)
      | some r => .ok ⟨progress.replacements ++ [r], r.stop⟩

def recordChunks (filePath : Units) (lines : List Units) (chunks : List UpdateFileChunk) : Except Units Progress :=
  chunks.foldlM (recordChunk filePath lines) ⟨[], 0⟩

def computeReplacements (originalLines : List Units) (filePath : Units) (chunks : List UpdateFileChunk) :
    Except Units (List (Replacement Units)) :=
  (recordChunks filePath originalLines chunks).map fun progress =>
    EcmaScript.toSorted (fun a b => compare a.start b.start) progress.replacements

/-- `result.splice(i, 0, line)` for one line after another. -/
def insertLines (i : ℕ) : List Units → List Units → List Units
  | [], result => result
  | line :: segment, result => insertLines (i + 1) segment (result.take i ++ line :: result.drop i)

def applyReplacements (replacements : List (Replacement Units)) : List Units :=
  replacements.foldr
    (fun r result => insertLines r.start r.segment (result.take r.start ++ result.drop (r.start + r.size))) lines

def originalLines (originalContent : Units) : List Units :=
  let lines := splitLines originalContent
  if lines.getLast? = some [] then lines.dropLast else lines

def deriveNewContentsFromContent (filePath originalContent : Units) (chunks : List UpdateFileChunk) :
    Except Units Units :=
  (computeReplacements (originalLines originalContent) filePath chunks).map fun replacements =>
    let newLines := applyReplacements (originalLines originalContent) replacements
    joinLines (if newLines.getLast? = some [] then newLines else newLines ++ [[]])

lemma bounds_of_tryMatch {lines pattern : List Units} {startIndex found : ℕ} {compare : Units → Units → Bool}
    {eof : Bool} (h : tryMatch lines pattern startIndex compare eof = some found) :
    startIndex ≤ found ∧ found + pattern.length ≤ lines.length := by
  unfold tryMatch at h
  split_ifs at h with hend
  · obtain rfl := Option.some.inj h
    have hle := hend.2.1
    omega
  · have hrange := mem_range'_1.mp (mem_of_find?_eq_some h)
    omega

lemma bounds_of_seekSequence {lines pattern : List Units} {startIndex found : ℕ} {eof : Bool}
    (h : seekSequence lines pattern startIndex eof = some found) :
    pattern ≠ [] ∧ startIndex ≤ found ∧ found + pattern.length ≤ lines.length := by
  unfold seekSequence at h
  split_ifs at h with hne
  refine ⟨hne, ?_⟩
  simp only [Option.or_eq_some_iff] at h
  rcases h with h | ⟨-, h | ⟨-, h | ⟨-, h⟩⟩⟩
  all_goals exact bounds_of_tryMatch h

lemma bounds_of_seekContext {lines : List Units} {lineIndex next : ℕ} {chunk : UpdateFileChunk}
    (hle : lineIndex ≤ lines.length) (h : seekContext lines lineIndex chunk = some next) :
    lineIndex ≤ next ∧ next ≤ lines.length := by
  unfold seekContext at h
  split at h
  · obtain rfl := Option.some.inj h
    exact ⟨le_rfl, hle⟩
  · split_ifs at h with hempty
    · obtain rfl := Option.some.inj h
      exact ⟨le_rfl, hle⟩
    · obtain ⟨found, hfound, rfl⟩ := Option.map_eq_some_iff.mp h
      obtain ⟨-, hge, hlt⟩ := bounds_of_seekSequence hfound
      rw [length_singleton] at hlt
      exact ⟨hge.trans (Nat.le_succ found), hlt⟩

lemma bounds_of_seekOldLines {lines : List Units} {lineIndex : ℕ} {chunk : UpdateFileChunk} {r : Replacement Units}
    (h : seekOldLines lines lineIndex chunk = some r) : 0 < r.size ∧ lineIndex ≤ r.start ∧ r.stop ≤ lines.length := by
  unfold seekOldLines at h
  split at h
  · rename_i found hfound
    obtain rfl := Option.some.inj h
    obtain ⟨hne, hge, hle⟩ := bounds_of_seekSequence hfound
    exact ⟨length_pos_iff.mpr hne, hge, hle⟩
  · split at h
    · obtain ⟨_, hfound, rfl⟩ := Option.map_eq_some_iff.mp h
      obtain ⟨hne, hge, hle⟩ := bounds_of_seekSequence hfound
      exact ⟨length_pos_iff.mpr hne, hge, hle⟩
    · cases h

lemma insertLines_eq (i : ℕ) (segment result : List Units) :
    insertLines i segment result = result.take i ++ (segment ++ result.drop i) := by
  induction segment generalizing i result with
  | nil => simp [insertLines]
  | cons line _ ih =>
    rw [insertLines, ih]
    by_cases hle : i ≤ result.length
    · have hlength : (result.take i).length = i := length_take_of_le hle
      have htake : (result.take i ++ line :: result.drop i).take (i + 1) = result.take i ++ [line] := by
        simp [take_append, hlength]
      have hdrop : (result.take i ++ line :: result.drop i).drop (i + 1) = result.drop i := by
        simp [drop_append, hlength, drop_eq_nil_of_le (hlength.le.trans (Nat.le_succ i))]
      rw [htake, hdrop]
      simp
    · -- Behind the end, everything is appended.
      have hlt : result.length < i := Nat.not_le.mp hle
      have hall : (result.take i ++ line :: result.drop i) = result ++ [line] := by
        rw [take_of_length_le hlt.le, drop_eq_nil_of_le hlt.le]
      have hlength : (result ++ [line]).length ≤ i + 1 := by
        rw [length_append, length_singleton]
        exact Nat.succ_le_succ hlt.le
      rw [hall, take_of_length_le hlength, drop_eq_nil_of_le hlength, take_of_length_le hlt.le,
        drop_eq_nil_of_le hlt.le]
      simp

lemma applyReplacements_eq_spliceAll (lines : List Units) (replacements : List (Replacement Units)) :
    applyReplacements lines replacements = spliceAll replacements lines := by
  have hsplice : ∀ (r : Replacement Units) (result : List Units),
      insertLines r.start r.segment (result.take r.start ++ result.drop (r.start + r.size)) = splice r result := by
    intro r result
    have hstop : r.start + r.size = r.stop := rfl
    rw [insertLines_eq, splice, hstop]
    by_cases hle : r.start ≤ result.length
    · have hlength : (result.take r.start).length = r.start := length_take_of_le hle
      rw [take_left' hlength, drop_left' hlength]
    · have hlt : result.length < r.start := Nat.not_le.mp hle
      have hnone : result.drop r.stop = [] := drop_eq_nil_of_le (hlt.le.trans r.start_le_stop)
      rw [hnone, List.append_nil, take_take, Nat.min_self,
        drop_eq_nil_of_le (length_take_le r.start result)]
  unfold applyReplacements spliceAll
  exact congrArg (fun f => List.foldr f lines replacements) (funext fun r => funext (hsplice r))

end OpenCorvus.Patch
