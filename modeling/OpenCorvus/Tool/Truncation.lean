import Mathlib.Algebra.Order.BigOperators.Group.List
import Mathlib.Algebra.Order.Group.Nat
import Mathlib.Algebra.GroupWithZero.Nat
import OpenCorvus.Foundation.Utf16Text

/-!
# Truncated Tool output

`Truncate.output` keeps whole lines at one end of a text, within a number of lines and of bytes, and reports
how much it left out.  The surface of the caller, its authority and the path of the saved file decide
whether it may truncate at all.
-/

namespace OpenCorvus.Tool

open Utf16 List

inductive TruncateDirection where
  | head
  | tail

/-- `Buffer.byteLength(text, "utf-8")` -/
def byteLength (text : Units) : ℕ := (toUtf8 text).length

/-- The bytes of a line after `count` others, with the separator before it. -/
def lineSize (count : ℕ) (line : Units) : ℕ := byteLength line + if 0 < count then 1 else 0

/-- The loop of the preview over the lines that are still to come, after `count` lines of `bytes` bytes. -/
def keepLines (maxLines maxBytes : ℕ) (count bytes : ℕ) : List Units → List Units × ℕ × Bool
  | [] => ([], bytes, false)
  | line :: lines =>
    if maxLines ≤ count then ([], bytes, false)
    else if maxBytes < bytes + lineSize count line then ([], bytes, true)
    else
      let rest := keepLines maxLines maxBytes (count + 1) (bytes + lineSize count line) lines
      (line :: rest.1, rest.2)

structure TruncatedPreview where
  lines : List Units
  removed : ℕ
  /-- The removed amount is in bytes, and else in lines. -/
  inBytes : Bool

/-- The kept lines, and what the notice reports as removed. -/
def truncatedPreview (text : Units) (maxLines maxBytes : ℕ) (direction : TruncateDirection) : TruncatedPreview :=
  let lines := splitLines text
  let (kept, bytes, hitBytes) :=
    match direction with
    | .head => keepLines maxLines maxBytes 0 0 lines
    | .tail =>
      let (kept, rest) := keepLines maxLines maxBytes 0 0 lines.reverse
      (kept.reverse, rest)
  { lines := kept
    removed := if hitBytes then byteLength text - bytes else lines.length - kept.length
    inBytes := hitBytes }

def MAX_LINES : ℕ := 2000

def MAX_BYTES : ℕ := 50 * 1024

structure SessionExecutionAuthority where
  sessionID : String
  taskID : Option String

structure TruncateOptions where
  maxLines : Option ℕ
  maxBytes : Option ℕ
  direction : Option TruncateDirection
  sessionID : Option String
  executionAuthority : Option SessionExecutionAuthority

/-- What the execution surface answers: whether it has the Tool `read`, and which paths it may not read. -/
structure TruncateSurface where
  toolIDs : List String
  deniesRead : String → Bool

/-- A text that fits, or the message about the saved file with what was saved. -/
inductive TruncateResult where
  | untouched (content : Units)
  | truncated (content : Units) (outputPath : String) (saved : Units)

def truncatedMessage (direction : TruncateDirection) (preview : TruncatedPreview) (filepath : String) : Units :=
  let notice := ofString ("..." ++ toString preview.removed ++ " " ++
    (if preview.inBytes then "bytes" else "lines") ++ " truncated...")
  let hint := ofString ("The tool call succeeded but the output was truncated. Full output saved to: " ++
    filepath ++ "\nUse Read with offset/limit to view the required sections.")
  let gap := [newline, newline]
  match direction with
  | .head => joinLines preview.lines ++ gap ++ notice ++ gap ++ hint
  | .tail => notice ++ gap ++ hint ++ gap ++ joinLines preview.lines

/-- `Truncate.output`; the path of the saved file is the host's. -/
def truncateOutput (filepathOf : SessionExecutionAuthority → String) (text : Units)
    (options : TruncateOptions) (surface : Option TruncateSurface) : Except String TruncateResult :=
  let maxLines := options.maxLines.getD MAX_LINES
  let maxBytes := options.maxBytes.getD MAX_BYTES
  let direction := options.direction.getD .tail
  let lines := splitLines text
  if lines.length ≤ maxLines ∧ byteLength text ≤ maxBytes then .ok (.untouched text)
  else
    match surface.filter fun surface => "read" ∈ surface.toolIDs with
    | none => .error ("Truncate.output: tool result is " ++ toString (byteLength text) ++ " bytes / " ++
        toString lines.length ++ " lines (limit " ++ toString maxBytes ++ "/" ++ toString maxLines ++
        "). The active execution surface does not have the 'read' tool needed to re-read a saved copy. " ++
        "Truncating here would silently lose data — denying the call instead.")
    | some surface =>
      match options.sessionID.filter (· ≠ ""), options.executionAuthority with
      | none, _ =>
        .error "Truncate.output: sessionID is required for runtime-scoped tool output"
      | some _, none =>
        .error "Truncate.output: executionAuthority is required before persisted output can be selected"
      | some sessionID, some authority =>
        if authority.sessionID ≠ sessionID then
          .error "Truncate.output: execution authority does not own the requested Session output"
        else if surface.deniesRead (filepathOf authority) then
          .error ("Truncate.output: the active execution surface denies reading the saved output path " ++
            filepathOf authority ++ "; truncating here would silently lose data.")
        else
          .ok (.truncated (truncatedMessage direction (truncatedPreview text maxLines maxBytes direction)
              (filepathOf authority)) (filepathOf authority) text)

variable {text : Units} {lines kept run : List Units} {maxLines maxBytes count bytes spent : ℕ} {hit : Bool}
  {direction : TruncateDirection}

lemma decode_newline_cons (after : Units) : decode (newline :: after) = '\n' :: decode after :=
  decode_cons_of_plain (by decide) (by decide) after

/-- A line break is never half of a surrogate pair. -/
lemma decode_append_newline (before after : Units) :
    decode (before ++ newline :: after) = decode before ++ '\n' :: decode after := by
  have hlow : isLow newline = false := by decide
  induction before using decode.induct with
  | case1 => exact decode_newline_cons after
  | case2 unit hsurrogate | case3 unit hsurrogate =>
    cases hhigh : isHigh unit <;> simp_all [decode, decode_newline_cons]
  | case4 unit next units hhigh hnext ih | case5 unit next units hhigh hnext ih
  | case6 unit next units hhigh hnext ih | case7 unit next units hhigh hnext ih =>
    simp_all [decode]

lemma byteLength_append_newline (before after : Units) :
    byteLength (before ++ newline :: after) = byteLength before + 1 + byteLength after := by
  have hnewline : '\n'.utf8Size = 1 := by decide
  simp only [byteLength, toUtf8, decode_append_newline, Utf8.encode_append, length_append]
  simp [Utf8.encode_cons]
  omega

lemma byteLength_joinLines (lines : List Units) :
    byteLength (joinLines lines) = (lines.map byteLength).sum + (lines.length - 1) := by
  induction lines with
  | nil => simp [joinLines, byteLength, toUtf8, decode]
  | cons line rest ih =>
    cases rest with
    | nil => simp [joinLines]
    | cons next rest =>
      have hjoin : joinLines (line :: next :: rest) = line ++ newline :: joinLines (next :: rest) := by
        simp [joinLines, List.intercalate]
      rw [hjoin, byteLength_append_newline, ih]
      simp only [map_cons, sum_cons, length_cons]
      omega

lemma byteLength_joinLines_le (h : run.Sublist lines) :
    byteLength (joinLines run) ≤ byteLength (joinLines lines) := by
  rw [byteLength_joinLines, byteLength_joinLines]
  have hsum := (h.map byteLength).sum_le_sum fun _ _ => Nat.zero_le _
  have hlength := h.length_le
  omega

/-- The bytes of lines that follow `count` others, each with the separator before it. -/
def spentOn (count : ℕ) (run : List Units) : ℕ :=
  (run.map byteLength).sum + if 0 < count then run.length else run.length - 1

lemma spentOn_cons (count : ℕ) (line : Units) (run : List Units) :
    spentOn count (line :: run) = lineSize count line + spentOn (count + 1) run := by
  simp only [spentOn, lineSize, map_cons, sum_cons, length_cons, Nat.succ_pos, if_true]
  split_ifs <;> omega

/-- The lines fit within the limits after `count` others of `bytes` bytes. -/
structure FitsAfter (maxLines maxBytes count bytes : ℕ) (run : List Units) : Prop where
  lines : run ≠ [] → count + run.length ≤ maxLines
  bytes : bytes + spentOn count run ≤ maxBytes

lemma fitsAfter_nil (h : bytes ≤ maxBytes) : FitsAfter maxLines maxBytes count bytes [] :=
  ⟨fun hne => absurd rfl hne, by simpa [spentOn] using h⟩

lemma fitsAfter_cons {line : Units} : FitsAfter maxLines maxBytes count bytes (line :: run) ↔ count < maxLines ∧
      FitsAfter maxLines maxBytes (count + 1) (bytes + lineSize count line) run := by
  constructor
  · rintro ⟨hlines, hbytes⟩
    have hlength := hlines (cons_ne_nil _ _)
    rw [length_cons] at hlength
    rw [spentOn_cons] at hbytes
    exact ⟨by omega, fun _ => by omega, by omega⟩
  · rintro ⟨hcount, hlines, _⟩
    refine ⟨fun _ => ?_, by rw [spentOn_cons]; omega⟩
    rw [length_cons]
    cases run with
    | nil => exact hcount
    | cons => exact (by omega : count + 1 + _ ≤ maxLines → _) (hlines (cons_ne_nil _ _))

lemma keepLines_spec (h : keepLines maxLines maxBytes count bytes lines = (kept, spent, hit))
    (hbytes : bytes ≤ maxBytes) :
    kept <+: lines ∧ spent = bytes + spentOn count kept ∧ FitsAfter maxLines maxBytes count bytes kept ∧
      ∀ run, run <+: lines → FitsAfter maxLines maxBytes count bytes run → run.length ≤ kept.length := by
  induction lines generalizing count bytes kept with
  | nil =>
    cases h
    refine ⟨prefix_refl _, by simp [spentOn], fitsAfter_nil hbytes, fun run hrun _ => ?_⟩
    rw [prefix_nil.mp hrun]
  | cons line lines ih =>
    -- A loop that stops at the line leaves no run that has the line.
    have hstop : (¬∃ run, FitsAfter maxLines maxBytes count bytes (line :: run)) → kept = [] → spent = bytes →
        kept <+: line :: lines ∧ spent = bytes + spentOn count kept ∧
          FitsAfter maxLines maxBytes count bytes kept ∧
          ∀ run, run <+: line :: lines → FitsAfter maxLines maxBytes count bytes run →
            run.length ≤ kept.length := by
      rintro hnone rfl rfl
      refine ⟨ nil_prefix, by simp [spentOn], fitsAfter_nil hbytes, fun run hrun hfits => ?_⟩
      cases run with
      | nil => exact Nat.le_refl _
      | cons _ run =>
        obtain ⟨rfl, -⟩ := cons_prefix_cons.mp hrun
        exact absurd ⟨run, hfits⟩ hnone
    rw [keepLines] at h
    split_ifs at h with hcount hsize
    · refine hstop ?_ (congrArg Prod.fst h).symm (congrArg (·.2.1) h).symm
      rintro ⟨_, hfits⟩
      exact absurd (fitsAfter_cons.mp hfits).1 (by omega)
    · refine hstop ?_ (congrArg Prod.fst h).symm (congrArg (·.2.1) h).symm
      rintro ⟨_, hfits⟩
      have hover := (fitsAfter_cons.mp hfits).2.bytes
      omega
    · obtain ⟨⟨rest, spent', hit'⟩, hrest⟩ : ∃ rest, keepLines maxLines maxBytes (count + 1)
          (bytes + lineSize count line) lines = rest := ⟨_, rfl⟩
      rw [hrest] at h
      cases h
      obtain ⟨hstart, hspent, hfits, hlongest⟩ := ih hrest (by omega)
      refine ⟨cons_prefix_cons.mpr ⟨rfl, hstart⟩, ?_, fitsAfter_cons.mpr ⟨by omega, hfits⟩, ?_⟩
      · rw [hspent, spentOn_cons, Nat.add_assoc]
      · intro run hrun hfitsRun
        cases run with
        | nil => exact Nat.zero_le _
        | cons _ run =>
          obtain ⟨rfl, hstart'⟩ := cons_prefix_cons.mp hrun
          exact Nat.succ_le_succ (hlongest run hstart' (fitsAfter_cons.mp hfitsRun).2)

def IsRunAt (direction : TruncateDirection) (lines run : List Units) : Prop :=
  match direction with
  | .head => run <+: lines
  | .tail => run <:+ lines

structure FaithfulPreview (text : Units) (maxLines maxBytes : ℕ) (direction : TruncateDirection)
    (preview : TruncatedPreview) : Prop where
  run : IsRunAt direction (splitLines text) preview.lines
  fits : preview.lines.length ≤ maxLines ∧ byteLength (joinLines preview.lines) ≤ maxBytes
  longest : ∀ run, IsRunAt direction (splitLines text) run → run.length ≤ maxLines →
    byteLength (joinLines run) ≤ maxBytes → run.length ≤ preview.lines.length
  lines : preview.inBytes = false → preview.removed + preview.lines.length = (splitLines text).length
  bytes : preview.inBytes = true → preview.removed + byteLength (joinLines preview.lines) = byteLength text

lemma fitsAfter_zero_iff : FitsAfter maxLines maxBytes 0 0 run ↔
    run.length ≤ maxLines ∧ byteLength (joinLines run) ≤ maxBytes := by
  rw [byteLength_joinLines]
  constructor
  · rintro ⟨hlines, hbytes⟩
    simp only [spentOn, Nat.lt_irrefl, if_false, Nat.zero_add] at hlines hbytes
    refine ⟨?_, hbytes⟩
    cases run with
    | nil => exact Nat.zero_le _
    | cons => exact hlines (cons_ne_nil _ _)
  · rintro ⟨_, hbytes⟩
    exact ⟨fun _ => by omega, by simpa [spentOn] using hbytes⟩

lemma byteLength_joinLines_reverse (lines : List Units) :
    byteLength (joinLines lines.reverse) = byteLength (joinLines lines) := by
  rw [byteLength_joinLines, byteLength_joinLines, map_reverse, sum_reverse, length_reverse]

lemma keepLines_zero (h : keepLines maxLines maxBytes 0 0 lines = (kept, spent, hit)) :
    kept <+: lines ∧ spent = byteLength (joinLines kept) ∧
      (kept.length ≤ maxLines ∧ byteLength (joinLines kept) ≤ maxBytes) ∧
      ∀ run, run <+: lines → run.length ≤ maxLines → byteLength (joinLines run) ≤ maxBytes →
        run.length ≤ kept.length := by
  obtain ⟨hstart, hspent, hfits, hlongest⟩ := keepLines_spec h (Nat.zero_le _)
  refine ⟨hstart, ?_, fitsAfter_zero_iff.mp hfits, fun run hrun hlines hbytes => ?_⟩
  · rw [hspent, byteLength_joinLines]
    simp [spentOn]
  · exact hlongest run hrun (fitsAfter_zero_iff.mpr ⟨hlines, hbytes⟩)

lemma removed_add (h : run.Sublist (splitLines text)) (spent : ℕ) (hspent : spent = byteLength (joinLines run)) :
    (byteLength text - spent) + byteLength (joinLines run) = byteLength text ∧
      ((splitLines text).length - run.length) + run.length = (splitLines text).length := by
  have hbytes := byteLength_joinLines_le h
  have hlines := h.length_le
  rw [joinLines_splitLines] at hbytes
  omega

theorem faithfulPreview_truncatedPreview (text : Units) (maxLines maxBytes : ℕ) (direction : TruncateDirection) :
    FaithfulPreview text maxLines maxBytes direction (truncatedPreview text maxLines maxBytes direction) := by
  cases direction with
  | head =>
    obtain ⟨⟨kept, spent, _⟩, hkept⟩ : ∃ kept, keepLines maxLines maxBytes 0 0 (splitLines text) = kept :=
      ⟨_, rfl⟩
    obtain ⟨hrun, hspent, hfits, hlongest⟩ := keepLines_zero hkept
    obtain ⟨hbytes, hlines⟩ := removed_add hrun.sublist spent hspent
    simp only [truncatedPreview, hkept]
    refine ⟨hrun, hfits, hlongest, ?_, ?_⟩
    · rintro rfl
      exact hlines
    · rintro rfl
      exact hbytes
  | tail =>
    obtain ⟨⟨kept, spent, hit⟩, hkept⟩ :
        ∃ kept, keepLines maxLines maxBytes 0 0 (splitLines text).reverse = kept := ⟨_, rfl⟩
    obtain ⟨hstart, hspent, hfits, hlongest⟩ := keepLines_zero hkept
    have hrun : kept.reverse <:+ splitLines text := by
      rw [← reverse_reverse (splitLines text)]
      exact reverse_suffix.mpr hstart
    rw [← byteLength_joinLines_reverse] at hspent hfits
    rw [← length_reverse] at hfits
    obtain ⟨hbytes, hlines⟩ := removed_add hrun.sublist spent hspent
    simp only [truncatedPreview, hkept]
    refine ⟨hrun, hfits, fun run hsuffix hmax hroom => ?_, ?_, ?_⟩
    · have hreverse := hlongest run.reverse ( reverse_prefix.mpr hsuffix)
      rw [length_reverse, byteLength_joinLines_reverse] at hreverse
      rw [length_reverse]
      exact hreverse hmax hroom
    · rintro rfl
      exact hlines
    · rintro rfl
      exact hbytes

theorem truncateOutput_faithful {filepathOf : SessionExecutionAuthority → String} {options : TruncateOptions}
    {surface : Option TruncateSurface} {content saved : Units} {outputPath : String}
    (h : truncateOutput filepathOf text options surface = .ok (.truncated content outputPath saved)) :
    saved = text ∧ ∃ preview, content = truncatedMessage (options.direction.getD .tail) preview outputPath ∧
        FaithfulPreview text (options.maxLines.getD MAX_LINES) (options.maxBytes.getD MAX_BYTES)
          (options.direction.getD .tail) preview := by
  unfold truncateOutput at h
  dsimp only at h
  split at h
  · cases h
  · split at h
    · cases h
    · split at h
      · cases h
      · cases h
      · split_ifs at h
        cases h
        exact ⟨rfl, _, rfl, faithfulPreview_truncatedPreview text _ _ _⟩

theorem truncateOutput_faithful_two_lines : ofString "a\nb" = ofString "a\nb" ∧ ∃ preview,
      truncatedMessage .tail (truncatedPreview (ofString "a\nb") 1 10 .tail) "out" =
          truncatedMessage .tail preview "out" ∧
        FaithfulPreview (ofString "a\nb") 1 10 .tail preview :=
  @truncateOutput_faithful (ofString "a\nb") (fun _ => "out")
    ⟨some 1, some 10, none, some "s", some ⟨"s", none⟩⟩ (some ⟨["read"], fun _ => false⟩) _ _ _ (by rfl)

end OpenCorvus.Tool
