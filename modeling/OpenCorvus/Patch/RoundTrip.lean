import OpenCorvus.Patch.Render

/-!
# Round trips of patches

A written patch is read hunk by hunk.  Reading stops at the first line that reads like the end marker,
after the hunk that has it, and nothing that is read has an untrimmed path, an empty context or a chunk
marked as the end of the file.
-/

namespace OpenCorvus.Patch

open Utf16 List PatchLine ChunkText HunkText

lemma startsWith_append (marker text : Units) : startsWith (marker ++ text) marker = true :=
  decide_eq_true (prefix_append marker text)

variable {marker text line : Units} {tail lines : List Units}

lemma startsWith_append_eq_false {start : Units} (hlength : start.length ≤ marker.length)
    (h : ¬start <+: marker) : startsWith (marker ++ text) start = false := by
  refine decide_eq_false fun hprefix => h ?_
  exact prefix_of_prefix_length_le hprefix (prefix_append marker text) hlength

def EndsChunk (lines : List Units) : Prop :=
  ∀ line ∈ lines.head?, startsWith line AT_SIGNS ∨ startsWith line STARS

lemma PatchLine.startsWith_render_eq_false (line : PatchLine) :
    startsWith line.render AT_SIGNS = false ∧ startsWith line.render STARS = false := by
  have hsigns : AT_SIGNS = [0x40, 0x40] := by decide
  have hstars : STARS = [0x2A, 0x2A, 0x2A] := by decide
  have hkeep : ofString " " = [0x20] := by decide
  have hremove : ofString "-" = [0x2D] := by decide
  have hinsert : ofString "+" = [0x2B] := by decide
  cases line with
  | keep => simp [render, startsWith, hsigns, hstars, hkeep]
  | remove => simp [render, startsWith, hsigns, hstars, hremove]
  | insert => simp [render, startsWith, hsigns, hstars, hinsert]

lemma parseChangeLines_render (changes : List PatchLine) (htail : EndsChunk tail) :
    parseChangeLines (changes.map PatchLine.render ++ tail) =
      ⟨changes.filterMap PatchLine.old?, changes.filterMap PatchLine.new?, false, tail⟩ := by
  induction changes with
  | nil =>
    cases tail with
    | nil => rfl
    | cons line =>
      have hline : startsWith line AT_SIGNS ∨ startsWith line STARS := htail line rfl
      simp [parseChangeLines, hline]
  | cons change _ ih =>
    obtain ⟨hsigns, hstars⟩ := change.startsWith_render_eq_false
    have hnot : ¬(startsWith change.render AT_SIGNS ∨ startsWith change.render STARS) := by simp [hsigns, hstars]
    have heof : change.render ≠ END_OF_FILE := by
      intro h
      rw [h] at hstars
      exact absurd hstars (by decide)
    rw [map_cons, cons_append, parseChangeLines, if_neg hnot, if_neg heof, ih]
    have hkeep : ofString " " = [0x20] := by decide
    have hremove : ofString "-" = [0x2D] := by decide
    have hinsert : ofString "+" = [0x2B] := by decide
    cases change with
    | keep => simp [PatchLine.render, startsWith, PatchLine.old?, PatchLine.new?, hkeep]
    | remove =>
      simp [PatchLine.render, startsWith, filterMap_cons, PatchLine.old?, PatchLine.new?, hkeep, hremove]
    | insert =>
      simp [PatchLine.render, startsWith, filterMap_cons, PatchLine.old?, PatchLine.new?, hkeep, hremove, hinsert]

lemma behind_append (h : trim text = text) : behind marker (marker ++ (ofString " " ++ text)) = text := by
  have hwhite : (ofString " " ++ text).dropWhile isWhiteSpace = text.dropWhile isWhiteSpace :=
    dropWhile_cons_of_pos (by decide)
  rw [behind, drop_left, trim, hwhite]
  exact h

lemma readContext_render {context : Option Units} (h : ∀ text ∈ context, text ≠ [] ∧ IsTrimmedLine text) :
    (if behind AT_SIGNS (renderContext context) = [] then none else some (behind AT_SIGNS (renderContext context))) =
      context := by
  cases context with
  | none => decide
  | some text =>
    obtain ⟨hne, htrim, -⟩ := h text rfl
    rw [renderContext, behind_append htrim, if_neg hne]

lemma startsWith_renderContext (context : Option Units) :
    startsWith (renderContext context) AT_SIGNS = true ∧ startsWith (renderContext context) STARS = false := by
  cases context with
  | none => decide
  | some =>
    refine ⟨startsWith_append _ _, ?_⟩
    have hsigns : AT_SIGNS = [0x40, 0x40] := by decide
    have hstars : STARS = [0x2A, 0x2A, 0x2A] := by decide
    simp [renderContext, startsWith, hsigns, hstars]

def EndsHunk (lines : List Units) : Prop := ∀ line ∈ lines.head?, startsWith line STARS

lemma EndsHunk.endsChunk_flatMap_render (htail : EndsHunk tail) (chunks : List ChunkText) :
    EndsChunk (chunks.flatMap ChunkText.render ++ tail) := by
  intro line hline
  cases chunks with
  | nil => exact Or.inr (htail line (by simpa using hline))
  | cons chunk =>
    have hfirst : renderContext chunk.context = line := by simpa [ChunkText.render] using hline
    exact Or.inl (hfirst ▸ (startsWith_renderContext chunk.context).1)

lemma parseUpdateFileChunks_render {chunks : List ChunkText} (hplain : ∀ chunk ∈ chunks, chunk.chunk.Plain)
    (htail : EndsHunk tail) :
    parseUpdateFileChunks (chunks.flatMap ChunkText.render ++ tail) = (chunks.map ChunkText.chunk, tail) := by
  induction chunks with
  | nil =>
    cases tail with
    | nil => simp [parseUpdateFileChunks]
    | cons line =>
      have hline : startsWith line STARS = true := htail line rfl
      simp [parseUpdateFileChunks, hline]
  | cons chunk chunks ih =>
    have hcontext : ∀ text ∈ chunk.context, text ≠ [] ∧ IsTrimmedLine text := (hplain chunk mem_cons_self).1
    have hmark : chunk.endOfFile = false := (hplain chunk mem_cons_self).2
    obtain ⟨hsigns, hstars⟩ := startsWith_renderContext chunk.context
    have hlines : (chunk :: chunks).flatMap ChunkText.render ++ tail = renderContext chunk.context ::
          (chunk.lines.map PatchLine.render ++ (chunks.flatMap ChunkText.render ++ tail)) := by
      simp [ChunkText.render, hmark]
    have hchanges := parseChangeLines_render chunk.lines (htail.endsChunk_flatMap_render chunks)
    rw [hlines, parseUpdateFileChunks, if_neg (by simp [hstars]), if_pos hsigns]
    dsimp only
    rw [hchanges]
    dsimp only
    rw [ih fun other hother => hplain other (mem_cons_of_mem _ hother), readContext_render hcontext]
    simp [ChunkText.chunk, hmark]

lemma parseAddFileContent_render (contents : Units) (htail : EndsHunk tail) :
    parseAddFileContent (((splitLines contents).map fun line => ofString "+" ++ line) ++ tail) = (contents, tail) := by
  have hstars : ∀ line ∈ (splitLines contents).map fun line => ofString "+" ++ line, startsWith line STARS = false := by
    intro line hline
    obtain ⟨_, -, rfl⟩ := List.mem_map.mp hline
    have hinsert : ofString "+" = [0x2B] := by decide
    have hstars : STARS = [0x2A, 0x2A, 0x2A] := by decide
    simp [startsWith, hinsert, hstars]
  have htake : tail.takeWhile (fun line => ¬startsWith line STARS) = [] := by
    cases tail with
    | nil => rfl
    | cons line =>
      have hline : startsWith line STARS = true := htail line rfl
      simp [hline]
  have hdrop : tail.dropWhile (fun line => ¬startsWith line STARS) = tail := by
    cases tail with
    | nil => rfl
    | cons line =>
      have hline : startsWith line STARS = true := htail line rfl
      simp [hline]
  have hcontent : addedContent (((splitLines contents).map fun line => ofString "+" ++ line) ++ tail) =
      contents ++ [newline] := by
    rw [addedContent, takeWhile_append_of_pos (fun line hline => by simp [hstars line hline]), htake,
      List.append_nil, filter_eq_self.mpr, flatMap_map]
    · have hbody : ∀ line : Units, (ofString "+" ++ line).drop 1 ++ [newline] = line ++ [newline] := fun _ => rfl
      simp only [hbody]
      rw [flatMap_concat_newline (splitLines_ne_nil contents), joinLines_splitLines]
    · intro line hline
      obtain ⟨_, -, rfl⟩ := List.mem_map.mp hline
      exact startsWith_append _ _
  have hrest : (((splitLines contents).map fun line => ofString "+" ++ line) ++ tail).dropWhile
      (fun line => ¬startsWith line STARS) = tail := by
    rw [dropWhile_append_of_pos (fun line hline => by simp [hstars line hline]), hdrop]
  rw [parseAddFileContent, hcontent, hrest]
  simp

/-- Which of the markers a line begins with is the one it is written with. -/
lemma startsWith_renderHeader (path : Units) : startsWith (renderHeader DELETE_FILE path) ADD_FILE = false ∧
      startsWith (renderHeader UPDATE_FILE path) ADD_FILE = false ∧
        startsWith (renderHeader UPDATE_FILE path) DELETE_FILE = false := by
  refine ⟨startsWith_append_eq_false (by decide) (by decide), startsWith_append_eq_false (by decide) (by decide), ?_⟩
  -- The marker of an updated file is as long as that of a deleted one.
  exact startsWith_append_eq_false (by decide) (by decide)

lemma HunkText.endsHunk_render (hunk : HunkText) (tail : List Units) : EndsHunk (hunk.render ++ tail) := by
  intro line hline
  have hheader : ∀ {marker path : Units}, STARS <+: marker → startsWith (renderHeader marker path) STARS = true :=
    fun hmarker => decide_eq_true (hmarker.trans (prefix_append _ _))
  cases hunk with
  | add path =>
    have hfirst : renderHeader ADD_FILE path = line := by simpa [render] using hline
    exact hfirst ▸ hheader (by decide)
  | delete path =>
    have hfirst : renderHeader DELETE_FILE path = line := by simpa [render] using hline
    exact hfirst ▸ hheader (by decide)
  | update path =>
    have hfirst : renderHeader UPDATE_FILE path = line := by simpa [render] using hline
    exact hfirst ▸ hheader (by decide)

lemma endsHunk_renderBody (hunks : List HunkText) : EndsHunk (renderBody hunks) := by
  cases hunks with
  | nil =>
    intro line hline
    obtain rfl : endMarker = line := by simpa [renderBody] using hline
    decide
  | cons hunk =>
    rw [renderBody, flatMap_cons, append_assoc]
    exact hunk.endsHunk_render _

lemma startsWith_moveTo_eq_false (chunks : List ChunkText) (hunks : List HunkText)
    (h : (chunks.flatMap ChunkText.render ++ renderBody hunks).head? = some line) :
    startsWith line MOVE_TO = false := by
  cases chunks with
  | cons chunk =>
    obtain rfl : renderContext chunk.context = line := by simpa [ChunkText.render] using h
    cases chunk.context with
    | none => decide
    | some text =>
      have hsigns : AT_SIGNS = [0x40, 0x40] := by decide
      refine decide_eq_false fun hprefix => ?_
      have hfirst : MOVE_TO.take 1 <+: renderContext (some text) := ( take_prefix 1 _).trans hprefix
      rw [renderContext, hsigns] at hfirst
      have hne : ¬MOVE_TO.take 1 <+: [0x40] := by decide
      exact hne (prefix_of_prefix_length_le hfirst ⟨0x40 :: (ofString " " ++ text), rfl⟩ (by decide))
  | nil =>
    cases hunks with
    | nil =>
      obtain rfl : endMarker = line := by simpa [renderBody] using h
      decide
    | cons hunk =>
      have hmarker : ∀ {marker path : Units}, MOVE_TO.length ≤ marker.length → ¬MOVE_TO <+: marker →
          startsWith (renderHeader marker path) MOVE_TO = false :=
        fun hlength hne => startsWith_append_eq_false hlength hne
      cases hunk with
      | add path =>
        obtain rfl : renderHeader ADD_FILE path = line := by simpa [renderBody, HunkText.render] using h
        exact hmarker (by decide) (by decide)
      | delete path =>
        obtain rfl : renderHeader DELETE_FILE path = line := by simpa [renderBody, HunkText.render] using h
        exact hmarker (by decide) (by decide)
      | update path =>
        obtain rfl : renderHeader UPDATE_FILE path = line := by simpa [renderBody, HunkText.render] using h
        exact hmarker (by decide) (by decide)

lemma parsePatchHeader_update {path : Units} {movePath : Option Units}
    (hpath : path ≠ [] ∧ IsTrimmedLine path) (hmove : ∀ target ∈ movePath, IsTrimmedLine target)
    (htail : ∀ line, tail.head? = some line → startsWith line MOVE_TO = false) :
    parsePatchHeader (renderHeader UPDATE_FILE path :: (movePath.toList.map (renderHeader MOVE_TO) ++ tail)) =
      some ⟨path, movePath, tail⟩ := by
  obtain ⟨-, hadd, hdelete⟩ := startsWith_renderHeader path
  have hupdate : startsWith (renderHeader UPDATE_FILE path) UPDATE_FILE = true := startsWith_append _ _
  have hbehind : behind UPDATE_FILE (renderHeader UPDATE_FILE path) = path := behind_append hpath.2.1
  unfold parsePatchHeader
  dsimp only
  rw [if_neg (by simp [hadd]), if_neg (by simp [hdelete]), if_pos hupdate, hbehind]
  rw [if_neg hpath.1]
  cases movePath with
  | some target =>
    have hto : startsWith (renderHeader MOVE_TO target) MOVE_TO = true := startsWith_append _ _
    have hread : behind MOVE_TO (renderHeader MOVE_TO target) = target := behind_append (hmove target rfl).1
    simp [hto, hread]
  | none =>
    cases tail with
    | nil => rfl
    | cons line => simp [htail line rfl]

lemma parseHunks_render {stop : ℕ} {hunk : HunkText} (hplain : hunk.hunk.Plain) (hunks : List HunkText)
    (hstop : stop < (hunk.render ++ renderBody hunks).length) :
    parseHunks stop (hunk.render ++ renderBody hunks) = hunk.hunk :: parseHunks stop (renderBody hunks) := by
  have hend := endsHunk_renderBody hunks
  cases hunk with
  | add path contents =>
    have hadd : startsWith (renderHeader ADD_FILE path) ADD_FILE = true := startsWith_append _ _
    have hbehind : behind ADD_FILE (renderHeader ADD_FILE path) = path := behind_append hplain.2.1
    have hheader : ∀ rest, parsePatchHeader (renderHeader ADD_FILE path :: rest) = some ⟨path, none, rest⟩ := by
      intro rest
      unfold parsePatchHeader
      dsimp only
      rw [if_pos hadd, hbehind, if_neg hplain.1]
    rw [HunkText.render, cons_append] at hstop ⊢
    rw [parseHunks_of_header hstop (hheader _), if_pos hadd, parseAddFileContent_render contents hend]
    rfl
  | delete path =>
    have hadd : startsWith (renderHeader DELETE_FILE path) ADD_FILE = false := (startsWith_renderHeader path).1
    have hdelete : startsWith (renderHeader DELETE_FILE path) DELETE_FILE = true := startsWith_append _ _
    have hbehind : behind DELETE_FILE (renderHeader DELETE_FILE path) = path := behind_append hplain.2.1
    have hheader : ∀ rest, parsePatchHeader (renderHeader DELETE_FILE path :: rest) = some ⟨path, none, rest⟩ := by
      intro rest
      unfold parsePatchHeader
      dsimp only
      rw [if_neg (by simp [hadd]), if_pos hdelete, hbehind, if_neg hplain.1]
    rw [HunkText.render, cons_append] at hstop ⊢
    rw [parseHunks_of_header hstop (hheader _), if_neg (by simp [hadd]), if_pos hdelete]
    rfl
  | update path _ chunks =>
    obtain ⟨hpath, hmove, hchunks⟩ := hplain
    obtain ⟨-, hadd, hdelete⟩ := startsWith_renderHeader path
    have hupdate : startsWith (renderHeader UPDATE_FILE path) UPDATE_FILE = true := startsWith_append _ _
    have hheader := parsePatchHeader_update hpath hmove fun line => startsWith_moveTo_eq_false chunks hunks
    have hbody := parseUpdateFileChunks_render
      (fun chunk hchunk => hchunks chunk.chunk (List.mem_map_of_mem hchunk)) hend
    rw [HunkText.render, cons_append, append_assoc] at hstop ⊢
    rw [parseHunks_of_header hstop hheader, if_neg (by simp [hadd]), if_neg (by simp [hdelete]), if_pos hupdate, hbody]
    rfl

def reached : List HunkText → List HunkText
  | [] => []
  | hunk :: hunks =>
    if ∃ line ∈ hunk.render, trim line = endMarker then [hunk] else hunk :: reached hunks

def fromEnd (lines : List Units) : List Units := lines.dropWhile fun line => ¬trim line = endMarker

lemma parseHunks_renderBody {hunks : List HunkText} (hplain : ∀ hunk ∈ hunks, hunk.hunk.Plain) :
    parseHunks (fromEnd (renderBody hunks)).length (renderBody hunks) = (reached hunks).map HunkText.hunk := by
  induction hunks with
  | nil =>
    have hend : renderBody [] = [endMarker] := rfl
    rw [hend, parseHunks_of_length_le (by decide)]
    rfl
  | cons hunk hunks ih =>
    have hbody : renderBody (hunk :: hunks) = hunk.render ++ renderBody hunks := by simp [renderBody]
    have hhunk := hplain hunk mem_cons_self
    have hhunks : ∀ other ∈ hunks, other.hunk.Plain := fun other hother => hplain other (mem_cons_of_mem _ hother)
    obtain ⟨header, below, hrender, hheader⟩ : ∃ header below, hunk.render = header :: below ∧ trim header ≠ endMarker := by
      cases hunk <;> exact ⟨_, _, rfl, trim_renderHeader_ne (by simp)⟩
    have hstop : (fromEnd (hunk.render ++ renderBody hunks)).length < (hunk.render ++ renderBody hunks).length := by
      have hdrop : fromEnd (hunk.render ++ renderBody hunks) = fromEnd (below ++ renderBody hunks) := by
        rw [hrender, cons_append, fromEnd, dropWhile_cons_of_pos (by simp [hheader]), fromEnd]
      have hle : (fromEnd (below ++ renderBody hunks)).length ≤ (below ++ renderBody hunks).length :=
        (dropWhile_sublist _).length_le
      rw [hdrop, hrender, cons_append, length_cons]
      exact Nat.lt_succ_of_le hle
    rw [hbody, parseHunks_render hhunk hunks hstop]
    by_cases hends : ∃ line ∈ hunk.render, trim line = endMarker
    · -- The end marker is read inside the hunk: nothing below the hunk is before it.
      have hne : hunk.render.dropWhile (fun line => ¬trim line = endMarker) ≠ [] := by
        obtain ⟨line, hline, hend⟩ := hends
        intro hnil
        exact absurd hend (by simpa using dropWhile_eq_nil_iff.mp hnil line hline)
      have hfrom : fromEnd (hunk.render ++ renderBody hunks) =
          hunk.render.dropWhile (fun line => ¬trim line = endMarker) ++ renderBody hunks := by
        rw [fromEnd, dropWhile_append, if_neg (by simpa using hne)]
      have hstopped : parseHunks (fromEnd (hunk.render ++ renderBody hunks)).length (renderBody hunks) = [] := by
        rw [hfrom, length_append]
        exact parseHunks_of_length_le (Nat.le_add_left _ _)
      rw [hstopped, reached, if_pos hends]
      rfl
    · have hfrom : fromEnd (hunk.render ++ renderBody hunks) = fromEnd (renderBody hunks) := by
        refine dropWhile_append_of_pos fun line hline => ?_
        have hnot : trim line ≠ endMarker := fun hend => hends ⟨line, hline, hend⟩
        simp [hnot]
      rw [hfrom, ih hhunks, reached, if_neg hends]
      rfl

lemma findIdx?_eq_some_of_mem (h : ∃ line ∈ lines, trim line = endMarker) :
    ∃ i, (lines.findIdx? fun line => trim line = endMarker) = some i ∧ lines.length - i = (fromEnd lines).length := by
  induction lines with
  | nil =>
    obtain ⟨_, hline, -⟩ := h
    exact absurd hline not_mem_nil
  | cons line rest ih =>
    by_cases hline : trim line = endMarker
    · exact ⟨0, by simp [findIdx?_cons, hline], by simp [fromEnd, hline]⟩
    · have hrest : ∃ line ∈ rest, trim line = endMarker := by simpa [hline] using h
      obtain ⟨i, hfind, hlength⟩ := ih hrest
      refine ⟨i + 1, by simp [findIdx?_cons, hline, hfind], ?_⟩
      rw [fromEnd, dropWhile_cons_of_pos (by simp [hline]), ← fromEnd, ← hlength]
      simp

lemma parsePatch_renderPatch {hunks : List HunkText} (hplain : ∀ hunk ∈ hunks, hunk.hunk.Plain) :
    parsePatch (renderPatch hunks) = .ok ((reached hunks).map HunkText.hunk) := by
  have hbegin : ((beginMarker :: renderBody hunks).findIdx? fun line => trim line = beginMarker) = some 0 := by
    have hmarker : trim beginMarker = beginMarker := by decide
    simp [findIdx?_cons, hmarker]
  have hmem : ∃ line ∈ renderBody hunks, trim line = endMarker :=
    ⟨endMarker, mem_append_right _ mem_cons_self, by decide⟩
  obtain ⟨i, hfind, hlength⟩ := findIdx?_eq_some_of_mem hmem
  have hend : ((beginMarker :: renderBody hunks).findIdx? fun line => trim line = endMarker) = some (i + 1) := by
    have hmarker : trim beginMarker ≠ endMarker := by decide
    simp [findIdx?_cons, hmarker, hfind]
  rw [parsePatch, splitLines_stripHeredoc_renderPatch hplain, hbegin, hend]
  dsimp only
  rw [if_neg (Nat.not_succ_le_zero i), length_cons, Nat.add_sub_add_right, hlength]
  exact congrArg Except.ok (parseHunks_renderBody hplain)

lemma isTrimmedLine_behind (h : newline ∉ line) : IsTrimmedLine (behind marker line) := by
  refine ⟨trim_trim _, fun hmem => h ?_⟩
  exact (drop_sublist _ _).subset ((trim_sublist _).subset hmem)

lemma plain_of_parsePatchHeader {rest : List Units} {header : Header}
    (hlines : ∀ text ∈ line :: rest, newline ∉ text) (h : parsePatchHeader (line :: rest) = some header) :
    (header.filePath ≠ [] ∧ IsTrimmedLine header.filePath) ∧ ∀ target ∈ header.movePath, IsTrimmedLine target := by
  have hline : ∀ marker, IsTrimmedLine (behind marker line) :=
    fun marker => isTrimmedLine_behind (hlines line mem_cons_self)
  unfold parsePatchHeader at h
  dsimp only at h
  split_ifs at h with hadd hempty hdelete hempty hupdate hempty
  · cases h
    exact ⟨⟨hempty, hline _⟩, fun _ htarget => absurd htarget (by simp)⟩
  · cases h
    exact ⟨⟨hempty, hline _⟩, fun _ htarget => absurd htarget (by simp)⟩
  · cases h
    refine ⟨⟨hempty, hline _⟩, fun target htarget => ?_⟩
    cases rest with
    | nil => exact absurd htarget (by simp)
    | cons next =>
      dsimp only at htarget
      split_ifs at htarget
      · obtain rfl : behind MOVE_TO next = target := Option.mem_some.mp htarget
        exact isTrimmedLine_behind (hlines next (by simp))
      · exact absurd htarget (by simp)

/-- No chunk is read as one that is marked. -/
lemma isEndOfFile_parseChangeLines (lines : List Units) : (parseChangeLines lines).isEndOfFile = false := by
  induction lines with
  | nil => rfl
  | cons _ _ ih =>
    unfold parseChangeLines
    split_ifs with hends heof
    · rfl
    · -- The mark begins with stars, so it ends the chunk instead.
      subst heof
      exact absurd (Or.inr (by decide)) hends
    · exact ih
    · exact ih
    · exact ih
    · exact ih

lemma plain_of_mem_parseUpdateFileChunks (hlines : ∀ text ∈ lines, newline ∉ text) :
    ∀ chunk ∈ (parseUpdateFileChunks lines).1, chunk.Plain := by
  induction lines using parseUpdateFileChunks.induct with
  | case1 => simp [parseUpdateFileChunks]
  | case2 _ _ hstars => simp [parseUpdateFileChunks, hstars]
  | case3 line rest hstars hsigns _ ih =>
    rw [parseUpdateFileChunks, if_neg hstars, if_pos hsigns]
    intro chunk hchunk
    rcases mem_cons.mp hchunk with rfl | hchunk
    · refine ⟨fun context hcontext => ?_, isEndOfFile_parseChangeLines rest⟩
      split_ifs at hcontext with hempty
      · exact absurd hcontext (by simp)
      · obtain rfl : behind AT_SIGNS line = context := Option.mem_some.mp hcontext
        exact ⟨hempty, isTrimmedLine_behind (hlines line mem_cons_self)⟩
    · refine ih (fun text htext => hlines text (mem_cons_of_mem _ ?_)) chunk hchunk
      exact (rest_parseChangeLines_suffix rest).subset htext
  | case4 _ _ hstars hsigns ih =>
    rw [parseUpdateFileChunks, if_neg hstars, if_neg hsigns]
    exact ih fun text htext => hlines text (mem_cons_of_mem _ htext)

lemma plain_of_mem_parseHunks {stop : ℕ} (hlines : ∀ text ∈ lines, newline ∉ text) :
    ∀ hunk ∈ parseHunks stop lines, hunk.Plain := by
  induction hn : lines.length using Nat.strong_induction_on generalizing lines with
  | _ n ih =>
    have hbelow : ∀ {others : List Units}, others <:+ lines.tail → lines ≠ [] →
        ∀ hunk ∈ parseHunks stop others, hunk.Plain := by
      intro others hsuffix hne
      have hlt : others.length < n := by
        have htail := hsuffix.length_le
        have hpos := length_pos_iff.mpr hne
        rw [length_tail] at htail
        omega
      refine ih _ hlt (fun text htext => hlines text ?_) rfl
      exact (tail_sublist lines).subset (hsuffix.subset htext)
    by_cases hstop : lines.length ≤ stop
    · simp [parseHunks_of_length_le hstop]
    · cases lines with
      | nil => simp [parseHunks]
      | cons line rest =>
        have hstop' := Nat.not_le.mp hstop
        cases hheader : parsePatchHeader (line :: rest) with
        | none =>
          rw [parseHunks_of_header_eq_none hstop' hheader]
          exact hbelow (suffix_refl rest) (cons_ne_nil _ _)
        | some =>
          obtain ⟨hpath, hmove⟩ := plain_of_parsePatchHeader hlines hheader
          have hsuffix := rest_parsePatchHeader_suffix hheader
          have hne := cons_ne_nil line rest
          rw [parseHunks_of_header hstop' hheader]
          intro hunk hhunk
          split_ifs at hhunk
          · rcases mem_cons.mp hhunk with rfl | hhunk
            · exact hpath
            · exact hbelow ((rest_parseAddFileContent_suffix _).trans hsuffix) hne hunk hhunk
          · rcases mem_cons.mp hhunk with rfl | hhunk
            · exact hpath
            · exact hbelow hsuffix hne hunk hhunk
          · rcases mem_cons.mp hhunk with rfl | hhunk
            · refine ⟨hpath, hmove, plain_of_mem_parseUpdateFileChunks fun text htext => hlines text ?_⟩
              exact mem_cons_of_mem _ (hsuffix.subset htext)
            · exact hbelow ((rest_parseUpdateFileChunks_suffix _).trans hsuffix) hne hunk hhunk
          · exact hbelow (suffix_refl rest) hne hunk hhunk

lemma plain_of_parsePatch {hunks : List Hunk} (h : parsePatch text = .ok hunks) : ∀ hunk ∈ hunks, hunk.Plain := by
  unfold parsePatch at h
  dsimp only at h
  split at h
  · split_ifs at h
    · cases h
      refine plain_of_mem_parseHunks fun line hline => ?_
      exact newline_notMem_of_mem_splitLines (mem_of_mem_drop hline)
  · cases h

lemma reached_eq_self_iff (hunks : List HunkText) :
    reached hunks = hunks ↔ ∀ hunk ∈ hunks.dropLast, ¬hunk.EndsPatch := by
  induction hunks with
  | nil => simp [reached]
  | cons hunk hunks ih =>
    cases hunks with
    | nil => simp [reached]
    | cons =>
      rw [reached, dropLast_cons_cons]
      split_ifs with hends
      · have hends' : hunk.EndsPatch := hunk.exists_mem_render_iff.mp hends
        simp [hends']
      · have hends' : ¬hunk.EndsPatch := fun h => hends (hunk.exists_mem_render_iff.mpr h)
        rw [cons_inj_right, ih]
        simp [hends']

lemma reached_isPrefix (hunks : List HunkText) : reached hunks <+: hunks := by
  induction hunks with
  | nil => exact prefix_refl []
  | cons _ hunks ih =>
    unfold reached
    split_ifs
    · exact ⟨hunks, rfl⟩
    · exact cons_prefix_cons.mpr ⟨rfl, ih⟩

/-- A written patch is read back if and only if its paths and contexts are trimmed lines, no chunk is marked as
the end of the file, and no hunk but the last keeps a line that reads like the end marker. -/
theorem parsePatch_renderPatch_eq_iff (hunks : List HunkText) :
    parsePatch (renderPatch hunks) = .ok (hunks.map HunkText.hunk) ↔
      (∀ hunk ∈ hunks, hunk.hunk.Plain) ∧ ∀ hunk ∈ hunks.dropLast, ¬hunk.EndsPatch := by
  constructor
  · intro h
    have hplain : ∀ hunk ∈ hunks, hunk.hunk.Plain :=
      fun hunk hhunk => plain_of_parsePatch h hunk.hunk (List.mem_map_of_mem hhunk)
    refine ⟨hplain, (reached_eq_self_iff hunks).mp ?_⟩
    rw [parsePatch_renderPatch hplain] at h
    have hmap : (reached hunks).map hunk = hunks.map hunk := Except.ok.inj h
    have hlength : (reached hunks).length = hunks.length := by simpa using congrArg List.length hmap
    exact (reached_isPrefix hunks).eq_of_length hlength
  · rintro ⟨hplain, hends⟩
    rw [parsePatch_renderPatch hplain, (reached_eq_self_iff hunks).mpr hends]

/-- A marked chunk and one below it: the mark is not read, and the hunk ends there. -/
theorem parsePatch_renderPatch_endOfFile :
    let line : LineText := ⟨ofString "a", by decide⟩
    let other : LineText := ⟨ofString "b", by decide⟩
    let hunks : List HunkText := [.update (ofString "f") none [⟨none, [.keep line], true⟩, ⟨none, [.remove other], false⟩]]
    parsePatch (renderPatch hunks) =
        .ok [.update (ofString "f") none [⟨[ofString "a"], [ofString "a"], none, false⟩]] ∧
      parsePatch (renderPatch hunks) ≠ .ok (hunks.map HunkText.hunk) := by
  decide +kernel

end OpenCorvus.Patch
