import OpenCorvus.Patch.Parse

/-!
# Writing patches

A hunk with the lines that it is written in, and the text of a patch: between the two markers a header
for each hunk, the added lines of an added file, and the chunks of an updated one.
-/

namespace OpenCorvus.Patch

open Utf16 List

abbrev LineText : Type := {text : Units // newline ∉ text}

inductive PatchLine where
  | keep (text : LineText)
  | remove (text : LineText)
  | insert (text : LineText)

def PatchLine.render : PatchLine → Units
  | .keep text => ofString " " ++ text.1
  | .remove text => ofString "-" ++ text.1
  | .insert text => ofString "+" ++ text.1

def PatchLine.old? : PatchLine → Option Units
  | .keep text => some text.1
  | .remove text => some text.1
  | .insert _ => none

def PatchLine.new? : PatchLine → Option Units
  | .keep text => some text.1
  | .remove _ => none
  | .insert text => some text.1

structure ChunkText where
  context : Option Units
  lines : List PatchLine
  endOfFile : Bool

def ChunkText.chunk (chunk : ChunkText) : UpdateFileChunk where
  oldLines := chunk.lines.filterMap PatchLine.old?
  newLines := chunk.lines.filterMap PatchLine.new?
  changeContext := chunk.context
  isEndOfFile := chunk.endOfFile

/-- The line that begins a chunk. -/
def renderContext : Option Units → Units
  | none => AT_SIGNS
  | some context => AT_SIGNS ++ (ofString " " ++ context)

def ChunkText.render (chunk : ChunkText) : List Units :=
  renderContext chunk.context :: (chunk.lines.map PatchLine.render ++ if chunk.endOfFile then [END_OF_FILE] else [])

inductive HunkText where
  | add (path contents : Units)
  | delete (path : Units)
  | update (path : Units) (movePath : Option Units) (chunks : List ChunkText)

def HunkText.hunk : HunkText → Hunk
  | .add path contents => .add path contents
  | .delete path => .delete path
  | .update path movePath chunks => .update path movePath (chunks.map ChunkText.chunk)

def renderHeader (marker path : Units) : Units := marker ++ (ofString " " ++ path)

def HunkText.render : HunkText → List Units
  | .add path contents =>
    renderHeader ADD_FILE path :: (splitLines contents).map fun line => ofString "+" ++ line
  | .delete path => [renderHeader DELETE_FILE path]
  | .update path movePath chunks =>
    renderHeader UPDATE_FILE path ::
      (movePath.toList.map (renderHeader MOVE_TO) ++ chunks.flatMap ChunkText.render)

def renderBody (hunks : List HunkText) : List Units := hunks.flatMap HunkText.render ++ [endMarker]

def renderPatch (hunks : List HunkText) : Units := joinLines (beginMarker :: renderBody hunks)

def IsTrimmedLine (text : Units) : Prop := trim text = text ∧ newline ∉ text

def UpdateFileChunk.Plain (chunk : UpdateFileChunk) : Prop :=
  (∀ context ∈ chunk.changeContext, context ≠ [] ∧ IsTrimmedLine context) ∧ chunk.isEndOfFile = false

def Hunk.Plain : Hunk → Prop
  | .add path _ => path ≠ [] ∧ IsTrimmedLine path
  | .delete path => path ≠ [] ∧ IsTrimmedLine path
  | .update path movePath chunks =>
    (path ≠ [] ∧ IsTrimmedLine path) ∧ (∀ target ∈ movePath, IsTrimmedLine target) ∧ ∀ chunk ∈ chunks, chunk.Plain

def PatchLine.EndsPatch : PatchLine → Prop
  | .keep text => trim text.1 = endMarker
  | .remove _ => False
  | .insert _ => False

def HunkText.EndsPatch : HunkText → Prop
  | .add _ _ => False
  | .delete _ => False
  | .update _ _ chunks => ∃ chunk ∈ chunks, ∃ line ∈ chunk.lines, line.EndsPatch

lemma newline_notMem_renderHeader {marker path : Units} (hmarker : newline ∉ marker) (hpath : newline ∉ path) :
    newline ∉ renderHeader marker path := by
  have hspace : newline ∉ ofString " " := by decide
  simp [renderHeader, hmarker, hspace, hpath]

lemma PatchLine.newline_notMem_render (line : PatchLine) : newline ∉ line.render := by
  have hkeep : newline ∉ ofString " " := by decide
  have hremove : newline ∉ ofString "-" := by decide
  have hinsert : newline ∉ ofString "+" := by decide
  cases line with
  | keep text => simp [render, hkeep, text.2]
  | remove text => simp [render, hremove, text.2]
  | insert text => simp [render, hinsert, text.2]

lemma newline_notMem_renderContext {context : Option Units} (h : ∀ text ∈ context, newline ∉ text) :
    newline ∉ renderContext context := by
  have hsigns : newline ∉ AT_SIGNS := by decide
  have hspace : newline ∉ ofString " " := by decide
  cases context with
  | none => exact hsigns
  | some text => simp [renderContext, hsigns, hspace, h text rfl]

variable {line : Units}

lemma ChunkText.newline_notMem_of_mem_render {chunk : ChunkText} (hplain : chunk.chunk.Plain)
    (h : line ∈ chunk.render) : newline ∉ line := by
  have hcontext : ∀ text ∈ chunk.context, newline ∉ text := fun text htext => (hplain.1 text htext).2.2
  have hmark : chunk.endOfFile = false := hplain.2
  rw [ChunkText.render, hmark] at h
  rcases mem_cons.mp h with rfl | h
  · exact newline_notMem_renderContext hcontext
  · obtain ⟨change, -, rfl⟩ := List.mem_map.mp (by simpa using h)
    exact change.newline_notMem_render

lemma HunkText.newline_notMem_of_mem_render {hunk : HunkText} (hplain : hunk.hunk.Plain) (h : line ∈ hunk.render) :
    newline ∉ line := by
  cases hunk with
  | add =>
    rcases mem_cons.mp h with rfl | h
    · exact newline_notMem_renderHeader (by decide) hplain.2.2
    · obtain ⟨_, hcontent, rfl⟩ := List.mem_map.mp h
      have hplus : newline ∉ ofString "+" := by decide
      simp [hplus, newline_notMem_of_mem_splitLines hcontent]
  | delete =>
    obtain rfl := mem_singleton.mp h
    exact newline_notMem_renderHeader (by decide) hplain.2.2
  | update =>
    obtain ⟨hpath, hmove, hchunks⟩ := hplain
    rcases mem_cons.mp h with rfl | h
    · exact newline_notMem_renderHeader (by decide) hpath.2.2
    · rcases mem_append.mp h with h | h
      · obtain ⟨target, htarget, rfl⟩ := List.mem_map.mp h
        exact newline_notMem_renderHeader (by decide) (hmove target (Option.mem_toList.mp htarget)).2
      · obtain ⟨chunk, hchunk, h⟩ := mem_flatMap.mp h
        exact chunk.newline_notMem_of_mem_render (hchunks _ (List.mem_map_of_mem hchunk)) h

lemma newline_notMem_of_mem_renderBody {hunks : List HunkText} (hplain : ∀ hunk ∈ hunks, hunk.hunk.Plain)
    (h : line ∈ renderBody hunks) : newline ∉ line := by
  rcases mem_append.mp h with h | h
  · obtain ⟨hunk, hhunk, h⟩ := mem_flatMap.mp h
    exact hunk.newline_notMem_of_mem_render (hplain hunk hhunk) h
  · obtain rfl := mem_singleton.mp h
    decide

lemma trim_ne_endMarker {marker text : Units} {first last : UInt16} (hfirst : marker.head? = some first)
    (hlast : marker.getLast? = some last) (hfirst' : isWhiteSpace first = false)
    (hlast' : isWhiteSpace last = false) (hmarker : ¬marker <+: endMarker) : trim (marker ++ text) ≠ endMarker := by
  intro h
  have hstart : marker <+: trim (marker ++ text) := prefix_trim_append hfirst hlast hfirst' hlast'
  exact hmarker (h ▸ hstart)

lemma PatchLine.trim_render_eq_endMarker_iff (line : PatchLine) : trim line.render = endMarker ↔ line.EndsPatch := by
  cases line with
  | keep text =>
    have hspace : trim (ofString " " ++ text.1) = trim text.1 := by
      have hwhite : (ofString " " ++ text.1).dropWhile isWhiteSpace = text.1.dropWhile isWhiteSpace :=
        dropWhile_cons_of_pos (by decide)
      rw [trim, hwhite, trim]
    rw [render, hspace, EndsPatch]
  | remove text =>
    have hne : trim (ofString "-" ++ text.1) ≠ endMarker :=
      trim_ne_endMarker rfl rfl (by decide) (by decide) (by decide)
    simp [render, EndsPatch, hne]
  | insert text =>
    have hne : trim (ofString "+" ++ text.1) ≠ endMarker :=
      trim_ne_endMarker rfl rfl (by decide) (by decide) (by decide)
    simp [render, EndsPatch, hne]

lemma trim_renderHeader_ne {marker path : Units} (hmarker : marker ∈ [ADD_FILE, DELETE_FILE, UPDATE_FILE, MOVE_TO]) :
    trim (renderHeader marker path) ≠ endMarker := by
  have hmarkers : ∀ marker ∈ [ADD_FILE, DELETE_FILE, UPDATE_FILE, MOVE_TO],
      marker.head? = some 0x2A ∧ marker.getLast? = some 0x3A ∧ ¬marker <+: endMarker := by decide +kernel
  obtain ⟨hfirst, hlast, hprefix⟩ := hmarkers marker hmarker
  exact trim_ne_endMarker hfirst hlast (by decide) (by decide) hprefix

lemma trim_renderContext_ne (context : Option Units) : trim (renderContext context) ≠ endMarker := by
  cases context with
  | none => decide
  | some => exact trim_ne_endMarker rfl rfl (by decide) (by decide) (by decide)

lemma ChunkText.exists_mem_render_iff (chunk : ChunkText) :
    (∃ line ∈ chunk.render, trim line = endMarker) ↔ ∃ line ∈ chunk.lines, line.EndsPatch := by
  constructor
  · rintro ⟨line, hline, hend⟩
    rcases mem_cons.mp hline with rfl | hline
    · exact absurd hend (trim_renderContext_ne _)
    · rcases mem_append.mp hline with hline | hline
      · obtain ⟨change, hchange, rfl⟩ := List.mem_map.mp hline
        exact ⟨change, hchange, change.trim_render_eq_endMarker_iff.mp hend⟩
      · have hmark : line = END_OF_FILE := by
          split_ifs at hline
          · exact mem_singleton.mp hline
          · exact absurd hline not_mem_nil
        subst hmark
        exact absurd hend (by decide)
  · rintro ⟨change, hchange, hend⟩
    refine ⟨change.render, ?_, change.trim_render_eq_endMarker_iff.mpr hend⟩
    exact mem_cons_of_mem _ (mem_append_left _ (List.mem_map_of_mem hchange))

lemma HunkText.exists_mem_render_iff (hunk : HunkText) :
    (∃ line ∈ hunk.render, trim line = endMarker) ↔ hunk.EndsPatch := by
  cases hunk with
  | add =>
    refine ⟨?_, False.elim⟩
    rintro ⟨_, hline, hend⟩
    rcases mem_cons.mp hline with rfl | hline
    · exact trim_renderHeader_ne (by simp) hend
    · obtain ⟨_, -, rfl⟩ := List.mem_map.mp hline
      exact trim_ne_endMarker rfl rfl (by decide) (by decide) (by decide) hend
  | delete =>
    refine ⟨?_, False.elim⟩
    rintro ⟨_, hline, hend⟩
    obtain rfl := mem_singleton.mp hline
    exact trim_renderHeader_ne (by simp) hend
  | update =>
    constructor
    · rintro ⟨line, hline, hend⟩
      rcases mem_cons.mp hline with rfl | hline
      · exact absurd hend (trim_renderHeader_ne (by simp))
      · rcases mem_append.mp hline with hline | hline
        · obtain ⟨_, -, rfl⟩ := List.mem_map.mp hline
          exact absurd hend (trim_renderHeader_ne (by simp))
        · obtain ⟨chunk, hchunk, hline⟩ := mem_flatMap.mp hline
          exact ⟨chunk, hchunk, chunk.exists_mem_render_iff.mp ⟨line, hline, hend⟩⟩
    · rintro ⟨chunk, hchunk, hends⟩
      obtain ⟨line, hline, hend⟩ := chunk.exists_mem_render_iff.mpr hends
      refine ⟨line, ?_, hend⟩
      exact mem_cons_of_mem _ (mem_append_right _ (mem_flatMap.mpr ⟨chunk, hchunk, hline⟩))

lemma trim_renderPatch (hunks : List HunkText) : trim (renderPatch hunks) = renderPatch hunks := by
  obtain ⟨_, hbelow⟩ := prefix_joinLines beginMarker (renderBody hunks)
  obtain ⟨above, habove⟩ := suffix_joinLines (beginMarker :: hunks.flatMap HunkText.render) endMarker
  have hfirst : (renderPatch hunks).head? = some 0x2A := by
    rw [renderPatch, ← hbelow]
    rfl
  have hlast : (renderPatch hunks).getLast? = some 0x68 := by
    have hjoin : renderPatch hunks = above ++ endMarker := habove.symm
    rw [hjoin, getLast?_append]
    rfl
  exact trim_eq_self hfirst hlast (by decide) (by decide)

lemma stripHeredoc_cons_star (text : Units) : stripHeredoc (0x2A :: text) = 0x2A :: text := by
  have hcat : startsWith (0x2A :: text) (ofString "cat") = false := by
    have hlit : ofString "cat" = [0x63, 0x61, 0x74] := by decide
    simp [startsWith, hlit]
  have hopen : startsWith (0x2A :: text) (ofString "<<") = false := by
    have hlit : ofString "<<" = [0x3C, 0x3C] := by decide
    simp [startsWith, hlit]
  have hnone : heredocOpening (0x2A :: text) = none := by simp [heredocOpening, hcat, hopen]
  rw [stripHeredoc, hnone]

lemma splitLines_stripHeredoc_renderPatch {hunks : List HunkText} (hplain : ∀ hunk ∈ hunks, hunk.hunk.Plain) :
    splitLines (stripHeredoc (trim (renderPatch hunks))) = beginMarker :: renderBody hunks := by
  have hstrip : stripHeredoc (renderPatch hunks) = renderPatch hunks := by
    obtain ⟨below, hbelow⟩ := prefix_joinLines beginMarker (renderBody hunks)
    have hstar : renderPatch hunks = 0x2A :: (beginMarker.tail ++ below) := by
      rw [renderPatch, ← hbelow]
      rfl
    rw [hstar, stripHeredoc_cons_star]
  rw [trim_renderPatch, hstrip, renderPatch, splitLines_joinLines]
  · intro line hline
    rcases mem_cons.mp hline with rfl | hline
    · decide
    · exact newline_notMem_of_mem_renderBody hplain hline
  · exact cons_ne_nil _ _

end OpenCorvus.Patch
