import Mathlib.Data.List.Forall2
import OpenCorvus.Patch.Replacements

/-!
# Chunks touch the lines they match

The intervals of the recorded replacements are disjoint.  Making them one after another is making them at
once, unless a chunk is matched up to an empty last line before which other chunks add something.
-/

namespace OpenCorvus.Patch

open Utf16 Splice List

variable {filePath : Units} {lines : List Units}

def matched (lines : List Units) (lineIndex : ℕ) (chunk : UpdateFileChunk) : Option (Replacement Units) :=
  if chunk.oldLines = [] then none
  else (seekContext lines lineIndex chunk).bind fun next => seekOldLines lines next chunk

def Records (lines : List Units) (chunk : UpdateFileChunk) (r : Replacement Units) : Prop :=
  (chunk.oldLines = [] ∧ r = ⟨insertionIdx lines, 0, chunk.newLines⟩) ∨ (chunk.oldLines ≠ [] ∧ 0 < r.size)

variable {before next progress : Progress} {chunk : UpdateFileChunk} {r : Replacement Units}
  {chunks : List UpdateFileChunk}

lemma recordChunk_cases (h : recordChunk filePath lines before chunk = .ok next) :
    ∃ r, next.replacements = before.replacements ++ [r] ∧
      ((chunk.oldLines = [] ∧ r = ⟨insertionIdx lines, 0, chunk.newLines⟩ ∧
          seekContext lines before.lineIndex chunk = some next.lineIndex) ∨
        (chunk.oldLines ≠ [] ∧ matched lines before.lineIndex chunk = some r ∧ next.lineIndex = r.stop)) := by
  unfold recordChunk at h
  split at h
  · cases h
  · rename_i lineIndex hcontext
    split_ifs at h with hold
    · cases h
      exact ⟨_, rfl, Or.inl ⟨hold, rfl, hcontext⟩⟩
    · split at h
      · cases h
      · rename_i r hr
        cases h
        refine ⟨r, rfl, Or.inr ⟨hold, ?_, rfl⟩⟩
        rw [matched, if_neg hold, hcontext]
        exact hr

lemma bounds_of_matched {lineIndex : ℕ} (hle : lineIndex ≤ lines.length)
    (h : matched lines lineIndex chunk = some r) :
    0 < r.size ∧ lineIndex ≤ r.start ∧ r.stop ≤ lines.length := by
  unfold matched at h
  split_ifs at h
  obtain ⟨_, hcontext, hold⟩ := Option.bind_eq_some_iff.mp h
  obtain ⟨hsize, hstart, hstop⟩ := bounds_of_seekOldLines hold
  exact ⟨hsize, (bounds_of_seekContext hle hcontext).1.trans hstart, hstop⟩

/-- Additions stand at the end of the lines, replaced intervals before the cursor and in order. -/
structure Recorded (lines : List Units) (progress : Progress) : Prop where
  lineIndex_le : progress.lineIndex ≤ lines.length
  each : ∀ r ∈ progress.replacements,
    (r.size = 0 ∧ r.start = insertionIdx lines) ∨ (0 < r.size ∧ r.stop ≤ progress.lineIndex)
  ordered : progress.replacements.Pairwise fun r s => 0 < r.size → 0 < s.size → r.stop ≤ s.start

lemma Recorded.recordChunk (hbefore : Recorded lines before)
    (h : recordChunk filePath lines before chunk = .ok next) : Recorded lines next := by
  obtain ⟨r, hreplacements, ⟨-, rfl, hcontext⟩ | ⟨-, hmatched, hindex⟩⟩ := recordChunk_cases h
  · obtain ⟨hge, hle⟩ := bounds_of_seekContext hbefore.lineIndex_le hcontext
    refine ⟨hle, fun s hs => ?_, ?_⟩
    · rw [hreplacements] at hs
      rcases mem_append.mp hs with hs | hs
      · exact (hbefore.each s hs).imp_right fun ⟨hsize, hstop⟩ => ⟨hsize, hstop.trans hge⟩
      · obtain rfl := mem_singleton.mp hs
        exact Or.inl ⟨rfl, rfl⟩
    · rw [hreplacements]
      refine pairwise_append.mpr ⟨hbefore.ordered, pairwise_singleton _ _, fun s hs t ht _ hpos => ?_⟩
      obtain rfl := mem_singleton.mp ht
      exact absurd hpos (Nat.lt_irrefl 0)
  · obtain ⟨hsize, hstart, hstop⟩ := bounds_of_matched hbefore.lineIndex_le hmatched
    refine ⟨hindex ▸ hstop, fun s hs => ?_, ?_⟩
    · rw [hreplacements] at hs
      rcases mem_append.mp hs with hs | hs
      · refine (hbefore.each s hs).imp_right fun ⟨hsize, hle⟩ => ⟨hsize, ?_⟩
        exact hindex ▸ (hle.trans hstart).trans r.start_le_stop
      · obtain rfl := mem_singleton.mp hs
        exact Or.inr ⟨hsize, hindex.ge⟩
    · rw [hreplacements]
      refine pairwise_append.mpr ⟨hbefore.ordered, pairwise_singleton _ _, fun s hs t ht hpos _ => ?_⟩
      obtain rfl := mem_singleton.mp ht
      rcases hbefore.each s hs with ⟨hzero, -⟩ | ⟨-, hle⟩
      · exact absurd hzero hpos.ne'
      · exact hle.trans hstart

lemma exists_records_of_foldlM (h : chunks.foldlM (recordChunk filePath lines) before = .ok next) :
    ∃ added, next.replacements = before.replacements ++ added ∧ List.Forall₂ (Records lines) chunks added := by
  induction chunks generalizing before with
  | nil =>
    cases h
    exact ⟨[], (List.append_nil _).symm, List.Forall₂.nil⟩
  | cons chunk _ ih =>
    rw [foldlM_cons] at h
    cases hchunk : recordChunk filePath lines before chunk with
    | error =>
      rw [hchunk] at h
      cases h
    | ok =>
      rw [hchunk] at h
      obtain ⟨added, hadded, hforall⟩ := ih h
      obtain ⟨r, hr, hcases⟩ := recordChunk_cases hchunk
      refine ⟨r :: added, by rw [hadded, hr, append_assoc, singleton_append], List.Forall₂.cons ?_ hforall⟩
      rcases hcases with ⟨hold, rfl, -⟩ | ⟨hold, hmatched, -⟩
      · exact Or.inl ⟨hold, rfl⟩
      · refine Or.inr ⟨hold, ?_⟩
        unfold matched at hmatched
        split_ifs at hmatched
        obtain ⟨_, -, hseek⟩ := Option.bind_eq_some_iff.mp hmatched
        exact (bounds_of_seekOldLines hseek).1

lemma Recorded.foldlM (hbefore : Recorded lines before)
    (h : chunks.foldlM (Patch.recordChunk filePath lines) before = .ok next) : Recorded lines next := by
  induction chunks generalizing before with
  | nil =>
    cases h
    exact hbefore
  | cons chunk _ ih =>
    rw [foldlM_cons] at h
    cases hchunk : Patch.recordChunk filePath lines before chunk with
    | error =>
      rw [hchunk] at h
      cases h
    | ok =>
      rw [hchunk] at h
      exact ih (hbefore.recordChunk hchunk) h

lemma recorded_of_recordChunks (h : recordChunks filePath lines chunks = .ok progress) :
    Recorded lines progress := by
  have hstart : Recorded lines ⟨[], 0⟩ := ⟨Nat.zero_le _, fun _ hr => absurd hr not_mem_nil, List.Pairwise.nil⟩
  exact hstart.foldlM h

lemma exists_addition_iff {rs : List (Replacement Units)} (h : List.Forall₂ (Records lines) chunks rs)
    (P : Units → Prop) :
    (∃ r ∈ rs, r.size = 0 ∧ ∃ line ∈ r.segment, P line) ↔
      ∃ chunk ∈ chunks, chunk.oldLines = [] ∧ ∃ line ∈ chunk.newLines, P line := by
  induction h with
  | nil => simp
  | cons hfirst _ ih =>
    simp only [mem_cons, exists_eq_or_imp, ih]
    rcases hfirst with ⟨hold, rfl⟩ | ⟨hold, hsize⟩
    · simp [hold]
    · simp [hold, hsize.ne']

structure Laid (lines : List Units) (rs : List (Replacement Units)) : Prop where
  each : ∀ r ∈ rs, (r.size = 0 ∧ r.start = insertionIdx lines) ∨ (0 < r.size ∧ r.stop ≤ lines.length)
  ordered : rs.Pairwise fun r s => 0 < r.size → 0 < s.size → r.stop ≤ s.start

lemma Recorded.laid (h : Recorded lines progress) : Laid lines progress.replacements :=
  ⟨fun r hr => (h.each r hr).imp_right fun ⟨hsize, hstop⟩ => ⟨hsize, hstop.trans h.lineIndex_le⟩, h.ordered⟩

lemma insertionIdx_cases (lines : List Units) :
    insertionIdx lines = lines.length ∨ (lines.getLast? = some [] ∧ insertionIdx lines + 1 = lines.length) := by
  unfold insertionIdx
  split_ifs with hlast
  · have hpos : 0 < lines.length := length_pos_of_mem (mem_of_getLast? hlast)
    exact Or.inr ⟨hlast, Nat.sub_add_cancel hpos⟩
  · exact Or.inl rfl

variable {rs : List (Replacement Units)}

def inOrder (rs : List (Replacement Units)) : List (Replacement Units) :=
  EcmaScript.toSorted (fun a b => compare a.start b.start) rs

section

variable (h : Laid lines rs)

include h

lemma Laid.start_le : ∀ r ∈ rs, r.start ≤ insertionIdx lines := by
  intro r hr
  rcases h.each r hr with ⟨-, hstart⟩ | ⟨_, hstop⟩
  · exact hstart.le
  · unfold Replacement.stop at hstop
    rcases insertionIdx_cases lines with _ | ⟨-, _⟩ <;> omega

lemma Laid.stop_le : ∀ r ∈ rs, r.stop ≤ lines.length := by
  intro r hr
  rcases h.each r hr with ⟨_, _⟩ | ⟨-, hstop⟩
  · unfold Replacement.stop
    rcases insertionIdx_cases lines with _ | ⟨-, _⟩ <;> omega
  · exact hstop

lemma Laid.size_pos_of_lt (hr : r ∈ rs) (hlt : r.start < insertionIdx lines) : 0 < r.size := by
  rcases h.each r hr with ⟨-, hstart⟩ | ⟨hsize, -⟩
  · exact absurd hstart hlt.ne
  · exact hsize

lemma Laid.chain_before : Chain (rs.filter fun r => r.start < insertionIdx lines) := by
  have hsub := h.ordered.sublist (filter_sublist (p := fun r => decide (r.start < insertionIdx lines)))
  refine hsub.imp_of_mem fun {r s} hr hs hle => hle ?_ ?_
  · exact h.size_pos_of_lt (mem_filter.mp hr).1 (by simpa using (mem_filter.mp hr).2)
  · exact h.size_pos_of_lt (mem_filter.mp hs).1 (by simpa using (mem_filter.mp hs).2)

lemma Laid.inOrder_eq :
    inOrder rs = (rs.filter fun r => r.start < insertionIdx lines) ++ rs.filter fun r => r.start = insertionIdx lines :=
  EcmaScript.toSorted_eq_filter_append h.start_le (h.chain_before.imp fun {r _} hle => r.start_le_stop.trans hle)

/-- No position is in two of the intervals. -/
lemma Laid.pairwise_disjoint : (inOrder rs).Pairwise Replacement.Disjoint := by
  have hrecorded : rs.Pairwise Replacement.Disjoint := by
    refine h.ordered.imp fun {r s} hle i hi => ?_
    obtain ⟨⟨_, hir⟩, _, his⟩ := hi
    have hr : 0 < r.size := by
      unfold Replacement.stop at hir
      omega
    have hs : 0 < s.size := by
      unfold Replacement.stop at his
      omega
    have hstop := hle hr hs
    omega
  refine (Perm.pairwise_iff ?_ (EcmaScript.toSorted_perm _ rs)).mpr hrecorded
  exact fun {r s} hdisjoint i hi => hdisjoint i hi.symm

/-- Where no interval reaches over the place of additions, everything follows one another. -/
lemma Laid.chain (hstop : ∀ r ∈ rs, r.stop ≤ insertionIdx lines) : Chain (inOrder rs) := by
  have hlast : ∀ r ∈ rs.filter fun r => r.start = insertionIdx lines, r.start = insertionIdx lines := by simp
  rw [h.inOrder_eq]
  refine pairwise_append.mpr ⟨h.chain_before, ?_, fun r hr s hs => ?_⟩
  · refine pairwise_iff_forall_sublist.mpr fun {r s} hsub => ?_
    have hr := hsub.subset (show r ∈ [r, s] by simp)
    have hs := hsub.subset (show s ∈ [r, s] by simp)
    exact (hstop r (mem_filter.mp hr).1).trans (hlast s hs).ge
  · exact (hstop r (mem_filter.mp hr).1).trans (hlast s hs).ge

end

def behindMatch (lines : List Units) (before : List (Replacement Units)) (r : Replacement Units)
    (after : List (Replacement Units)) : List (Replacement Units) :=
  if r.start + 1 = r.stop then after else (before.filter fun s => s.start = insertionIdx lines) ++ after

variable {before after : List (Replacement Units)} {r : Replacement Units}

lemma Laid.addition_of_mem_after (h : Laid lines (before ++ r :: after)) (hsize : 0 < r.size)
    (hstop : r.stop = lines.length) : ∀ s ∈ after, s.start = insertionIdx lines ∧ s.size = 0 := by
  intro s hs
  have hmem : s ∈ before ++ r :: after := mem_append_right _ (mem_cons_of_mem r hs)
  rcases h.each s hmem with ⟨hzero, hstart⟩ | ⟨hpos, _⟩
  · exact ⟨hstart, hzero⟩
  · have hrest := (pairwise_append.mp h.ordered).2.1
    have hafter := (pairwise_cons.mp hrest).1 s hs hsize hpos
    unfold Replacement.stop at *
    omega

lemma Laid.inOrder_split (h : Laid lines (before ++ r :: after)) (hlast : lines.getLast? = some [])
    (hsize : 0 < r.size) (hstop : r.stop = lines.length) :
    ∃ front, inOrder (before ++ r :: after) = front ++ r :: behindMatch lines before r after ∧ Chain (front ++ [r]) ∧
      ∀ s ∈ behindMatch lines before r after, s.start = insertionIdx lines ∧ s.size = 0 := by
  have hidx : insertionIdx lines + 1 = lines.length := by
    rcases insertionIdx_cases lines with hidx | ⟨-, hidx⟩
    · have hpos : 0 < lines.length := length_pos_of_mem (mem_of_getLast? hlast)
      rw [insertionIdx, if_pos hlast] at hidx
      omega
    · exact hidx
  have hafter := h.addition_of_mem_after hsize hstop
  have hbeforeStop : ∀ s ∈ before, 0 < s.size → s.stop ≤ r.start := fun s hs hpos =>
    (pairwise_append.mp h.ordered).2.2 s hs r mem_cons_self hpos hsize
  have hchain : Chain ((before.filter fun s => s.start < insertionIdx lines) ++ [r]) := by
    have hlaid : Laid lines before :=
      ⟨fun s hs => h.each s (mem_append_left _ hs), (pairwise_append.mp h.ordered).1⟩
    refine pairwise_append.mpr ⟨hlaid.chain_before, pairwise_singleton _ _, fun s hs t ht => ?_⟩
    obtain rfl := mem_singleton.mp ht
    obtain ⟨hs, hlt⟩ := mem_filter.mp hs
    exact hbeforeStop s hs (hlaid.size_pos_of_lt hs (by simpa using hlt))
  have hafterLt : (after.filter fun s => s.start < insertionIdx lines) = [] :=
    filter_eq_nil_iff.mpr fun s hs => by simp [(hafter s hs).1]
  have hafterEq : (after.filter fun s => s.start = insertionIdx lines) = after :=
    filter_eq_self.mpr fun s hs => by simp [(hafter s hs).1]
  rw [h.inOrder_eq, filter_append, filter_append, behindMatch]
  by_cases hone : r.start + 1 = r.stop
  · -- The interval is the empty line alone: the additions before it stay before it.
    have hstart : r.start = insertionIdx lines := by omega
    rw [filter_cons_of_neg (by simp [hstart]), filter_cons_of_pos (by simp [hstart]), hafterLt, hafterEq,
      List.append_nil, if_pos hone]
    refine ⟨(before.filter fun s => s.start < insertionIdx lines) ++
      before.filter fun s => s.start = insertionIdx lines, by simp, ?_, hafter⟩
    have hadditions : ∀ s ∈ before.filter fun s => s.start = insertionIdx lines, s.stop = r.start := by
      intro s hs
      obtain ⟨hs, hs'⟩ := mem_filter.mp hs
      have hs' : s.start = insertionIdx lines := by simpa using hs'
      rcases h.each s (mem_append_left _ hs) with ⟨hzero, -⟩ | ⟨hpos, -⟩
      · simp [Replacement.stop, hzero, hs', hstart]
      · have hle := hbeforeStop s hs hpos
        unfold Replacement.stop at *
        omega
    obtain ⟨hfront, -, hcross⟩ := pairwise_append.mp hchain
    rw [append_assoc]
    refine pairwise_append.mpr ⟨hfront, pairwise_append.mpr ⟨?_, pairwise_singleton _ _, ?_⟩, ?_⟩
    · refine pairwise_iff_forall_sublist.mpr fun {s t} hsub => ?_
      have hs := hsub.subset (show s ∈ [s, t] by simp)
      have ht := hsub.subset (show t ∈ [s, t] by simp)
      have ht' : t.start = insertionIdx lines := by simpa using (mem_filter.mp ht).2
      rw [hadditions s hs, ht', hstart]
    · intro s hs t ht
      obtain rfl := mem_singleton.mp ht
      exact (hadditions s hs).le
    · intro s hs t ht
      rcases mem_append.mp ht with ht | ht
      · have ht' : t.start = insertionIdx lines := by simpa using (mem_filter.mp ht).2
        rw [ht', ← hstart]
        exact hcross s hs r (mem_singleton.mpr rfl)
      · exact hcross s hs t ht
  · have hlt : r.start < insertionIdx lines := by
      have hle := h.start_le r (by simp)
      unfold Replacement.stop at *
      omega
    rw [filter_cons_of_pos (by simp [hlt]), filter_cons_of_neg (by simp [hlt.ne]), hafterLt, hafterEq,
      if_neg hone]
    refine ⟨before.filter fun s => s.start < insertionIdx lines, by simp, hchain, fun s hs => ?_⟩
    rcases mem_append.mp hs with hs | hs
    · obtain ⟨hs, hs'⟩ := mem_filter.mp hs
      have hs' : s.start = insertionIdx lines := by simpa using hs'
      rcases h.each s (mem_append_left _ hs) with ⟨hzero, -⟩ | ⟨hpos, -⟩
      · exact ⟨hs', hzero⟩
      · have hle := (s.start_le_stop.trans (hbeforeStop s hs hpos))
        omega
    · exact hafter s hs

lemma recordChunks_append {before after : List UpdateFileChunk}
    (h : recordChunks filePath lines (before ++ chunk :: after) = .ok progress) :
    ∃ mid next, recordChunks filePath lines before = .ok mid ∧ recordChunk filePath lines mid chunk = .ok next ∧
      after.foldlM (recordChunk filePath lines) next = .ok progress := by
  rw [recordChunks, foldlM_append] at h
  cases hbefore : before.foldlM (recordChunk filePath lines) ⟨[], 0⟩ with
  | error =>
    rw [hbefore] at h
    cases h
  | ok mid =>
    rw [hbefore] at h
    change (chunk :: after).foldlM (recordChunk filePath lines) mid = .ok progress at h
    rw [foldlM_cons] at h
    cases hchunk : recordChunk filePath lines mid chunk with
    | error =>
      rw [hchunk] at h
      cases h
    | ok next =>
      rw [hchunk] at h
      exact ⟨mid, next, hbefore, hchunk, h⟩

lemma replacements_of_matched {before after : List UpdateFileChunk} {mid : Progress}
    (h : recordChunks filePath lines (before ++ chunk :: after) = .ok progress)
    (hmid : recordChunks filePath lines before = .ok mid) (hr : matched lines mid.lineIndex chunk = some r) :
    ∃ added, progress.replacements = mid.replacements ++ r :: added ∧
      List.Forall₂ (Records lines) before mid.replacements ∧ List.Forall₂ (Records lines) after added := by
  obtain ⟨mid', _, hmid', hchunk, hafter⟩ := recordChunks_append h
  obtain rfl : mid' = mid := Except.ok.inj (hmid'.symm.trans hmid)
  obtain ⟨r', hnext, ⟨hold, -, -⟩ | ⟨-, hmatched, -⟩⟩ := recordChunk_cases hchunk
  · rw [matched, if_pos hold] at hr
    cases hr
  · obtain rfl : r' = r := Option.some.inj (hmatched.symm.trans hr)
    obtain ⟨added, hadded, hforall⟩ := exists_records_of_foldlM hafter
    obtain ⟨first, hfirst, hbefore⟩ := exists_records_of_foldlM hmid
    have hfirst' : mid'.replacements = first := hfirst
    refine ⟨added, ?_, hfirst' ▸ hbefore, hforall⟩
    rw [hadded, hnext, append_assoc, singleton_append]

lemma exists_matched_of_replacements (h : recordChunks filePath lines chunks = .ok progress)
    (hreplacements : progress.replacements = before ++ r :: after) (hsize : 0 < r.size) :
    ∃ first chunk rest mid, chunks = first ++ chunk :: rest ∧ recordChunks filePath lines first = .ok mid ∧
      mid.replacements = before ∧ matched lines mid.lineIndex chunk = some r := by
  obtain ⟨all, hall, hforall⟩ := exists_records_of_foldlM h
  have hlength : chunks.length = before.length + (after.length + 1) := by
    have hall' : before ++ r :: after = all := hreplacements.symm.trans hall
    rw [hforall.length_eq, ← hall', length_append, length_cons]
  obtain ⟨chunk, rest, hrest⟩ : ∃ chunk rest, chunks.drop before.length = chunk :: rest :=
    exists_cons_of_length_pos (by rw [length_drop]; omega)
  have hchunks : chunks = chunks.take before.length ++ chunk :: rest := by
    rw [← hrest, take_append_drop]
  rw [hchunks] at h
  obtain ⟨mid, _, hmid, hchunk, hafter⟩ := recordChunks_append h
  obtain ⟨first, hfirst, hfirstAll⟩ := exists_records_of_foldlM hmid
  obtain ⟨added, hadded, -⟩ := exists_records_of_foldlM hafter
  obtain ⟨s, hs, hcases⟩ := recordChunk_cases hchunk
  have hfirst' : mid.replacements = first := hfirst
  have hlengthFirst : before.length = mid.replacements.length := by
    rw [hfirst', ← hfirstAll.length_eq, length_take_of_le (by omega)]
  have hsplit : before ++ r :: after = mid.replacements ++ s :: added := by
    rw [← hreplacements, hadded, hs, append_assoc, singleton_append]
  obtain ⟨hbefore, htail⟩ := List.append_inj hsplit hlengthFirst
  obtain ⟨rfl, -⟩ := cons.inj htail
  refine ⟨chunks.take before.length, chunk, rest, mid, hchunks, hmid, hbefore.symm, ?_⟩
  rcases hcases with ⟨-, rfl, -⟩ | ⟨-, hmatched, -⟩
  · exact absurd hsize (Nat.lt_irrefl 0)
  · exact hmatched

def AddsBehindMatch (filePath : Units) (lines : List Units) (chunks : List UpdateFileChunk) : Prop :=
  ∃ before chunk after progress r, chunks = before ++ chunk :: after ∧
    recordChunks filePath lines before = .ok progress ∧ matched lines progress.lineIndex chunk = some r ∧
    lines.getLast? = some [] ∧ r.stop = lines.length ∧
    ∃ addition ∈ if r.start + 1 = r.stop then after else before ++ after,
      addition.oldLines = [] ∧ ∃ line ∈ addition.newLines, line ≠ []

lemma exists_mem_behindMatch_iff {first rest : List UpdateFileChunk} (hlaid : Laid lines (before ++ r :: after))
    (hsize : 0 < r.size) (hlast : lines.getLast? = some []) (hstop : r.stop = lines.length)
    (hbefore : List.Forall₂ (Records lines) first before) (hafter : List.Forall₂ (Records lines) rest after) :
    (∃ s ∈ behindMatch lines before r after, ∃ line ∈ s.segment, line ≠ []) ↔
      ∃ addition ∈ if r.start + 1 = r.stop then rest else first ++ rest,
        addition.oldLines = [] ∧ ∃ line ∈ addition.newLines, line ≠ [] := by
  obtain ⟨-, -, -, hbehind⟩ := hlaid.inOrder_split hlast hsize hstop
  have hadditions : (∃ s ∈ behindMatch lines before r after, ∃ line ∈ s.segment, line ≠ []) ↔
      ∃ s ∈ (if r.start + 1 = r.stop then after else before ++ after), s.size = 0 ∧ ∃ line ∈ s.segment, line ≠ [] := by
    constructor
    · rintro ⟨s, hs, hline⟩
      refine ⟨s, ?_, (hbehind s hs).2, hline⟩
      unfold behindMatch at hs
      split_ifs at hs ⊢
      · exact hs
      · exact (mem_append.mp hs).elim (fun hs => mem_append_left _ (mem_filter.mp hs).1)
          (mem_append_right _)
    · rintro ⟨s, hs, hzero, hline⟩
      refine ⟨s, ?_, hline⟩
      unfold behindMatch
      split_ifs at hs ⊢
      · exact hs
      · rcases mem_append.mp hs with hs | hs
        · have hstart : s.start = insertionIdx lines := by
            rcases hlaid.each s (mem_append_left _ hs) with ⟨-, hstart⟩ | ⟨hpos, -⟩
            · exact hstart
            · exact absurd hzero hpos.ne'
          exact mem_append_left _ (mem_filter.mpr ⟨hs, by simpa using hstart⟩)
        · exact mem_append_right _ hs
  rw [hadditions]
  split_ifs
  · exact exists_addition_iff hafter _
  · exact exists_addition_iff (rel_append hbefore hafter) _

/-- The recorded intervals are disjoint, and making the replacements one after another is making them at once if
and only if nothing but empty lines is added behind a match that reaches to an empty last line. -/
theorem applyReplacements_eq_simultaneous_iff {chunks : List UpdateFileChunk} {replacements : List (Replacement Units)}
    (h : computeReplacements lines filePath chunks = .ok replacements) :
    replacements.Pairwise Replacement.Disjoint ∧
      (applyReplacements lines replacements = simultaneous replacements lines ↔
        ¬AddsBehindMatch filePath lines chunks) := by
  unfold computeReplacements at h
  cases hrecord : recordChunks filePath lines chunks with
  | error =>
    rw [hrecord] at h
    cases h
  | ok progress =>
    rw [hrecord] at h
    obtain rfl : inOrder progress.replacements = replacements := Except.ok.inj h
    have hlaid := (recorded_of_recordChunks hrecord).laid
    refine ⟨hlaid.pairwise_disjoint, ?_⟩
    rw [applyReplacements_eq_spliceAll]
    -- What a match up to an empty last line leads to.
    have hreach : ∀ {first rest : List UpdateFileChunk} {before after : List (Replacement Units)}
        {r : Replacement Units}, progress.replacements = before ++ r :: after → 0 < r.size →
        lines.getLast? = some [] → r.stop = lines.length → List.Forall₂ (Records lines) first before →
        List.Forall₂ (Records lines) rest after →
        (spliceAll (inOrder progress.replacements) lines = simultaneous (inOrder progress.replacements) lines ↔
          ¬∃ addition ∈ if r.start + 1 = r.stop then rest else first ++ rest,
            addition.oldLines = [] ∧ ∃ line ∈ addition.newLines, line ≠ []) := by
      intro first rest before after r hreplacements hsize hlast hstop hbefore hafter
      rw [hreplacements] at hlaid ⊢
      rw [← exists_mem_behindMatch_iff hlaid hsize hlast hstop hbefore hafter]
      obtain ⟨_, hinOrder, hchain, hbehind⟩ := hlaid.inOrder_split hlast hsize hstop
      obtain ⟨start, rfl⟩ := getLast?_eq_some_iff.mp hlast
      have hidx : insertionIdx (start ++ [[]]) = start.length := by simp [insertionIdx]
      have hstop' : r.stop = start.length + 1 := by simpa using hstop
      have hstart : r.start ≤ start.length := by
        unfold Replacement.stop at hstop'
        omega
      rw [hinOrder, spliceAll_behind_eq_simultaneous_iff hchain hstart hstop' fun s hs => hidx ▸ hbehind s hs]
      simp
    by_cases hmatch : ∃ r ∈ progress.replacements, insertionIdx lines < r.stop
    · obtain ⟨r, hr, hlt⟩ := hmatch
      have hle := hlaid.stop_le r hr
      obtain ⟨hlast, hidx⟩ : lines.getLast? = some [] ∧ insertionIdx lines + 1 = lines.length :=
        (insertionIdx_cases lines).resolve_left fun hidx => by omega
      have hstop : r.stop = lines.length := by omega
      have hsize : 0 < r.size := by
        have hstart := hlaid.start_le r hr
        unfold Replacement.stop at hlt
        omega
      obtain ⟨_, _, hreplacements⟩ := append_of_mem hr
      obtain ⟨first, chunk, rest, mid, rfl, hmid, rfl, hmatched⟩ :=
        exists_matched_of_replacements hrecord hreplacements hsize
      obtain ⟨_, hadded, hbefore, hafter⟩ := replacements_of_matched hrecord hmid hmatched
      rw [hreach hadded hsize hlast hstop hbefore hafter]
      refine not_congr ⟨fun hadds => ⟨first, chunk, rest, mid, r, rfl, hmid, hmatched, hlast, hstop, hadds⟩, ?_⟩
      rintro ⟨_, _, _, _, _, hchunks, hmid', hmatched', -, hstop', hadds⟩
      have hrecord' := hrecord
      rw [hchunks] at hrecord'
      obtain ⟨_, hadded', hbefore', hafter'⟩ := replacements_of_matched hrecord' hmid' hmatched'
      have hsize' := (bounds_of_matched (recorded_of_recordChunks hmid').lineIndex_le hmatched').1
      have hiff := (hreach hadded' hsize' hlast hstop' hbefore' hafter').symm.trans
        (hreach hadded hsize hlast hstop hbefore hafter)
      exact not_not.mp fun hnone => hiff.mpr hnone hadds
    · have hno : ∀ r ∈ progress.replacements, r.stop ≤ insertionIdx lines :=
        fun r hr => Nat.not_lt.mp fun hlt => hmatch ⟨r, hr, hlt⟩
      have hstops : ∀ r ∈ inOrder progress.replacements, r.stop ≤ lines.length :=
        fun r hr => hlaid.stop_le r (EcmaScript.mem_toSorted.mp hr)
      refine iff_of_true (spliceAll_eq_simultaneous (hlaid.chain hno) hstops) ?_
      rintro ⟨_, _, _, _, r, rfl, hmid, hmatched, hlast, _, -⟩
      obtain ⟨_, hadded, -, -⟩ := replacements_of_matched hrecord hmid hmatched
      have hle := hno r (hadded ▸ mem_append_right _ mem_cons_self)
      have hpos : 0 < lines.length := length_pos_of_mem (mem_of_getLast? hlast)
      rw [insertionIdx, if_pos hlast] at hle
      omega

/-- A line is replaced, and one is added at the end. -/
theorem applyReplacements_eq_simultaneous_iff_two_chunks :
    let lines := originalLines (ofString "a\n")
    let chunks : List UpdateFileChunk :=
      [⟨[], [ofString "x"], none, false⟩, ⟨[ofString "a"], [ofString "b"], none, false⟩]
    let replacements : List (Replacement Units) := [⟨0, 1, [ofString "b"]⟩, ⟨1, 0, [ofString "x"]⟩]
    replacements.Pairwise Replacement.Disjoint ∧
      (applyReplacements lines replacements = simultaneous replacements lines ↔
        ¬AddsBehindMatch (ofString "f") lines chunks) :=
  applyReplacements_eq_simultaneous_iff (by decide)

/-- A line is added before the empty last line, which is then replaced with the line before it: what was added is
lost. -/
theorem applyReplacements_ne_simultaneous_blank_line :
    let lines := originalLines (ofString "a\n\n")
    let chunks : List UpdateFileChunk :=
      [⟨[], [ofString "x"], none, false⟩, ⟨[ofString "a", []], [ofString "b", []], none, false⟩]
    let replacements : List (Replacement Units) := [⟨0, 2, [ofString "b", []]⟩, ⟨1, 0, [ofString "x"]⟩]
    computeReplacements lines (ofString "f") chunks = .ok replacements ∧
      applyReplacements lines replacements = [ofString "b", [], []] ∧
        simultaneous replacements lines = [ofString "b", [], ofString "x"] := by
  decide

end OpenCorvus.Patch
