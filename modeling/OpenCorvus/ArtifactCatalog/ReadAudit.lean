import OpenCorvus.ArtifactCatalog.ExactRead
import OpenCorvus.Foundation.JsonText
import OpenCorvus.Foundation.StableSort
import OpenCorvus.Foundation.Transaction

/-!
# The audit of exact reads

The audit judges each locator by the set of its windows alone: it is reported as complete exactly when its
windows agree and their byte ranges make up the content, and as invalid exactly when some window disagrees.
-/

namespace OpenCorvus

open Utf16 (ofString_injective)

/-! ## A locator is known by its key -/

section

open Json List

lemma valid_json (locator : ArtifactReadLocator) : Valid (fun _ => True) locator.json := by
  cases locator <;> refine valid_fields trivial ?_ <;>
    simp [valid_nat, text, Valid.str, valid_fields, TaskArtifactRef.json, TaskArtifactSnapshotIdentity.json]

theorem artifactReadLocatorKey_injective : Function.Injective artifactReadLocatorKey := by
  intro left right h
  have hjson := (valid_json left).eq_of_stringify (valid_json right) h
  cases left <;> cases right <;>
    simp only [ArtifactReadLocator.json, TaskArtifactRef.json, TaskArtifactSnapshotIdentity.json, fields, text, map_cons,
      map_nil, obj.injEq, str.injEq, cons.injEq, Prod.mk.injEq, true_and, and_true, ofString_injective.eq_iff,
      nat_injective.eq_iff] at hjson
  case engineArtifact.engineArtifact =>
    obtain ⟨rfl, rfl, rfl⟩ := hjson
    rfl
  case taskArtifactSnapshot.taskArtifactSnapshot snapshot other =>
    cases snapshot
    cases other
    simp_all
  case taskArtifactResource.taskArtifactResource ref other =>
    rcases ref with ⟨⟨⟩⟩
    rcases other with ⟨⟨⟩⟩
    simp_all
  -- locators of different kinds differ in their source
  all_goals exact absurd hjson.1 (by decide)

end

/-! ## Windows that agree -/

/-- An attachment is a whole resource, and any other window carries the bytes of its range as text; a window
whose content was left in a file carries none. -/
def TransportsRange (locator : ArtifactReadLocator) (fact : ArtifactReadWindowFact) : Prop :=
  if fact.chunk.attachment then
    artifactReadLocatorBytes locator = some fact.chunk.totalBytes ∧ fact.request.byteOffset = 0 ∧
      fact.chunk.byteStart = 0 ∧ fact.chunk.byteEnd = fact.chunk.totalBytes ∧ fact.chunk.text = none ∧
      fact.chunk.complete = true ∧ fact.chunk.nextOffset = none
  else
    ∃ text, fact.chunk.text = some text ∧ (Utf16.toUtf8 text).length = fact.chunk.byteEnd - fact.chunk.byteStart ∧
      (Utf16.toUtf8 text).length ≤ fact.request.maxBytes

/-- A window that agrees with its locator, its request, itself and the size of the content. -/
structure ConsistentWindow (locator : ArtifactReadLocator) (totalBytes : ℕ) (fact : ArtifactReadWindowFact) :
    Prop where
  target : fact.chunk.locator = locator
  mediaType : fact.chunk.mediaType = artifactReadLocatorMediaType locator
  sha256 : fact.chunk.sha256 = artifactReadLocatorSHA256 locator
  total : fact.chunk.totalBytes = totalBytes
  ordered : fact.chunk.byteStart ≤ fact.chunk.byteEnd
  within : fact.chunk.byteEnd ≤ totalBytes
  requested : fact.chunk.byteStart = fact.request.byteOffset
  transported : TransportsRange locator fact
  terminal : fact.chunk.complete = true → fact.chunk.byteEnd = totalBytes ∧ fact.chunk.nextOffset = none
  continued : fact.chunk.complete = false →
    fact.chunk.byteStart < fact.chunk.byteEnd ∧ fact.chunk.byteEnd < totalBytes ∧
      fact.chunk.nextOffset = some fact.chunk.byteEnd

def ConsistentlyRead (facts : List ArtifactReadWindowFact) (locator : ArtifactReadLocator) : Prop :=
  ∃ totalBytes, ∀ fact ∈ facts, fact.request.locator = locator → ConsistentWindow locator totalBytes fact

/-- The windows of a locator are consistent, their ranges make up the content, and one of them ends it. -/
def CompletelyRead (facts : List ArtifactReadWindowFact) (locator : ArtifactReadLocator) : Prop :=
  ∃ totalBytes,
    (∀ fact ∈ facts, fact.request.locator = locator → ConsistentWindow locator totalBytes fact) ∧
    (∀ byte, (∃ fact ∈ facts, fact.request.locator = locator ∧ fact.chunk.byteStart ≤ byte ∧
      byte < fact.chunk.byteEnd) ↔ byte < totalBytes) ∧
    ∃ fact ∈ facts, fact.request.locator = locator ∧ fact.chunk.complete = true ∧ fact.chunk.byteEnd = totalBytes

section

variable {locator : ArtifactReadLocator} {totalBytes : ℕ} {fact : ArtifactReadWindowFact}
  

lemma transportDisagrees_eq_false_iff : transportDisagrees locator fact = false ↔ TransportsRange locator fact := by
  unfold transportDisagrees TransportsRange
  dsimp only
  split_ifs with hattachment
  · simp only [Bool.or_eq_false_iff, bne_eq_false_iff_eq, Bool.not_eq_false', Option.isSome_eq_false_iff,
      Option.isNone_iff_eq_none]
    constructor
    · rintro ⟨⟨⟨⟨⟨⟨⟨-, hoffset⟩, hstart⟩, htext⟩, hcomplete⟩, hnext⟩, hend⟩, hbytes⟩
      exact ⟨hbytes, hoffset, hstart, hend, htext, hcomplete, hnext⟩
    · rintro ⟨hbytes, hoffset, hstart, hend, htext, hcomplete, hnext⟩
      exact ⟨⟨⟨⟨⟨⟨⟨by simp [hbytes], hoffset⟩, hstart⟩, htext⟩, hcomplete⟩, hnext⟩, hend⟩, hbytes⟩
  · cases htext : fact.chunk.text <;> simp

lemma invalidWindow_eq_false_iff :
    invalidWindow locator totalBytes fact = false ↔ ConsistentWindow locator totalBytes fact := by
  unfold invalidWindow
  simp only [Bool.or_eq_false_iff, decide_eq_false_iff_not, not_not, bne_eq_false_iff_eq, not_lt,
    transportDisagrees_eq_false_iff, Bool.and_eq_false_imp]
  constructor
  · rintro ⟨⟨⟨⟨⟨⟨⟨⟨⟨⟨htarget, hmedia⟩, hsha⟩, htotal⟩, hordered⟩, hwithin⟩, hrequested⟩, htransported⟩, hterminal⟩,
      hcontinued⟩, hnext⟩
    refine ⟨artifactReadLocatorKey_injective htarget, hmedia, hsha, htotal, hordered, hwithin, hrequested,
      htransported, fun hcomplete => ⟨?_, ?_⟩, fun hopen => ?_⟩
    · rw [hterminal hcomplete, htotal]
    · rw [hnext, if_pos hcomplete]
    · obtain ⟨hadvances, hstops⟩ := hcontinued (by rw [hopen]; rfl)
      refine ⟨not_le.mp hadvances, htotal ▸ not_le.mp hstops, ?_⟩
      · rw [hnext, if_neg (by rw [hopen]; exact Bool.false_ne_true)]
  · intro h
    refine ⟨⟨⟨⟨⟨⟨⟨⟨⟨⟨congrArg _ h.target, h.mediaType⟩, h.sha256⟩, h.total⟩, h.ordered⟩, h.within⟩, h.requested⟩,
      h.transported⟩, fun hcomplete => ?_⟩, fun hopen => ?_⟩, ?_⟩
    · rw [(h.terminal hcomplete).1, h.total]
    · obtain ⟨hadvances, hstops, -⟩ := h.continued (by simpa using hopen)
      exact ⟨not_le.mpr hadvances, not_le.mpr (h.total ▸ hstops)⟩
    · cases hcomplete : fact.chunk.complete with
      | true => exact (h.terminal hcomplete).2
      | false => exact (h.continued hcomplete).2.2

end

/-! ## Coverage -/

section

variable {intervals : List (ℕ × ℕ)} {covered totalBytes : ℕ}

instance : Std.TransCmp compareIntervals :=
  inferInstanceAs (Std.TransCmp (compareLex (compareOn Prod.fst) (compareOn Prod.snd)))

lemma fst_le_of_compareIntervals {left right : ℕ × ℕ} (h : (compareIntervals left right).isLE = true) :
    left.1 ≤ right.1 := by
  unfold compareIntervals at h
  by_contra hlt
  rw [compare_gt_iff_gt.mpr (not_le.mp hlt)] at h
  cases h

lemma coverThrough_eq_some_iff (hsorted : intervals.Pairwise fun left right => left.1 ≤ right.1)
    (hbounds : ∀ interval ∈ intervals, interval.1 ≤ interval.2 ∧ interval.2 ≤ totalBytes)
    (hcovered : covered ≤ totalBytes) :
    coverThrough covered intervals = some totalBytes ↔
      ∀ byte, covered ≤ byte → byte < totalBytes → ∃ interval ∈ intervals, interval.1 ≤ byte ∧ byte < interval.2 := by
  induction intervals generalizing covered with
  | nil =>
    rw [coverThrough, Option.some.injEq]
    constructor
    · rintro rfl _ hle hlt
      exact absurd hle (not_le.mpr hlt)
    · intro h
      refine hcovered.antisymm (not_lt.mp fun hlt => ?_)
      obtain ⟨_, hmem, -⟩ := h covered le_rfl hlt
      cases hmem
  | cons interval _ ih =>
    obtain ⟨hfirst, hsorted⟩ := List.pairwise_cons.mp hsorted
    obtain ⟨⟨_, _⟩, hbounds⟩ := List.forall_mem_cons.mp hbounds
    rw [coverThrough]
    split_ifs with hgap
    · -- nothing covers the byte before the gap, since later ranges start behind it
      refine ⟨fun h => (by cases h), fun h => ?_⟩
      obtain ⟨other, hmem, _, -⟩ := h covered le_rfl (by omega)
      rcases List.mem_cons.mp hmem with rfl | hmem
      · omega
      · have := hfirst other hmem
        omega
    · rw [ih hsorted hbounds (by omega)]
      constructor
      · intro h byte hle hlt
        by_cases hinside : byte < interval.2
        · exact ⟨interval, List.mem_cons_self, by omega, hinside⟩
        · obtain ⟨other, hmem, hrange⟩ := h byte (by omega) hlt
          exact ⟨other, List.mem_cons_of_mem _ hmem, hrange⟩
      · intro h byte hle hlt
        obtain ⟨other, hmem, hrange⟩ := h byte (by omega) hlt
        rcases List.mem_cons.mp hmem with rfl | hmem
        · omega
        · exact ⟨other, hmem, hrange⟩

end

/-! ## The verdict of one locator -/

section

variable {locator : ArtifactReadLocator} {first : ArtifactReadWindowFact} {windows : List ArtifactReadWindowFact}

lemma any_invalidWindow_eq_false_iff {totalBytes : ℕ} : windows.any (invalidWindow locator totalBytes) = false ↔
      ∀ fact ∈ windows, ConsistentWindow locator totalBytes fact := by
  simp only [List.any_eq_false, Bool.not_eq_true, invalidWindow_eq_false_iff]

lemma exists_consistent_iff : (∃ totalBytes, ∀ fact ∈ first :: windows, ConsistentWindow locator totalBytes fact) ↔
      ∀ fact ∈ first :: windows, ConsistentWindow locator first.chunk.totalBytes fact := by
  refine ⟨fun ⟨totalBytes, h⟩ => ?_, fun h => ⟨_, h⟩⟩
  rwa [(h first List.mem_cons_self).total]

lemma judgeWindows_eq_invalid_iff : judgeWindows locator (first :: windows) = .invalid ↔
      ¬∃ totalBytes, ∀ fact ∈ first :: windows, ConsistentWindow locator totalBytes fact := by
  rw [exists_consistent_iff, ← any_invalidWindow_eq_false_iff, Bool.not_eq_false]
  unfold judgeWindows
  dsimp only [List.head?_cons, Option.map_some, Option.getD_some]
  split_ifs <;> simp_all

lemma judgeWindows_eq_complete_iff : judgeWindows locator (first :: windows) = .complete ↔
      ∃ totalBytes, (∀ fact ∈ first :: windows, ConsistentWindow locator totalBytes fact) ∧
        (∀ byte, (∃ fact ∈ first :: windows, fact.chunk.byteStart ≤ byte ∧ byte < fact.chunk.byteEnd) ↔
          byte < totalBytes) ∧
        ∃ fact ∈ first :: windows, fact.chunk.complete = true ∧ fact.chunk.byteEnd = totalBytes := by
  have hjudge : judgeWindows locator (first :: windows) = .complete ↔
      (first :: windows).any (invalidWindow locator first.chunk.totalBytes) = false ∧
        coverThrough 0 (EcmaScript.toSorted compareIntervals
          ((first :: windows).map fun fact => (fact.chunk.byteStart, fact.chunk.byteEnd))) =
            some first.chunk.totalBytes ∧
        ((first :: windows).any fun fact =>
          fact.chunk.complete && fact.chunk.byteEnd == first.chunk.totalBytes) = true := by
    unfold judgeWindows
    dsimp only [List.head?_cons, Option.map_some, Option.getD_some]
    generalize (first :: windows).any (invalidWindow locator first.chunk.totalBytes) = invalid
    split_ifs with hinvalid hcomplete
    · simp [hinvalid]
    · simpa [hinvalid] using hcomplete
    · simpa [hinvalid] using hcomplete
  have hlast : ((first :: windows).any fun fact =>
        fact.chunk.complete && fact.chunk.byteEnd == first.chunk.totalBytes) = true ↔
      ∃ fact ∈ first :: windows, fact.chunk.complete = true ∧ fact.chunk.byteEnd = first.chunk.totalBytes := by
    simp only [List.any_eq_true, Bool.and_eq_true, beq_iff_eq]
  have hcover (h : ∀ fact ∈ first :: windows, ConsistentWindow locator first.chunk.totalBytes fact) :
      coverThrough 0 (EcmaScript.toSorted compareIntervals
        ((first :: windows).map fun fact => (fact.chunk.byteStart, fact.chunk.byteEnd))) =
          some first.chunk.totalBytes ↔
      ∀ byte, (∃ fact ∈ first :: windows, fact.chunk.byteStart ≤ byte ∧ byte < fact.chunk.byteEnd) ↔
        byte < first.chunk.totalBytes := by
    have hmem (byte : ℕ) : (∃ interval ∈ EcmaScript.toSorted compareIntervals
          ((first :: windows).map fun fact => (fact.chunk.byteStart, fact.chunk.byteEnd)),
        interval.1 ≤ byte ∧ byte < interval.2) ↔
        ∃ fact ∈ first :: windows, fact.chunk.byteStart ≤ byte ∧ byte < fact.chunk.byteEnd := by
      simp only [EcmaScript.mem_toSorted, List.mem_map, exists_exists_and_eq_and]
    rw [coverThrough_eq_some_iff ((EcmaScript.pairwise_toSorted _).imp fst_le_of_compareIntervals) ?_ (Nat.zero_le _)]
    · simp only [hmem, Nat.zero_le, true_imp_iff]
      refine forall_congr' fun byte => ⟨fun hcovers => ⟨?_, hcovers⟩, fun hcovers => hcovers.mpr⟩
      rintro ⟨fact, hfact, -, hlt⟩
      exact hlt.trans_le (h fact hfact).within
    · simp only [EcmaScript.mem_toSorted, List.mem_map]
      rintro _ ⟨fact, hfact, rfl⟩
      exact ⟨(h fact hfact).ordered, (h fact hfact).within⟩
  rw [hjudge, any_invalidWindow_eq_false_iff, hlast]
  constructor
  · rintro ⟨hconsistent, hcovers, hends⟩
    exact ⟨_, hconsistent, (hcover hconsistent).mp hcovers, hends⟩
  · rintro ⟨_, hconsistent, hcovers, hends⟩
    obtain rfl := (hconsistent first List.mem_cons_self).total
    exact ⟨hconsistent, (hcover hconsistent).mpr hcovers, hends⟩

end

/-! ## The groups -/

abbrev WindowGroup := ArtifactReadLocator × List ArtifactReadWindowFact

def groupWindows (facts : List ArtifactReadWindowFact) : List WindowGroup :=
  facts.foldl (fun groups fact => addToGroup fact groups) []

structure Grouped (facts : List ArtifactReadWindowFact) (groups : List WindowGroup) : Prop where
  nodup : (groups.map Prod.fst).Nodup
  windows : ∀ group ∈ groups, ∀ fact, fact ∈ group.2 ↔ fact ∈ facts ∧ fact.request.locator = group.1
  nonempty : ∀ group ∈ groups, group.2 ≠ []
  covers : ∀ fact ∈ facts, fact.request.locator ∈ groups.map Prod.fst

section

variable {facts : List ArtifactReadWindowFact} {groups : List WindowGroup} {fact : ArtifactReadWindowFact}

open Classical in
lemma map_fst_addToGroup : (addToGroup fact groups).map Prod.fst =
    if fact.request.locator ∈ groups.map Prod.fst then groups.map Prod.fst
    else groups.map Prod.fst ++ [fact.request.locator] := by
  induction groups with
  | nil => rfl
  | cons group _ ih =>
    rw [addToGroup]
    by_cases hkey : artifactReadLocatorKey group.1 = artifactReadLocatorKey fact.request.locator
    · rw [if_pos hkey, ← artifactReadLocatorKey_injective hkey]
      simp
    · have hne : fact.request.locator ≠ group.1 := fun heq => hkey (congrArg _ heq.symm)
      rw [if_neg hkey, List.map_cons, ih]
      split_ifs <;> simp_all

lemma mem_addToGroup {group : WindowGroup} (hnodup : (groups.map Prod.fst).Nodup)
    (h : group ∈ addToGroup fact groups) :
    group ∈ groups ∧ group.1 ≠ fact.request.locator ∨
      ∃ windows, group = (fact.request.locator, windows ++ [fact]) ∧ ((fact.request.locator, windows) ∈ groups ∨
          windows = [] ∧ fact.request.locator ∉ groups.map Prod.fst) := by
  induction groups with
  | nil => exact .inr ⟨[], List.mem_singleton.mp h, .inr ⟨rfl, List.not_mem_nil⟩⟩
  | cons first groups ih =>
    obtain ⟨hfirst, hnodup⟩ := List.nodup_cons.mp hnodup
    rw [addToGroup] at h
    split_ifs at h with hkey
    · have heq := artifactReadLocatorKey_injective hkey
      rcases List.mem_cons.mp h with rfl | h
      · exact .inr ⟨first.2, by rw [heq], .inl (heq ▸ List.mem_cons_self)⟩
      · have hmem : group.1 ∈ groups.map Prod.fst := List.mem_map_of_mem h
        exact .inl ⟨List.mem_cons_of_mem _ h, fun hsame => hfirst (heq.trans hsame.symm ▸ hmem)⟩
    · have hne : first.1 ≠ fact.request.locator := fun heq => hkey (congrArg _ heq)
      rcases List.mem_cons.mp h with rfl | h
      · exact .inl ⟨List.mem_cons_self, hne⟩
      · rcases ih hnodup h with ⟨hmem, hother⟩ | ⟨windows, rfl, hmem | ⟨rfl, hnew⟩⟩
        · exact .inl ⟨List.mem_cons_of_mem _ hmem, hother⟩
        · exact .inr ⟨windows, rfl, .inl (List.mem_cons_of_mem _ hmem)⟩
        · exact .inr ⟨[], rfl, .inr ⟨rfl, List.not_mem_cons_of_ne_of_not_mem hne.symm hnew⟩⟩

lemma Grouped.add (h : Grouped facts groups) (fact : ArtifactReadWindowFact) :
    Grouped (facts ++ [fact]) (addToGroup fact groups) := by
  refine ⟨?_, fun group hgroup other => ?_, fun group hgroup => ?_, fun other hother => ?_⟩
  · rw [map_fst_addToGroup]
    split_ifs with hknown
    · exact h.nodup
    · exact List.nodup_append_comm.mpr (List.nodup_cons.mpr ⟨hknown, h.nodup⟩)
  · rw [List.mem_append, List.mem_singleton, or_and_right]
    rcases mem_addToGroup h.nodup hgroup with ⟨hgroup, hne⟩ | ⟨windows, rfl, hold⟩
    · rw [h.windows group hgroup, or_iff_left]
      rintro ⟨rfl, heq⟩
      exact hne heq.symm
    · have hwindows : other ∈ windows ↔ other ∈ facts ∧ other.request.locator = fact.request.locator := by
        rcases hold with hold | ⟨rfl, hnew⟩
        · exact h.windows _ hold other
        · refine ⟨fun hother => absurd hother List.not_mem_nil, fun ⟨hother, heq⟩ => ?_⟩
          exact absurd (heq ▸ h.covers other hother) hnew
      rw [List.mem_append, hwindows, List.mem_singleton]
      exact or_congr_right ⟨fun heq => ⟨heq, heq ▸ rfl⟩, And.left⟩
  · rcases mem_addToGroup h.nodup hgroup with ⟨hgroup, -⟩ | ⟨_, rfl, -⟩
    · exact h.nonempty group hgroup
    · simp
  · rw [map_fst_addToGroup]
    rcases List.mem_append.mp hother with hother | hother
    · split_ifs
      · exact h.covers other hother
      · exact List.mem_append_left _ (h.covers other hother)
    · obtain rfl := List.mem_singleton.mp hother
      split_ifs with hknown
      · exact hknown
      · exact List.mem_append_right _ (List.mem_singleton_self _)

lemma grouped_groupWindows (facts : List ArtifactReadWindowFact) : Grouped facts (groupWindows facts) := by
  induction facts using List.reverseRecOn with
  | nil => exact ⟨List.nodup_nil, by simp [groupWindows], by simp [groupWindows], by simp⟩
  | append_singleton _ fact ih =>
    rw [groupWindows, List.foldl_append]
    exact ih.add fact

lemma groupWindows_cons (fact : ArtifactReadWindowFact) (facts : List ArtifactReadWindowFact) :
    ∃ windows groups, groupWindows (fact :: facts) = (fact.request.locator, windows) :: groups := by
  induction facts using List.reverseRecOn with
  | nil => exact ⟨[fact], [], rfl⟩
  | append_singleton _ _ ih =>
    obtain ⟨_, _, ih⟩ := ih
    rw [← List.cons_append, groupWindows, List.foldl_append, ← groupWindows, ih, List.foldl_cons, List.foldl_nil,
      addToGroup]
    split_ifs
    · exact ⟨_, _, rfl⟩
    · exact ⟨_, _, rfl⟩

end

/-! ## The report -/

/-- What the schemas of the facts accept. -/
def ArtifactReadWindowFact.Parses (fact : ArtifactReadWindowFact) : Prop :=
  ∃ chunk, (do let _ ← parseReadInput fact.request; parseChunk fact.chunk) = .ok chunk

section

variable {facts other : List ArtifactReadWindowFact} {locator : ArtifactReadLocator}

lemma ConsistentlyRead.congr (h : ∀ fact, fact ∈ other ↔ fact ∈ facts) :
    ConsistentlyRead other locator ↔ ConsistentlyRead facts locator := by
  simp only [ConsistentlyRead, h]

lemma CompletelyRead.congr (h : ∀ fact, fact ∈ other ↔ fact ∈ facts) :
    CompletelyRead other locator ↔ CompletelyRead facts locator := by
  simp only [CompletelyRead, h]

open CompletelyRead

lemma CompletelyRead.consistentlyRead (h : CompletelyRead facts locator) : ConsistentlyRead facts locator := by
  obtain ⟨totalBytes, hconsistent, -⟩ := h
  exact ⟨totalBytes, hconsistent⟩

def judgedLocators (facts : List ArtifactReadWindowFact) (verdict : LocatorVerdict) : List ArtifactReadLocator :=
  ((groupWindows facts).filter fun group => decide (judgeWindows group.1 group.2 = verdict)).map Prod.fst

lemma nodup_judgedLocators (facts : List ArtifactReadWindowFact) (verdict : LocatorVerdict) :
    (judgedLocators facts verdict).Nodup :=
  (grouped_groupWindows facts).nodup.sublist (List.filter_sublist.map Prod.fst)

section

variable {windows : List ArtifactReadWindowFact} (hne : windows ≠ [])
  (hwindows : ∀ fact, fact ∈ windows ↔ fact ∈ facts ∧ fact.request.locator = locator)

include hne hwindows

lemma judgeWindows_eq_complete_iff_completelyRead :
    judgeWindows locator windows = .complete ↔ CompletelyRead facts locator := by
  cases windows with
  | nil => exact absurd rfl hne
  | cons =>
    rw [judgeWindows_eq_complete_iff, CompletelyRead]
    simp only [hwindows, and_imp, and_assoc]

lemma judgeWindows_eq_invalid_iff_not_consistentlyRead :
    judgeWindows locator windows = .invalid ↔ ¬ConsistentlyRead facts locator := by
  cases windows with
  | nil => exact absurd rfl hne
  | cons =>
    rw [judgeWindows_eq_invalid_iff, ConsistentlyRead]
    simp only [hwindows, and_imp]

end

lemma mem_judgedLocators_iff {verdict : LocatorVerdict} {p : ArtifactReadLocator → Prop}
    (hverdict : ∀ group ∈ groupWindows facts, judgeWindows group.1 group.2 = verdict ↔ p group.1)
    (hfacts : p locator → ∃ fact ∈ facts, fact.request.locator = locator) :
    locator ∈ judgedLocators facts verdict ↔ p locator := by
  simp only [judgedLocators, List.mem_map, List.mem_filter, decide_eq_true_eq]
  constructor
  · rintro ⟨group, ⟨hgroup, hjudged⟩, rfl⟩
    exact (hverdict group hgroup).mp hjudged
  · intro h
    obtain ⟨fact, hfact, rfl⟩ := hfacts h
    obtain ⟨group, hgroup, heq⟩ := List.mem_map.mp ((grouped_groupWindows facts).covers fact hfact)
    exact ⟨group, ⟨hgroup, (hverdict group hgroup).mpr (heq ▸ h)⟩, heq⟩

lemma CompletelyRead.exists_fact (h : CompletelyRead facts locator) :
    ∃ fact ∈ facts, fact.request.locator = locator := by
  obtain ⟨_, -, -, fact, hfact, hlocator, -⟩ := h
  exact ⟨fact, hfact, hlocator⟩

lemma exists_fact_of_not_consistentlyRead (h : ¬ConsistentlyRead facts locator) :
    ∃ fact ∈ facts, fact.request.locator = locator := by
  by_contra hnone
  push Not at hnone
  exact h ⟨0, fun fact hfact heq => absurd heq (hnone fact hfact)⟩

lemma mem_judgedLocators_complete : locator ∈ judgedLocators facts .complete ↔ CompletelyRead facts locator :=
  mem_judgedLocators_iff (fun group hgroup => judgeWindows_eq_complete_iff_completelyRead
      ((grouped_groupWindows facts).nonempty group hgroup) ((grouped_groupWindows facts).windows group hgroup))
    exists_fact

lemma mem_judgedLocators_invalid : locator ∈ judgedLocators facts .invalid ↔ ¬ConsistentlyRead facts locator :=
  mem_judgedLocators_iff (p := fun locator => ¬ConsistentlyRead facts locator)
    (fun group hgroup => judgeWindows_eq_invalid_iff_not_consistentlyRead
      ((grouped_groupWindows facts).nonempty group hgroup) ((grouped_groupWindows facts).windows group hgroup))
    exists_fact_of_not_consistentlyRead

lemma parses_of_mem_iff (hfacts : ∀ fact ∈ facts, fact.Parses) (h : ∀ fact, fact ∈ other ↔ fact ∈ facts) :
    ∀ fact ∈ other, fact.Parses :=
  fun fact hfact => hfacts fact ((h fact).mp hfact)

end

/-! ## The law -/

section

variable [EcmaScript.Collation] {facts other : List ArtifactReadWindowFact} {left right : ArtifactReadLocator}

instance : Std.TransCmp compareLocators :=
  have : Std.TransCmp EcmaScript.localeCompare := EcmaScript.Collation.trans
  { eq_swap := fun {_ _} => @Std.OrientedCmp.eq_swap _ EcmaScript.localeCompare _ _ _
    isLE_trans := fun {_ _ _} => @Std.TransCmp.isLE_trans _ EcmaScript.localeCompare _ _ _ _ }

def AuditExact (facts : List ArtifactReadWindowFact) : Prop :=
  ∃ audit, auditArtifactReadLocatorsFromFacts facts = .ok audit ∧
    (∀ locator, locator ∈ audit.completeLocators ↔ CompletelyRead facts locator) ∧
    (∀ locator, locator ∈ audit.invalidLocators ↔ ¬ConsistentlyRead facts locator) ∧
    (∀ locator ∈ audit.completeLocators, locator ∉ audit.invalidLocators) ∧
    ∀ other : List ArtifactReadWindowFact, (∀ fact, fact ∈ other ↔ fact ∈ facts) →
      auditArtifactReadLocatorsFromFacts other = .ok audit

def LocatorsApart (facts : List ArtifactReadWindowFact) : Prop :=
  ∀ left right, compareLocators left right = .eq → (CompletelyRead facts left ∧ CompletelyRead facts right ∨
      ¬ConsistentlyRead facts left ∧ ¬ConsistentlyRead facts right) → left = right

lemma auditArtifactReadLocatorsFromFacts_eq (hfacts : ∀ fact ∈ facts, fact.Parses) :
    auditArtifactReadLocatorsFromFacts facts = .ok {
      completeLocators := EcmaScript.toSorted compareLocators (judgedLocators facts .complete)
      invalidLocators := EcmaScript.toSorted compareLocators (judgedLocators facts .invalid) } := by
  obtain ⟨_, hchunks, -⟩ := Transaction.exists_mapM_eq_ok (g := fun _ => ()) (k := fun _ => ())
    fun fact hfact => (hfacts fact hfact).imp fun _ h => ⟨h, rfl⟩
  unfold auditArtifactReadLocatorsFromFacts
  rw [hchunks]
  rfl

lemma auditExact_of_locatorsApart (hfacts : ∀ fact ∈ facts, fact.Parses) (h : LocatorsApart facts) :
    AuditExact facts := by
  refine ⟨_, auditArtifactReadLocatorsFromFacts_eq hfacts, ?_, ?_, ?_, fun other hother => ?_⟩
  · simp only [EcmaScript.mem_toSorted, mem_judgedLocators_complete, implies_true]
  · simp only [EcmaScript.mem_toSorted, mem_judgedLocators_invalid, implies_true]
  · simp only [EcmaScript.mem_toSorted, mem_judgedLocators_complete, mem_judgedLocators_invalid, not_not]
    exact fun locator => CompletelyRead.consistentlyRead
  · rw [auditArtifactReadLocatorsFromFacts_eq (parses_of_mem_iff hfacts hother)]
    have hcomplete : (judgedLocators other .complete).Perm (judgedLocators facts .complete) := by
      refine (List.perm_ext_iff_of_nodup (nodup_judgedLocators _ _) (nodup_judgedLocators _ _)).mpr fun locator => ?_
      rw [mem_judgedLocators_complete, mem_judgedLocators_complete, CompletelyRead.congr hother]
    have hinvalid : (judgedLocators other .invalid).Perm (judgedLocators facts .invalid) := by
      refine (List.perm_ext_iff_of_nodup (nodup_judgedLocators _ _) (nodup_judgedLocators _ _)).mpr fun locator => ?_
      rw [mem_judgedLocators_invalid, mem_judgedLocators_invalid, ConsistentlyRead.congr hother]
    rw [EcmaScript.toSorted_eq_of_perm hcomplete, EcmaScript.toSorted_eq_of_perm hinvalid]
    · intro left hleft right hright htie
      rw [mem_judgedLocators_invalid, ConsistentlyRead.congr hother] at hleft hright
      exact h left right htie (.inr ⟨hleft, hright⟩)
    · intro left hleft right hright htie
      rw [mem_judgedLocators_complete, CompletelyRead.congr hother] at hleft hright
      exact h left right htie (.inl ⟨hleft, hright⟩)

/-- A locator whose fact comes first is reported before every other one that ties with it. -/
lemma pair_sublist_toSorted_judgedLocators {verdict : LocatorVerdict} {fact : ArtifactReadWindowFact}
    (hleft : fact.request.locator ∈ judgedLocators (fact :: facts) verdict)
    (hright : right ∈ judgedLocators (fact :: facts) verdict) (hne : fact.request.locator ≠ right)
    (htie : compareLocators fact.request.locator right = .eq) :
    [fact.request.locator, right].Sublist
      (EcmaScript.toSorted compareLocators (judgedLocators (fact :: facts) verdict)) := by
  refine EcmaScript.pair_sublist_toSorted ?_ (by rw [htie]; rfl)
  obtain ⟨_, _, hgroups⟩ := groupWindows_cons fact facts
  have hnodup := (grouped_groupWindows (fact :: facts)).nodup
  rw [hgroups, List.map_cons, List.nodup_cons] at hnodup
  rw [judgedLocators, hgroups, List.filter_cons] at hleft hright ⊢
  split_ifs at hleft hright ⊢ with hjudged
  · rw [List.map_cons, List.mem_cons] at hright
    exact (List.singleton_sublist.mpr (hright.resolve_left hne.symm)).cons_cons _
  · exact absurd ((List.filter_sublist.map Prod.fst).subset hleft) hnodup.1

lemma AuditExact.apart (hfacts : ∀ fact ∈ facts, fact.Parses) (h : AuditExact facts) : LocatorsApart facts := by
  obtain ⟨audit, -, -, -, -, hall⟩ := h
  have hrepeat : ∀ fact ∈ facts, ∀ other, other ∈ fact :: facts ↔ other ∈ facts := by
    intro fact hfact other
    rw [List.mem_cons, or_iff_right_of_imp]
    rintro rfl
    exact hfact
  have hreport : ∀ fact ∈ facts, audit = {
      completeLocators := EcmaScript.toSorted compareLocators (judgedLocators (fact :: facts) .complete)
      invalidLocators := EcmaScript.toSorted compareLocators (judgedLocators (fact :: facts) .invalid) } := by
    intro fact hfact
    have heq := hall _ (hrepeat fact hfact)
    rw [auditArtifactReadLocatorsFromFacts_eq (parses_of_mem_iff hfacts (hrepeat fact hfact))] at heq
    exact (Except.ok.inj heq).symm
  have heq {verdict : LocatorVerdict} {left right : ArtifactReadLocator} (htie : compareLocators left right = .eq)
      (hleft : ∃ fact ∈ facts, fact.request.locator = left) (hright : ∃ fact ∈ facts, fact.request.locator = right)
      (hjudged : ∀ fact ∈ facts, left ∈ judgedLocators (fact :: facts) verdict ∧
        right ∈ judgedLocators (fact :: facts) verdict)
      (hsame : ∀ fact ∈ facts, ∀ fact' ∈ facts,
        EcmaScript.toSorted compareLocators (judgedLocators (fact :: facts) verdict) =
          EcmaScript.toSorted compareLocators (judgedLocators (fact' :: facts) verdict)) : left = right := by
    obtain ⟨fact, hfact, rfl⟩ := hleft
    obtain ⟨fact', hfact', rfl⟩ := hright
    by_contra hne
    have hfirst := pair_sublist_toSorted_judgedLocators (hjudged fact hfact).1 (hjudged fact hfact).2 hne htie
    have hsecond := pair_sublist_toSorted_judgedLocators (hjudged fact' hfact').2 (hjudged fact' hfact').1
      (Ne.symm hne) (Std.OrientedCmp.eq_symm htie)
    rw [hsame fact' hfact' fact hfact] at hsecond
    have hnodup := (EcmaScript.toSorted_perm compareLocators _).nodup_iff.mpr
      (nodup_judgedLocators (fact :: facts) verdict)
    exact hne (EcmaScript.eq_of_pair_sublist_of_nodup hnodup hfirst hsecond)
  have hcomplete : ∀ fact ∈ facts, ∀ locator, CompletelyRead facts locator →
      locator ∈ judgedLocators (fact :: facts) .complete := fun fact hfact locator h =>
    mem_judgedLocators_complete.mpr ((CompletelyRead.congr (hrepeat fact hfact)).mpr h)
  have hinvalid : ∀ fact ∈ facts, ∀ locator, ¬ConsistentlyRead facts locator →
      locator ∈ judgedLocators (fact :: facts) .invalid := fun fact hfact locator h =>
    mem_judgedLocators_invalid.mpr ((ConsistentlyRead.congr (hrepeat fact hfact)).not.mpr h)
  rintro left right htie (⟨hleft, hright⟩ | ⟨hleft, hright⟩)
  · exact heq htie hleft.exists_fact hright.exists_fact
      (fun fact hfact => ⟨hcomplete fact hfact left hleft, hcomplete fact hfact right hright⟩)
      fun fact hfact fact' hfact' =>
        congrArg ArtifactReadAudit.completeLocators ((hreport fact hfact).symm.trans (hreport fact' hfact'))
  · exact heq htie (exists_fact_of_not_consistentlyRead hleft) (exists_fact_of_not_consistentlyRead hright)
      (fun fact hfact => ⟨hinvalid fact hfact left hleft, hinvalid fact hfact right hright⟩)
      fun fact hfact fact' hfact' =>
        congrArg ArtifactReadAudit.invalidLocators ((hreport fact hfact).symm.trans (hreport fact' hfact'))

theorem auditExact_iff (hfacts : ∀ fact ∈ facts, fact.Parses) : AuditExact facts ↔ LocatorsApart facts :=
  ⟨AuditExact.apart hfacts, auditExact_of_locatorsApart hfacts⟩

end

/-- An order that does not tell a composed letter from its decomposition. -/
@[reducible] def decomposingCollation : EcmaScript.Collation where
  localeCompare := compareOn fun text : String =>
    text.toList.flatMap fun c => if c = 'é' then ['e', '\u0301'] else [c]
  trans := inferInstance

def emptyRead (artifactID : String) : ArtifactReadWindowFact :=
  let locator := .engineArtifact artifactID 1 (String.ofList (List.replicate 64 '0'))
  { request := { locator, byteOffset := 0, maxBytes := 1 }
    chunk := {
      locator
      mediaType := "application/json"
      byteStart := 0
      byteEnd := 0
      nextOffset := none
      totalBytes := 0
      complete := true
      sha256 := String.ofList (List.replicate 64 '0')
      text := some []
      attachment := false } }

def tiedReads : List ArtifactReadWindowFact :=
  [emptyRead "é", emptyRead "e\u0301"]

lemma tiedReads_parse : ∀ fact ∈ tiedReads, fact.Parses := by
  simp only [tiedReads, List.forall_mem_cons]
  exact ⟨⟨_, rfl⟩, ⟨_, rfl⟩, by simp⟩

lemma consistentWindow_emptyRead (artifactID : String) :
    ConsistentWindow (emptyRead artifactID).request.locator 0 (emptyRead artifactID) where
  target := rfl
  mediaType := rfl
  sha256 := rfl
  total := rfl
  ordered := le_rfl
  within := le_rfl
  requested := rfl
  transported := transportDisagrees_eq_false_iff.mp rfl
  terminal _ := ⟨rfl, rfl⟩
  continued hopen := absurd hopen.symm Bool.false_ne_true

lemma completelyRead_tiedReads : ∀ fact ∈ tiedReads, CompletelyRead tiedReads fact.request.locator := by
  have hempty : ∀ fact ∈ tiedReads, ConsistentWindow fact.request.locator 0 fact ∧ fact.chunk.complete = true := by
    simp only [tiedReads, List.forall_mem_cons]
    exact ⟨⟨consistentWindow_emptyRead _, rfl⟩, ⟨consistentWindow_emptyRead _, rfl⟩, by simp⟩
  have hend : ∀ fact ∈ tiedReads, fact.chunk.byteEnd = 0 := fun fact hfact =>
    Nat.le_zero.mp (hempty fact hfact).1.within
  intro fact hfact
  refine ⟨0, fun other hother heq => heq ▸ (hempty other hother).1, fun byte => ⟨?_, fun h => absurd h (Nat.not_lt_zero _)⟩,
    fact, hfact, rfl, (hempty fact hfact).2, hend fact hfact⟩
  rintro ⟨other, hother, -, -, hlt⟩
  rwa [hend other hother] at hlt

lemma compareLocators_decomposing (left right : ArtifactReadLocator) :
    @compareLocators decomposingCollation left right =
      compareOn (fun text : List Char => text.flatMap fun c => if c = 'é' then ['e', '\u0301'] else [c])
        (Utf16.decode (artifactReadLocatorKey left)) (Utf16.decode (artifactReadLocatorKey right)) := by
  simp only [compareLocators, EcmaScript.localeCompare, compareOn, String.toList_ofList]

lemma compareLocators_tied :
    @compareLocators decomposingCollation (emptyRead "é").request.locator (emptyRead "e\u0301").request.locator =
      .eq := by
  rw [compareLocators_decomposing]
  simp only [emptyRead, artifactReadLocatorKey, ArtifactReadLocator.json, Json.fields, Json.text, Utf16.ofString,
    String.toList_ofList, List.map_cons, List.map_nil]
  decide +kernel

theorem auditExact_iff_tied :
    @AuditExact decomposingCollation tiedReads ↔ @LocatorsApart decomposingCollation tiedReads :=
  @auditExact_iff decomposingCollation tiedReads tiedReads_parse

theorem not_auditExact_tied : ¬@AuditExact decomposingCollation tiedReads := by
  intro h
  have hcomplete := completelyRead_tiedReads
  have heq := @AuditExact.apart decomposingCollation tiedReads tiedReads_parse h
    (emptyRead "é").request.locator (emptyRead "e\u0301").request.locator
    compareLocators_tied (.inl ⟨hcomplete _ (by simp [tiedReads]), hcomplete _ (by simp [tiedReads])⟩)
  have hid := congrArg (fun locator => match locator with
    | ArtifactReadLocator.engineArtifact artifactID _ _ => artifactID
    | _ => "") heq
  exact absurd hid (by decide)

end OpenCorvus
