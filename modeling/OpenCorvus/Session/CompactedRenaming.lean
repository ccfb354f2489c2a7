import OpenCorvus.Session.FilterCompacted

/-!
# Renaming the Messages of a transcript

The projection of a compacted transcript uses Message ids only by comparing them, so it commutes with every
injective renaming that reaches all references: parents, accepted inputs, and the tail and anchor of compaction
markers.
-/

namespace OpenCorvus.Session

open List Option CompactedScan

variable {δ : Type}

variable (ρ : String → String) (assistant : Assistant)

def Assistant.rename : Assistant :=
  { assistant with
    parentID := ρ assistant.parentID
    acceptedInputMessageIDs := assistant.acceptedInputMessageIDs.map (List.map ρ) }

variable (part : CompactionPart)

def CompactionPart.rename : CompactionPart :=
  { part with tailStartID := part.tailStartID.map ρ, anchorID := part.anchorID.map ρ }

def PartData.rename : PartData δ → PartData δ
  | .compaction part => .compaction (part.rename ρ)
  | .content data => .content data

structure Renaming (δ : Type) where
  ids : String → String
  injective : Function.Injective ids
  ids_empty : ids "" = ""
  message : Message δ → Message δ
  message_id : ∀ msg, (message msg).id = ids msg.id
  message_assistant : ∀ msg, (message msg).assistant = msg.assistant.map (Assistant.rename ids)
  message_compaction : ∀ msg, (message msg).compaction = msg.compaction.map (CompactionPart.rename ids)

open Renaming

attribute [simp] Renaming.message_id Renaming.message_assistant Renaming.message_compaction

@[simp] lemma Assistant.isValidSummary_rename :
    (assistant.rename ρ).isValidSummary = assistant.isValidSummary := rfl

@[simp] lemma Assistant.parentID_rename : (assistant.rename ρ).parentID = ρ assistant.parentID := rfl

@[simp] lemma CompactionPart.tailStartID_rename : (part.rename ρ).tailStartID = part.tailStartID.map ρ := rfl

@[simp] lemma CompactionPart.anchorID_rename : (part.rename ρ).anchorID = part.anchorID.map ρ := rfl

namespace Renaming

variable (r : Renaming δ)

@[simp] lemma ids_inj {id id' : String} : r.ids id = r.ids id' ↔ id = id' := r.injective.eq_iff

@[simp] lemma ids_eq_empty {id : String} : r.ids id = "" ↔ id = "" := by
  rw [← r.ids_empty, r.ids_inj, r.ids_empty]

@[simp] lemma truthy_map (id : Option String) : truthy (id.map r.ids) = (truthy id).map r.ids := by
  cases id with
  | none => rfl
  | some id =>
    by_cases h : id = ""
    · simp [truthy, Option.filter, h, r.ids_empty]
    · simp [truthy, Option.filter, h]

@[simp] lemma map_eq_some_ids {id : Option String} {id' : String} :
    id.map r.ids = some (r.ids id') ↔ id = some id' := by
  cases id <;> simp

@[simp] lemma some_ids_eq_map {id : Option String} {id' : String} :
    some (r.ids id') = id.map r.ids ↔ some id' = id := by
  cases id <;> simp

lemma findIdx?_map {p q : Message δ → Bool} (result : List (Message δ)) (h : ∀ msg, q (r.message msg) = p msg) :
    (result.map r.message).findIdx? q = result.findIdx? p := by
  rw [List.findIdx?_map]
  congr 1
  funext msg
  exact h msg

def checkpoint (checkpoint : Checkpoint) : Checkpoint :=
  ⟨checkpoint.part.rename r.ids, r.ids checkpoint.summaryID⟩

/-- What is still to be read, renamed. -/
def retain (retain : Retain) : Retain :=
  { retain with tailID := retain.tailID.map r.ids, anchorID := retain.anchorID.map r.ids }

variable (s : CompactedScan δ)

/-- The renamed variables of the loop. -/
def scan : CompactedScan δ :=
  { result := s.result.map r.message
    completed := s.completed.map fun entry => (r.ids entry.1, r.checkpoint entry.2)
    projectedCheckpointID := s.projectedCheckpointID.map r.ids
    retain := s.retain.map r.retain }

@[simp] lemma lookup_completed (completed : List (String × Checkpoint)) (id : String) :
    (completed.map fun entry => (r.ids entry.1, r.checkpoint entry.2)).lookup (r.ids id) =
      (completed.lookup id).map r.checkpoint := by
  induction completed with
  | nil => rfl
  | cons entry _ ih =>
    obtain ⟨key, _⟩ := entry
    by_cases h : id = key
    · subst h
      simp
    · have h' : (r.ids id == r.ids key) = false := by simpa using h
      have h'' : (id == key) = false := by simpa using h
      rw [map_cons, lookup_cons, lookup_cons, h', h'']
      exact ih

lemma summaryIn_map {p q : Message δ → Bool} (result : List (Message δ)) (h : ∀ msg, q (r.message msg) = p msg) :
    CompactedScan.summaryIn (result.map r.message) q =
      (CompactedScan.summaryIn result p).map fun found =>
        (found.1, found.2.1.map r.message, r.message found.2.2) := by
  unfold summaryIn
  rw [r.findIdx?_map result h]
  cases result.findIdx? p with
  | none => rfl
  | some index =>
    cases hmsg : result[index]? <;> simp [hmsg]

lemma tailBlock_map (result : List (Message δ)) (tailStartID : Option String) (summaryIndex : ℕ) :
    CompactedScan.tailBlock (result.map r.message) (tailStartID.map r.ids) summaryIndex =
      (CompactedScan.tailBlock result tailStartID summaryIndex).map r.message := by
  unfold tailBlock
  rw [r.truthy_map]
  cases truthy tailStartID with
  | none => rfl
  | some tailID =>
    simp only [map_some, bind_some]
    rw [r.findIdx?_map (p := fun candidate => candidate.id = tailID) result (by simp)]
    cases result.findIdx? fun candidate => candidate.id = tailID with
    | none => rfl
    | some index =>
      cases hmsg : result[index]? with
      | none => simp [hmsg]
      | some =>
        simp only [bind_eq_bind, bind_some, getElem?_map, hmsg, map_some,
          message_assistant, isNone_map, length_map]
        split
        · simp [map_take, map_drop]
        · rfl

lemma push_map (msg : Message δ) : (r.scan s).push (r.message msg) = r.scan (s.push msg) := by
  simp [push, scan]

lemma stepRetain_map (retain : Retain) (msg : Message δ) :
    (r.scan s).stepRetain (r.retain retain) (r.message msg) =
      (r.scan (s.stepRetain retain msg).1, (s.stepRetain retain msg).2) := by
  unfold stepRetain
  simp only [Renaming.retain, message_id, message_assistant, some_ids_eq_map, truthy_map, map_eq_some_ids,
    map_eq_none_iff, isSome_map]
  split
  · split
    · split
      · simp [scan, map_take]
      · split
        · simp [scan]
        · simp [scan, Renaming.retain]
    · rw [r.push_map]
  · split
    · simp [scan]
    · rfl

lemma stepSource_map (checkpoint : Checkpoint) (msg : Message δ) :
    (r.scan s).stepSource (r.checkpoint checkpoint) (r.message msg) =
      (r.scan (s.stepSource checkpoint msg).1, (s.stepSource checkpoint msg).2) := by
  have happend : (r.scan s).result ++ [r.message msg] = (s.result ++ [msg]).map r.message := by
    simp [scan]
  unfold stepSource
  simp only [happend]
  simp only [Renaming.checkpoint, CompactionPart.anchorID_rename, CompactionPart.tailStartID_rename, message_id,
    map_eq_some_ids, truthy_map, map_eq_none_iff]
  split
  · rw [r.summaryIn_map (p := fun candidate => candidate.id = checkpoint.summaryID &&
      candidate.assistant.any fun assistant => assistant.parentID = msg.id && assistant.isValidSummary)
      (s.result ++ [msg]) (by
        intro candidate
        cases h : candidate.assistant <;> simp [h])]
    cases summaryIn (s.result ++ [msg]) _ with
    | none => simp [scan]
    | some found =>
      obtain ⟨_, _, _⟩ := found
      simp only [map_some, r.tailBlock_map]
      simp [scan]
  · split
    · rw [r.summaryIn_map (p := fun candidate => candidate.id = checkpoint.summaryID)
        (s.result ++ [msg]) (by simp)]
      cases summaryIn (s.result ++ [msg]) _ with
      | none => simp [scan]
      | some found =>
        obtain ⟨_, _, _⟩ := found
        simp [scan]
    · simp [scan, Renaming.retain]

lemma stepAssistant_map (assistant : Assistant) (msg : Message δ) :
    (r.scan s).stepAssistant (assistant.rename r.ids) (r.message msg) =
      r.scan (s.stepAssistant assistant msg) := by
  unfold stepAssistant
  simp only [Assistant.isValidSummary_rename, message_compaction, Assistant.parentID_rename, message_id]
  split
  · cases msg.compaction with
    | none => rfl
    | some =>
      have hlookup : ((r.scan s).completed.lookup (r.ids assistant.parentID)).isSome =
          (s.completed.lookup assistant.parentID).isSome := by
        rw [scan, lookup_completed, isSome_map]
      simp only [map_some, hlookup]
      split
      · rfl
      · simp [scan, checkpoint]
  · rfl

lemma step_map (msg : Message δ) : (r.scan s).step (r.message msg) = (r.scan (s.step msg).1, (s.step msg).2) := by
  unfold CompactedScan.step
  cases hretain : s.retain with
  | some retain =>
    have hmap : (r.scan s).retain = some (r.retain retain) := by simp [scan, hretain]
    simp only [hmap]
    exact r.stepRetain_map s retain msg
  | none =>
    have hmap : (r.scan s).retain = none := by simp [scan, hretain]
    simp only [hmap, message_assistant, message_id]
    cases msg.assistant with
    | some =>
      simp only [map_some, push_map]
      rw [r.stepAssistant_map]
    | none =>
      have hlookup : (r.scan s).completed.lookup (r.ids msg.id) =
          (s.completed.lookup msg.id).map r.checkpoint := by
        rw [scan, lookup_completed]
      simp only [map_none, hlookup]
      cases s.completed.lookup msg.id with
      | none => simp only [map_none, push_map]
      | some checkpoint =>
        simp only [map_some]
        exact r.stepSource_map s checkpoint msg

/-- The loop commutes with a renaming. -/
theorem scan_map (msgs : List (Message δ)) : (r.scan s).scan (msgs.map r.message) = r.scan (s.scan msgs) := by
  induction msgs generalizing s with
  | nil => rfl
  | cons msg _ ih =>
    rw [map_cons, CompactedScan.scan, CompactedScan.scan, r.step_map]
    cases hstep : s.step msg with
    | mk s' stop =>
      cases stop with
      | true => rfl
      | false => exact ih s'

lemma collected_map : (r.scan s).collected = s.collected.map r.message := by
  unfold collected
  cases hretain : s.retain with
  | none => simp [scan, hretain]
  | some retain =>
    by_cases h : retain.tailSatisfied = true
    · simp [scan, hretain, h, Renaming.retain]
    · simp [scan, hretain, h, Renaming.retain, map_take]

lemma indexOfID_map (result : List (Message δ)) (id : Option String) :
    indexOfID (result.map r.message) (id.map r.ids) = indexOfID result id := by
  cases id with
  | none => rfl
  | some id => exact r.findIdx?_map (p := fun candidate => candidate.id = id) result (by simp)

lemma placeSummary_map (result : List (Message δ)) (markerIndex : ℕ) (marker : Message δ)
    (anchorID : Option String) :
    placeSummary (result.map r.message) markerIndex (r.message marker) (anchorID.map r.ids) =
      (placeSummary result markerIndex marker anchorID).map r.message := by
  unfold placeSummary
  rw [r.indexOfID_map]
  cases indexOfID result anchorID with
  | none => rfl
  | some =>
    have hvalid : (r.message marker).assistant.any Assistant.isValidSummary =
        marker.assistant.any Assistant.isValidSummary := by
      rw [message_assistant]
      cases marker.assistant <;> simp
    simp only [hvalid]
    split
    · rw [map_insertIdx, eraseIdx_map]
    · rfl

/-- The projection commutes with a renaming.  Only an anchor that a marker names is handed to the authority of
its worker, so only there the two authorities have to agree. -/
theorem filterCompacted_map {authority authority' : AnchorAuthority δ} {newestFirst : List (Message δ)}
    (hauthority : ∀ anchor ∈ newestFirst, ∀ marker ∈ newestFirst,
      marker.compaction.bind CompactionPart.anchorID = some anchor.id →
      authority' (r.message anchor) = (authority anchor).map r.message) :
    filterCompacted authority' (newestFirst.map r.message) =
      (filterCompacted authority newestFirst).map (List.map r.message) := by
  have hstart : (start : CompactedScan δ) = r.scan .start := rfl
  set s := (start : CompactedScan δ).scan newestFirst with hs
  have hmem : ∀ x ∈ s.collected, x ∈ newestFirst := by
    intro x hx
    rcases mem_scan (mem_collected hx) with hnil | h
    · exact absurd hnil not_mem_nil
    · exact h
  have hscan : start.scan (newestFirst.map r.message) = r.scan s := by
    rw [hstart, r.scan_map]
  unfold filterCompacted
  rw [hscan, ← hs]
  simp only [r.collected_map]
  have hprojected : (r.scan s).projectedCheckpointID = s.projectedCheckpointID.map r.ids := rfl
  rw [hprojected, r.indexOfID_map]
  cases indexOfID s.collected s.projectedCheckpointID with
  | none => rfl
  | some markerIndex =>
    simp only [getElem?_map]
    cases hmarker : s.collected[markerIndex]? with
    | none => rfl
    | some marker =>
      have hanchorID : truthy ((r.message marker).compaction.bind CompactionPart.anchorID) =
          (truthy (marker.compaction.bind CompactionPart.anchorID)).map r.ids := by
        rw [← truthy_map, message_compaction]
        cases marker.compaction <;> rfl
      simp only [map_some, hanchorID, r.placeSummary_map, r.indexOfID_map]
      set anchorID := truthy (marker.compaction.bind CompactionPart.anchorID) with hanchor
      set placed := placeSummary s.collected markerIndex marker anchorID with hplaced
      cases hindex : indexOfID placed anchorID with
      | none => rfl
      | some anchorIndex =>
        simp only [getElem?_map]
        cases hplace : placed[anchorIndex]? with
        | none => rfl
        | some anchor =>
          have hmarkerMem := mem_of_getElem? hmarker
          have hid : anchorID = some anchor.id := id_of_indexOfID hindex hplace
          have hagree := hauthority anchor
            (hmem _ (mem_of_mem_placeSummary hmarkerMem (mem_of_getElem? hplace)))
            marker (hmem _ hmarkerMem) (by
              rw [hanchor] at hid
              exact (filter_eq_some_iff.mp hid).1)
          simp only [map_some, hagree]
          cases authority anchor with
          | error => rfl
          | ok => simp [Except.map, map_set]

end Renaming

end OpenCorvus.Session
