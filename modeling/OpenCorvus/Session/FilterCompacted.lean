import OpenCorvus.Session.Transcript
import Mathlib.Data.List.InsertIdx

/-!
# The projection of compacted transcripts

`filterCompacted` reads a transcript from its newest Message back to the last completed compaction.  It keeps
what is newer than the checkpoint, the summary, the Messages that the marker retains and its anchor, and
returns them in chronological order with the summary beside the anchor.
-/

namespace OpenCorvus.Session

open List Option

variable {δ : Type}

def truthy (id : Option String) : Option String := id.filter (· ≠ "")

structure Checkpoint where
  part : CompactionPart
  summaryID : String

/-- What is still to be read behind a checkpoint. -/
structure Retain where
  tailID : Option String
  anchorID : Option String
  afterCompactionIndex : ℕ
  tailSatisfied : Bool

/-- The variables of the loop of `filterCompacted`. -/
structure CompactedScan (δ : Type) where
  result : List (Message δ)
  /-- The completed compactions by the id of their source Message. -/
  completed : List (String × Checkpoint)
  projectedCheckpointID : Option String
  retain : Option Retain

namespace CompactedScan

/-- The variables before the loop. -/
def start : CompactedScan δ := ⟨[], [], none, none⟩

variable (s : CompactedScan δ)

/-- `result.push(msg)`. -/
def push (msg : Message δ) : CompactedScan δ :=
  { s with result := s.result ++ [msg] }

/-- A Message while a checkpoint's tail or anchor is looked for; `true` leaves the loop. -/
def stepRetain (retain : Retain) (msg : Message δ) : CompactedScan δ × Bool :=
  if !retain.tailSatisfied then
    let result := s.result ++ [msg]
    if some msg.id = retain.tailID then
      if msg.assistant.isSome then
        ({ s with result := result.take retain.afterCompactionIndex, retain := none }, true)
      else if truthy retain.anchorID = none ∨ some msg.id = retain.anchorID then
        ({ s with result, retain := none }, true)
      else ({ s with result, retain := some { retain with tailSatisfied := true } }, false)
    else (s.push msg, false)
  else if truthy retain.anchorID = some msg.id then
    ({ s with result := s.result ++ [msg], retain := none }, true)
  else (s, false)

def summaryIn (result : List (Message δ)) (p : Message δ → Bool) : Option (ℕ × List (Message δ) × Message δ) := do
  let summaryIndex ← result.findIdx? p
  let summary ← result[summaryIndex]?
  return (summaryIndex, result.take summaryIndex, summary)

/-- The Messages between the summary and the source that a marker anchored at its source retains. -/
def tailBlock (result : List (Message δ)) (tailStartID : Option String) (summaryIndex : ℕ) : List (Message δ) :=
  ((truthy tailStartID).bind fun tailID => do
    let tailIndex ← result.findIdx? fun candidate => candidate.id = tailID
    let tail ← result[tailIndex]?
    if tail.assistant.isNone ∧ summaryIndex < tailIndex ∧ tailIndex < result.length - 1 then
      some ((result.take (tailIndex + 1)).drop (summaryIndex + 1))
    else none).getD []

def stepSource (checkpoint : Checkpoint) (msg : Message δ) : CompactedScan δ × Bool :=
  let part := checkpoint.part
  let result := s.result ++ [msg]
  let s := { s with result, projectedCheckpointID := some checkpoint.summaryID }
  if part.anchorID = some msg.id then
    match summaryIn result fun candidate =>
        candidate.id = checkpoint.summaryID && candidate.assistant.any fun assistant =>
          assistant.parentID = msg.id && assistant.isValidSummary with
    | none => (s, true)
    | some (summaryIndex, newer, summary) =>
      ({ s with result := newer ++ tailBlock result part.tailStartID summaryIndex ++ [summary, msg] }, true)
  else if truthy part.tailStartID = none ∧ truthy part.anchorID = none then
    match summaryIn result fun candidate => candidate.id = checkpoint.summaryID with
    | none => (s, true)
    | some (_, newer, summary) => ({ s with result := newer ++ [summary, msg] }, true)
  else
    ({ s with retain := some {
        tailID := part.tailStartID
        anchorID := part.anchorID
        afterCompactionIndex := result.length
        tailSatisfied := truthy part.tailStartID = none } }, false)

def stepAssistant (assistant : Assistant) (msg : Message δ) : CompactedScan δ :=
  if assistant.isValidSummary then
    match msg.compaction with
    | some part =>
      if (s.completed.lookup assistant.parentID).isSome then s
      else { s with completed := s.completed ++ [(assistant.parentID, ⟨part, msg.id⟩)] }
    | none => s
  else s

/-- The body of the loop; `true` leaves it. -/
def step (msg : Message δ) : CompactedScan δ × Bool :=
  match s.retain with
  | some retain => s.stepRetain retain msg
  | none =>
    match msg.assistant with
    | none =>
      match s.completed.lookup msg.id with
      | some checkpoint => s.stepSource checkpoint msg
      | none => (s.push msg, false)
    | some assistant => ((s.push msg).stepAssistant assistant msg, false)

/-- The loop over the stream. -/
def scan : CompactedScan δ → List (Message δ) → CompactedScan δ
  | s, [] => s
  | s, msg :: rest =>
    match s.step msg with
    | (s', true) => s'
    | (s', false) => scan s' rest

/-- What the loop has collected, in chronological order; a tail that was not found is dropped. -/
def collected : List (Message δ) :=
  (match s.retain with
  | some retain => if retain.tailSatisfied then s.result else s.result.take retain.afterCompactionIndex
  | none => s.result).reverse

end CompactedScan

def indexOfID (result : List (Message δ)) (id : Option String) : Option ℕ :=
  id.bind fun id => result.findIdx? fun candidate => candidate.id = id

def placeSummary (result : List (Message δ)) (markerIndex : ℕ) (marker : Message δ)
    (anchorID : Option String) : List (Message δ) :=
  match indexOfID result anchorID with
  | some anchorIndex =>
    if anchorIndex < markerIndex ∧ marker.assistant.any Assistant.isValidSummary then
      (result.eraseIdx markerIndex).insertIdx (anchorIndex + 1) marker
    else result
  | none => result

/-- What the descriptors and the dispatch lineage of a projected worker make of the anchor: the anchor itself for
a Session without them, the anchor with its control Parts, or a failure of the Task authority. -/
abbrev AnchorAuthority (δ : Type) : Type := Message δ → Except String (Message δ)

def filterCompacted (authority : AnchorAuthority δ) (newestFirst : List (Message δ)) :
    Except String (List (Message δ)) :=
  let s := CompactedScan.start.scan newestFirst
  let result := s.collected
  match indexOfID result s.projectedCheckpointID with
  | none => .ok result
  | some markerIndex =>
    match result[markerIndex]? with
    | none => .ok result
    | some marker =>
      let anchorID := truthy (marker.compaction.bind CompactionPart.anchorID)
      let result := placeSummary result markerIndex marker anchorID
      match indexOfID result anchorID with
      | none => .ok result
      | some anchorIndex =>
        match result[anchorIndex]? with
        | none => .ok result
        | some anchor => (authority anchor).map fun anchor => result.set anchorIndex anchor

namespace CompactedScan

lemma mem_of_summaryIn {result newer : List (Message δ)} {p : Message δ → Bool} {index : ℕ}
    {summary : Message δ} (h : summaryIn result p = some (index, newer, summary)) :
    summary ∈ result ∧ ∀ x ∈ newer, x ∈ result := by
  simp only [summaryIn, bind_eq_bind, bind_eq_some_iff, Option.pure_def, some.injEq,
    Prod.mk.injEq] at h
  obtain ⟨_, -, _, hmsg, rfl, rfl, rfl⟩ := h
  exact ⟨mem_of_getElem? hmsg, fun x hx => mem_of_mem_take hx⟩

variable {x : Message δ} {s : CompactedScan δ}

lemma mem_of_mem_tailBlock {result : List (Message δ)} {tailStartID : Option String} {index : ℕ}
    (h : x ∈ tailBlock result tailStartID index) : x ∈ result := by
  unfold tailBlock at h
  cases hblock : (truthy tailStartID).bind _ with
  | none =>
    rw [hblock] at h
    exact absurd h not_mem_nil
  | some =>
    rw [hblock, getD_some] at h
    simp only [bind_eq_some_iff, bind_eq_bind, ite_none_right_eq_some,
      some.injEq] at hblock
    obtain ⟨_, -, _, -, _, -, -, rfl⟩ := hblock
    exact mem_of_mem_take (mem_of_mem_drop h)

lemma mem_step {msg : Message δ} (h : x ∈ (s.step msg).1.result) : x ∈ s.result ∨ x = msg := by
  have hpush : ∀ y, y ∈ s.result ++ [msg] → y ∈ s.result ∨ y = msg := by simp
  unfold step at h
  split at h
  · unfold stepRetain at h
    split at h
    · split at h
      · split at h
        · exact hpush x (mem_of_mem_take h)
        · split at h
          · exact hpush x h
          · exact hpush x h
      · exact hpush x h
    · split at h
      · exact hpush x h
      · exact .inl h
  · split at h
    · split at h
      · unfold stepSource at h
        simp only at h
        split at h
        · split at h
          · exact hpush x h
          · rename_i hsummary
            obtain ⟨hin, hnewer⟩ := mem_of_summaryIn hsummary
            rw [mem_append, mem_append] at h
            rcases h with (hx | hx) | hx
            · exact hpush x (hnewer x hx)
            · exact hpush x (mem_of_mem_tailBlock hx)
            · simp only [mem_cons, not_mem_nil, or_false] at hx
              rcases hx with rfl | rfl
              · exact hpush x hin
              · exact .inr rfl
        · split at h
          · split at h
            · exact hpush x h
            · rename_i hsummary
              obtain ⟨hin, hnewer⟩ := mem_of_summaryIn hsummary
              rw [mem_append] at h
              rcases h with hx | hx
              · exact hpush x (hnewer x hx)
              · simp only [mem_cons, not_mem_nil, or_false] at hx
                rcases hx with rfl | rfl
                · exact hpush x hin
                · exact .inr rfl
          · exact hpush x h
      · exact hpush x h
    · have hresult : ∀ (t : CompactedScan δ) (assistant : Assistant),
          (t.stepAssistant assistant msg).result = t.result := by
        intro t assistant
        unfold stepAssistant
        repeat' split
        all_goals rfl
      rw [hresult] at h
      exact hpush x h

/-- The loop collects nothing but what it reads. -/
lemma mem_scan {msgs : List (Message δ)} (h : x ∈ (s.scan msgs).result) : x ∈ s.result ∨ x ∈ msgs := by
  induction msgs generalizing s with
  | nil => exact .inl h
  | cons msg rest ih =>
    have hstep : ∀ y, y ∈ (s.step msg).1.result → y ∈ s.result ∨ y ∈ msg :: rest := by
      intro y hy
      rcases mem_step hy with hold | rfl
      · exact .inl hold
      · exact .inr mem_cons_self
    unfold scan at h
    cases hs : s.step msg with
    | mk _ stop =>
      rw [hs] at h hstep
      cases stop with
      | true => exact hstep x h
      | false =>
        rcases ih h with hold | hnew
        · exact hstep x hold
        · exact .inr (mem_cons_of_mem _ hnew)

lemma mem_collected (h : x ∈ s.collected) : x ∈ s.result := by
  unfold collected at h
  rw [mem_reverse] at h
  split at h
  · split at h
    · exact h
    · exact mem_of_mem_take h
  · exact h

end CompactedScan

lemma mem_of_mem_placeSummary {result : List (Message δ)} {markerIndex : ℕ} {marker x : Message δ}
    {anchorID : Option String} (hmarker : marker ∈ result)
    (h : x ∈ placeSummary result markerIndex marker anchorID) : x ∈ result := by
  unfold placeSummary at h
  split at h
  · split at h
    · rcases eq_or_mem_of_mem_insertIdx h with rfl | hx
      · exact hmarker
      · exact mem_of_mem_eraseIdx hx
    · exact h
  · exact h

lemma id_of_indexOfID {result : List (Message δ)} {id : Option String} {index : ℕ} {msg : Message δ}
    (h : indexOfID result id = some index) (hmsg : result[index]? = some msg) : id = some msg.id := by
  obtain ⟨_, rfl, hfind⟩ := bind_eq_some_iff.mp h
  obtain ⟨hlt, hp, -⟩ := findIdx?_eq_some_iff_getElem.mp hfind
  rw [getElem?_eq_getElem hlt, some.injEq] at hmsg
  rw [hmsg] at hp
  rw [of_decide_eq_true hp]

def Unanchored (msgs : List (Message δ)) : Prop :=
  ∀ anchor ∈ msgs, ∀ marker ∈ msgs, marker.compaction.bind CompactionPart.anchorID ≠ some anchor.id

theorem mem_of_mem_filterCompacted {authority : AnchorAuthority δ} {newestFirst result : List (Message δ)}
    (hunanchored : Unanchored newestFirst) (h : filterCompacted authority newestFirst = .ok result) :
    ∀ x ∈ result, x ∈ newestFirst := by
  have hmem : ∀ x ∈ (CompactedScan.start.scan newestFirst).collected, x ∈ newestFirst := by
    intro x hx
    rcases CompactedScan.mem_scan (CompactedScan.mem_collected hx) with hnil | hmem
    · exact absurd hnil not_mem_nil
    · exact hmem
  unfold filterCompacted at h
  simp only at h
  split at h
  · obtain rfl := Except.ok.inj h
    exact hmem
  · split at h
    · obtain rfl := Except.ok.inj h
      exact hmem
    · rename_i marker hmarker
      have hplaced : ∀ markerIndex anchorID x,
          x ∈ placeSummary (CompactedScan.start.scan newestFirst).collected markerIndex marker anchorID →
            x ∈ newestFirst :=
        fun _ _ x hx => hmem x (mem_of_mem_placeSummary (mem_of_getElem? hmarker) hx)
      split at h
      · obtain rfl := Except.ok.inj h
        exact hplaced _ _
      · rename_i hindex
        split at h
        · obtain rfl := Except.ok.inj h
          exact hplaced _ _
        · rename_i anchor hanchor
          have hid := id_of_indexOfID hindex hanchor
          have hfound := (filter_eq_some_iff.mp hid).1
          exact absurd hfound (hunanchored anchor (hplaced _ _ anchor (mem_of_getElem? hanchor)) marker
            (hmem marker (mem_of_getElem? hmarker)))

end OpenCorvus.Session
