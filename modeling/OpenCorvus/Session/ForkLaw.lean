import OpenCorvus.Session.CompactedRenaming
import OpenCorvus.Session.Fork

/-!
# When a fork is a copy

A fork is a faithful copy of the Messages before the cut exactly when every one of them has an id below that of the
cut, none of their references but the parents of assistants names another of them, and their Parts are written in the
order in which they are read: the loop compares ids where the transcript goes by creation times, and the accepted
inputs of an assistant and the tail and anchor of a compaction marker keep naming the originals.
-/

namespace OpenCorvus.Session

open EcmaScript List Option MessageRow Message Assistant

variable {δ : Type}

/-! ## Copies -/

def preceding (msgs : List (Message δ)) (messageID : String) : List (Message δ) :=
  msgs.takeWhile fun msg => msg.id ≠ messageID

def renamed (supply : IdentifierSupply) (prefixIDs : List String) (id : String) : String :=
  match prefixIDs.idxOf? id with
  | some i => supply.message i
  | none => id

def copyMessage (ρ : String → String) (sessionID newID : String) (partIDs : ℕ → String) (msg : Message δ) :
    Message δ :=
  { id := newID
    sessionID
    created := msg.created
    assistant := msg.assistant.map (Assistant.rename ρ)
    fields := msg.fields
    parts := msg.parts.mapIdx fun j part => { id := partIDs j, data := part.data.rename ρ } }

def copies (ρ : String → String) (supply : IdentifierSupply) (sessionID : String) :
    ℕ → ℕ → List (Message δ) → List (Message δ)
  | _, _, [] => []
  | n, k, msg :: rest =>
    copyMessage ρ sessionID (supply.message n) (fun j => supply.part (k + j)) msg ::
      copies ρ supply sessionID (n + 1) (k + msg.parts.length) rest

def imageOf (originals images : List (Message δ)) (msg : Message δ) : Message δ :=
  (((originals.map Message.id).zip images).lookup msg.id).getD msg

def Message.mentions (msg : Message δ) : List String :=
  msg.id :: ((msg.assistant.map fun assistant =>
      assistant.parentID :: assistant.acceptedInputMessageIDs.getD []).getD [] ++
    msg.parts.flatMap fun part =>
      match part.data with
      | .compaction marker => marker.tailStartID.toList ++ marker.anchorID.toList
      | .content _ => [])

/-- The ids that the supply hands out are new. -/
structure IdentifierSupply.Fresh (supply : IdentifierSupply) (msgs : List (Message δ)) : Prop where
  message_injective : Function.Injective supply.message
  part_injective : Function.Injective supply.part
  message_ne_empty : ∀ n, supply.message n ≠ ""
  not_mentioned : ∀ n, ∀ msg ∈ msgs, supply.message n ∉ msg.mentions

/-! ## The condition -/

def PartsInOrder [Collation] (ids : ℕ → String) (times : ℕ → ℕ) (count : ℕ) : Prop :=
  ∀ i j, i < j → j < count → ((compare (times i) (times j)).then (localeCompare (ids i) (ids j))).isLE = true

structure RefersPlainly (copied earlier : List String) (msg : Message δ) : Prop where
  parent : ∀ assistant ∈ msg.assistant, assistant.parentID ∈ copied → assistant.parentID ∈ earlier
  accepted : ∀ assistant ∈ msg.assistant, ∀ ids ∈ assistant.acceptedInputMessageIDs, ∀ id ∈ ids, id ∉ copied
  markers : ∀ part ∈ msg.parts, ∀ marker, part.data = .compaction marker → ∀ id,
    marker.tailStartID = some id ∨ marker.anchorID = some id → id ∉ copied

/-- What a fork before `messageID` needs of the Messages before it. -/
structure Forkable [Collation] (supply : IdentifierSupply) (clock : ℕ → ℕ) (msgs : List (Message δ))
    (messageID : String) : Prop where
  below : ∀ msg ∈ msgs, codeUnitCompare msg.id messageID = .lt
  plain : ∀ before msg after, msgs = before ++ msg :: after →
    RefersPlainly (msgs.map Message.id) ((before ++ [msg]).map Message.id) msg
  parts : ∀ before msg after, msgs = before ++ msg :: after →
    PartsInOrder (fun j => supply.part ((before.map fun m => m.parts.length).sum + j))
      (fun j => max (clock ((before.map fun m => m.parts.length).sum + j)) msg.created) msg.parts.length

/-! ## The loop and the transaction -/

lemma cloneLoop_eq_takeWhile (supply : IdentifierSupply) (sessionID cut : String) (n k : ℕ)
    (idMap : List (String × String)) (msgs : List (Message δ)) :
    cloneLoop supply sessionID (some cut) n k idMap msgs = cloneLoop supply sessionID none n k idMap
        (msgs.takeWhile fun msg => codeUnitCompare msg.id cut = .lt) := by
  induction msgs generalizing n k idMap with
  | nil => rfl
  | cons msg _ ih =>
    cases hcmp : codeUnitCompare msg.id cut with
    | lt =>
      rw [takeWhile_cons_of_pos (by simp [hcmp])]
      simp only [cloneLoop, any_some, any_none, hcmp, Ordering.isGE, ih]
    | eq | gt =>
      rw [takeWhile_cons_of_neg (by simp [hcmp])]
      simp [cloneLoop, hcmp]

@[simp] lemma length_cloneLoop_none (supply : IdentifierSupply) (sessionID : String) (n k : ℕ)
    (idMap : List (String × String)) (msgs : List (Message δ)) :
    (cloneLoop supply sessionID none n k idMap msgs).length = msgs.length := by
  induction msgs generalizing n k idMap with
  | nil => rfl
  | cons _ _ ih => simp [cloneLoop, ih]

@[simp] lemma map_created_cloneLoop_none (supply : IdentifierSupply) (sessionID : String) (n k : ℕ)
    (idMap : List (String × String)) (msgs : List (Message δ)) :
    (cloneLoop supply sessionID none n k idMap msgs).map Message.created = msgs.map Message.created := by
  induction msgs generalizing n k idMap with
  | nil => rfl
  | cons _ _ ih => simp [cloneLoop, cloneMessage, ih]

@[simp] lemma length_copies (ρ : String → String) (supply : IdentifierSupply) (sessionID : String) (n k : ℕ)
    (msgs : List (Message δ)) : (copies ρ supply sessionID n k msgs).length = msgs.length := by
  induction msgs generalizing n k with
  | nil => rfl
  | cons _ _ ih => simp [copies, ih]

def rowOf (clock : ℕ → ℕ) (msg : Message δ) : MessageRow δ :=
  { id := msg.id
    sessionID := msg.sessionID
    created := msg.created
    assistant := msg.assistant
    fields := msg.fields
    parts := msg.parts.mapIdx fun j part =>
      { id := part.id, timeCreated := max (clock j) msg.created, data := part.data } }

def rowsOf (clock : ℕ → ℕ) : ℕ → List (Message δ) → List (MessageRow δ)
  | _, [] => []
  | k, msg :: rest => rowOf (fun j => clock (k + j)) msg :: rowsOf clock (k + msg.parts.length) rest

@[simp] lemma length_rowsOf (clock : ℕ → ℕ) (k : ℕ) (msgs : List (Message δ)) :
    (rowsOf clock k msgs).length = msgs.length := by
  induction msgs generalizing k with
  | nil => rfl
  | cons _ _ ih => simp [rowsOf, ih]

@[simp] lemma map_created_rowsOf (clock : ℕ → ℕ) (k : ℕ) (msgs : List (Message δ)) :
    (rowsOf clock k msgs).map MessageRow.created = msgs.map Message.created := by
  induction msgs generalizing k with
  | nil => rfl
  | cons _ _ ih => simp [rowsOf, rowOf, ih]

variable {rows : List (MessageRow δ)} {msg : Message δ} {k : ℕ} {msgs : List (Message δ)}
  {supply : IdentifierSupply} {copied : List String} {id sessionID : String} {ρ : String → String}

lemma createdAfter_eq {created : ℕ} (h : ∀ row ∈ rows, row.created < created) :
    createdAfter rows created = created := by
  unfold createdAfter
  cases hlatest : latestCreated rows with
  | none => rfl
  | some =>
    obtain ⟨row, hrow, rfl⟩ := List.mem_map.mp (max?_eq_some_iff.mp hlatest).1
    exact max_eq_left (h row hrow)

lemma persistNewMessage_eq {clock : ℕ → ℕ} (h : ∀ row ∈ rows, row.created < msg.created) :
    persistNewMessage rows msg clock =
      if ∀ assistant ∈ msg.assistant, assistant.Accepts then .ok (rows ++ [rowOf clock msg])
      else .error .parentNotTail := by
  unfold persistNewMessage
  simp only [createdAfter_eq h]
  rfl

lemma persistClones_eq_ok {clock : ℕ → ℕ} {rows' : List (MessageRow δ)}
    (h : (rows.map MessageRow.created ++ msgs.map Message.created).Pairwise (· < ·)) :
    persistClones clock k rows msgs = .ok rows' ↔
      (∀ msg ∈ msgs, ∀ assistant ∈ msg.assistant, assistant.Accepts) ∧ rows' = rows ++ rowsOf clock k msgs := by
  induction msgs generalizing k rows with
  | nil => simp [persistClones, rowsOf, eq_comm]
  | cons msg rest ih =>
    have hcreated : ∀ row ∈ rows, row.created < msg.created := fun row hrow =>
      (pairwise_append.mp h).2.2 _ (List.mem_map_of_mem hrow) _ mem_cons_self
    rw [persistClones, persistNewMessage_eq hcreated]
    by_cases haccepts : ∀ assistant ∈ msg.assistant, assistant.Accepts
    · have hrest : ((rows ++ [rowOf (fun j => clock (k + j)) msg]).map MessageRow.created ++
          rest.map Message.created).Pairwise (· < ·) := by
        simpa [rowOf] using h
      rw [if_pos haccepts]
      change persistClones clock (k + msg.parts.length) (rows ++ [rowOf (fun j => clock (k + j)) msg]) rest =
        .ok rows' ↔ _
      rw [ih hrest, forall_mem_cons, rowsOf, append_assoc, singleton_append]
      exact ⟨fun h => ⟨⟨haccepts, h.1⟩, h.2⟩, fun h => ⟨h.1.2, h.2⟩⟩
    · rw [if_neg haccepts]
      refine ⟨fun hfail => ?_, fun hall => absurd (hall.1 msg mem_cons_self) haccepts⟩
      cases hfail

/-! ## One Message -/

lemma renamed_eq_self_iff (hfresh : ∀ n, supply.message n ≠ id) : renamed supply copied id = id ↔ id ∉ copied := by
  unfold renamed
  cases h : copied.idxOf? id with
  | none => simpa using idxOf?_eq_none_iff.mp h
  | some i =>
    have hmem : id ∈ copied := by
      by_contra hne
      rw [idxOf?_eq_none_iff.mpr hne] at h
      cases h
    simp [hmem, hfresh i]

/-- The ids that have been given to the Messages cloned so far. -/
def Assigned (supply : IdentifierSupply) (copied earlier : List String) (idMap : List (String × String)) : Prop :=
  ∀ id, idMap.lookup id = if id ∈ earlier then some (renamed supply copied id) else none

lemma cloneAssistant_eq_rename_iff {earlier : List String} {idMap : List (String × String)}
    (assistant : Assistant) (hassigned : Assigned supply copied earlier idMap)
    (hearlier : ∀ id ∈ earlier, id ∈ copied) (hempty : "" ∉ copied)
    (hne : ∀ id ∈ copied, renamed supply copied id ≠ "")
    (hparent : ∀ n, supply.message n ≠ assistant.parentID)
    (haccepted : ∀ n, ∀ ids ∈ assistant.acceptedInputMessageIDs, supply.message n ∉ ids) :
    cloneAssistant idMap assistant = assistant.rename (renamed supply copied) ↔
      (assistant.parentID ∈ copied → assistant.parentID ∈ earlier) ∧
        ∀ ids ∈ assistant.acceptedInputMessageIDs, ∀ id ∈ ids, id ∉ copied := by
  have hids : assistant.acceptedInputMessageIDs =
        assistant.acceptedInputMessageIDs.map (List.map (renamed supply copied)) ↔
      ∀ ids ∈ assistant.acceptedInputMessageIDs, ∀ id ∈ ids, id ∉ copied := by
    cases haccept : assistant.acceptedInputMessageIDs with
    | none => simp
    | some ids =>
      have hself : ids = ids.map (renamed supply copied) ↔ ∀ id ∈ ids, renamed supply copied id = id := by
        rw [eq_comm]
        simpa using map_eq_map_iff (f := renamed supply copied) (g := id) (l := ids)
      rw [map_some, some.injEq, hself]
      simp only [mem_def, some.injEq, forall_eq']
      refine forall₂_congr fun id hid => ?_
      rw [renamed_eq_self_iff]
      intro n hn
      exact haccepted n ids haccept (hn ▸ hid)
  have hclone : cloneAssistant idMap assistant =
      if assistant.parentID ∈ earlier then
        { assistant with parentID := renamed supply copied assistant.parentID }
      else assistant := by
    unfold cloneAssistant
    rw [hassigned assistant.parentID]
    by_cases hin : assistant.parentID ∈ earlier
    · have hnonempty : assistant.parentID ≠ "" := fun h => hempty (h ▸ hearlier _ hin)
      have hrenamed := hne _ (hearlier _ hin)
      simp [hin, hnonempty, Option.filter, hrenamed]
    · simp [hin]
  rw [hclone, ← hids]
  by_cases hin : assistant.parentID ∈ earlier
  · rw [if_pos hin]
    simp [rename, hin]
  · rw [if_neg hin]
    have hself : renamed supply copied assistant.parentID = assistant.parentID ↔ _ := renamed_eq_self_iff hparent
    obtain ⟨parentID, _, _, _, _, _⟩ := assistant
    simp only [rename, Assistant.mk.injEq, and_true] at hself hin ⊢
    rw [eq_comm (a := parentID), hself]
    simp [hin]

lemma rename_data_iff (hfresh : ∀ n, supply.message n ∉ msg.mentions) :
    (∀ part ∈ msg.parts, part.data = part.data.rename (renamed supply copied)) ↔
      ∀ part ∈ msg.parts, ∀ marker, part.data = .compaction marker → ∀ id,
        marker.tailStartID = some id ∨ marker.anchorID = some id → id ∉ copied := by
  have hself : ∀ part ∈ msg.parts, ∀ marker, part.data = .compaction marker → ∀ id,
      marker.tailStartID = some id ∨ marker.anchorID = some id →
      (renamed supply copied id = id ↔ id ∉ copied) := by
    intro part hpart marker hdata id hid
    refine renamed_eq_self_iff fun n hn => hfresh n ?_
    rw [hn, mentions]
    refine mem_cons_of_mem _ (mem_append_right _ (mem_flatMap.mpr ⟨part, hpart, ?_⟩))
    rw [hdata]
    rcases hid with hid | hid
    · simp [hid]
    · simp [hid]
  refine forall₂_congr fun part hpart => ?_
  cases hdata : part.data with
  | content => simp [PartData.rename]
  | compaction marker =>
    have hmarker := hself part hpart marker hdata
    obtain ⟨_, _, tailStartID, anchorID, _⟩ := marker
    simp only [PartData.rename, PartData.compaction.injEq, CompactionPart.rename, CompactionPart.mk.injEq,
      true_and, and_true, forall_eq', eq_comm (a := tailStartID), eq_comm (a := anchorID)] at hmarker ⊢
    constructor
    · rintro ⟨htail, hanchor⟩ id (rfl | rfl)
      · exact (hmarker id (.inl rfl)).mp (by simpa using htail)
      · exact (hmarker id (.inr rfl)).mp (by simpa using hanchor)
    · intro h
      constructor
      · cases tailStartID with
        | none => rfl
        | some id => simpa using (hmarker id (.inl rfl)).mpr (h id (.inl rfl))
      · cases anchorID with
        | none => rfl
        | some id => simpa using (hmarker id (.inr rfl)).mpr (h id (.inr rfl))

section Reading

variable [Collation]

instance transCmpComparePartRows : Std.TransCmp (comparePartRows : PartRow δ → PartRow δ → Ordering) :=
  have : Std.TransCmp localeCompare := Collation.trans
  have : Std.TransCmp fun left right : PartRow δ => localeCompare left.id right.id :=
    { eq_swap := Std.OrientedCmp.eq_swap, isLE_trans := Std.TransCmp.isLE_trans }
  inferInstanceAs (Std.TransCmp (compareLex (compareOn PartRow.timeCreated)
    fun left right => localeCompare left.id right.id))

lemma toSorted_eq_self_iff {rows : List (PartRow δ)} : toSorted comparePartRows rows = rows ↔
      rows.Pairwise fun left right => (comparePartRows left right).isLE = true := by
  constructor
  · intro h
    rw [← h]
    exact pairwise_toSorted rows
  · intro h
    exact Pairwise.insertionSort_eq h

lemma readParts_mapIdx_iff (parts : List (Part δ)) {ids : ℕ → String} (times : ℕ → ℕ) (data : Part δ → PartData δ)
    (hinj : Function.Injective ids) :
    readParts (parts.mapIdx fun j part => { id := ids j, timeCreated := times j, data := part.data }) =
        (parts.mapIdx fun j part => { id := ids j, data := data part }) ↔
      PartsInOrder ids times parts.length ∧ ∀ part ∈ parts, part.data = data part := by
  set rows : List (PartRow δ) := parts.mapIdx fun j part =>
    { id := ids j, timeCreated := times j, data := part.data } with hrows
  have hget : ∀ (j : ℕ) (hj : j < rows.length), ∃ hj' : j < parts.length,
      rows[j] = { id := ids j, timeCreated := times j, data := parts[j].data } := by
    intro j hj
    exact ⟨by simpa [hrows] using hj, by simp [hrows]⟩
  have hsorted : toSorted comparePartRows rows = rows ↔ PartsInOrder ids times parts.length := by
    rw [toSorted_eq_self_iff, pairwise_iff_getElem]
    constructor
    · intro h i j hij hj
      have hlen : j < rows.length := by simpa [hrows] using hj
      have hle := h i j (by omega) hlen hij
      obtain ⟨_, hi'⟩ := hget i (by omega)
      obtain ⟨_, hj'⟩ := hget j hlen
      rw [hi', hj'] at hle
      exact hle
    · intro h i j hi hj hij
      obtain ⟨_, hi'⟩ := hget i hi
      obtain ⟨hlt, hj'⟩ := hget j hj
      rw [hi', hj']
      exact h i j hij hlt
  have hread : (rows.map fun row => (⟨row.id, row.data⟩ : Part δ)) =
      parts.mapIdx fun j part => { id := ids j, data := part.data } :=
    ext_getElem (by simp [hrows]) fun j hj hj' => by simp [hrows]
  have hids : rows.map PartRow.id = parts.mapIdx fun j _ => ids j :=
    ext_getElem (by simp [hrows]) fun j hj hj' => by simp [hrows]
  constructor
  · intro h
    have hsame : (toSorted comparePartRows rows).map PartRow.id = rows.map PartRow.id := by
      have hmap := congrArg (List.map Part.id) h
      rw [readParts, List.map_map] at hmap
      refine hmap.trans (hids ▸ ext_getElem (by simp) fun j hj hj' => by simp)
    have hself : toSorted comparePartRows rows = rows := by
      have hnodup : (rows.map PartRow.id).Nodup := by
        rw [hids, nodup_iff_injective_getElem]
        intro i j hij
        simpa [Fin.ext_iff, hinj.eq_iff] using hij
      refine ext_getElem (by simp) fun j hj hj' => ?_
      refine inj_on_of_nodup_map hnodup (mem_toSorted.mp (getElem_mem hj)) (getElem_mem hj') ?_
      have hj'' := congrArg (fun ids => ids[j]?) hsame
      simpa [hj, hj'] using hj''
    refine ⟨hsorted.mp hself, fun part hpart => ?_⟩
    rw [readParts, hself, hread] at h
    obtain ⟨j, hj, rfl⟩ := getElem_of_mem hpart
    have hj' := congrArg (fun parts => parts[j]?) h
    simpa [hj] using hj'
  · rintro ⟨horder, hdata⟩
    rw [readParts, hsorted.mpr horder, hread]
    refine ext_getElem (by simp) fun j hj hj' => ?_
    have hlt : j < parts.length := by simpa using hj
    simp [hdata _ (getElem_mem hlt)]

variable {idMap : List (String × String)}

lemma read_clone_eq_copy_iff {supply : IdentifierSupply} {copied earlier : List String} {msg : Message δ}
    (sessionID newID : String) {partIDs : ℕ → String} (clock : ℕ → ℕ)
    (hassigned : Assigned supply copied earlier idMap) (hearlier : ∀ id ∈ earlier, id ∈ copied)
    (hempty : "" ∉ copied) (hne : ∀ id ∈ copied, renamed supply copied id ≠ "")
    (hfresh : ∀ n, supply.message n ∉ msg.mentions) (hparts : Function.Injective partIDs) :
    (rowOf clock (cloneMessage sessionID newID partIDs idMap msg)).read =
        copyMessage (renamed supply copied) sessionID newID partIDs msg ↔
      RefersPlainly copied earlier msg ∧
        PartsInOrder partIDs (fun j => max (clock j) msg.created) msg.parts.length := by
  have hrows : (rowOf clock (cloneMessage sessionID newID partIDs idMap msg)).parts =
      msg.parts.mapIdx fun j part =>
        { id := partIDs j, timeCreated := max (clock j) msg.created, data := part.data } :=
    ext_getElem (by simp [rowOf, cloneMessage]) fun j hj hj' => by simp [rowOf, cloneMessage]
  have hread := readParts_mapIdx_iff msg.parts (fun j => max (clock j) msg.created)
    (fun part => part.data.rename (renamed supply copied)) hparts
  have hassistant : msg.assistant.map (cloneAssistant idMap) =
        msg.assistant.map (Assistant.rename (renamed supply copied)) ↔
      (∀ assistant ∈ msg.assistant, assistant.parentID ∈ copied → assistant.parentID ∈ earlier) ∧
        ∀ assistant ∈ msg.assistant, ∀ ids ∈ assistant.acceptedInputMessageIDs, ∀ id ∈ ids, id ∉ copied := by
    cases hassistant : msg.assistant with
    | none => simp
    | some assistant =>
      have hmentions : msg.mentions = msg.id :: (assistant.parentID ::
          assistant.acceptedInputMessageIDs.getD [] ++ msg.parts.flatMap fun part =>
            match part.data with
            | .compaction marker => marker.tailStartID.toList ++ marker.anchorID.toList
            | .content _ => []) := by
        rw [Message.mentions, hassistant]
        rfl
      have hclone := cloneAssistant_eq_rename_iff assistant hassigned hearlier hempty hne
        (fun n hn => hfresh n (by rw [hmentions, hn]; simp))
        (fun n ids hids hn => hfresh n (by
          rw [mem_def] at hids
          rw [hmentions, hids]
          simp [hn]))
      simpa using hclone
  rw [MessageRow.read, hrows, copyMessage, Message.mk.injEq]
  simp only [rowOf, cloneMessage, true_and, hassistant]
  rw [hread, rename_data_iff hfresh]
  constructor
  · rintro ⟨⟨hparent, haccepted⟩, horder, hmarkers⟩
    exact ⟨⟨hparent, haccepted, hmarkers⟩, horder⟩
  · rintro ⟨hplain, horder⟩
    exact ⟨⟨hplain.parent, hplain.accepted⟩, horder, hplain.markers⟩

/-! ## All Messages -/

omit [Collation] in
lemma forall_split_cons {α : Type} {P : List α → α → Prop} {x : α} {xs : List α} :
    (∀ before y after, x :: xs = before ++ y :: after → P before y) ↔
      P [] x ∧ ∀ before y after, xs = before ++ y :: after → P (x :: before) y := by
  constructor
  · intro h
    exact ⟨h [] x xs rfl, fun before y after heq => h (x :: before) y after (by rw [heq, cons_append])⟩
  · rintro ⟨hhead, htail⟩ before y after heq
    cases before with
    | nil =>
      obtain ⟨rfl, -⟩ := cons.inj heq
      exact hhead
    | cons _ before =>
      obtain ⟨rfl, hrest⟩ := cons.inj heq
      exact htail before y after hrest

omit [Collation] in
lemma renamed_of_split (supply : IdentifierSupply) {before after : List String} {id : String}
    (hnodup : (before ++ id :: after).Nodup) :
    renamed supply (before ++ id :: after) id = supply.message before.length := by
  have hnot : id ∉ before := fun h =>
    (nodup_append.mp hnodup).2.2 id h id mem_cons_self rfl
  have hindex : (before ++ id :: after).idxOf? id = some before.length := by
    rw [idxOf?_eq_some_iff]
    refine ⟨by simp, by simp, fun j hj => ?_⟩
    rw [getElem_append_left hj]
    exact fun h => hnot (h ▸ getElem_mem hj)
  rw [renamed, hindex]

lemma read_clones_eq_copies_iff {supply : IdentifierSupply} (clock : ℕ → ℕ) (sessionID : String)
    {copied : List String} {msgs before : List (Message δ)} (k : ℕ)
    (hcopied : copied = (before ++ msgs).map Message.id) (hnodup : copied.Nodup) (hempty : "" ∉ copied)
    (hfresh : supply.Fresh msgs) (hassigned : Assigned supply copied (before.map Message.id) idMap) :
    (rowsOf clock k (cloneLoop supply sessionID none before.length k idMap msgs)).map MessageRow.read =
        copies (renamed supply copied) supply sessionID before.length k msgs ↔
      ∀ between msg after, msgs = between ++ msg :: after →
        RefersPlainly copied ((before ++ between ++ [msg]).map Message.id) msg ∧
          PartsInOrder (fun j => supply.part (k + (between.map fun m => m.parts.length).sum + j))
            (fun j => max (clock (k + (between.map fun m => m.parts.length).sum + j)) msg.created)
            msg.parts.length := by
  induction msgs generalizing before idMap k with
  | nil => simp [cloneLoop, rowsOf, copies]
  | cons msg rest ih =>
    have hmem : msg.id ∈ copied := by simp [hcopied]
    have hid : renamed supply copied msg.id = supply.message before.length := by
      have hsplit : copied = before.map Message.id ++ msg.id :: rest.map Message.id := by simp [hcopied]
      rw [hsplit] at hnodup ⊢
      simpa using renamed_of_split supply hnodup
    have hassigned' : Assigned supply copied ((before ++ [msg]).map Message.id)
        ((msg.id, supply.message before.length) :: idMap) := by
      intro id
      by_cases h : id = msg.id
      · subst h
        simp [hid]
      · have hbeq : (id == msg.id) = false := by simpa using h
        rw [lookup_cons, hbeq]
        simp only [hassigned id, map_append, map_cons, map_nil, mem_append,
          mem_singleton, h, or_false]
    have hrest : supply.Fresh rest :=
      { hfresh with not_mentioned := fun n m hm => hfresh.not_mentioned n m (mem_cons_of_mem _ hm) }
    have hne : ∀ id ∈ copied, renamed supply copied id ≠ "" := by
      intro id hid
      unfold renamed
      split
      · exact hfresh.message_ne_empty _
      · exact fun h => hempty (h ▸ hid)
    have hearlier : ∀ id ∈ (before ++ [msg]).map Message.id, id ∈ copied := by
      intro id hid
      simp only [hcopied, map_append, map_cons, map_nil, mem_append, mem_cons,
        not_mem_nil, or_false] at hid ⊢
      rcases hid with hid | hid
      · exact .inl hid
      · exact .inr (.inl hid)
    have hpartIDs : Function.Injective fun j => supply.part (k + j) := by
      intro i j hij
      have := hfresh.part_injective hij
      omega
    have hhead := read_clone_eq_copy_iff sessionID (supply.message before.length) (fun j => clock (k + j))
      hassigned' hearlier hempty hne (fun n => hfresh.not_mentioned n msg mem_cons_self) hpartIDs
    have htail := ih (k + msg.parts.length) (by simp [hcopied]) hrest hassigned'
    rw [length_append, length_singleton] at htail
    have hparts : (cloneMessage sessionID (supply.message before.length) (fun j => supply.part (k + j))
        ((msg.id, supply.message before.length) :: idMap) msg).parts.length = msg.parts.length := by
      simp [cloneMessage]
    rw [forall_split_cons]
    simp only [cloneLoop, any_none, Bool.false_eq_true, if_false, rowsOf, copies, map_cons, hparts,
      cons.injEq, hhead, htail]
    simp only [List.append_nil, append_assoc, cons_append, nil_append, map_nil, sum_nil,
      Nat.add_zero, map_cons, sum_cons, Nat.add_assoc, map_append]

end Reading

/-! ## The renaming of a fork -/

/-- Exchange the ids of each pair. -/
def swaps : List (String × String) → Equiv.Perm String
  | [] => Equiv.refl String
  | (old, new) :: rest => (swaps rest).trans (Equiv.swap old new)

variable {pairs : List (String × String)}

lemma swaps_of_not_mem (h : ∀ pair ∈ pairs, id ≠ pair.1 ∧ id ≠ pair.2) : swaps pairs id = id := by
  induction pairs with
  | nil => rfl
  | cons pair _ ih =>
    obtain ⟨hold, hnew⟩ := h pair mem_cons_self
    rw [swaps, Equiv.trans_apply, ih fun pair hp => h pair (mem_cons_of_mem _ hp),
      Equiv.swap_apply_of_ne_of_ne hold hnew]

lemma swaps_of_mem (hold : (pairs.map Prod.fst).Nodup) (hnew : (pairs.map Prod.snd).Nodup)
    (hdisjoint : ∀ pair ∈ pairs, ∀ pair' ∈ pairs, pair.1 ≠ pair'.2) {pair : String × String} (hpair : pair ∈ pairs) :
    swaps pairs pair.1 = pair.2 := by
  induction pairs with
  | nil => exact absurd hpair not_mem_nil
  | cons first rest ih =>
    rw [map_cons, nodup_cons] at hold hnew
    have hrest : ∀ p ∈ rest, ∀ p' ∈ rest, p.1 ≠ p'.2 := fun p hp p' hp' =>
      hdisjoint p (mem_cons_of_mem _ hp) p' (mem_cons_of_mem _ hp')
    rw [swaps, Equiv.trans_apply]
    rcases mem_cons.mp hpair with rfl | hmem
    · rw [swaps_of_not_mem, Equiv.swap_apply_left]
      intro p hp
      exact ⟨fun h => hold.1 (h ▸ List.mem_map_of_mem hp), hdisjoint _ mem_cons_self p
        (mem_cons_of_mem _ hp)⟩
    · rw [ih hold.2 hnew.2 hrest hmem, Equiv.swap_apply_of_ne_of_ne]
      · exact (hdisjoint first mem_cons_self pair hpair).symm
      · exact fun h => hnew.1 (h ▸ List.mem_map_of_mem hmem)

def forkPairs (supply : IdentifierSupply) (copied : List String) : List (String × String) :=
  copied.mapIdx fun i id => (id, supply.message i)

lemma swaps_forkPairs (hnodup : copied.Nodup) (hinj : Function.Injective supply.message)
    (hcopied : ∀ n, supply.message n ∉ copied) (hfresh : ∀ n, supply.message n ≠ id) :
    swaps (forkPairs supply copied) id = renamed supply copied id := by
  have hfst : (forkPairs supply copied).map Prod.fst = copied :=
    ext_getElem (by simp [forkPairs]) fun j hj hj' => by simp [forkPairs]
  have hsnd : ((forkPairs supply copied).map Prod.snd).Nodup := by
    rw [nodup_iff_injective_getElem]
    intro i j hij
    have hnumber : (i : ℕ) = j := by simpa [forkPairs, hinj.eq_iff] using hij
    exact Fin.ext hnumber
  have hnew : ∀ pair ∈ forkPairs supply copied, ∃ n, pair.2 = supply.message n := by
    intro pair hpair
    obtain ⟨i, _, rfl⟩ := mem_mapIdx.mp hpair
    exact ⟨i, rfl⟩
  have hold : ∀ pair ∈ forkPairs supply copied, pair.1 ∈ copied := fun pair hpair =>
    hfst ▸ List.mem_map_of_mem hpair
  by_cases hmem : id ∈ copied
  · obtain ⟨before, after, rfl⟩ := append_of_mem hmem
    rw [renamed_of_split _ hnodup]
    have hpair : (id, supply.message before.length) ∈ forkPairs supply (before ++ id :: after) :=
      mem_mapIdx.mpr ⟨before.length, by simp, by simp⟩
    refine swaps_of_mem (by rw [hfst]; exact hnodup) hsnd (fun p hp p' hp' h => ?_) hpair
    obtain ⟨n, hn⟩ := hnew p' hp'
    exact hcopied n (hn ▸ h ▸ hold p hp)
  · rw [(renamed_eq_self_iff hfresh).mpr hmem]
    refine swaps_of_not_mem fun pair hpair => ⟨fun h => hmem (h ▸ hold pair hpair), fun h => ?_⟩
    obtain ⟨n, hn⟩ := hnew pair hpair
    exact hfresh n (hn.symm.trans h.symm)

lemma copyMessage_congr {ρ' : String → String} {newID : String} {partIDs : ℕ → String}
    (h : ∀ id ∈ msg.mentions, ρ id = ρ' id) :
    copyMessage ρ sessionID newID partIDs msg = copyMessage ρ' sessionID newID partIDs msg := by
  have hassistant : msg.assistant.map (rename ρ) = msg.assistant.map (rename ρ') := by
    cases hassistant : msg.assistant with
    | none => rfl
    | some assistant =>
      have hmentions : ∀ id ∈ assistant.parentID :: assistant.acceptedInputMessageIDs.getD [], ρ id = ρ' id := by
        intro id hid
        refine h id ?_
        rw [mentions, hassistant]
        exact mem_cons_of_mem _ (mem_append_left _ hid)
      have haccepted : assistant.acceptedInputMessageIDs.map (List.map ρ) =
          assistant.acceptedInputMessageIDs.map (List.map ρ') := by
        cases haccept : assistant.acceptedInputMessageIDs with
        | none => rfl
        | some =>
          rw [haccept] at hmentions
          exact congrArg some (map_congr_left fun id hid => hmentions id (mem_cons_of_mem _ hid))
      simp only [map_some, rename, hmentions _ mem_cons_self, haccepted]
  have hparts : ∀ part ∈ msg.parts, part.data.rename ρ = part.data.rename ρ' := by
    intro part hpart
    cases hdata : part.data with
    | content => rfl
    | compaction marker =>
      have hmarker : ∀ id, marker.tailStartID = some id ∨ marker.anchorID = some id → ρ id = ρ' id := by
        intro id hid
        refine h id (mem_cons_of_mem _ (mem_append_right _ (mem_flatMap.mpr ⟨part, hpart, ?_⟩)))
        rw [hdata]
        rcases hid with hid | hid
        · simp [hid]
        · simp [hid]
      have htail : marker.tailStartID.map ρ = marker.tailStartID.map ρ' := by
        cases hid : marker.tailStartID with
        | none => rfl
        | some id => exact congrArg some (hmarker id (.inl hid))
      have hanchor : marker.anchorID.map ρ = marker.anchorID.map ρ' := by
        cases hid : marker.anchorID with
        | none => rfl
        | some id => exact congrArg some (hmarker id (.inr hid))
      simp only [PartData.rename, CompactionPart.rename, htail, hanchor]
  rw [copyMessage, copyMessage, hassistant]
  congr 1
  refine ext_getElem (by simp) fun j hj hj' => ?_
  simp [hparts _ (getElem_mem (by simpa using hj))]

lemma copies_eq_map {n : ℕ} {f : Message δ → Message δ}
    (h : ∀ before msg after, msgs = before ++ msg :: after →
      copyMessage ρ sessionID (supply.message (n + before.length))
        (fun j => supply.part (k + (before.map fun m => m.parts.length).sum + j)) msg = f msg) :
    copies ρ supply sessionID n k msgs = msgs.map f := by
  induction msgs generalizing n k with
  | nil => rfl
  | cons _ _ ih =>
    obtain ⟨hhead, htail⟩ := forall_split_cons.mp h
    rw [copies, map_cons, ih]
    · rw [← hhead]
      simp
    · intro before m after heq
      rw [← htail before m after heq]
      simp [Nat.add_assoc, Nat.add_comm 1]

lemma compaction_copyMessage (ρ : String → String) (sessionID newID : String) (partIDs : ℕ → String)
    (msg : Message δ) : (copyMessage ρ sessionID newID partIDs msg).compaction =
      msg.compaction.map (CompactionPart.rename ρ) := by
  have hparts : ∀ (parts : List (Part δ)) (ids : ℕ → String),
      ((parts.mapIdx fun j part => ({ id := ids j, data := part.data.rename ρ } : Part δ)).findSome? fun part =>
        match part.data with
        | .compaction marker => some marker
        | .content _ => none) =
      (parts.findSome? fun part =>
        match part.data with
        | .compaction marker => some marker
        | .content _ => none).map (CompactionPart.rename ρ) := by
    intro parts
    induction parts with
    | nil => exact fun _ => rfl
    | cons part _ ih =>
      intro ids
      rw [mapIdx_cons, findSome?_cons, findSome?_cons]
      cases hdata : part.data with
      | compaction => rfl
      | content => exact ih fun j => ids (j + 1)
  exact hparts msg.parts partIDs

def partOffset (msgs : List (Message δ)) (id : String) : ℕ :=
  ((preceding msgs id).map fun m => m.parts.length).sum

def forkRenaming (supply : IdentifierSupply) (sessionID : String) (msgs : List (Message δ))
    (hempty : "" ∉ msgs.map Message.id) (hne : ∀ n, supply.message n ≠ "") : Renaming δ where
  ids := swaps (forkPairs supply (msgs.map Message.id))
  injective := Equiv.injective _
  ids_empty := by
    refine swaps_of_not_mem fun pair hpair => ?_
    obtain ⟨i, hi, rfl⟩ := mem_mapIdx.mp hpair
    exact ⟨fun h => hempty (h ▸ getElem_mem hi), (hne i).symm⟩
  message := fun msg => copyMessage (swaps (forkPairs supply (msgs.map Message.id))) sessionID
    (swaps (forkPairs supply (msgs.map Message.id)) msg.id) (fun j => supply.part (partOffset msgs msg.id + j)) msg
  message_id := fun _ => rfl
  message_assistant := fun _ => rfl
  message_compaction := fun msg => compaction_copyMessage _ _ _ _ msg

/-! ## The law -/

lemma Assistant.Accepts.rename {assistant : Assistant} (h : assistant.Accepts) (ρ : String → String) :
    (assistant.rename ρ).Accepts := by
  intro accepted haccepted
  obtain ⟨ids, hids, rfl⟩ := map_eq_some_iff.mp haccepted
  rw [getLast?_map, h ids hids]
  rfl

lemma accepts_copies {n : ℕ} (h : ∀ msg ∈ msgs, ∀ assistant ∈ msg.assistant, assistant.Accepts) :
    ∀ msg ∈ copies ρ supply sessionID n k msgs, ∀ assistant ∈ msg.assistant, assistant.Accepts := by
  induction msgs generalizing n k with
  | nil => exact fun _ hmsg => absurd hmsg not_mem_nil
  | cons msg _ ih =>
    rw [copies, forall_mem_cons]
    refine ⟨fun assistant hassistant => ?_, ih fun m hm => h m (mem_cons_of_mem _ hm)⟩
    obtain ⟨original, horiginal, rfl⟩ := map_eq_some_iff.mp hassistant
    exact (h msg mem_cons_self original horiginal).rename ρ

lemma takeWhile_below_eq (msgs : List (Message δ)) (messageID : String) :
    (msgs.takeWhile fun msg => codeUnitCompare msg.id messageID = .lt) =
      (preceding msgs messageID).takeWhile fun msg => codeUnitCompare msg.id messageID = .lt := by
  rw [preceding, takeWhile_takeWhile]
  congr 1
  funext msg
  by_cases h : codeUnitCompare msg.id messageID = .lt
  · have hne : msg.id ≠ messageID := by
      intro heq
      have hself : codeUnitCompare messageID messageID = .eq := Std.ReflCmp.compare_self
      rw [heq, hself] at h
      cases h
    simp [h, hne]
  · simp [h]

variable {supply : IdentifierSupply} {clock : ℕ → ℕ} {sessionID messageID : String} {t : Transcript δ}

lemma filterCompacted_copies (hnodup : (msgs.map Message.id).Nodup) (hempty : "" ∉ msgs.map Message.id)
    (hfresh : supply.Fresh msgs)
    (hplain : ∀ before msg after, msgs = before ++ msg :: after →
      RefersPlainly (msgs.map Message.id) ((before ++ [msg]).map Message.id) msg)
    (authority authority' : AnchorAuthority δ) :
    filterCompacted authority' (copies (renamed supply (msgs.map Message.id)) supply sessionID 0 0 msgs).reverse =
      (filterCompacted authority msgs.reverse).map (List.map (imageOf msgs
        (copies (renamed supply (msgs.map Message.id)) supply sessionID 0 0 msgs))) := by
  set r := forkRenaming supply sessionID msgs hempty hfresh.message_ne_empty with hr
  have hcopied : ∀ n, supply.message n ∉ msgs.map Message.id := by
    intro n hn
    obtain ⟨msg, hmsg, hid⟩ := List.mem_map.mp hn
    exact hfresh.not_mentioned n msg hmsg (hid ▸ mem_cons_self)
  have hswaps : ∀ msg ∈ msgs, ∀ id ∈ msg.mentions,
      swaps (forkPairs supply (msgs.map Message.id)) id = renamed supply (msgs.map Message.id) id := by
    intro msg hmsg id hid
    exact swaps_forkPairs hnodup hfresh.message_injective hcopied
      fun n hn => hfresh.not_mentioned n msg hmsg (hn ▸ hid)
  -- The copies are the images under the renaming.
  have hcopies : copies (renamed supply (msgs.map Message.id)) supply sessionID 0 0 msgs = msgs.map r.message := by
    refine copies_eq_map fun before msg after heq => ?_
    have hmsg : msg ∈ msgs := heq ▸ mem_append_right _ mem_cons_self
    have hsplit : msgs.map Message.id = before.map Message.id ++ msg.id :: after.map Message.id := by simp [heq]
    have hid : swaps (forkPairs supply (msgs.map Message.id)) msg.id = supply.message before.length := by
      rw [hswaps msg hmsg msg.id mem_cons_self, hsplit]
      rw [hsplit] at hnodup
      simpa using renamed_of_split supply hnodup
    have hoffset : partOffset msgs msg.id = (before.map fun m => m.parts.length).sum := by
      have hbefore : preceding msgs msg.id = before := by
        rw [preceding, heq, takeWhile_append_of_pos, takeWhile_cons_of_neg (by simp), List.append_nil]
        intro m hm
        rw [hsplit] at hnodup
        have hne : m.id ≠ msg.id := fun h =>
          (nodup_append.mp hnodup).2.2 m.id (List.mem_map_of_mem hm) msg.id mem_cons_self h
        simpa using hne
      rw [partOffset, hbefore]
    rw [Nat.zero_add, Nat.zero_add]
    change _ = copyMessage _ sessionID _ (fun j => supply.part (partOffset msgs msg.id + j)) msg
    rw [hid, hoffset]
    exact copyMessage_congr fun id hid => (hswaps msg hmsg id hid).symm
  have himage : ∀ msg ∈ msgs, imageOf msgs (msgs.map r.message) msg = r.message msg := by
    have hlookup : ∀ (rest : List (Message δ)), (rest.map Message.id).Nodup → ∀ msg ∈ rest,
        ((rest.map Message.id).zip (rest.map r.message)).lookup msg.id = some (r.message msg) := by
      intro rest
      induction rest with
      | nil => exact fun _ _ h => absurd h not_mem_nil
      | cons first _ ih =>
        intro hnodup msg hmsg
        rw [map_cons, nodup_cons] at hnodup
        rw [map_cons, map_cons, zip_cons_cons, lookup_cons]
        rcases mem_cons.mp hmsg with rfl | hmem
        · simp
        · have hne : (msg.id == first.id) = false := by
            simpa using fun h : msg.id = first.id => hnodup.1 (h ▸ List.mem_map_of_mem hmem)
          rw [hne]
          exact ih hnodup.2 msg hmem
    intro msg hmsg
    rw [imageOf, hlookup msgs hnodup msg hmsg, getD_some]
  -- No marker of the prefix names a Message of the prefix, so no anchor is projected.
  have hunanchored : Unanchored msgs.reverse := by
    intro anchor hanchor marker hmarker hname
    rw [mem_reverse] at hanchor hmarker
    obtain ⟨part, hpart, hid⟩ := bind_eq_some_iff.mp hname
    obtain ⟨entry, hentry, hdata⟩ := exists_of_findSome?_eq_some hpart
    obtain ⟨before, after, heq⟩ := append_of_mem hmarker
    refine (hplain before marker after heq).markers entry hentry part ?_ anchor.id (.inr hid)
      (List.mem_map_of_mem hanchor)
    cases hkind : entry.data with
    | content =>
      rw [hkind] at hdata
      cases hdata
    | compaction =>
      rw [hkind] at hdata
      rw [some.inj hdata]
  rw [hcopies, ← map_reverse, @Renaming.filterCompacted_map _ r authority _ _
    fun anchor hanchor marker hmarker hname => absurd hname (hunanchored anchor hanchor marker hmarker)]
  cases hresult : filterCompacted authority msgs.reverse with
  | error => rfl
  | ok =>
    refine congrArg Except.ok (map_congr_left fun msg hmsg => (himage msg ?_).symm)
    exact mem_reverse.mp (mem_of_mem_filterCompacted hunanchored hresult msg hmsg)

section Law

variable [Collation]

def FaithfulFork (supply : IdentifierSupply) (clock : ℕ → ℕ) (sessionID : String) (t : Transcript δ)
    (messageID : String) : Prop :=
  let msgs := preceding (messages t.rows) messageID
  let images := copies (renamed supply (msgs.map Message.id)) supply sessionID 0 0 msgs
  ∃ rows, fork supply clock sessionID t.rows (some messageID) = .ok rows ∧ messages rows = images ∧
    ∀ authority authority' : AnchorAuthority δ, filterCompacted authority' (stream rows) =
      (filterCompacted authority msgs.reverse).map (List.map (imageOf msgs images))

lemma assistant_of_mem_rowsOf {clock : ℕ → ℕ} (k : ℕ) {msgs : List (Message δ)} {msg : Message δ}
    (h : msg ∈ msgs) : ∃ read ∈ (rowsOf clock k msgs).map MessageRow.read, read.assistant = msg.assistant := by
  induction msgs generalizing k with
  | nil => exact absurd h not_mem_nil
  | cons first _ ih =>
    rw [rowsOf, map_cons]
    rcases mem_cons.mp h with rfl | hmem
    · exact ⟨_, mem_cons_self, rfl⟩
    · obtain ⟨read, hread, heq⟩ := ih (k + first.parts.length) hmem
      exact ⟨read, mem_cons_of_mem _ hread, heq⟩

namespace Transcript

variable (t : Transcript δ)

lemma messages_eq : messages t.rows = t.rows.map MessageRow.read := messages_eq_map t.increasing

lemma nodup_messages : ((messages t.rows).map Message.id).Nodup := by
  rw [messages_eq, List.map_map]
  exact t.nodup

lemma nonempty_messages : ∀ msg ∈ messages t.rows, msg.id ≠ "" := by
  intro msg hmsg
  rw [messages_eq] at hmsg
  obtain ⟨row, hrow, rfl⟩ := List.mem_map.mp hmsg
  exact t.nonempty row hrow

lemma accepts_messages : ∀ msg ∈ messages t.rows, ∀ assistant ∈ msg.assistant, assistant.Accepts := by
  intro msg hmsg
  rw [messages_eq] at hmsg
  obtain ⟨row, hrow, rfl⟩ := List.mem_map.mp hmsg
  exact t.accepts row hrow

lemma increasing_messages : ((messages t.rows).map Message.created).Pairwise (· < ·) := by
  rw [messages_eq, List.map_map]
  exact pairwise_map.mpr t.increasing

end Transcript

lemma fork_eq_ok (rows : List (MessageRow δ)) (hincreasing : ((preceding (messages t.rows) messageID).map
      Message.created).Pairwise (· < ·)) :
    fork supply clock sessionID t.rows (some messageID) = .ok rows ↔
      (∀ msg ∈ cloneLoop supply sessionID none 0 0 []
          ((preceding (messages t.rows) messageID).takeWhile fun msg => codeUnitCompare msg.id messageID = .lt),
        ∀ assistant ∈ msg.assistant, assistant.Accepts) ∧
      rows = rowsOf clock 0 (cloneLoop supply sessionID none 0 0 []
        ((preceding (messages t.rows) messageID).takeWhile fun msg => codeUnitCompare msg.id messageID = .lt)) := by
  rw [fork, cloneLoop_eq_takeWhile, takeWhile_below_eq, persistClones_eq_ok, nil_append]
  simp only [map_nil, nil_append, map_created_cloneLoop_none]
  exact hincreasing.sublist ((takeWhile_sublist _).map _)

end Law

/-! ## Two histories -/

/-- The `n`-th of a sequence of ids in the ascending format, which have a `z` where the ids below have a number. -/
def countedID (n : ℕ) : String :=
  String.ofList ('m' :: 's' :: 'g' :: '_' :: 'g' :: List.replicate (n + 1) 'z')

lemma countedID_injective : Function.Injective countedID := by
  intro i j h
  have hlength := congrArg String.length h
  simpa [countedID] using hlength

lemma countedID_ne {text : String} (h : text.toList[5]? ≠ some 'z') (n : ℕ) : countedID n ≠ text := by
  rintro rfl
  rw [countedID, String.toList_ofList, replicate_succ] at h
  exact h rfl

/-- A supply of ids in the ascending format. -/
def countingSupply : IdentifierSupply := ⟨countedID, countedID⟩

def userRow (id : String) (created : ℕ) : MessageRow String :=
  { id, sessionID := "ses_1", created, assistant := none, fields := "user",
    parts := [{ id := "prt_" ++ id, timeCreated := created, data := .content "input" }] }

def replyRow (id parentID : String) (accepted : Option (List String)) (created : ℕ) : MessageRow String :=
  { id, sessionID := "ses_1", created
    assistant := some { parentID, acceptedInputMessageIDs := accepted, summary := none, finish := some "stop",
                        failed := false, structured := false }
    fields := "assistant"
    parts := [{ id := "prt_" ++ id, timeCreated := created, data := .content "reply" }] }

/-- An input, its reply and a second input. -/
def conversation (accepted : Option (List String))
    (h : ∀ ids ∈ accepted, ids.getLast? = some "msg_g1") : Transcript String where
  rows := [userRow "msg_g1" 1, replyRow "msg_g2" "msg_g1" accepted 2, userRow "msg_g3" 3]
  increasing := by simp [userRow, replyRow]
  nodup := by simp [userRow, replyRow]
  nonempty := by simp [userRow, replyRow]
  accepts := by simpa [userRow, replyRow, Assistant.Accepts] using h

lemma countingSupply_fresh [Collation] (accepted : Option (List String))
    (h : ∀ ids ∈ accepted, ids.getLast? = some "msg_g1")
    (hids : ∀ ids ∈ accepted, ∀ id ∈ ids, id.toList[5]? ≠ some 'z') :
    countingSupply.Fresh (messages (conversation accepted h).rows) := by
  refine ⟨countedID_injective, countedID_injective, countedID_ne (by decide), fun n msg hmsg hmention => ?_⟩
  rw [(conversation accepted h).messages_eq] at hmsg
  have hplace : ∀ id ∈ msg.mentions, id.toList[5]? ≠ some 'z' := by
    intro id hid
    simp only [conversation, userRow, replyRow, MessageRow.read, readParts, toSorted, map_cons, map_nil,
      insertionSort_cons, insertionSort_nil, orderedInsert_nil, mem_cons, not_mem_nil,
      or_false] at hmsg
    rcases hmsg with rfl | rfl | rfl
    · simp [Message.mentions] at hid
      rw [hid]
      decide
    · simp [Message.mentions] at hid
      rcases hid with rfl | rfl | hid
      · decide
      · decide
      · cases haccepted : accepted with
        | none =>
          rw [haccepted] at hid
          exact absurd hid not_mem_nil
        | some ids =>
          rw [haccepted] at hid
          exact hids ids haccepted id hid
    · simp [Message.mentions] at hid
      rw [hid]
      decide
  exact countedID_ne (hplace _ hmention) n rfl

end OpenCorvus.Session
