import OpenCorvus.Foundation.EcmaScript
import OpenCorvus.Foundation.KeysetPagination
import Mathlib.Algebra.GroupWithZero.Nat
import Mathlib.Data.Prod.Lex
import Mathlib.Data.String.Basic

/-!
# Transcripts of Sessions

The Message rows of a Session with their Parts, and how they are read.  A new Message is stored with a creation time
after every earlier one, so a transcript is in the order of its creation times.

Of a Message the model keeps the identities, the references to other Messages and what makes an assistant Message a
summary; all other content is a parameter.
-/

namespace OpenCorvus.Session

open EcmaScript KeysetPagination

variable {δ : Type}

/-- `Message.CompactionPart`. -/
structure CompactionPart where
  auto : Bool
  overflow : Option Bool
  tailStartID : Option String
  anchorID : Option String
  focus : Option String
deriving DecidableEq

inductive PartData (δ : Type) where
  | compaction (part : CompactionPart)
  | content (data : δ)
deriving DecidableEq

structure Part (δ : Type) where
  id : String
  data : PartData δ

structure Assistant where
  parentID : String
  acceptedInputMessageIDs : Option (List String)
  summary : Option Bool
  finish : Option String
  /-- `error` is set. -/
  failed : Bool
  /-- `structured` is not `undefined`. -/
  structured : Bool
deriving DecidableEq

structure Message (δ : Type) where
  id : String
  sessionID : String
  created : ℕ
  assistant : Option Assistant
  fields : δ
  parts : List (Part δ)

structure PartRow (δ : Type) where
  id : String
  timeCreated : ℕ
  data : PartData δ
deriving DecidableEq

structure MessageRow (δ : Type) where
  id : String
  sessionID : String
  created : ℕ
  assistant : Option Assistant
  fields : δ
  parts : List (PartRow δ)
deriving DecidableEq

def Assistant.Accepts (assistant : Assistant) : Prop :=
  ∀ accepted ∈ assistant.acceptedInputMessageIDs, accepted.getLast? = some assistant.parentID

instance (assistant : Assistant) : Decidable assistant.Accepts :=
  inferInstanceAs (Decidable (∀ _ ∈ _, _))

/-- `CompactionHandoff.isValidSummaryMessage` of an assistant Message. -/
def Assistant.isValidSummary (assistant : Assistant) : Bool :=
  assistant.summary == some true && assistant.finish.any (· ≠ "") && !assistant.failed && !assistant.structured

def Message.compaction (msg : Message δ) : Option CompactionPart :=
  msg.parts.findSome? fun part =>
    match part.data with
    | .compaction marker => some marker
    | .content _ => none

section Reading

variable [Collation]

/-- The order of the Parts of one Message in `loadPartRows`. -/
def comparePartRows (left right : PartRow δ) : Ordering :=
  (compare left.timeCreated right.timeCreated).then (localeCompare left.id right.id)

def readParts (rows : List (PartRow δ)) : List (Part δ) :=
  (toSorted comparePartRows rows).map fun row => ⟨row.id, row.data⟩

def MessageRow.read (row : MessageRow δ) : Message δ :=
  { id := row.id, sessionID := row.sessionID, created := row.created, assistant := row.assistant,
    fields := row.fields, parts := readParts row.parts }

/-- The descending key of `MessageStore.stream`. -/
def MessageRow.streamKey (row : MessageRow δ) : (ℕ ×ₗ String)ᵒᵈ :=
  OrderDual.toDual (toLex (row.created, row.id))

/-- `MessageStore.stream`: the Messages of a Session, the newest first, in pages of fifty. -/
def stream (rows : List (MessageRow δ)) : List (Message δ) :=
  (pages MessageRow.streamKey rows 50 (rows.length + 1) none).map MessageRow.read

/-- `Session.messages` without a limit. -/
def messages (rows : List (MessageRow δ)) : List (Message δ) := (stream rows).reverse

end Reading

variable (rows : List (MessageRow δ))

def latestCreated : Option ℕ := (rows.map MessageRow.created).max?

/-- `persistedCreated` of a Message that is new. -/
def createdAfter (created : ℕ) : ℕ :=
  match latestCreated rows with
  | some latest => max created (latest + 1)
  | none => created

inductive PersistError where
  | parentNotTail
deriving DecidableEq

/-- `persistMessageBundleRows` of a Message whose id is new; each Part has its own reading of the clock. -/
def persistNewMessage (msg : Message δ) (clock : ℕ → ℕ) : Except PersistError (List (MessageRow δ)) :=
  if ∀ assistant ∈ msg.assistant, assistant.Accepts then
    let created := createdAfter rows msg.created
    .ok (rows ++ [{
      id := msg.id
      sessionID := msg.sessionID
      created
      assistant := msg.assistant
      fields := msg.fields
      parts := msg.parts.mapIdx fun j part =>
        { id := part.id, timeCreated := max (clock j) created, data := part.data } }])
  else .error .parentNotTail

/-- The rows of a Session in the order in which they were persisted. -/
structure Transcript (δ : Type) where
  rows : List (MessageRow δ)
  /-- Each Message was created after those before it. -/
  increasing : rows.Pairwise fun earlier later => earlier.created < later.created
  nodup : (rows.map MessageRow.id).Nodup
  nonempty : ∀ row ∈ rows, row.id ≠ ""
  /-- Every stored Message has passed the schema. -/
  accepts : ∀ row ∈ rows, ∀ assistant ∈ row.assistant, assistant.Accepts

section Reading

variable [Collation]

theorem stream_eq_reverse {rows : List (MessageRow δ)}
    (h : rows.Pairwise fun earlier later => earlier.created < later.created) :
    stream rows = (rows.map MessageRow.read).reverse := by
  have hlt : ∀ earlier later : MessageRow δ, earlier.created < later.created →
      later.streamKey < earlier.streamKey := by
    intro earlier later hcreated
    exact OrderDual.toDual_lt_toDual.mpr (Prod.Lex.toLex_lt_toLex.mpr (.inl hcreated))
  have hreverse : rows.reverse.Pairwise fun r s => r.streamKey < s.streamKey :=
    List.pairwise_reverse.mpr (h.imp fun hcreated => hlt _ _ hcreated)
  have hkeys : rows.Pairwise fun r s => r.streamKey ≠ s.streamKey :=
    h.imp fun hcreated => (hlt _ _ hcreated).ne'
  have hnone : following MessageRow.streamKey rows none = rows := by
    simp [following]
  have hpages : pages MessageRow.streamKey rows 50 (rows.length + 1) none =
      ordered MessageRow.streamKey (following MessageRow.streamKey rows none) :=
    pages_eq_ordered (by decide) hkeys (by rw [hnone]; exact Nat.lt_succ_self _)
  rw [stream, hpages, hnone, ← List.map_reverse]
  congr 1
  exact eq_of_pairwise_lt (pairwise_ordered hkeys) hreverse fun r => by simp

theorem messages_eq_map {rows : List (MessageRow δ)}
    (h : rows.Pairwise fun earlier later => earlier.created < later.created) :
    messages rows = rows.map MessageRow.read := by
  rw [messages, stream_eq_reverse h, List.reverse_reverse]

end Reading

end OpenCorvus.Session
