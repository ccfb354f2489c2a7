import OpenCorvus.Foundation.KeysetPagination
import Mathlib.Data.List.Induction
import Mathlib.Data.Prod.Lex
import Mathlib.Data.String.Basic

/-!
# The mailbox

A listing goes from the newest message to the oldest, in pages that follow a cursor.  The acknowledgement of a
message is read from the actions on it, newest first.

A history is the list of the event rows that join a Task, in the order of their commits; all pages are read from one.
Identifiers are ASCII texts, which the database and JavaScript compare alike.  An action that is stamped before an
earlier one of its message, by another clock or in the same millisecond, is not the last one that is read.
-/

namespace OpenCorvus.Engine

open List
open KeysetPagination hiding next

inductive MailboxAction where
  | read
  | archive
  | restore
  | delete
deriving DecidableEq

inductive MailboxEventKind where
  /-- An event that `isMailboxSourceEvent` accepts. -/
  | source
  | acknowledgement (messageID : String) (action : MailboxAction)
  | other
deriving DecidableEq

structure MailboxEvent where
  id : String
  emittedAt : ℕ
  kind : MailboxEventKind
deriving DecidableEq

namespace MailboxEvent

def stamp (event : MailboxEvent) : ℕ ×ₗ String := toLex (event.emittedAt, event.id)

/-- The order `desc(emitted_at), desc(id)`. -/
def orderKey (event : MailboxEvent) : (ℕ ×ₗ String)ᵒᵈ := .toDual event.stamp

def messageID (event : MailboxEvent) : Option String :=
  match event.kind with
  | .acknowledgement messageID _ => some messageID
  | _ => none

end MailboxEvent

structure MailboxState where
  readAt : Option ℕ
  archiveResolved : Bool
  archivedAt : Option ℕ
  deletedAt : Option ℕ

open MailboxState

def MailboxState.project (current : MailboxState) (action : MailboxAction) (emittedAt : ℕ) : MailboxState :=
  let current :=
    if action = .delete ∧ current.deletedAt = none then { current with deletedAt := some emittedAt } else current
  let current := if action = .read ∧ current.readAt = none then { current with readAt := some emittedAt } else current
  if current.archiveResolved = false ∧ (action = .archive ∨ action = .restore) then
    { current with
      archiveResolved := true
      archivedAt := if action = .archive then some emittedAt else current.archivedAt }
  else current

def mailboxState (events : List MailboxEvent) : String → MailboxState :=
  (ordered MailboxEvent.orderKey events).foldl
    (fun state event =>
      match event.kind with
      | .acknowledgement messageID action =>
        Function.update state messageID ((state messageID).project action event.emittedAt)
      | _ => state)
    fun _ => ⟨none, false, none, none⟩

inductive MailboxView where
  | active
  | archived
deriving DecidableEq

structure MailboxCursor where
  createdAt : ℕ
  id : String

structure MailboxItem where
  event : MailboxEvent
  readAt : Option ℕ
  archivedAt : Option ℕ
deriving DecidableEq

structure MailboxPage where
  items : List MailboxItem
  nextCursor : Option MailboxCursor
  unreadCount : ℕ
  activeCount : ℕ
  archivedCount : ℕ

variable (events : List MailboxEvent)

def allMailboxSourceRows : List MailboxEvent :=
  (ordered MailboxEvent.orderKey events).filter fun event => event.kind = .source

def mailboxItemFromRow (row : MailboxEvent) : MailboxItem :=
  ⟨row, (mailboxState events row.id).readAt, (mailboxState events row.id).archivedAt⟩

def inView (view : MailboxView) (row : MailboxEvent) : Bool :=
  let itemState := mailboxState events row.id
  itemState.deletedAt = none ∧
    if view = .archived then itemState.archivedAt.isSome else itemState.archivedAt = none

def listMailbox (view : MailboxView) (cursor : Option MailboxCursor) (limitInput : Option ℤ) : MailboxPage :=
  let limit := (min 100 (max 1 (limitInput.getD 40))).toNat
  let allRows := allMailboxSourceRows events
  let active := allRows.filter (inView events .active)
  let pageRows := allRows.filter fun row => inView events view row ∧ ∀ after ∈ cursor,
    row.emittedAt < after.createdAt ∨ row.emittedAt = after.createdAt ∧ row.id < after.id
  let scannedRows := pageRows.take limit
  let cursorRow := if limit < pageRows.length then scannedRows.getLast? else none
  { items := scannedRows.map (mailboxItemFromRow events)
    nextCursor := cursorRow.map fun row => ⟨row.emittedAt, row.id⟩
    unreadCount := active.countP fun row => (mailboxState events row.id).readAt = none
    activeCount := active.length
    archivedCount := (allRows.filter (inView events .archived)).length }

/-- The items of the pages from a cursor on; the number bounds how many are requested. -/
def followCursors (view : MailboxView) (limitInput : Option ℤ) : ℕ → Option MailboxCursor → List MailboxItem
  | 0, _ => []
  | requests + 1, cursor =>
    let page := listMailbox events view cursor limitInput
    page.items ++
      match page.nextCursor with
      | none => []
      | some next => followCursors view limitInput requests (some next)

def mailboxListing (view : MailboxView) : List MailboxItem :=
  ((allMailboxSourceRows events).filter (inView events view)).map (mailboxItemFromRow events)

variable {events} {view : MailboxView}

lemma pairwise_orderKey (hids : (events.map MailboxEvent.id).Nodup) :
    events.Pairwise fun e f => e.orderKey ≠ f.orderKey := by
  rw [List.Nodup, pairwise_map] at hids
  refine hids.imp fun hne heq => hne ?_
  exact congrArg (fun key => (ofLex (OrderDual.ofDual key)).2) heq

def viewRows (events : List MailboxEvent) (view : MailboxView) : List MailboxEvent :=
  events.filter fun row => row.kind = .source ∧ inView events view row

def MailboxCursor.orderKey (cursor : MailboxCursor) : (ℕ ×ₗ String)ᵒᵈ := .toDual (toLex (cursor.createdAt, cursor.id))

/-- The rows of a view after a cursor, as the pages are to show them. -/
def rowsAfter (events : List MailboxEvent) (view : MailboxView) (cursor : Option MailboxCursor) : List MailboxEvent :=
  ordered MailboxEvent.orderKey
    (following MailboxEvent.orderKey (viewRows events view) (cursor.map MailboxCursor.orderKey))

section

variable (hids : (events.map MailboxEvent.id).Nodup)

include hids

lemma pageRows_eq (cursor : Option MailboxCursor) :
    (allMailboxSourceRows events).filter (fun row => inView events view row ∧ ∀ after ∈ cursor,
        row.emittedAt < after.createdAt ∨ row.emittedAt = after.createdAt ∧ row.id < after.id) =
      rowsAfter events view cursor := by
  have hkeys := pairwise_orderKey hids
  refine eq_of_pairwise_lt (((pairwise_ordered hkeys).filter _).filter _)
    (pairwise_ordered ((hkeys.filter _).filter _)) fun row => ?_
  have hlt (after : MailboxCursor) : after.orderKey < row.orderKey ↔
      row.emittedAt < after.createdAt ∨ row.emittedAt = after.createdAt ∧ row.id < after.id :=
    Prod.Lex.toLex_lt_toLex
  simp only [allMailboxSourceRows, rowsAfter, viewRows, mem_filter, mem_ordered, mem_following, decide_eq_true_eq,
    Option.mem_map, forall_exists_index, and_imp, forall_apply_eq_imp_iff₂, hlt, Bool.decide_and, Bool.and_eq_true]
  tauto

lemma rowsAfter_getLast {limit : ℕ} {cursor : Option MailboxCursor} {last : MailboxEvent}
    (hmore : limit < (rowsAfter events view cursor).length)
    (hlast : ((rowsAfter events view cursor).take limit).getLast? = some last) :
    rowsAfter events view (some ⟨last.emittedAt, last.id⟩) = (rowsAfter events view cursor).drop limit := by
  refine ordered_following_next ((pairwise_orderKey hids).filter _) ?_
  have hfull : ((rowsAfter events view cursor).take limit).length = limit := by
    rw [length_take]
    omega
  exact (if_pos hfull).trans (by rw [page, ← rowsAfter, hlast, Option.map_some]; rfl)

theorem followCursors_eq (limitInput : Option ℤ) {requests : ℕ} {cursor : Option MailboxCursor}
    (hrequests : (rowsAfter events view cursor).length < requests) :
    followCursors events view limitInput requests cursor =
      (rowsAfter events view cursor).map (mailboxItemFromRow events) := by
  induction requests generalizing cursor with
  | zero => omega
  | succ requests ih =>
    simp only [followCursors, listMailbox, pageRows_eq hids]
    have hlimit : 0 < (min 100 (max 1 (limitInput.getD 40))).toNat := by omega
    set limit := (min 100 (max 1 (limitInput.getD 40))).toNat
    set rows := rowsAfter events view cursor with hrows
    by_cases hmore : limit < rows.length
    · have hne : rows.take limit ≠ [] := by
        rw [← length_pos_iff, length_take]
        omega
      have hlast := getLast?_eq_some_getLast hne
      set last := (rows.take limit).getLast hne
      have hnext := rowsAfter_getLast hids hmore hlast
      simp only [if_pos hmore, hlast, Option.map_some]
      have hfewer : (rowsAfter events view (some ⟨last.emittedAt, last.id⟩)).length < requests := by
        rw [hnext, length_drop, ← hrows]
        omega
      rw [ih hfewer, hnext, ← map_append, take_append_drop]
    · simp [hmore, take_of_length_le (not_lt.mp hmore)]

lemma rowsAfter_none : rowsAfter events view none = (allMailboxSourceRows events).filter (inView events view) := by
  rw [← pageRows_eq hids]
  simp

end

/-- The acknowledgement of a message: when it was last read, is archived since, and was deleted. -/
structure MailboxAcknowledgement where
  readAt : Option ℕ
  archivedAt : Option ℕ
  deletedAt : Option ℕ
deriving DecidableEq

def MailboxAcknowledgement.apply (messageID : String) (current : MailboxAcknowledgement) (event : MailboxEvent) :
    MailboxAcknowledgement :=
  match event.kind with
  | .acknowledgement id action =>
    if id = messageID then
      match action with
      | .read => { current with readAt := some event.emittedAt }
      | .archive => { current with archivedAt := some event.emittedAt }
      | .restore => { current with archivedAt := none }
      | .delete => { current with deletedAt := some event.emittedAt }
    else current
  | _ => current

/-- The actions on a message, one after the other in the order of their commits. -/
def acknowledgement (events : List MailboxEvent) (messageID : String) : MailboxAcknowledgement :=
  events.foldl (.apply messageID) ⟨none, none, none⟩

def MailboxState.acknowledgement (state : MailboxState) : MailboxAcknowledgement :=
  ⟨state.readAt, state.archivedAt, state.deletedAt⟩

/-- Every action is stamped after the earlier actions on its message. -/
def StampedInOrder (events : List MailboxEvent) : Prop :=
  events.Pairwise fun e f => e.messageID.isSome → e.messageID = f.messageID → e.stamp < f.stamp

def MailboxState.note (messageID : String) (current : MailboxState) (event : MailboxEvent) : MailboxState :=
  match event.kind with
  | .acknowledgement id action => if id = messageID then current.project action event.emittedAt else current
  | _ => current

lemma mailboxState_eq_foldl (messageID : String) :
    mailboxState events messageID =
      (ordered MailboxEvent.orderKey events).foldl (.note messageID) ⟨none, false, none, none⟩ := by
  unfold mailboxState
  generalize ordered MailboxEvent.orderKey events = rows
  suffices ∀ state : String → MailboxState, rows.foldl _ state messageID = rows.foldl _ (state messageID) from this _
  intro state
  induction rows generalizing state with
  | nil => rfl
  | cons event _ ih =>
    rw [foldl_cons, foldl_cons, ih]
    congr 1
    rcases hkind : event.kind with _ | ⟨id, _⟩ | _
    · simp [note, hkind]
    · rcases eq_or_ne id messageID with rfl | hne
      · simp [note, hkind]
      · simp [note, hkind, hne, hne.symm]
    · simp [note, hkind]

lemma of_messageID_ne {event : MailboxEvent} {messageID : String} (hne : event.messageID ≠ some messageID) :
    (∀ state, MailboxState.note messageID state event = state) ∧
      ∀ current, MailboxAcknowledgement.apply messageID current event = current := by
  unfold MailboxEvent.messageID at hne
  unfold note MailboxAcknowledgement.apply
  split at hne <;> simp_all

/-- Read from the newest action on, the first action of a kind stands. -/
lemma foldl_note_reverse {messageID : String} {state : MailboxState}
    (hacts : ∀ event ∈ events, event.messageID = some messageID)
    (hstate : state.archiveResolved = false → state.archivedAt = none) :
    (events.reverse.foldl (.note messageID) state).acknowledgement =
      ⟨state.readAt.or (acknowledgement events messageID).readAt,
        if state.archiveResolved then state.archivedAt else (acknowledgement events messageID).archivedAt,
        state.deletedAt.or (acknowledgement events messageID).deletedAt⟩ := by
  induction events using List.reverseRecOn generalizing state with
  | nil =>
    cases hresolved : state.archiveResolved <;> simp_all [MailboxState.acknowledgement, acknowledgement]
  | append_singleton events event ih =>
    have hlast : acknowledgement (events ++ [event]) messageID =
        (acknowledgement events messageID).apply messageID event := by
      simp [acknowledgement]
    obtain ⟨action, hkind⟩ : ∃ action, event.kind = .acknowledgement messageID action := by
      have hevent := hacts event (by simp)
      unfold MailboxEvent.messageID at hevent
      split at hevent <;> simp_all
    have hnote : state.note messageID event = state.project action event.emittedAt := by
      simp [MailboxState.note, hkind]
    rw [reverse_append, reverse_singleton, singleton_append, foldl_cons, hlast, hnote,
      ih fun e he => hacts e (by simp [he])]
    all_goals
      clear hnote hlast ih
      obtain ⟨readAt, archiveResolved, _, deletedAt⟩ := state
      cases action <;> cases archiveResolved <;> cases readAt <;> cases deletedAt <;>
        simp_all [MailboxAcknowledgement.apply, MailboxState.project]

theorem acknowledgement_mailboxState (hids : (events.map MailboxEvent.id).Nodup) (hstamps : StampedInOrder events)
    (messageID : String) : (mailboxState events messageID).acknowledgement = acknowledgement events messageID := by
  let acts (event : MailboxEvent) : Bool := event.messageID = some messageID
  -- the actions on other messages change nothing, and those on this one are read in the reverse order
  have hignored {σ : Type} {f : σ → MailboxEvent → σ} (hf : ∀ s event, acts event = false → f s event = s)
      (rows : List MailboxEvent) (s : σ) : rows.foldl f s = (rows.filter acts).foldl f s := by
    rw [foldl_filter]
    refine congrArg (fun g => rows.foldl g s) ?_
    grind
  have hreverse : (ordered MailboxEvent.orderKey events).filter acts = (events.filter acts).reverse := by
    refine eq_of_pairwise_lt ((pairwise_ordered (pairwise_orderKey hids)).filter _) ?_
      fun row => by simp
    rw [pairwise_reverse, pairwise_filter]
    refine hstamps.imp fun {e f} h he hf => ?_
    simp only [acts, decide_eq_true_eq] at he hf
    exact h (by simp [he]) (he.trans hf.symm)
  have hne (event : MailboxEvent) (hacts : acts event = false) : event.messageID ≠ some messageID := by
    simpa [acts] using hacts
  rw [mailboxState_eq_foldl, hignored (fun s event h => (of_messageID_ne (hne event h)).1 s), hreverse,
    foldl_note_reverse (fun event hevent => by simpa [acts] using (mem_filter.mp hevent).2) fun _ => rfl]
  rw [acknowledgement, acknowledgement, hignored (fun s event h => (of_messageID_ne (hne event h)).2 s) events]
  simp

/-- When the actions on a message are stamped in the order of their commits, every listing is read exactly once and
in order, for any page size, and the projection of a message is what its actions leave. -/
theorem mailbox_history (hids : (events.map MailboxEvent.id).Nodup) (hstamps : StampedInOrder events) :
    (∀ view limitInput requests, events.length < requests →
      followCursors events view limitInput requests none = mailboxListing events view) ∧
    ∀ messageID, (mailboxState events messageID).acknowledgement = acknowledgement events messageID := by
  refine ⟨fun view limitInput requests hrequests => ?_, acknowledgement_mailboxState hids hstamps⟩
  rw [followCursors_eq hids, rowsAfter_none hids, mailboxListing]
  refine lt_of_le_of_lt ?_ hrequests
  rw [rowsAfter, length_ordered]
  exact (length_filter_le _ _).trans (length_filter_le _ _)

/-- Two actions on one message in one millisecond, in the order of their commits. -/
def sameMillisecond (first second : String) : List MailboxEvent :=
  [⟨"m", 4, .source⟩, ⟨"n", 4, .source⟩, ⟨first, 5, .acknowledgement "m" .archive⟩,
    ⟨second, 5, .acknowledgement "m" .restore⟩]

theorem mailbox_history_sameMillisecond :
    followCursors (sameMillisecond "o" "p") .active (some 1) 5 none = mailboxListing (sameMillisecond "o" "p") .active ∧
      (mailboxState (sameMillisecond "o" "p") "m").acknowledgement = acknowledgement (sameMillisecond "o" "p") "m" := by
  have hstamps : StampedInOrder (sameMillisecond "o" "p") := by
    unfold StampedInOrder
    decide
  have h := mailbox_history (by decide) hstamps
  exact ⟨h.1 .active (some 1) 5 (by decide), h.2 "m"⟩

theorem not_mailbox_history_sameMillisecond : ((sameMillisecond "p" "o").map MailboxEvent.id).Nodup ∧
    (mailboxState (sameMillisecond "p" "o") "m").acknowledgement ≠ acknowledgement (sameMillisecond "p" "o") "m" := by
  decide

end OpenCorvus.Engine
