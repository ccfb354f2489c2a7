import OpenCorvus.Scheduler.EventSteps

/-!
# The queues of the Event service

The fires of a definition are numbered from 1 on, and so are the fires that are settled; an occurrence has one
fire of a definition.
-/

namespace OpenCorvus.Scheduler

open NumberedLanes UniqueIndex Engine Relation List EventStore

structure QueueInv (store : EventStore) : Prop where
  jobs : JobsWellFormed store
  fireIDs : PrimaryKey EventJobFire.id store.fires
  revisions : ∀ fire ∈ store.fires, ∃ job ∈ store.jobs,
    job.id = fire.eventJobRevisionID ∧ job.definitionID = fire.definitionID
  occurrences : PrimaryKey (fun fire : EventJobFire => (fire.eventJobRevisionID, fire.eventOccurrenceID))
    store.fires
  fires : Dense EventJobFire.definitionID EventJobFire.queuePosition store.fires
  terminals : Dense EventJobFireReceipt.definitionID EventJobFireReceipt.queuePosition store.terminals
  receipts : ∀ receipt ∈ store.receipts, ∃ fire ∈ store.fires, fire.id = receipt.fireID ∧
    fire.definitionID = receipt.definitionID ∧ fire.queuePosition = receipt.queuePosition

variable {store store' : EventStore}

lemma QueueInv.congr (h : QueueInv store) (hjobs : store'.jobs = store.jobs)
    (hfires : store'.fires = store.fires) (hreceipts : store'.receipts = store.receipts) :
    QueueInv store' := by
  obtain ⟨⟨_, _⟩, _, _, _, _, _, _⟩ := h
  refine ⟨⟨?_, ?_⟩, ?_, ?_, ?_, ?_, ?_, ?_⟩
  · rwa [hjobs]
  · rwa [hjobs]
  · rwa [hfires]
  · rwa [hfires, hjobs]
  · rwa [hfires]
  · rwa [hfires]
  · unfold EventStore.terminals
    rwa [hreceipts]
  · rwa [hfires, hreceipts]

variable {receipt : EventJobFireReceipt} {fire other : EventJobFire}

lemma terminals_concat (hreceipts : store'.receipts = store.receipts ++ [receipt]) : store'.terminals =
      store.terminals ++ if receipt.outcome.isTerminal then [receipt] else [] := by
  unfold EventStore.terminals
  rw [hreceipts, filter_append]
  split_ifs with h <;> simp [h]

section

variable (h : QueueInv store)

include h

lemma QueueInv.create {job : EventJob} (hfresh : ∀ other ∈ store.jobs, other.id ≠ job.id)
    (hfirst : job.definitionID = job.id ∧ job.revision = 1) :
    QueueInv { store with jobs := store.jobs ++ [job] } := by
  refine ⟨⟨h.jobs.ids.concat hfresh, ?_⟩, h.fireIDs, ?_, h.occurrences, h.fires, h.terminals, h.receipts⟩
  · intro other hother
    rcases mem_concat.mp hother with hold | hnew
    · exact h.jobs.definitions other hold
    · rw [hnew]
      exact hfirst
  · intro fire hfire
    obtain ⟨other, hother, hof⟩ := h.revisions fire hfire
    exact ⟨other, mem_append_left _ hother, hof⟩

lemma QueueInv.insertFire (hfire : FireInserted fire store store') : QueueInv store' := by
  rw [hfire.store_eq]
  refine ⟨⟨h.jobs.ids, h.jobs.definitions⟩, h.fireIDs.concat hfire.fresh, ?_, h.occurrences.concat ?_,
    h.fires.concat hfire.position, h.terminals, ?_⟩
  · intro other hother
    rcases mem_concat.mp hother with hold | hnew
    · exact h.revisions other hold
    · rw [hnew]
      exact hfire.definition
  · intro other hother heq
    rw [Prod.mk.injEq] at heq
    exact hfire.occurrence other hother heq.1 heq.2
  · intro receipt hreceipt
    obtain ⟨other, hother, hof⟩ := h.receipts receipt hreceipt
    exact ⟨other, mem_append_left _ hother, hof⟩

lemma QueueInv.accept (haccepted : ReflTransGen AcceptanceStep store store') : QueueInv store' := by
  induction haccepted with
  | refl => exact h
  | tail _ hstep ih =>
    rcases hstep with ⟨_, rfl⟩ | ⟨_, hfire⟩
    · exact ih.congr rfl rfl rfl
    · exact ih.insertFire hfire

lemma QueueInv.insertReceipt (hreceipt : ReceiptInserted store receipt) :
    QueueInv { store with receipts := store.receipts ++ [receipt] } := by
  refine ⟨⟨h.jobs.ids, h.jobs.definitions⟩, h.fireIDs, h.revisions, h.occurrences, h.fires, ?_, ?_⟩
  · rw [terminals_concat rfl]
    split_ifs with hterminal
    · exact h.terminals.concat (hreceipt.head hterminal)
    · rw [List.append_nil]
      exact h.terminals
  · intro other hother
    rcases mem_concat.mp hother with hold | hnew
    · exact h.receipts other hold
    · rw [hnew]
      exact hreceipt.fire

lemma QueueInv.settledPosition_concat (hreceipt : ReceiptInserted store receipt)
    (hreceipts : store'.receipts = store.receipts ++ [receipt]) (definitionID : String) :
    store'.settledPosition definitionID = store.settledPosition definitionID +
      if receipt.outcome.isTerminal ∧ receipt.definitionID = definitionID then 1 else 0 := by
  unfold settledPosition
  rw [terminals_concat hreceipts]
  by_cases hterminal : receipt.outcome.isTerminal = true
  · rw [if_pos hterminal, h.terminals.frontier_concat (hreceipt.head hterminal)]
    simp [hterminal]
  · rw [if_neg hterminal, List.append_nil]
    simp [hterminal]

lemma QueueInv.eq_of_id (hfire : fire ∈ store.fires) (hother : other ∈ store.fires) (hid : fire.id = other.id) :
    fire = other :=
  h.fireIDs.eq_of_id hfire hother hid

lemma QueueInv.eq_of_position (hfire : fire ∈ store.fires) (hother : other ∈ store.fires)
    (hdefinition : fire.definitionID = other.definitionID) (hposition : fire.queuePosition = other.queuePosition) :
    fire = other :=
  h.fires.eq_of_number hfire hother hdefinition hposition

lemma QueueInv.revision_eq (hfire : fire ∈ store.fires) : fire.eventJobRevisionID = fire.definitionID := by
  obtain ⟨job, hjob, hid, hdefinition⟩ := h.revisions fire hfire
  rw [← hid, ← hdefinition, (h.jobs.definitions job hjob).1]

lemma QueueInv.position_le_settled (hreceipt : receipt ∈ store.terminals) :
    1 ≤ receipt.queuePosition ∧ receipt.queuePosition ≤ store.settledPosition receipt.definitionID :=
  h.terminals.le_frontier hreceipt

lemma QueueInv.exists_terminal (hfire : fire ∈ store.fires)
    (hle : fire.queuePosition ≤ store.settledPosition fire.definitionID) :
    ∃ receipt ∈ store.terminals, receipt.fireID = fire.id ∧ receipt.definitionID = fire.definitionID ∧
      receipt.queuePosition = fire.queuePosition := by
  obtain ⟨receipt, hreceipt, hdefinition, hposition⟩ :=
    h.terminals.exists_number (h.fires.le_frontier hfire).1 hle
  obtain ⟨other, hother, hid, hdefinition', hposition'⟩ :=
    h.receipts receipt (mem_of_mem_filter hreceipt)
  obtain rfl : other = fire := h.eq_of_position hother hfire (hdefinition'.trans hdefinition)
    (hposition'.trans hposition)
  exact ⟨receipt, hreceipt, hid.symm, hdefinition, hposition⟩

lemma QueueInv.settled_lt_of_open (hfire : fire ∈ store.fires) (hopen : store.terminalOf fire.id = none) :
    store.settledPosition fire.definitionID < fire.queuePosition := by
  by_contra hle
  obtain ⟨_, hreceipt, hid, -⟩ := h.exists_terminal hfire (not_lt.mp hle)
  exact terminalOf_eq_none hopen hreceipt hid

lemma QueueInv.terminal_unique {other : EventJobFireReceipt} (hreceipt : receipt ∈ store.terminals)
    (hother : other ∈ store.terminals) (hfire : receipt.fireID = other.fireID) : receipt = other := by
  obtain ⟨fire, hmem, hid, hdefinition, hposition⟩ :=
    h.receipts receipt (mem_of_mem_filter hreceipt)
  obtain ⟨fire', hmem', hid', hdefinition', hposition'⟩ :=
    h.receipts other (mem_of_mem_filter hother)
  obtain rfl : fire = fire' := h.eq_of_id hmem hmem' (hid.trans (hfire.trans hid'.symm))
  exact h.terminals.eq_of_number hreceipt hother (hdefinition.symm.trans hdefinition')
    (hposition.symm.trans hposition')

lemma QueueInv.occurrence_unique (hfire : fire ∈ store.fires) (hother : other ∈ store.fires)
    (hdefinition : fire.definitionID = other.definitionID)
    (hoccurrence : fire.eventOccurrenceID = other.eventOccurrenceID) : fire = other := by
  refine h.occurrences.eq_of_id hfire hother ?_
  rw [h.revision_eq hfire, h.revision_eq hother, hdefinition, hoccurrence]

end

/-- Before anything was created. -/
lemma queueInv_initial (clock : ℤ) : QueueInv (initialEventWorld clock).store := by
  refine ⟨⟨?_, ?_⟩, ?_, ?_, ?_, ?_, ?_, ?_⟩ <;> simp [initialEventWorld, EventStore.terminals]

variable [EventPayloads] {w w' : EventWorld}

lemma QueueInv.effect (h : QueueInv w.store) (heffect : EventEffect w w') : QueueInv w'.store := by
  cases heffect with
  | around _ hstore => exact h.congr hstore.jobs hstore.fires hstore.receipts
  | created hfresh hfirst => exact h.create hfresh hfirst
  | accepted haccepted => exact h.accept haccepted
  | claimed | renewed | purged => exact h.congr rfl rfl rfl
  | moved | decided | finished => exact h
  | @committed e _ _ _ hcommit =>
    have hcommit := (commitEventWake_eq_ok hcommit).1
    obtain ⟨_, hmessages⟩ := upsertMessage_frame w.store e.wakeMessage
    rw [hmessages] at hcommit
    subst hcommit
    exact h.congr rfl rfl rfl
  | settled _ hsettled =>
    obtain ⟨_, _, -, -, rfl⟩ := hsettled.held
    exact (h.insertReceipt hsettled.inserted).congr rfl rfl rfl

lemma settledPosition_le (h : QueueInv w.store) (heffect : EventEffect w w') (definitionID : String) :
    w.store.settledPosition definitionID ≤ w'.store.settledPosition definitionID := by
  have hcongr : ∀ store : EventStore, store.receipts = w.store.receipts →
      w.store.settledPosition definitionID ≤ store.settledPosition definitionID := by
    intro store hstore
    unfold settledPosition EventStore.terminals
    rw [hstore]
  cases heffect with
  | around _ hstore => exact hcongr _ hstore.receipts
  | created | claimed | renewed | purged => exact hcongr _ rfl
  | accepted haccepted =>
    obtain ⟨_, _, rfl, -⟩ := frame_of_acceptance haccepted
    exact hcongr _ rfl
  | moved | decided | finished => exact le_rfl
  | @committed e _ _ _ hcommit =>
    have hcommit := (commitEventWake_eq_ok hcommit).1
    obtain ⟨_, hmessages⟩ := upsertMessage_frame w.store e.wakeMessage
    rw [hmessages] at hcommit
    subst hcommit
    exact hcongr _ rfl
  | settled _ hsettled =>
    obtain ⟨_, _, -, -, rfl⟩ := hsettled.held
    exact (Nat.le_add_right _ _).trans_eq (h.settledPosition_concat hsettled.inserted rfl definitionID).symm

end OpenCorvus.Scheduler
