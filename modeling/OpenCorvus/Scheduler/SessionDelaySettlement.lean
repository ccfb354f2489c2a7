import OpenCorvus.Scheduler.ExecutionTransactions

/-!
# The settlement of the delays of a Session

The delays of a Session are settled one after another in the transaction that accepts a batch.  Each
settlement writes rows of its own delay only, so that what it reads of the store of the batch is still true
when its turn comes.
-/

namespace OpenCorvus.Scheduler

open Transaction List

section Parts

variable {store store' : AutomationStore}

lemma exists_insertRunReceipts {receipts : List AutomationRunReceipt}
    (hdistinct : (receipts.map (·.runID)).Nodup)
    (hmay : ∀ receipt ∈ receipts, (∃ run ∈ store.runs, run.id = receipt.runID) ∧
      ∀ other ∈ store.receiptsOf receipt.runID, ¬other.outcome.IsTerminal) :
    ∃ store', insertRunReceipts receipts store = .ok store' := by
  induction receipts generalizing store with
  | nil => exact ⟨store, rfl⟩
  | cons receipt rest ih =>
    obtain ⟨⟨hrun, hopen⟩, hrest⟩ := forall_mem_cons.mp hmay
    obtain ⟨hfresh, hdistinct⟩ := nodup_cons.mp hdistinct
    let next : AutomationStore := { store with runReceipts := store.runReceipts ++ [receipt] }
    have hnext : ∀ other ∈ rest, (∃ run ∈ next.runs, run.id = other.runID) ∧
        ∀ earlier ∈ next.receiptsOf other.runID, ¬earlier.outcome.IsTerminal := by
      intro other hother
      obtain ⟨hotherRun, hotherOpen⟩ := hrest other hother
      refine ⟨hotherRun, fun earlier hearlier => ?_⟩
      obtain ⟨hmem, hof⟩ := mem_filter.mp hearlier
      rcases mem_concat.mp hmem with hold | hnew
      · exact hotherOpen earlier (mem_filter.mpr ⟨hold, hof⟩)
      · rw [hnew, decide_eq_true_eq] at hof
        exact absurd (List.mem_map.mpr ⟨other, hother, hof.symm⟩) hfresh
    obtain ⟨store', hstore'⟩ := @ih next hdistinct hnext
    refine ⟨store', ?_⟩
    rw [insertRunReceipts, bind_eq_ok]
    exact ⟨_, insertRunReceipt_eq_ok.mpr ⟨⟨fun _ => hopen, hrun⟩, rfl⟩, hstore'⟩

def supersededReceipts (store : AutomationStore) (delay : AutomationDefinition) (receiptID : String → String)
    (now : ℤ) : List AutomationRunReceipt :=
  (unsettledRuns store delay.id).map fun run => ⟨receiptID run.id, run.id, .disposition .superseded, now⟩

def unsettledFires (store : AutomationStore) (delay : AutomationDefinition) : List String :=
  ((unsettledRuns store delay.id).map (·.fireID)).dedup

structure Consumable (store : AutomationStore) (input : AssistantAcceptance) (delay : AutomationDefinition)
    (now : ℤ) : Prop where
  idle : ¬LeaseLive store.toAutomationDatabase delay.definitionID now
  one : (unsettledFires store delay).length ≤ 1
  noWake : ∀ fireID ∈ pendingWakeFires store input delay.definitionID, fireID ∉ unsettledFires store delay

def inputSettlement (store : AutomationStore) (input : AssistantAcceptance) (delay : AutomationDefinition)
    (now : ℤ) : AutomationDelaySettlement where
  definitionID := delay.definitionID
  disposition := .inputAccepted
  assistantMessageID := input.assistantMessageID
  acceptedInputMessageIDs := input.acceptedInputMessageIDs
  fireID := (unsettledFires store delay).head?
  timeCreated := now

def dueSettlement (input : AssistantAcceptance) (delay : AutomationDefinition) (fireID : String) (now : ℤ) :
    AutomationDelaySettlement where
  definitionID := delay.definitionID
  disposition := .dueAccepted
  assistantMessageID := input.assistantMessageID
  acceptedInputMessageIDs := input.acceptedInputMessageIDs
  fireID := some fireID
  timeCreated := now

lemma consumeDelay_eq_ok [AutomationHashes] {input : AssistantAcceptance} {delay : AutomationDefinition}
    {receiptID : String → String} {now : ℤ} {written written' : AutomationStore} :
    consumeDelay store input delay receiptID now written = .ok written' ↔
      Consumable store input delay now ∧ ∃ deleted superseded, appendAutomationTombstoneInTransaction written delay
          (inputConsumptionID delay.definitionID input.assistantMessageID) = .ok deleted ∧
        insertRunReceipts (supersededReceipts store delay receiptID now) deleted = .ok superseded ∧
        superseded.insertSettlement (inputSettlement store input delay now) = .ok written' := by
  unfold consumeDelay
  rw [throwWhen_bind_eq_ok]
  rw [throwWhen_bind_eq_ok, throwWhen_bind_eq_ok, bind_eq_ok]
  push Not
  constructor
  · rintro ⟨hidle, hone, hwake, deleted, hdeleted, hrest⟩
    obtain ⟨superseded, hsuperseded, hsettled⟩ := bind_eq_ok.mp hrest
    exact ⟨⟨hidle, hone, hwake⟩, deleted, superseded, hdeleted, hsuperseded, hsettled⟩
  · rintro ⟨⟨hidle, hone, hwake⟩, deleted, superseded, hdeleted, hsuperseded, hsettled⟩
    exact ⟨hidle, hone, hwake, deleted, hdeleted, bind_eq_ok.mpr ⟨superseded, hsuperseded, hsettled⟩⟩

lemma admitDueWake_eq_ok {input : AssistantAcceptance} {delay : AutomationDefinition} {fireID : String}
    {now : ℤ} {written written' : AutomationStore}
    (h : admitDueWake store input delay fireID now written = .ok written') :
    LeaseLive store.toAutomationDatabase delay.definitionID now ∧ (written' = written ∨
      (∀ other ∈ written.settlements, other.definitionID ≠ delay.definitionID) ∧
      written' = { written with
        settlements := written.settlements ++ [dueSettlement input delay fireID now] }) := by
  unfold admitDueWake at h
  obtain ⟨hlive, h⟩ := throwWhen_bind_eq_ok.mp h
  refine ⟨not_not.mp hlive, ?_⟩
  split at h
  · next hnone =>
    refine .inr ⟨?_, (pure_eq_ok.mp h).symm⟩
    simpa using hnone
  · replace h := of_throwWhen h
    exact .inl (pure_eq_ok.mp h).symm

lemma deleted_of_tombstone {db : AutomationDatabase} {row : AutomationDefinition}
    (hrow : row ∈ db.definitions)
    (honce : ∀ other ∈ db.definitions, other.definitionID = row.definitionID → other = row)
    {tombstone : AutomationDefinitionTombstone} (htombstone : tombstone ∈ db.tombstones)
    (hsame : tombstone.definitionID = row.definitionID) (hle : row.revision ≤ tombstone.revision) :
    latestAutomationDefinitionInTransaction db row.definitionID = none := by
  rw [latestAutomationDefinition_eq_none hrow rfl]
  cases hlast : (db.definitions.filter fun other => other.definitionID = row.definitionID).argmax
      AutomationDefinition.revisionKey with
  | none =>
    have hmem : row ∈ db.definitions.filter fun other => other.definitionID = row.definitionID :=
      mem_filter.mpr ⟨hrow, by simp⟩
    rw [argmax_eq_none.mp hlast] at hmem
    cases hmem
  | some last =>
    obtain ⟨hmem, hof⟩ := mem_filter.mp (argmax_mem hlast)
    have heq : last = row := honce last hmem (by simpa using hof)
    subst heq
    exact ⟨last, rfl, tombstone, htombstone, hsame, hle⟩

end Parts

structure Settling [AutomationHashes] (now : ℤ) (store : AutomationStore) (done : List AutomationDefinition)
    (written : AutomationStore) : Prop where
  writes : ∀ woken, Writes now woken store written
  definitions : written.definitions = store.definitions
  runs : written.runs = store.runs
  leases : written.leases = store.leases
  tombstones : ∀ tombstone ∈ written.tombstones, tombstone ∈ store.tombstones ∨
    ∃ delay ∈ done, tombstone.definitionID = delay.definitionID
  receipts : ∀ receipt ∈ written.runReceipts, receipt ∈ store.runReceipts ∨
    ∃ delay ∈ done, ∃ run ∈ runsOfRevision store delay.id, run.id = receipt.runID
  settlements : ∀ settlement ∈ written.settlements, settlement ∈ store.settlements ∨
    ∃ delay ∈ done, settlement.definitionID = delay.definitionID

section Fold

variable [AutomationHashes] {now : ℤ} {store written written' : AutomationStore}
  {done : List AutomationDefinition} {delay : AutomationDefinition}

lemma Settling.mono (h : Settling now store done written) : Settling now store (done ++ [delay]) written := by
  have hold : ∀ other ∈ done, other ∈ done ++ [delay] := fun other => mem_append_left _
  refine { h with tombstones := ?_, receipts := ?_, settlements := ?_ }
  · intro tombstone htombstone
    refine (h.tombstones tombstone htombstone).imp id ?_
    rintro ⟨other, hother, hsame⟩
    exact ⟨other, hold other hother, hsame⟩
  · intro receipt hreceipt
    refine (h.receipts receipt hreceipt).imp id ?_
    rintro ⟨other, hother, hrun⟩
    exact ⟨other, hold other hother, hrun⟩
  · intro settlement hsettlement
    refine (h.settlements settlement hsettlement).imp id ?_
    rintro ⟨other, hother, hsame⟩
    exact ⟨other, hold other hother, hsame⟩

variable {receiptID : String → String} {input : AssistantAcceptance}

lemma Settling.isOver (h : Settling now store done written) {receipts : List AutomationRunReceipt}
    (hreceipts : receipts = written.runReceipts ++ supersededReceipts store delay receiptID now)
    {run : AutomationRun} (hrun : run ∈ store.runs) (hof : run.automationRevisionID = delay.id) :
    ∃ receipt ∈ receipts.filter (fun receipt => receipt.runID = run.id), receipt.outcome.IsTerminal := by
  by_cases hopen : ∀ receipt ∈ store.receiptsOf run.id, ¬receipt.outcome.IsTerminal
  · have hunsettled : run ∈ unsettledRuns store delay.id := by
      unfold unsettledRuns runsOfRevision
      simp only [mem_filter, decide_eq_true_eq]
      exact ⟨⟨hrun, hof⟩, hopen⟩
    refine ⟨⟨receiptID run.id, run.id, .disposition .superseded, now⟩, ?_,
      (by decide : AutomationReceiptOutcome.IsTerminal (.disposition .superseded))⟩
    rw [hreceipts, mem_filter]
    exact ⟨mem_append_right _ (List.mem_map.mpr ⟨run, hunsettled, rfl⟩), by simp⟩
  · push Not at hopen
    obtain ⟨receipt, hreceipt, hterminal⟩ := hopen
    obtain ⟨hmem, hrunID⟩ := mem_filter.mp hreceipt
    refine ⟨receipt, ?_, hterminal⟩
    rw [hreceipts, mem_filter]
    exact ⟨mem_append_left _ ((h.writes fun _ => False).growth.runReceipts hmem), hrunID⟩

lemma Settling.consume (h : Settling now store done written) (hinv : StoreInv now store)
    (hdelay : delay ∈ store.definitions) (hkind : delay.IsDelay)
    (hconsume : consumeDelay store input delay receiptID now written = .ok written') :
    Settling now store (done ++ [delay]) written' ∧
      Consumed now written'.toAutomationDatabase delay ∧
      inputSettlement store input delay now ∈ written'.settlements ∧
      supersededReceipts store delay receiptID now ⊆ written'.runReceipts := by
  obtain ⟨hconsumable, _, superseded, hdeleted, hsuperseded, hsettled⟩ := consumeDelay_eq_ok.mp hconsume
  have hsupersede (woken : String → Prop) : Writes now woken store superseded := by
    refine ((h.writes woken).trans (appendAutomationTombstone_writes hdeleted)).trans
      (insertRunReceipts_writes (fun receipt hreceipt hsucceeded => ?_) hsuperseded)
    obtain ⟨_, -, rfl⟩ := List.mem_map.mp hreceipt
    cases hsucceeded
  obtain ⟨-, rfl⟩ := appendAutomationTombstone_eq_ok.mp hdeleted
  obtain ⟨hfresh, rfl⟩ := insertSettlement_eq_ok.mp hsettled
  have hwritten := insertRunReceipts_eq_ok hsuperseded
  have hconsumed : Consumed now superseded.toAutomationDatabase delay := by
    rw [hwritten]
    refine ⟨?_, hkind, ?_, ?_, ?_⟩
    · rw [← h.definitions] at hdelay
      exact hdelay
    · refine deleted_of_tombstone (by rwa [← h.definitions] at hdelay) ?_
        (mem_append_right _ (mem_singleton_self _)) rfl (Nat.le_succ _)
      intro other hother hsame
      rw [← h.definitions] at hdelay
      exact hinv.delayOnce delay (h.definitions ▸ hdelay) hkind other (h.definitions ▸ hother) hsame
    · intro hlive
      obtain ⟨lease, hlease, hafter⟩ := hlive
      refine hconsumable.idle ⟨lease, ?_, hafter⟩
      unfold automationLease at hlease ⊢
      rw [← h.leases]
      exact hlease
    · intro run hrun hof
      have hmem : run ∈ store.runs := h.runs ▸ hrun
      exact h.isOver rfl hmem hof
  have hsettle (woken : String → Prop) : Writes now woken store { superseded with
      settlements := superseded.settlements ++ [inputSettlement store input delay now] } :=
    (hsupersede woken).trans (StoreWrite.settlement superseded _ hfresh fun _ => ⟨delay, rfl, hconsumed⟩).writes
  have hmore : Settling now store (done ++ [delay]) written := h.mono
  have hlast : delay ∈ done ++ [delay] := mem_append_right _ (mem_singleton_self _)
  rw [hwritten] at hsettle hconsumed ⊢
  refine ⟨⟨hsettle, h.definitions, h.runs, h.leases, ?_, ?_, ?_⟩,
    { hconsumed with }, mem_append_right _ (mem_singleton_self _),
    subset_append_right _ _⟩
  · intro tombstone htombstone
    rcases mem_append.mp htombstone with hold | hnew
    · exact hmore.tombstones tombstone hold
    · rw [mem_singleton.mp hnew]
      exact .inr ⟨delay, hlast, rfl⟩
  · intro receipt hreceipt
    rcases mem_append.mp hreceipt with hold | hnew
    · exact hmore.receipts receipt hold
    · obtain ⟨run, hrun, rfl⟩ := List.mem_map.mp hnew
      exact .inr ⟨delay, hlast, run, mem_of_mem_filter hrun, rfl⟩
  · intro settlement hsettlement
    rcases mem_append.mp hsettlement with hold | hnew
    · exact hmore.settlements settlement hold
    · rw [mem_singleton.mp hnew]
      exact .inr ⟨delay, hlast, rfl⟩

variable {accepted : List AutomationMessage}

lemma Settling.settle (h : Settling now store done written) (hinv : StoreInv now store)
    (hdelay : delay ∈ store.definitions) (hkind : delay.IsDelay)
    (hsettle : settleSessionDelay store input accepted receiptID now written delay = .ok written') :
    Settling now store (done ++ [delay]) written' := by
  unfold settleSessionDelay at hsettle
  split at hsettle
  · next fireID hdue =>
    obtain ⟨-, rfl | ⟨hfresh, rfl⟩⟩ := admitDueWake_eq_ok hsettle
    · exact h.mono
    · have hmore : Settling now store (done ++ [delay]) written := h.mono
      refine { hmore with writes := ?_, settlements := ?_ }
      · exact fun woken => (h.writes woken).trans (StoreWrite.settlement written (dueSettlement input delay fireID now) hfresh
          fun hinput => (nomatch hinput)).writes
      · intro settlement hsettlement
        rcases mem_concat.mp hsettlement with hold | hnew
        · exact h.mono.settlements settlement hold
        · rw [hnew]
          exact .inr ⟨delay, mem_append_right _ (mem_singleton_self _), rfl⟩
  · split_ifs at hsettle
    · exact (h.consume hinv hdelay hkind hsettle).1
    · rw [← Except.ok.inj hsettle]
      exact h.mono

lemma settleSessionDelays_settling (hinv : StoreInv now store) {delays : List AutomationDefinition}
    (hdelays : ∀ delay ∈ delays, delay ∈ store.definitions ∧ delay.IsDelay)
    (h : settleSessionDelays store input accepted receiptID now delays store = .ok written) :
    Settling now store delays written := by
  refine foldlM_eq_ok_invariant (P := Settling now store) ?_ h ?_
  · intro done delay before after hmem hbefore hstep
    exact hbefore.settle hinv (hdelays delay hmem).1 (hdelays delay hmem).2 hstep
  · exact ⟨fun _ => .refl, rfl, rfl, rfl, fun _ => .inl, fun _ => .inl, fun _ => .inl⟩

end Fold

end OpenCorvus.Scheduler
