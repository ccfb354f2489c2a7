import OpenCorvus.Scheduler.AutomationEffects
import OpenCorvus.Engine.ControlLeaseFrames
import Mathlib.Logic.Relation

/-!
# The writes of the Automation service

A transaction is a sequence of writes, each of which appends one row to a table, exchanges the lease of one
definition, or touches tables that no invariant reads.  A write carries what the transaction has checked
before it, so that what the writes keep is kept by every transaction.
-/

namespace OpenCorvus.Scheduler

open UniqueIndex Engine List

def Leasable (db : AutomationDatabase) (definitionID : String) : Prop :=
  ∃ row ∈ db.definitions, row.definitionID = definitionID ∧
    (row.IsDelay → latestAutomationDefinitionInTransaction db definitionID = some row)

structure LeaseExchange (now : ℤ) (db : AutomationDatabase) (leases : ControlLeaseTables)
    (definitionID : String) : Prop where
  ids : PrimaryKey ControlLease.id (leases.rowsOf .automation)
  others : ∀ other, other ≠ definitionID →
    currentControlLeaseInTransaction leases .automation other = automationLease db other
  live : LeaseLive { db with leases := leases } definitionID now →
    LeaseLive db definitionID now ∨ Leasable db definitionID

/-- What identifies the targets of a revision. -/
def runIdentities (store : AutomationStore) (row : AutomationDefinition) : List String :=
  match row.kind with
  | .delay _ => ["delay"]
  | .recurring _ =>
    match row.scope, truthy row.sessionID with
    | some .session, some sessionID => ["session:" ++ sessionID]
    | some .global, _ => ["global"]
    | some .project, _ => (targetProjectIDs store row.id).map ("project:" ++ ·)
    | _, _ => []

def IsTargetRun [AutomationHashes] (store : AutomationStore) (row : AutomationDefinition)
    (run : AutomationRun) : Prop :=
  ∃ identity ∈ runIdentities store row, run.id = deterministicAutomationID "atr" [run.fireID, identity]

def MayDefine (db : AutomationDatabase) (row : AutomationDefinition) : Prop :=
  ((∀ other ∈ db.definitions, other.definitionID ≠ row.definitionID) ∧ row.revision = 1) ∨
    ¬row.IsDelay ∧ ∃ latest, latestAutomationDefinitionInTransaction db row.definitionID = some latest ∧
      ¬latest.IsDelay ∧ row.revision = latest.revision + 1

structure Consumed (now : ℤ) (db : AutomationDatabase) (delay : AutomationDefinition) : Prop where
  mem : delay ∈ db.definitions
  isDelay : delay.IsDelay
  deleted : latestAutomationDefinitionInTransaction db delay.definitionID = none
  idle : ¬LeaseLive db delay.definitionID now
  runs : ∀ run ∈ db.runs, run.automationRevisionID = delay.id →
    ∃ receipt ∈ db.receiptsOf run.id, receipt.outcome.IsTerminal

section Writes

variable [AutomationHashes]

/-- A write of a transaction, with what was checked before it.  A run succeeds when its wake is known. -/
inductive StoreWrite (now : ℤ) (woken : String → Prop) : AutomationStore → AutomationStore → Prop
  | leases (store : AutomationStore) (leases : ControlLeaseTables) (definitionID : String)
      (h : LeaseExchange now store.toAutomationDatabase leases definitionID) :
      StoreWrite now woken store { store with leases := leases }
  | definition (store : AutomationStore) (row : AutomationDefinition) (projectIDs : List String)
      (hid : ∀ other ∈ store.definitions, other.id ≠ row.id)
      (h : MayDefine store.toAutomationDatabase row) :
      StoreWrite now woken store (store.insertDefinition row projectIDs)
  | tombstone (store : AutomationStore) (tombstone : AutomationDefinitionTombstone) :
      StoreWrite now woken store { store with tombstones := store.tombstones ++ [tombstone] }
  | fire (store : AutomationStore) (fire : AutomationFire) (row : AutomationDefinition)
      (hrow : row ∈ store.definitions) (hid : row.id = fire.automationRevisionID)
      (hdelay : row.IsDelay → fire.origin = .scheduled ∧ ¬row.ChangesDue fire.scheduledDueAt) :
      StoreWrite now woken store { store with fires := store.fires ++ [fire] }
  | attempt (store : AutomationStore) (attempt : AutomationFireAttempt)
      (hfire : ∃ fire ∈ store.fires, fire.id = attempt.fireID) :
      StoreWrite now woken store { store with attempts := store.attempts ++ [attempt] }
  | attemptReceipt (store : AutomationStore) (receipt : AutomationFireAttemptReceipt) :
      StoreWrite now woken store { store with attemptReceipts := store.attemptReceipts ++ [receipt] }
  | run (store : AutomationStore) (run : AutomationRun) (row : AutomationDefinition)
      (hrow : row ∈ store.definitions) (hid : row.id = run.automationRevisionID)
      (hfire : ∃ fire ∈ store.fires, fire.id = run.fireID ∧ fire.automationRevisionID = run.automationRevisionID)
      (htarget : IsTargetRun store row run)
      (hlive : LeaseLive store.toAutomationDatabase row.definitionID now) :
      StoreWrite now woken store { store with runs := store.runs ++ [run] }
  | runReceipt (store : AutomationStore) (receipt : AutomationRunReceipt) (h : MayInsertReceipt store receipt)
      (hwoken : receipt.outcome = .succeeded → woken receipt.runID) :
      StoreWrite now woken store { store with runReceipts := store.runReceipts ++ [receipt] }
  | settlement (store : AutomationStore) (settlement : AutomationDelaySettlement)
      (hfresh : ∀ other ∈ store.settlements, other.definitionID ≠ settlement.definitionID)
      (h : settlement.disposition = .inputAccepted → ∃ delay,
        delay.definitionID = settlement.definitionID ∧ Consumed now store.toAutomationDatabase delay) :
      StoreWrite now woken store { store with settlements := store.settlements ++ [settlement] }
  /-- Other tables change. -/
  | aside (store other : AutomationStore) :
      StoreWrite now woken store { other with
        definitions := store.definitions, tombstones := store.tombstones, fires := store.fires,
        attempts := store.attempts, attemptReceipts := store.attemptReceipts, runs := store.runs,
        runReceipts := store.runReceipts, leases := store.leases, settlements := store.settlements,
        projectTargets := store.projectTargets, messages := store.messages }

def Writes (now : ℤ) (woken : String → Prop) : AutomationStore → AutomationStore → Prop :=
  Relation.ReflTransGen (StoreWrite now woken)

end Writes

def terminalKey (receipt : AutomationRunReceipt) : Option String :=
  if receipt.outcome.IsTerminal then some receipt.runID else none

/-- What the writes keep. -/
structure StoreInv [AutomationHashes] (now : ℤ) (store : AutomationStore) : Prop where
  leaseIDs : PrimaryKey ControlLease.id (store.leases.rowsOf .automation)
  definitionIDs : PrimaryKey AutomationDefinition.id store.definitions
  /-- Every definition has a first revision. -/
  first : ∀ row ∈ store.definitions, ∃ other ∈ store.definitions,
    other.definitionID = row.definitionID ∧ other.revision = 1
  /-- A delay has one revision. -/
  delayOnce : ∀ row ∈ store.definitions, row.IsDelay → ∀ other ∈ store.definitions,
    other.definitionID = row.definitionID → other = row
  fireRow : ∀ fire ∈ store.fires, ∃ row ∈ store.definitions, row.id = fire.automationRevisionID ∧
    (row.IsDelay → fire.origin = .scheduled ∧ ¬row.ChangesDue fire.scheduledDueAt)
  runFire : ∀ run ∈ store.runs, ∃ fire ∈ store.fires, fire.id = run.fireID ∧
    fire.automationRevisionID = run.automationRevisionID
  runTarget : ∀ run ∈ store.runs, ∃ row ∈ store.definitions, row.id = run.automationRevisionID ∧
    IsTargetRun store row run
  attemptFire : ∀ attempt ∈ store.attempts, ∃ fire ∈ store.fires, fire.id = attempt.fireID
  receiptRun : ∀ receipt ∈ store.runReceipts, ∃ run ∈ store.runs, run.id = receipt.runID
  oneTerminal : Unique terminalKey store.runReceipts
  oneSettlement : PrimaryKey AutomationDelaySettlement.definitionID store.settlements
  consumed : ∀ settlement ∈ store.settlements, settlement.disposition = .inputAccepted →
    ∃ delay, delay.definitionID = settlement.definitionID ∧ Consumed now store.toAutomationDatabase delay

section Lookups

variable {db db' : AutomationDatabase} {definitionID : String}

lemma latestAutomationDefinition_eq_none {row : AutomationDefinition} (hrow : row ∈ db.definitions)
    (hof : row.definitionID = definitionID) : latestAutomationDefinitionInTransaction db definitionID = none ↔
      ∃ last, (db.definitions.filter fun row => row.definitionID = definitionID).argmax
          AutomationDefinition.revisionKey = some last ∧
        ∃ tombstone ∈ db.tombstones, tombstone.definitionID = definitionID ∧
          last.revision ≤ tombstone.revision := by
  have hmem : row ∈ db.definitions.filter fun row => row.definitionID = definitionID :=
    mem_filter.mpr ⟨hrow, by simpa using hof⟩
  unfold latestAutomationDefinitionInTransaction
  rw [Option.filter_eq_none_iff]
  constructor
  · intro h
    cases hlast : (db.definitions.filter fun row => row.definitionID = definitionID).argmax
        AutomationDefinition.revisionKey with
    | none =>
      rw [argmax_eq_none] at hlast
      rw [hlast] at hmem
      cases hmem
    | some last =>
      have hdeleted := h last hlast
      simp only [decide_eq_true_eq] at hdeleted
      push Not at hdeleted
      exact ⟨last, rfl, hdeleted⟩
  · rintro ⟨_, hlast, tombstone, htombstone, hsame, hle⟩ _ hother
    rw [hlast, Option.some.injEq] at hother
    subst hother
    simp only [decide_eq_true_eq]
    push Not
    exact ⟨tombstone, htombstone, hsame, hle⟩

lemma deleted_mono {row : AutomationDefinition} (hrow : row ∈ db.definitions)
    (hof : row.definitionID = definitionID) (h : latestAutomationDefinitionInTransaction db definitionID = none)
    (hdefinitions : db'.definitions.filter (fun row => row.definitionID = definitionID) =
      db.definitions.filter fun row => row.definitionID = definitionID)
    (htombstones : db.tombstones ⊆ db'.tombstones) :
    latestAutomationDefinitionInTransaction db' definitionID = none := by
  have hrow' : row ∈ db'.definitions := by
    have hmem : row ∈ db'.definitions.filter fun row => row.definitionID = definitionID := by
      rw [hdefinitions]
      exact mem_filter.mpr ⟨hrow, by simpa using hof⟩
    exact mem_of_mem_filter hmem
  obtain ⟨last, hlast, tombstone, htombstone, hdeleted⟩ :=
    (latestAutomationDefinition_eq_none hrow hof).mp h
  refine (latestAutomationDefinition_eq_none hrow' hof).mpr ⟨last, ?_, tombstone, htombstones htombstone, hdeleted⟩
  rw [hdefinitions, hlast]

lemma LeaseLive.earlier {now later : ℤ} (hle : now ≤ later) (h : LeaseLive db definitionID later) :
    LeaseLive db definitionID now := by
  obtain ⟨lease, hlease, _⟩ := h
  exact ⟨lease, hlease, by omega⟩

end Lookups

/-! ### Consumed delays -/

section Consumed

variable [AutomationHashes] {now : ℤ} {woken : String → Prop} {store store' : AutomationStore} {delay : AutomationDefinition}

lemma Consumed.not_leasable (h : Consumed now store.toAutomationDatabase delay)
    (hinv : StoreInv now store) : ¬Leasable store.toAutomationDatabase delay.definitionID := by
  rintro ⟨row, hrow, hsame, hlatest⟩
  have heq : row = delay := hinv.delayOnce delay h.mem h.isDelay row hrow hsame
  subst heq
  have hsome := hlatest h.isDelay
  rw [h.deleted] at hsome
  cases hsome

lemma Consumed.write (h : Consumed now store.toAutomationDatabase delay) (hinv : StoreInv now store)
    (hwrite : StoreWrite now woken store store') : Consumed now store'.toAutomationDatabase delay := by
  cases hwrite with
  | leases _ definitionID hexchange =>
    refine { h with idle := fun hlive => ?_ }
    by_cases hsame : delay.definitionID = definitionID
    · subst hsame
      rcases hexchange.live hlive with hbefore | hleasable
      · exact h.idle hbefore
      · exact h.not_leasable hinv hleasable
    · obtain ⟨lease, hlease, hafter⟩ := hlive
      have hother := hexchange.others delay.definitionID hsame
      exact h.idle ⟨lease, hother ▸ hlease, hafter⟩
  | definition row _ _ hdefine =>
    refine { h with mem := mem_append_left _ h.mem, deleted := ?_ }
    have hne : row.definitionID ≠ delay.definitionID := by
      intro hsame
      rcases hdefine with ⟨hfresh, -⟩ | ⟨-, _, hlatest, -⟩
      · exact hfresh delay h.mem hsame.symm
      · rw [hsame, h.deleted] at hlatest
        cases hlatest
    refine deleted_mono h.mem rfl h.deleted ?_ (Subset.refl _)
    dsimp only [AutomationStore.insertDefinition]
    rw [filter_append]
    simp [hne]
  | tombstone =>
    exact { h with deleted := deleted_mono h.mem rfl h.deleted rfl (subset_append_left _ _) }
  | run _ row hrow hid _ _ hlive =>
    refine { h with runs := fun other hother hrevision => ?_ }
    rcases mem_concat.mp hother with hold | hnew
    · exact h.runs other hold hrevision
    · rw [hnew] at hrevision
      have heq : row = delay := hinv.definitionIDs.eq_of_id hrow h.mem (hid.trans hrevision)
      exact absurd (heq ▸ hlive) h.idle
  | runReceipt =>
    refine { h with runs := fun run hrun hrevision => ?_ }
    obtain ⟨terminal, hterminal, hover⟩ := h.runs run hrun hrevision
    refine ⟨terminal, ?_, hover⟩
    unfold AutomationDatabase.receiptsOf at hterminal ⊢
    rw [filter_append]
    exact mem_append_left _ hterminal
  | fire | attempt | attemptReceipt | settlement | aside => exact { h with }

end Consumed

/-! ### Preservation -/

section Preservation

variable [AutomationHashes] {now : ℤ} {woken : String → Prop} {store store' : AutomationStore}

omit [AutomationHashes] in
lemma runIdentities_insertDefinition {row : AutomationDefinition} {projectIDs : List String}
    {other : AutomationDefinition} (hne : other.id ≠ row.id) :
    runIdentities (store.insertDefinition row projectIDs) other = runIdentities store other := by
  have htargets : targetProjectIDs (store.insertDefinition row projectIDs) other.id =
      targetProjectIDs store other.id := by
    unfold targetProjectIDs AutomationStore.insertDefinition
    rw [filter_append]
    have hnone : (projectTargetRows row.id projectIDs).filter
        (fun target => target.automationRevisionID = other.id) = [] := by
      rw [filter_eq_nil_iff]
      intro target htarget
      obtain ⟨_, -, rfl⟩ := List.mem_map.mp htarget
      simpa using hne.symm
    rw [hnone, List.append_nil]
  unfold runIdentities
  rw [htargets]

section

variable (hinv : StoreInv now store)

include hinv

lemma StoreInv.insertDefinition {row : AutomationDefinition} {projectIDs : List String}
    (hid : ∀ other ∈ store.definitions, other.id ≠ row.id) (hdefine : MayDefine store.toAutomationDatabase row) :
    StoreInv now (store.insertDefinition row projectIDs) := by
  have hwrite : StoreWrite now (fun _ => False) store (store.insertDefinition row projectIDs) :=
    .definition store row projectIDs hid hdefine
  have hold : ∀ other ∈ store.definitions, other ∈ store.definitions ++ [row] := fun other =>
    mem_append_left _
  refine { hinv with
    definitionIDs := hinv.definitionIDs.concat hid
    first := ?_, delayOnce := ?_, fireRow := ?_, runTarget := ?_, consumed := ?_ }
  · intro other hother
    rcases mem_concat.mp hother with hmem | hnew
    · obtain ⟨first, hfirst, hsame⟩ := hinv.first other hmem
      exact ⟨first, hold first hfirst, hsame⟩
    · rw [hnew]
      rcases hdefine with ⟨-, hone⟩ | ⟨-, latest, hlatest, -⟩
      · exact ⟨row, mem_append_right _ (mem_singleton_self row), rfl, hone⟩
      · obtain ⟨hcurrent, hof⟩ := latestAutomationDefinition_mem hlatest
        obtain ⟨first, hfirst, hsame, hone⟩ := hinv.first latest (mem_current.mp hcurrent).1
        exact ⟨first, hold first hfirst, hsame.trans hof, hone⟩
  · intro delay hdelay hkind other hother hsame
    rcases mem_concat.mp hdelay with hmem | hnew
    · rcases mem_concat.mp hother with hotherMem | hotherNew
      · exact hinv.delayOnce delay hmem hkind other hotherMem hsame
      · rw [hotherNew] at hsame ⊢
        rcases hdefine with ⟨hfresh, -⟩ | ⟨-, latest, hlatest, hrecurring, -⟩
        · exact absurd hsame.symm (hfresh delay hmem)
        · obtain ⟨hcurrent, hof⟩ := latestAutomationDefinition_mem hlatest
          have heq : latest = delay :=
            hinv.delayOnce delay hmem hkind latest (mem_current.mp hcurrent).1 (hof.trans hsame)
          exact absurd (heq ▸ hkind) hrecurring
    · rw [hnew] at hkind hsame ⊢
      rcases hdefine with ⟨hfresh, -⟩ | ⟨hrecurring, -⟩
      · rcases mem_concat.mp hother with hotherMem | hotherNew
        · exact absurd hsame (hfresh other hotherMem)
        · exact hotherNew
      · exact absurd hkind hrecurring
  · intro fire hfire
    obtain ⟨revision, hrevision, hof⟩ := hinv.fireRow fire hfire
    exact ⟨revision, hold revision hrevision, hof⟩
  · intro run hrun
    obtain ⟨revision, hrevision, hof, identity, _, hrunID⟩ := hinv.runTarget run hrun
    refine ⟨revision, hold revision hrevision, hof, identity, ?_, hrunID⟩
    rwa [runIdentities_insertDefinition (hid revision hrevision)]
  · intro settlement hsettlement hinput
    obtain ⟨delay, hof, hconsumed⟩ := hinv.consumed settlement hsettlement hinput
    exact ⟨delay, hof, hconsumed.write hinv hwrite⟩

lemma StoreInv.insertRunReceipt {receipt : AutomationRunReceipt} (hmay : MayInsertReceipt store receipt) :
    Unique terminalKey (store.runReceipts ++ [receipt]) := by
  refine hinv.oneTerminal.concat ?_
  rintro ⟨other, hother, runID, hkey, hnew⟩
  unfold terminalKey at hkey hnew
  split_ifs at hkey with hterminal
  split_ifs at hnew with hterminalNew
  have hsame : other.runID = receipt.runID :=
    (Option.some.inj hkey).trans (Option.some.inj hnew).symm
  exact hmay.1 hterminalNew other (mem_filter.mpr ⟨hother, by simpa using hsame⟩) hterminal

lemma StoreInv.write (hwrite : StoreWrite now woken store store') : StoreInv now store' := by
  have hconsumed : ∀ settlement ∈ store.settlements, settlement.disposition = .inputAccepted →
      ∃ delay, delay.definitionID = settlement.definitionID ∧
        Consumed now store'.toAutomationDatabase delay := by
    intro settlement hsettlement hinput
    obtain ⟨delay, hof, h⟩ := hinv.consumed settlement hsettlement hinput
    exact ⟨delay, hof, h.write hinv hwrite⟩
  cases hwrite with
  | leases _ _ hexchange =>
    exact { hinv with leaseIDs := hexchange.ids, consumed := hconsumed }
  | definition _ _ hid hdefine => exact hinv.insertDefinition hid hdefine
  | tombstone | attemptReceipt | aside => exact { hinv with consumed := hconsumed }
  | fire _ row hrow hid hdelay =>
    refine { hinv with fireRow := ?_, runFire := ?_, attemptFire := ?_, consumed := hconsumed }
    · intro other hother
      rcases mem_concat.mp hother with hold | hnew
      · exact hinv.fireRow other hold
      · rw [hnew]
        exact ⟨row, hrow, hid, hdelay⟩
    · intro run hrun
      obtain ⟨other, hother, hof⟩ := hinv.runFire run hrun
      exact ⟨other, mem_append_left _ hother, hof⟩
    · intro attempt hattempt
      obtain ⟨other, hother, hof⟩ := hinv.attemptFire attempt hattempt
      exact ⟨other, mem_append_left _ hother, hof⟩
  | attempt _ hfire =>
    refine { hinv with attemptFire := ?_, consumed := hconsumed }
    intro other hother
    rcases mem_concat.mp hother with hold | hnew
    · exact hinv.attemptFire other hold
    · rw [hnew]
      exact hfire
  | run _ row hrow hid hfire htarget =>
    refine { hinv with runFire := ?_, runTarget := ?_, receiptRun := ?_, consumed := hconsumed }
    · intro other hother
      rcases mem_concat.mp hother with hold | hnew
      · exact hinv.runFire other hold
      · rw [hnew]
        exact hfire
    · intro other hother
      rcases mem_concat.mp hother with hold | hnew
      · exact hinv.runTarget other hold
      · rw [hnew]
        exact ⟨row, hrow, hid, htarget⟩
    · intro receipt hreceipt
      obtain ⟨other, hother, hof⟩ := hinv.receiptRun receipt hreceipt
      exact ⟨other, mem_append_left _ hother, hof⟩
  | runReceipt _ hmay =>
    refine { hinv with receiptRun := ?_, oneTerminal := hinv.insertRunReceipt hmay, consumed := hconsumed }
    intro other hother
    rcases mem_concat.mp hother with hold | hnew
    · exact hinv.receiptRun other hold
    · rw [hnew]
      exact hmay.2
  | settlement _ hfresh hsettles =>
    refine { hinv with oneSettlement := hinv.oneSettlement.concat hfresh, consumed := ?_ }
    intro other hother hinput
    rcases mem_concat.mp hother with hold | hnew
    · exact hconsumed other hold hinput
    · rw [hnew] at hinput ⊢
      exact hsettles hinput

/-- So does every transaction. -/
lemma StoreInv.writes (hwrites : Writes now woken store store') : StoreInv now store' := by
  induction hwrites with
  | refl => exact hinv
  | tail _ hwrite ih => exact ih.write hwrite

/-- The invariant does not depend on the clock, as long as that does not go back. -/
lemma StoreInv.later {later : ℤ} (hle : now ≤ later) : StoreInv later store := by
  refine { hinv with consumed := fun settlement hsettlement hinput => ?_ }
  obtain ⟨delay, hof, hconsumed⟩ := hinv.consumed settlement hsettlement hinput
  exact ⟨delay, hof, { hconsumed with idle := fun hlive => hconsumed.idle (hlive.earlier hle) }⟩

end

end Preservation

/-- Rows of these tables stay. -/
structure StoreGrowth (store store' : AutomationStore) : Prop where
  definitions : store.definitions ⊆ store'.definitions
  fires : store.fires ⊆ store'.fires
  runs : store.runs ⊆ store'.runs
  runReceipts : store.runReceipts ⊆ store'.runReceipts
  settlements : store.settlements ⊆ store'.settlements

/-- Tables that did not change have grown. -/
lemma StoreGrowth.refl (store : AutomationStore) : StoreGrowth store store :=
  ⟨Subset.refl _, Subset.refl _, Subset.refl _, Subset.refl _, Subset.refl _⟩

/-- Tables that have grown twice have grown. -/
lemma StoreGrowth.trans {store store' store'' : AutomationStore} (h : StoreGrowth store store')
    (h' : StoreGrowth store' store'') : StoreGrowth store store'' where
  definitions := Subset.trans h.definitions h'.definitions
  fires := Subset.trans h.fires h'.fires
  runs := Subset.trans h.runs h'.runs
  runReceipts := Subset.trans h.runReceipts h'.runReceipts
  settlements := Subset.trans h.settlements h'.settlements

section Growth

variable [AutomationHashes] {now : ℤ} {woken : String → Prop} {store store' : AutomationStore}

lemma StoreWrite.growth (hwrite : StoreWrite now woken store store') : StoreGrowth store store' := by
  have hrefl := StoreGrowth.refl store
  cases hwrite with
  | definition => exact { hrefl with definitions := subset_append_left _ _ }
  | fire => exact { hrefl with fires := subset_append_left _ _ }
  | run => exact { hrefl with runs := subset_append_left _ _ }
  | runReceipt => exact { hrefl with runReceipts := subset_append_left _ _ }
  | settlement => exact { hrefl with settlements := subset_append_left _ _ }
  | leases | tombstone | attempt | attemptReceipt | aside => exact { hrefl with }

/-- The tables grow with every transaction. -/
lemma Writes.growth (hwrites : Writes now woken store store') : StoreGrowth store store' := by
  induction hwrites with
  | refl => exact .refl _
  | tail _ hwrite ih => exact ih.trans hwrite.growth

lemma Writes.messages (hwrites : Writes now woken store store') : store'.messages = store.messages := by
  induction hwrites with
  | refl => rfl
  | tail _ hwrite ih =>
    rw [← ih]
    cases hwrite <;> rfl

lemma Writes.succeeded (hwrites : Writes now woken store store') :
    ∀ receipt ∈ store'.runReceipts, receipt.outcome = .succeeded →
      receipt ∈ store.runReceipts ∨ woken receipt.runID := by
  induction hwrites with
  | refl => exact fun receipt hreceipt _ => .inl hreceipt
  | tail _ hwrite ih =>
    intro receipt hreceipt hsucceeded
    cases hwrite with
    | runReceipt _ _ hwoken =>
      rcases mem_concat.mp hreceipt with hold | hnew
      · exact ih receipt hold hsucceeded
      · rw [hnew] at hsucceeded ⊢
        exact .inr (hwoken hsucceeded)
    | leases | definition | tombstone | fire | attempt | attemptReceipt | run | settlement | aside =>
      exact ih receipt hreceipt hsucceeded

end Growth

end OpenCorvus.Scheduler
