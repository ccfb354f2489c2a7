import Mathlib
import OpenCorvus.Bus.DurableBus
import OpenCorvus.Foundation.UniqueIndex

/-!
# What the phases of the durable Bus guarantee

A durable subscriber should not be called for a delivery that has succeeded, and a phase should be
recorded as settled only when each of its durable requests has succeeded.
-/

namespace OpenCorvus.Bus

open Engine Transaction OrderBy UniqueIndex ExecutableSystem List

/-! ## What is guaranteed -/

def succeeded (db : BusDatabase) (key : DeliveryKey) : Bool :=
  (receiptsOf db key).any fun receipt => receipt.outcome = .succeeded

def DispatchStage.awaitsCall : DispatchStage → Option DurableTarget
  | .outcomeRead target _ _ _ => some target
  | .leased target _ _ _ => some target
  | _ => none

def DispatchStage.callsNext : DispatchStage → Option DurableTarget
  | .leased target _ _ _ => some target
  | _ => none

def DispatchStage.called : DispatchStage → Option DurableTarget
  | .invoked target _ _ _ => some target
  | _ => none

/-- An execution that nothing failed has read the durable requests. -/
def DispatchStage.isExamining : DispatchStage → Bool
  | .examining _ _ false false => true
  | _ => false

/-- An execution records the phase next. -/
def DispatchStage.settlesNext : DispatchStage → Bool
  | .examining _ [] false false => true
  | _ => false

def Safe (world : BusWorld) : BusAction → Prop
  | .advance index .invoke =>
    ∀ execution ∈ world.executions[index]?, ∀ target ∈ execution.stage.callsNext,
      target.durable → succeeded world.db (execution.key target.id) = false
  | .advance index .settlePhase =>
    ∀ execution ∈ world.executions[index]?, execution.stage.settlesNext →
      phaseSettled world.db execution.occurrenceID execution.phase = false →
        ∀ subscriberID ∈ durableRequests world.db execution.occurrenceID execution.phase,
          succeeded world.db (execution.key subscriberID)
  | _ => True

/-- The step does not change what another execution has read and is about to act on: it records no
success of a durable delivery that another execution has read the outcome of and not yet called, and it
registers no new durable request of an unsettled phase whose requests another execution has read. -/
def Undisturbed (world : BusWorld) : BusAction → Prop
  | .advance index (.settle _) =>
    ∀ execution ∈ world.executions[index]?, ∀ target ∈ execution.stage.called,
      ∀ other ∈ world.executions, ∀ awaited ∈ other.stage.awaitsCall, awaited.durable →
        other.key awaited.id ≠ execution.key target.id
  | .advance index (.register _) =>
    ∀ execution ∈ world.executions[index]?, execution.stage = .registering →
      ∀ target ∈ execution.targets, target.durable →
        (∀ request ∈ world.db.requests, request.key ≠ execution.key target.id) →
          ∀ other ∈ world.executions, other.stage.isExamining →
            phaseSettled world.db other.occurrenceID other.phase = false →
              ¬(other.occurrenceID = execution.occurrenceID ∧ other.phase = execution.phase)
  | _ => True

instance (world : BusWorld) (action : BusAction) : Decidable (Safe world action) := by
  unfold Safe
  split <;> infer_instance

instance (world : BusWorld) (action : BusAction) : Decidable (Undisturbed world action) := by
  cases action with
  | advance _ step => cases step <;> dsimp only [Undisturbed] <;> infer_instance
  | _ => exact isTrue trivial

/-! ## Receipts -/

variable {db db' : BusDatabase} {key : DeliveryKey}

variable {receipt : BusPublicationDeliveryReceipt} {occurrenceID ownerID : String} {phase : DurablePhase}
  {now : ℤ} {target : DurableTarget} {targets : List DurableTarget} {execution : DispatchExecution}
  {world : BusWorld}

lemma mem_receiptsOf : receipt ∈ receiptsOf db key ↔ receipt ∈ db.receipts ∧ receipt.key = key := by
  simp [receiptsOf]

lemma succeeded_iff : succeeded db key = true ↔
      ∃ receipt ∈ db.receipts, receipt.key = key ∧ receipt.outcome = .succeeded := by
  simp [succeeded, mem_receiptsOf, and_assoc]

lemma isSettled_iff : isSettled db key = true ↔ ∃ receipt ∈ db.receipts, receipt.key = key ∧
        (receipt.outcome = .succeeded ∨ receipt.outcome = .ignored) := by
  simp [isSettled, mem_receiptsOf, and_assoc, DeliveryOutcome.isTerminal]

lemma deliveryOutcome_eq_succeeded (h : deliveryOutcome db key ≠ some .succeeded) : succeeded db key = false := by
  by_contra hsucceeded
  rw [Bool.not_eq_false, succeeded_iff] at hsucceeded
  obtain ⟨receipt, hmem, hkey, houtcome⟩ := hsucceeded
  refine h (if_pos ?_)
  exact List.mem_map.mpr ⟨receipt, mem_orderBy.mpr (mem_receiptsOf.mpr ⟨hmem, hkey⟩), houtcome⟩

lemma isSettled_of_deliveryOutcome
    (h : deliveryOutcome db key = some .succeeded ∨ deliveryOutcome db key = some .ignored) :
    isSettled db key = true := by
  obtain ⟨outcome, hterminal, houtcome⟩ : ∃ outcome, (outcome = .succeeded ∨ outcome = .ignored) ∧
      deliveryOutcome db key = some outcome := by
    rcases h with h | h
    · exact ⟨_, .inl rfl, h⟩
    · exact ⟨_, .inr rfl, h⟩
  have hmem : outcome ∈ (orderBy (·.timeCreated) (receiptsOf db key)).map (·.outcome) := by
    unfold deliveryOutcome at houtcome
    dsimp only at houtcome
    split_ifs at houtcome with hsucceeded hignored
    · exact Option.some.inj houtcome ▸ hsucceeded
    · exact Option.some.inj houtcome ▸ hignored
    · exact mem_of_getLast? houtcome
  obtain ⟨receipt, hreceipt, rfl⟩ := List.mem_map.mp hmem
  obtain ⟨hrow, hkey⟩ := mem_receiptsOf.mp (mem_orderBy.mp hreceipt)
  exact isSettled_iff.mpr ⟨receipt, hrow, hkey, hterminal⟩

/-! ## What a transaction can do -/

/-- The tables only gain rows. -/
structure Grows (db db' : BusDatabase) : Prop where
  requests : db.requests ⊆ db'.requests
  receipts : db.receipts ⊆ db'.receipts
  phaseReceipts : db.phaseReceipts ⊆ db'.phaseReceipts

lemma Grows.refl (db : BusDatabase) : Grows db db :=
  ⟨Subset.refl _, Subset.refl _, Subset.refl _⟩

lemma Grows.trans {db'' : BusDatabase} (h : Grows db db') (h' : Grows db' db'') : Grows db db'' :=
  ⟨Subset.trans h.requests h'.requests, Subset.trans h.receipts h'.receipts,
    Subset.trans h.phaseReceipts h'.phaseReceipts⟩

lemma Grows.isSettled (h : Grows db db') (hsettled : isSettled db key = true) : isSettled db' key = true := by
  obtain ⟨receipt, hmem, hreceipt⟩ := isSettled_iff.mp hsettled
  exact isSettled_iff.mpr ⟨receipt, h.receipts hmem, hreceipt⟩

def Requested (db : BusDatabase) (key : DeliveryKey) (effectContract : Bool) : Prop :=
  { key := key, effectContract := effectContract } ∈ db.requests

structure TablesInv (db : BusDatabase) : Prop where
  keys : PrimaryKey BusPublicationDelivery.key db.requests
  ignored : ∀ receipt ∈ db.receipts, receipt.outcome = .ignored → Requested db receipt.key false

lemma TablesInv.succeeded_of_isSettled (h : TablesInv db) (hrequested : Requested db key true)
    (hsettled : isSettled db key = true) : succeeded db key = true := by
  obtain ⟨receipt, hmem, rfl, houtcome | houtcome⟩ := isSettled_iff.mp hsettled
  · exact succeeded_iff.mpr ⟨receipt, hmem, rfl, houtcome⟩
  · have hsame := h.keys.eq_of_id hrequested (h.ignored receipt hmem houtcome) rfl
    cases congrArg BusPublicationDelivery.effectContract hsame

lemma mem_durableRequests {subscriberID : String} : subscriberID ∈ durableRequests db occurrenceID phase ↔
      Requested db { occurrenceID := occurrenceID, phase := phase, subscriberID := subscriberID }
        true := by
  unfold durableRequests Requested
  rw [List.mem_map]
  constructor
  · rintro ⟨_, hmem, rfl⟩
    obtain ⟨hmem, hrow⟩ := mem_filter.mp hmem
    rw [decide_eq_true_eq] at hrow
    obtain ⟨rfl, rfl, hcontract⟩ := hrow
    rwa [← hcontract]
  · intro hmem
    exact ⟨_, mem_filter.mpr ⟨hmem, by simp⟩, rfl⟩

/-- A transaction adds receipts of deliveries that did not succeed, and ignores none that is durable. -/
structure Unsuccessful (db db' : BusDatabase) : Prop where
  grows : Grows db db'
  tables : TablesInv db'
  succeeded : ∀ key, Bus.succeeded db' key = Bus.succeeded db key
  requests : db'.requests = db.requests

open Unsuccessful

lemma Unsuccessful.refl (h : TablesInv db) : Unsuccessful db db :=
  ⟨Grows.refl db, h, fun _ => rfl, rfl⟩

lemma Unsuccessful.trans {db'' : BusDatabase} (h : Unsuccessful db db') (h' : Unsuccessful db' db'') :
    Unsuccessful db db'' :=
  ⟨h.grows.trans h'.grows, h'.tables, fun key => (h'.succeeded key).trans (h.succeeded key),
    h'.requests.trans h.requests⟩

lemma insertReceipt_eq_ok (h : insertReceipt db receipt = .ok db') :
    db' = { db with receipts := db.receipts ++ [receipt] } := by
  unfold insertReceipt at h
  rw [throwWhen_bind_eq_ok, pure_eq_ok] at h
  exact h.2.symm

lemma insertReceipt_unsuccessful (hdb : TablesInv db) (h : insertReceipt db receipt = .ok db')
    (houtcome : receipt.outcome ≠ .succeeded)
    (hignored : receipt.outcome = .ignored → Requested db receipt.key false) :
    Unsuccessful db db' := by
  rw [insertReceipt_eq_ok h]
  refine ⟨⟨Subset.refl _, subset_append_left _ _, Subset.refl _⟩, ⟨hdb.keys, ?_⟩, ?_, rfl⟩
  · intro row hrow
    rcases mem_append.mp hrow with hrow | hrow
    · exact hdb.ignored row hrow
    · rw [mem_singleton.mp hrow]
      exact hignored
  · intro key
    rw [Bool.eq_iff_iff, succeeded_iff, succeeded_iff]
    constructor
    · rintro ⟨row, hrow, hkey, hsucceeded⟩
      rcases mem_append.mp hrow with hrow | hrow
      · exact ⟨row, hrow, hkey, hsucceeded⟩
      · rw [mem_singleton.mp hrow] at hsucceeded
        exact absurd hsucceeded houtcome
    · rintro ⟨row, hrow, hkey, hsucceeded⟩
      exact ⟨row, mem_append_left _ hrow, hkey, hsucceeded⟩

lemma sweepStale_unsuccessful (hdb : TablesInv db) {activeIDs : List String}
    {request : BusPublicationDelivery} (hrequest : Requested db request.key false)
    (h : sweepStale activeIDs now db request = .ok db') : Unsuccessful db db' := by
  unfold sweepStale at h
  split_ifs at h
  · rw [pure_eq_ok] at h
    exact h ▸ refl hdb
  · exact insertReceipt_unsuccessful hdb h (by simp) fun _ => hrequest

lemma registerTarget_eq_ok (h : registerTarget occurrenceID phase db target = .ok db') :
    let key : DeliveryKey := { occurrenceID := occurrenceID, phase := phase, subscriberID := target.id }
    db'.receipts = db.receipts ∧ db'.phaseReceipts = db.phaseReceipts ∧
      Requested db' key target.durable ∧
      (db'.requests = db.requests ∨
        (∀ request ∈ db.requests, request.key ≠ key) ∧
          db'.requests = db.requests ++ [{ key := key, effectContract := target.durable }]) := by
  intro key
  unfold registerTarget at h
  rw [throwWhen_bind_eq_ok] at h
  obtain ⟨-, h⟩ := h
  split at h
  next request hfind =>
    rw [throwWhen_bind_eq_ok, pure_eq_ok] at h
    obtain ⟨hcontract, rfl⟩ := h
    have hkey : request.key = key := by simpa using find?_some hfind
    have hdurable : request.effectContract = target.durable := by
      by_contra hne
      exact hcontract (.inl hne)
    refine ⟨rfl, rfl, ?_, .inl rfl⟩
    unfold Requested
    rw [← hkey, ← hdurable]
    exact mem_of_find?_eq_some hfind
  next hfind =>
    rw [throwWhen_bind_eq_ok, pure_eq_ok] at h
    obtain ⟨hcontract, rfl⟩ := h
    have hfresh : ∀ request ∈ db.requests, request.key ≠ key := by
      simpa using find?_eq_none.mp hfind
    rw [not_not] at hcontract
    refine ⟨rfl, rfl, ?_, .inr ⟨hfresh, ?_⟩⟩
    · unfold Requested
      rw [← hcontract]
      exact mem_append_right _ (mem_singleton.mpr rfl)
    · rw [← hcontract]

structure Registers (occurrenceID : String) (phase : DurablePhase) (targets : List DurableTarget)
    (db db' : BusDatabase) : Prop where
  grows : Grows db db'
  tables : TablesInv db'
  succeeded : ∀ key, Bus.succeeded db' key = Bus.succeeded db key
  requested : ∀ target ∈ targets, Requested db'
    { occurrenceID := occurrenceID, phase := phase, subscriberID := target.id } target.durable
  fresh : ∀ request ∈ db'.requests, request ∈ db.requests ∨
    (∀ row ∈ db.requests, row.key ≠ request.key) ∧ ∃ target ∈ targets,
      request.key = { occurrenceID := occurrenceID, phase := phase, subscriberID := target.id } ∧
        request.effectContract = target.durable

lemma Registers.concat {db₁ db₂ : BusDatabase} {done : List DurableTarget}
    (hdone : Registers occurrenceID phase done db db₁)
    (h : registerTarget occurrenceID phase db₁ target = .ok db₂) :
    Registers occurrenceID phase (done ++ [target]) db db₂ := by
  obtain ⟨hreceipts, hphases, hrequested, hrequests⟩ := registerTarget_eq_ok h
  have hgrows : Grows db₁ db₂ := by
    refine ⟨?_, hreceipts ▸ Subset.refl _, hphases ▸ Subset.refl _⟩
    rcases hrequests with hrequests | ⟨-, hrequests⟩
    · exact hrequests ▸ Subset.refl _
    · exact hrequests ▸ subset_append_left _ _
  refine ⟨hdone.grows.trans hgrows, ⟨?_, ?_⟩, fun key => ?_, ?_, ?_⟩
  · rcases hrequests with hrequests | ⟨hfresh, hrequests⟩
    · exact hrequests ▸ hdone.tables.keys
    · exact hrequests ▸ hdone.tables.keys.concat hfresh
  · intro receipt hreceipt hignored
    rw [hreceipts] at hreceipt
    exact hgrows.requests (hdone.tables.ignored receipt hreceipt hignored)
  · rw [← hdone.succeeded key]
    simp only [Bus.succeeded, receiptsOf, hreceipts]
  · intro row hrow
    rcases mem_append.mp hrow with hrow | hrow
    · exact hgrows.requests (hdone.requested row hrow)
    · rw [mem_singleton.mp hrow]
      exact hrequested
  · intro request hrequest
    rcases hrequests with hrequests | ⟨hfresh, hrequests⟩
    · rw [hrequests] at hrequest
      rcases hdone.fresh request hrequest with hold | ⟨hunrequested, row, hrow, hkey⟩
      · exact .inl hold
      · exact .inr ⟨hunrequested, row, mem_append_left _ hrow, hkey⟩
    · rw [hrequests] at hrequest
      rcases mem_append.mp hrequest with hrequest | hrequest
      · rcases hdone.fresh request hrequest with hold | ⟨hunrequested, row, hrow, hkey⟩
        · exact .inl hold
        · exact .inr ⟨hunrequested, row, mem_append_left _ hrow, hkey⟩
      · rw [mem_singleton.mp hrequest]
        refine .inr ⟨fun row hrow => hfresh row (hdone.grows.requests hrow), target, ?_, rfl, rfl⟩
        exact mem_append_right _ (mem_singleton.mpr rfl)

/-- The first transaction of an execution. -/
lemma registerTargets_registers (hdb : TablesInv db)
    (h : registerTargets db occurrenceID phase targets now = .ok db') :
    Registers occurrenceID phase targets db db' := by
  unfold registerTargets at h
  rw [bind_eq_ok] at h
  obtain ⟨swept, hswept, h⟩ := h
  have hsweeps : Unsuccessful db swept := by
    refine foldlM_eq_ok_invariant (P := fun _ => Unsuccessful db) ?_ hswept (refl hdb)
    intro _ request db₁ db₂ hrequest hdone hsweep
    obtain ⟨hmem, hrow⟩ := mem_filter.mp hrequest
    rw [decide_eq_true_eq, Bool.not_eq_true] at hrow
    have hrequested : Requested db₁ request.key false := by
      unfold Requested
      rw [hdone.requests, ← hrow.2.2]
      exact hmem
    exact hdone.trans (sweepStale_unsuccessful hdone.tables hrequested hsweep)
  have hstart : Registers occurrenceID phase [] db swept :=
    { grows := hsweeps.grows
      tables := hsweeps.tables
      succeeded := hsweeps.succeeded
      requested := fun target htarget => absurd htarget not_mem_nil
      fresh := fun request hrequest => .inl (hsweeps.requests ▸ hrequest) }
  refine foldlM_eq_ok_invariant (P := fun done => Registers occurrenceID phase done db) ?_ h hstart
  exact fun done target db₁ db₂ _ hdone hregister => hdone.concat hregister

lemma releaseLease_eq (db : BusDatabase) (claim : ControlLeaseClaim) :
    ∃ leases, releaseLease db claim = { db with leases := leases } :=
  ⟨_, rfl⟩

lemma TablesInv.withLeases (h : TablesInv db) (leases : ControlLeaseTables) :
    TablesInv { db with leases := leases } :=
  ⟨h.keys, h.ignored⟩

lemma unsuccessful_withLeases (h : TablesInv db) (leases : ControlLeaseTables) :
    Unsuccessful db { db with leases := leases } :=
  ⟨⟨Subset.refl _, Subset.refl _, Subset.refl _⟩, h.withLeases leases, fun _ => rfl, rfl⟩

/-- The receipt of a success. -/
lemma settleSucceeded_eq_ok {leaseID : String} (hdb : TablesInv db)
    (h : settleSucceeded db ownerID leaseID key now = .ok db') :
    Grows db db' ∧ TablesInv db' ∧ db'.requests = db.requests ∧ succeeded db' key = true ∧
      ∀ other, other ≠ key → succeeded db' other = succeeded db other := by
  unfold settleSucceeded at h
  rw [throwWhen_bind_eq_ok, bind_eq_ok] at h
  obtain ⟨-, db₁, hinsert, h⟩ := h
  rw [pure_eq_ok] at h
  obtain ⟨_, hleases⟩ := releaseLease_eq db₁ (leaseClaim ownerID leaseID key now)
  rw [insertReceipt_eq_ok hinsert] at hleases
  rw [insertReceipt_eq_ok hinsert, hleases] at h
  subst h
  refine ⟨⟨Subset.refl _, subset_append_left _ _, Subset.refl _⟩, ⟨hdb.keys, ?_⟩, rfl,
    ?_, ?_⟩
  · intro row hrow hignored
    rcases mem_append.mp hrow with hrow | hrow
    · exact hdb.ignored row hrow hignored
    · rw [mem_singleton.mp hrow] at hignored
      cases hignored
  · exact succeeded_iff.mpr ⟨_, mem_append_right _ (mem_singleton.mpr rfl), rfl, rfl⟩
  · intro other hne
    unfold succeeded receiptsOf
    rw [filter_append, filter_singleton]
    simp [hne.symm]

lemma settleFailed_eq_ok {leaseID error : String} {settleFailure : Bool} {settlement : FailureSettlement}
    (hdb : TablesInv db) (hrequested : settleFailure = true → Requested db key false)
    (h : settleFailed db ownerID leaseID key settleFailure error now = .ok (db', settlement)) :
    Unsuccessful db db' ∧ (settlement = .terminal → isSettled db' key = true) ∧
      (settlement = .written → settleFailure = true → isSettled db' key = true) := by
  unfold settleFailed at h
  by_cases hsettled : isSettled db key = true
  · rw [if_pos hsettled, pure_eq_ok] at h
    cases h
    have hdone : Unsuccessful db (if holdsLease db (leaseClaim ownerID leaseID key now) then
        releaseLease db (leaseClaim ownerID leaseID key now) else db) := by
      split_ifs
      · exact unsuccessful_withLeases hdb _
      · exact refl hdb
    exact ⟨hdone, fun _ => hdone.grows.isSettled hsettled, by simp⟩
  · rw [if_neg hsettled] at h
    by_cases hholds : holdsLease db (leaseClaim ownerID leaseID key now) = true
    · rw [if_neg (not_not.mpr hholds), bind_eq_ok] at h
      obtain ⟨db₁, hinsert, h⟩ := h
      rw [pure_eq_ok] at h
      cases h
      have hdone : Unsuccessful db db₁ := by
        refine insertReceipt_unsuccessful hdb hinsert ?_ fun hignored => hrequested ?_
        · cases settleFailure <;> simp
        · by_contra hkept
          rw [Bool.not_eq_true] at hkept
          simp [hkept] at hignored
      have hreleased := hdone.trans (unsuccessful_withLeases hdone.tables
        (releaseControlLeaseInTransaction db₁.leases (leaseClaim ownerID leaseID key now)).2)
      refine ⟨hreleased, by simp, fun _ hsettles => ?_⟩
      have hsettled' : isSettled db₁ key = true := by
        rw [insertReceipt_eq_ok hinsert]
        refine isSettled_iff.mpr ⟨_, mem_append_right _ (mem_singleton.mpr rfl), rfl, .inr ?_⟩
        exact if_pos hsettles
      exact hsettled'
    · rw [if_pos hholds, pure_eq_ok] at h
      cases h
      exact ⟨refl hdb, by simp, by simp⟩

/-! ## What an execution knows -/

def DispatchStage.rest : DispatchStage → List DurableTarget
  | .delivering rest _ => rest
  | .outcomeRead target rest _ _ => target :: rest
  | .leased target _ rest _ => target :: rest
  | .invoked target _ rest _ => target :: rest
  | .rejected target _ rest _ => target :: rest
  | _ => []

def DispatchStage.isRegistered : DispatchStage → Bool
  | .registering => false
  | .finished => false
  | _ => true

def DispatchStage.isClean : DispatchStage → Bool
  | .registering => false
  | .delivering _ failed => !failed
  | .outcomeRead _ _ failed _ => !failed
  | .leased _ _ _ failed => !failed
  | .invoked _ _ _ failed => !failed
  | .rejected _ _ _ failed => !failed
  | .examining _ _ _ failed => !failed
  | .finished => false

structure ExecutionInv (db : BusDatabase) (execution : DispatchExecution) : Prop where
  requested : execution.stage.isRegistered → ∀ target ∈ execution.targets,
    Requested db (execution.key target.id) target.durable
  rest : ∀ target ∈ execution.stage.rest, target ∈ execution.targets
  /-- As long as nothing failed, a delivery that is done is settled. -/
  settled : execution.stage.isClean → ∀ target ∈ execution.targets,
    target ∈ execution.stage.rest ∨ isSettled db (execution.key target.id)
  /-- What was read of a delivery still holds when it is called. -/
  unsucceeded : ∀ target ∈ execution.stage.awaitsCall, target.durable →
    succeeded db (execution.key target.id) = false
  /-- A durable request that was read is settled once it is examined. -/
  examined : ∀ read todo, execution.stage = .examining read todo false false →
    ∀ subscriberID ∈ read, subscriberID ∈ todo ∨ isSettled db (execution.key subscriberID)
  /-- The durable requests are those that were read. -/
  read : ∀ read todo, execution.stage = .examining read todo false false →
    phaseSettled db execution.occurrenceID execution.phase = false →
      ∀ subscriberID ∈ durableRequests db execution.occurrenceID execution.phase, subscriberID ∈ read

lemma ExecutionInv.frame (h : ExecutionInv db execution) (hgrows : Grows db db')
    (hsucceeded : ∀ target ∈ execution.stage.awaitsCall, target.durable →
      succeeded db' (execution.key target.id) = succeeded db (execution.key target.id))
    (hread : execution.stage.isExamining → phaseSettled db execution.occurrenceID execution.phase = false →
        ∀ subscriberID, Requested db' (execution.key subscriberID) true →
          Requested db (execution.key subscriberID) true) :
    ExecutionInv db' execution := by
  refine ⟨fun hregistered target htarget => hgrows.requests (h.requested hregistered target htarget),
    h.rest, ?_, ?_, ?_, ?_⟩
  · intro hclean target htarget
    rcases h.settled hclean target htarget with hrest | hsettled
    · exact .inl hrest
    · exact .inr (hgrows.isSettled hsettled)
  · intro target htarget hdurable
    rw [hsucceeded target htarget hdurable]
    exact h.unsucceeded target htarget hdurable
  · intro read todo hstage subscriberID hmem
    rcases h.examined read todo hstage subscriberID hmem with htodo | hsettled
    · exact .inl htodo
    · exact .inr (hgrows.isSettled hsettled)
  · intro read todo hstage hunsettled subscriberID hmem
    have hbefore : phaseSettled db execution.occurrenceID execution.phase = false := by
      unfold phaseSettled at hunsettled ⊢
      rw [decide_eq_false_iff_not] at hunsettled ⊢
      exact fun hsettled => hunsettled (hgrows.phaseReceipts hsettled)
    have hexamining : execution.stage.isExamining = true := by rw [hstage]; rfl
    refine h.read read todo hstage hbefore subscriberID (mem_durableRequests.mpr ?_)
    exact hread hexamining hbefore subscriberID (mem_durableRequests.mp hmem)

lemma ExecutionInv.succeeded_of_settlesNext (hdb : TablesInv db) (h : ExecutionInv db execution)
    (hsettles : execution.stage.settlesNext)
    (hunsettled : phaseSettled db execution.occurrenceID execution.phase = false) {subscriberID : String}
    (hmem : subscriberID ∈ durableRequests db execution.occurrenceID execution.phase) :
    succeeded db (execution.key subscriberID) = true := by
  obtain ⟨read, hstage⟩ : ∃ read, execution.stage = .examining read [] false false := by
    unfold DispatchStage.settlesNext at hsettles
    split at hsettles
    next read hstage => exact ⟨read, hstage⟩
    · cases hsettles
  have hread := h.read read [] hstage hunsettled subscriberID hmem
  refine hdb.succeeded_of_isSettled (mem_durableRequests.mp hmem) ?_
  rcases h.examined read [] hstage subscriberID hread with htodo | hdone
  · exact absurd htodo not_mem_nil
  · exact hdone

/-! ## What one step of an execution can do -/

structure StepEffect (db : BusDatabase) (execution : DispatchExecution) (step : DispatchStep)
    (db' : BusDatabase) : Prop where
  grows : Grows db db'
  tables : TablesInv db'
  succeeded : ∀ key, Bus.succeeded db' key = Bus.succeeded db key ∨
    (∃ now, step = .settle now) ∧ ∃ target ∈ execution.stage.called, key = execution.key target.id
  requested : ∀ request ∈ db'.requests, request ∈ db.requests ∨
    (∃ now, step = .register now) ∧ execution.stage = .registering ∧
      (∀ row ∈ db.requests, row.key ≠ request.key) ∧ ∃ target ∈ execution.targets,
        request.key = execution.key target.id ∧ request.effectContract = target.durable

lemma Unsuccessful.stepEffect (h : Unsuccessful db db') (execution : DispatchExecution)
    (step : DispatchStep) : StepEffect db execution step db' :=
  ⟨h.grows, h.tables, fun key => .inl (h.succeeded key), fun _ hrequest => .inl (h.requests ▸ hrequest)⟩

lemma ExecutionInv.of_not_examining (hstage : execution.stage.isExamining = false)
    (hrequested : execution.stage.isRegistered → ∀ target ∈ execution.targets,
      Requested db (execution.key target.id) target.durable)
    (hrest : ∀ target ∈ execution.stage.rest, target ∈ execution.targets)
    (hsettled : execution.stage.isClean → ∀ target ∈ execution.targets,
      target ∈ execution.stage.rest ∨ isSettled db (execution.key target.id))
    (hunsucceeded : ∀ target ∈ execution.stage.awaitsCall, target.durable →
      succeeded db (execution.key target.id) = false) :
    ExecutionInv db execution := by
  have hnot : ∀ read todo, execution.stage ≠ .examining read todo false false := by
    intro read todo heq
    rw [heq] at hstage
    cases hstage
  exact ⟨hrequested, hrest, hsettled, hunsucceeded, fun read todo h => absurd h (hnot read todo),
    fun read todo h => absurd h (hnot read todo)⟩

lemma executionInv_finished (db : BusDatabase) (ownerID occurrenceID : String) (phase : DurablePhase)
    (targets : List DurableTarget) :
    ExecutionInv db ⟨ownerID, occurrenceID, phase, targets, .finished⟩ :=
  .of_not_examining rfl (fun h => nomatch h) (fun _ h => absurd h not_mem_nil)
    (fun h => nomatch h) (fun _ h => nomatch h)

lemma ExecutionInv.next {rest : List DurableTarget} {stage : DispatchStage} {failed : Bool}
    (h : ExecutionInv db ⟨ownerID, occurrenceID, phase, targets, stage⟩) (hstage : stage.isRegistered)
    (hrest : stage.rest = target :: rest) (hgrows : Grows db db')
    (hdone : failed = false → stage.isClean ∧ isSettled db'
      { occurrenceID := occurrenceID, phase := phase, subscriberID := target.id }) :
    ExecutionInv db' ⟨ownerID, occurrenceID, phase, targets, .delivering rest failed⟩ := by
  refine .of_not_examining rfl ?_ ?_ ?_ fun _ hawaits => nomatch hawaits
  · exact fun _ row hrow => hgrows.requests (h.requested hstage row hrow)
  · exact fun row hrow => h.rest row (hrest ▸ mem_cons_of_mem target hrow)
  · intro hclean row hrow
    have hkept : failed = false := by
      simpa [DispatchStage.isClean] using hclean
    obtain ⟨hbefore, hsettled⟩ := hdone hkept
    rcases h.settled hbefore row hrow with hmem | hmem
    · change row ∈ stage.rest at hmem
      rw [hrest] at hmem
      rcases mem_cons.mp hmem with rfl | hmem
      · exact .inr hsettled
      · exact .inl hmem
    · exact .inr (hgrows.isSettled hmem)

lemma ExecutionInv.same {stage stage' : DispatchStage}
    (h : ExecutionInv db ⟨ownerID, occurrenceID, phase, targets, stage⟩) (hgrows : Grows db db')
    (hregistered : stage.isRegistered) (hrest : stage'.rest = stage.rest)
    (hclean : stage'.isClean = stage.isClean) (hexamining : stage'.isExamining = false)
    (hawaits : ∀ target ∈ stage'.awaitsCall, target.durable → succeeded db'
      { occurrenceID := occurrenceID, phase := phase, subscriberID := target.id } = false) :
    ExecutionInv db' ⟨ownerID, occurrenceID, phase, targets, stage'⟩ := by
  refine .of_not_examining hexamining ?_ ?_ ?_ hawaits
  · exact fun _ row hrow => hgrows.requests (h.requested hregistered row hrow)
  · exact fun row hrow => h.rest row (hrest ▸ hrow)
  · intro hclean' row hrow
    have hbefore : stage.isClean = true := hclean ▸ hclean'
    rcases h.settled hbefore row hrow with hmem | hmem
    · exact .inl (hrest.symm ▸ hmem)
    · exact .inr (hgrows.isSettled hmem)

theorem advance_spec {step : DispatchStep} {stage' : DispatchStage} (hdb : TablesInv db)
    (hinv : ExecutionInv db execution) (h : advance db execution execution.stage step = some (db', stage')) :
    StepEffect db execution step db' ∧ ExecutionInv db' { execution with stage := stage' } := by
  obtain ⟨ownerID, occurrenceID, phase, targets, _⟩ := execution
  have hkept := fun (execution : DispatchExecution) => (refl hdb).stepEffect execution step
  unfold advance at h
  dsimp only at h
  split at h
  -- the targets are registered
  next now =>
    split at h
    next db₁ hregister =>
      cases h
      have hregisters := registerTargets_registers hdb hregister
      refine ⟨⟨hregisters.grows, hregisters.tables, fun key => .inl (hregisters.succeeded key), ?_⟩, ?_⟩
      · intro request hrequest
        rcases hregisters.fresh request hrequest with hold | ⟨hfresh, hnew⟩
        · exact .inl hold
        · exact .inr ⟨⟨now, rfl⟩, rfl, hfresh, hnew⟩
      · exact .of_not_examining rfl (fun _ => hregisters.requested) (fun _ hmem => hmem)
          (fun _ _ hmem => .inl hmem) fun _ hawaits => nomatch hawaits
    · cases h
      exact ⟨hkept _, executionInv_finished db ownerID occurrenceID phase targets⟩
  -- the outcome of a delivery is read
  next target rest failed =>
    split_ifs at h with hprior
    · cases h
      refine ⟨hkept _, hinv.next rfl rfl (Grows.refl db) fun hfailed => ⟨?_, ?_⟩⟩
      · simp [DispatchStage.isClean, hfailed]
      · exact isSettled_of_deliveryOutcome hprior
    · cases h
      refine ⟨hkept _, hinv.same (Grows.refl db) rfl rfl rfl rfl ?_⟩
      rintro _ ⟨⟩ -
      exact deliveryOutcome_eq_succeeded fun heq => hprior (.inl heq)
  -- the lease of the delivery is taken
  next target rest failed prior leaseID now =>
    split at h
    next lease leases _ =>
      cases h
      have hleases := unsuccessful_withLeases hdb leases
      refine ⟨hleases.stepEffect _ _, hinv.same hleases.grows rfl rfl rfl rfl ?_⟩
      rintro _ ⟨⟩ hdurable
      exact hinv.unsucceeded target rfl hdurable
    · cases h
      exact ⟨hkept _, hinv.next rfl rfl (Grows.refl db) fun hfailed => nomatch hfailed⟩
    · cases h
      exact ⟨hkept _, executionInv_finished db ownerID occurrenceID phase targets⟩
  -- the subscriber is called
  next target leaseID rest failed =>
    cases h
    exact ⟨hkept _, hinv.same (Grows.refl db) rfl rfl rfl rfl fun _ hawaits => nomatch hawaits⟩
  -- the call is answered
  next target leaseID rest failed now =>
    split at h
    next db₁ hsettle =>
      cases h
      obtain ⟨hgrows, htables, hrequests, hsucceeded, hothers⟩ := settleSucceeded_eq_ok hdb hsettle
      refine ⟨⟨hgrows, htables, fun key => ?_, fun request hrequest => .inl (hrequests ▸ hrequest)⟩, ?_⟩
      · by_cases hkey : key = { occurrenceID := occurrenceID, phase := phase, subscriberID := target.id }
        · exact .inr ⟨⟨now, rfl⟩, target, rfl, hkey⟩
        · exact .inl (hothers key hkey)
      · refine hinv.next rfl rfl hgrows fun hfailed => ⟨?_, ?_⟩
        · simp [DispatchStage.isClean, hfailed]
        · obtain ⟨receipt, hmem, hkey, houtcome⟩ := succeeded_iff.mp hsucceeded
          exact isSettled_iff.mpr ⟨receipt, hmem, hkey, .inl houtcome⟩
    · cases h
      exact ⟨hkept _, hinv.same (Grows.refl db) rfl rfl rfl rfl fun _ hawaits => nomatch hawaits⟩
  -- the call raised
  next target leaseID rest failed =>
    cases h
    exact ⟨hkept _, hinv.same (Grows.refl db) rfl rfl rfl rfl fun _ hawaits => nomatch hawaits⟩
  -- the failure is recorded
  next target leaseID rest failed error now =>
    have hrequested : target.settleFailure = true → Requested db
        { occurrenceID := occurrenceID, phase := phase, subscriberID := target.id } false := by
      intro htransient
      have hmem := hinv.requested rfl target (hinv.rest target mem_cons_self)
      have hdurable : target.durable = false := by
        simpa [DurableTarget.settleFailure] using htransient
      rwa [hdurable] at hmem
    split at h
    next db₁ hsettle =>
      cases h
      obtain ⟨hdone, hterminal, -⟩ := settleFailed_eq_ok hdb hrequested hsettle
      refine ⟨hdone.stepEffect _ _, hinv.next rfl rfl hdone.grows fun hfailed => ⟨?_, hterminal rfl⟩⟩
      simp [DispatchStage.isClean, hfailed]
    next db₁ hsettle =>
      cases h
      obtain ⟨hdone, -, -⟩ := settleFailed_eq_ok hdb hrequested hsettle
      exact ⟨hdone.stepEffect _ _, hinv.next rfl rfl hdone.grows fun hfailed => nomatch hfailed⟩
    next db₁ hsettle =>
      cases h
      obtain ⟨hdone, -, hwritten⟩ := settleFailed_eq_ok hdb hrequested hsettle
      refine ⟨hdone.stepEffect _ _, hinv.next rfl rfl hdone.grows fun hfailed => ?_⟩
      rw [Bool.or_eq_false_iff, Bool.not_eq_false'] at hfailed
      refine ⟨?_, hwritten rfl hfailed.2⟩
      simp [DispatchStage.isClean, hfailed.1]
    · cases h
      exact ⟨hkept _, executionInv_finished db ownerID occurrenceID phase targets⟩
  -- the durable requests are read
  next failed =>
    cases h
    refine ⟨hkept _, hinv.requested, fun _ hmem => absurd hmem not_mem_nil, hinv.settled,
      (fun _ hawaits => nomatch hawaits), ?_, ?_⟩
    · rintro _ _ ⟨⟩ _ hmem
      exact .inl hmem
    · rintro _ _ ⟨⟩ - _ hmem
      exact hmem
  -- the outcome of a durable request is examined
  next read subscriberID todo unavailable failed =>
    cases h
    refine ⟨hkept _, hinv.requested, fun _ hmem => absurd hmem not_mem_nil, hinv.settled,
      (fun _ hawaits => nomatch hawaits), ?_, ?_⟩
    · intro read' todo' hstage other hmem
      injection hstage with hread htodo havailable hfailed
      subst hread htodo hfailed
      rw [Bool.or_eq_false_iff, decide_eq_false_iff_not] at havailable
      obtain ⟨rfl, hexamined⟩ := havailable
      rcases hinv.examined _ _ rfl other hmem with htodo | hsettled
      · rcases mem_cons.mp htodo with rfl | htodo
        · right
          by_contra hpending
          refine hexamined ⟨⟨fun heq => hpending ?_, fun heq => hpending ?_⟩, fun htarget => hpending ?_⟩
          · exact isSettled_of_deliveryOutcome (.inl heq)
          · exact isSettled_of_deliveryOutcome (.inr heq)
          · obtain ⟨target, hactive, rfl⟩ := List.mem_map.mp htarget
            exact (hinv.settled rfl target hactive).resolve_left not_mem_nil
        · exact .inl htodo
      · exact .inr hsettled
    · intro read' todo' hstage
      injection hstage with hread htodo havailable hfailed
      subst hread htodo hfailed
      rw [Bool.or_eq_false_iff] at havailable
      obtain ⟨rfl, -⟩ := havailable
      exact hinv.read _ _ rfl
  -- the phase is recorded
  next read unavailable failed =>
    split_ifs at h with hfailed
    · cases h
      exact ⟨hkept _, executionInv_finished db ownerID occurrenceID phase targets⟩
    · cases h
      refine ⟨stepEffect ?_ _ _, executionInv_finished _ ownerID occurrenceID phase targets⟩
      unfold settlePhase
      split_ifs
      · exact refl hdb
      · exact ⟨⟨Subset.refl _, Subset.refl _, subset_append_left _ _⟩,
          ⟨hdb.keys, hdb.ignored⟩, fun _ => rfl, rfl⟩
  · cases h

/-! ## Runs -/

structure BusInv (world : BusWorld) : Prop where
  tables : TablesInv world.db
  executions : ∀ execution ∈ world.executions, ExecutionInv world.db execution

lemma BusInv.of_unsuccessful (h : BusInv world) (hdb : Unsuccessful world.db db') :
    ∀ execution ∈ world.executions, ExecutionInv db' execution := by
  intro execution hmem
  refine (h.executions execution hmem).frame hdb.grows (fun _ _ _ => hdb.succeeded _) ?_
  intro _ _ subscriberID hrequested
  unfold Requested at hrequested ⊢
  rwa [hdb.requests] at hrequested

lemma BusInv.others {index : ℕ} {step : DispatchStep} (h : BusInv world)
    (hexecution : world.executions[index]? = some execution)
    (hundisturbed : Undisturbed world (.advance index step))
    (heffect : StepEffect world.db execution step db') :
    ∀ other ∈ world.executions, ExecutionInv db' other := by
  intro other hother
  refine (h.executions other hother).frame heffect.grows ?_ ?_
  · intro awaited hawaited hdurable
    rcases heffect.succeeded (other.key awaited.id) with hsame | ⟨⟨_, rfl⟩, target, hcalled, hkey⟩
    · exact hsame
    · exact absurd hkey (hundisturbed execution hexecution target hcalled other hother awaited hawaited hdurable)
  · intro hexamining hunsettled subscriberID hrequested
    rcases heffect.requested _ hrequested with hold | ⟨⟨_, rfl⟩, hstage, hfresh, target, htarget, hkey,
      hcontract⟩
    · exact hold
    · have hsame : other.occurrenceID = execution.occurrenceID ∧ other.phase = execution.phase :=
        ⟨congrArg DeliveryKey.occurrenceID hkey, congrArg DeliveryKey.phase hkey⟩
      rw [hkey] at hfresh
      exact absurd hsame (hundisturbed execution hexecution hstage target htarget hcontract.symm hfresh
        other hother hexamining hunsettled)

theorem busInv_step {world' : BusWorld} {action : BusAction} (h : BusInv world)
    (hundisturbed : Undisturbed world action) (hstep : busStep world action = some world') :
    BusInv world' := by
  cases action with simp only [busStep] at hstep
  | publish occurrenceID =>
    split_ifs at hstep
    cases hstep
    have hdb : Unsuccessful world.db
        { world.db with outbox := world.db.outbox ++ [occurrenceID] } :=
      ⟨⟨Subset.refl _, Subset.refl _, Subset.refl _⟩,
        ⟨h.tables.keys, h.tables.ignored⟩, fun _ => rfl, rfl⟩
    exact ⟨hdb.tables, h.of_unsuccessful hdb⟩
  | start ownerID occurrenceID phase targets =>
    split_ifs at hstep
    cases hstep
    refine ⟨h.tables, fun execution hmem => ?_⟩
    rcases mem_append.mp hmem with hmem | hmem
    · exact h.executions execution hmem
    · rw [mem_singleton.mp hmem]
      exact .of_not_examining rfl (fun hno => nomatch hno) (fun _ hno => absurd hno not_mem_nil)
        (fun hno => nomatch hno) fun _ hno => nomatch hno
  | advance index step =>
    split at hstep
    · cases hstep
    next execution hexecution =>
      obtain ⟨⟨_, _⟩, hadvance, rfl⟩ := Option.map_eq_some_iff.mp hstep
      obtain ⟨heffect, hown⟩ := advance_spec h.tables
        (h.executions execution (mem_of_getElem? hexecution)) hadvance
      refine ⟨heffect.tables, fun other hother => ?_⟩
      rcases mem_or_eq_of_mem_set hother with hother | rfl
      · exact h.others hexecution hundisturbed heffect other hother
      · exact hown
  | renew index now =>
    split at hstep
    · cases hstep
    · split at hstep
      · split at hstep
        · cases hstep
          have hdb := unsuccessful_withLeases h.tables
          exact ⟨(hdb _).tables, h.of_unsuccessful (hdb _)⟩
        · cases hstep
          exact h
      · cases hstep
  | crash index =>
    split at hstep
    · cases hstep
    next execution hexecution =>
      cases hstep
      refine ⟨h.tables, fun other hother => ?_⟩
      rcases mem_or_eq_of_mem_set hother with hother | rfl
      · exact h.executions other hother
      · exact executionInv_finished world.db _ _ _ _

lemma BusInv.safe (h : BusInv world) (action : BusAction) : Safe world action := by
  unfold Safe
  split
  next index =>
    intro execution hexecution target htarget hdurable
    refine (h.executions execution (mem_of_getElem? hexecution)).unsucceeded target ?_ hdurable
    unfold DispatchStage.callsNext at htarget
    split at htarget
    next hstage =>
      rw [hstage]
      exact htarget
    · cases htarget
  next index =>
    intro execution hexecution hsettles hunsettled subscriberID hmem
    exact (h.executions execution (mem_of_getElem? hexecution)).succeeded_of_settlesNext h.tables
      hsettles hunsettled hmem
  · trivial

/-- Before anything was published, nothing is known. -/
lemma busInv_initial : BusInv BusWorld.initial :=
  ⟨⟨primaryKey_nil, fun _ h => absurd h not_mem_nil⟩, fun _ h => absurd h not_mem_nil⟩

def durableTarget (id : String) : DurableTarget := { id := id, durable := true, effectContract := true }

/-- Two runtimes deliver one occurrence to one subscriber, one after the other, in a run in which neither
disturbs the other; the first call raises, the second is answered, and the phase is recorded. -/
def undisturbedRun : List BusAction :=
  [.publish "p", .start "a" "p" .exact [durableTarget "s"], .start "b" "p" .exact [durableTarget "s"],
    .advance 0 (.register 0), .advance 1 (.register 0),
    .advance 0 .readOutcome, .advance 0 (.acquire "l1" 1), .advance 0 .invoke, .advance 0 .reject,
    .advance 0 (.settleFailure "offline" 2),
    .advance 1 .readOutcome, .advance 1 (.acquire "l2" 3), .advance 1 .invoke, .advance 1 (.settle 4),
    .advance 1 .readRequests, .advance 1 .readRequestOutcome, .advance 1 .settlePhase]

/-- The first runtime has read that a delivery has no outcome.  Before it takes the lease, the second
runtime delivers and gives the lease back. -/
def repeatedCall : List BusAction :=
  [.publish "p", .start "a" "p" .exact [durableTarget "s"], .start "b" "p" .exact [durableTarget "s"],
    .advance 0 (.register 0), .advance 1 (.register 0), .advance 0 .readOutcome,
    .advance 1 .readOutcome, .advance 1 (.acquire "l1" 1), .advance 1 .invoke, .advance 1 (.settle 2),
    .advance 0 (.acquire "l2" 3), .advance 0 .invoke]

/-- The first runtime has examined the durable requests.  Before it records the phase, the second
runtime, which has one more durable subscriber, registers its own. -/
def latecomer : List BusAction :=
  [.publish "p", .start "a" "p" .exact [durableTarget "s"],
    .start "b" "p" .exact [durableTarget "s", durableTarget "t"],
    .advance 0 (.register 0), .advance 0 .readOutcome, .advance 0 (.acquire "l1" 1), .advance 0 .invoke,
    .advance 0 (.settle 2), .advance 0 .readRequests, .advance 0 .readRequestOutcome,
    .advance 1 (.register 3), .advance 0 .settlePhase]

end OpenCorvus.Bus
