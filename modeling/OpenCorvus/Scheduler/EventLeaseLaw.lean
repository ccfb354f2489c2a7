import OpenCorvus.Scheduler.EventQueueLaw

/-!
# The leases of the fires

The leases of a fire succeed one another: a fire is claimed when its last lease has expired, and after an
attempt that was put off it is claimed later than that.  A fire that was ever leased is settled or the head of
its queue.
-/

namespace OpenCorvus.Scheduler

open UniqueIndex Engine LatestRow Relation List ControlLeaseTables EventStore AcquireControlLeaseInput

def EventStore.fireLeases (store : EventStore) (fireID : String) : List ControlLease :=
  store.leases.ofTarget .eventFire fireID

structure FireLeaseInv (store : EventStore) (clock : ℤ) : Prop where
  ids : PrimaryKey ControlLease.id (store.leases.rowsOf .eventFire)
  succeeding : ∀ fireID, Succeeding (store.fireLeases fireID)
  begun : ∀ fireID, ∀ lease ∈ store.fireLeases fireID, lease.timeActivated ≤ clock
  /-- A lease that was ended at once was ended by a receipt. -/
  ended : ∀ fireID, ∀ lease ∈ store.fireLeases fireID, lease.timeActivated < lease.expiresAt ∨
    ∃ receipt ∈ store.receipts, receipt.fireID = fireID ∧ lease.timeActivated ≤ receipt.timeCreated
  /-- A leased fire is settled or the head. -/
  heads : ∀ fireID, store.fireLeases fireID ≠ [] → ∃ fire ∈ store.fires, fire.id = fireID ∧
    fire.queuePosition ≤ store.settledPosition fire.definitionID + 1
  retries : ∀ receipt ∈ store.receipts, ∀ retryAt ∈ receipt.outcome.retryAt, receipt.timeCreated + 1000 ≤ retryAt
  leased : ∀ receipt ∈ store.receipts, store.fireLeases receipt.fireID ≠ []

variable {store store' : EventStore} {clock now : ℤ} {lease : ControlLease} {fireID ownerID : String}

lemma mem_fireLeases_of_held (h : heldFireLease store fireID ownerID now = some lease) :
    lease ∈ store.fireLeases fireID := by
  obtain ⟨hcurrent, -⟩ := heldFireLease_eq_some.mp h
  exact mem_ofTarget.mpr (mem_of_currentControlLease hcurrent)

variable {fire : EventJobFire}

lemma FireLeaseInv.position_le (h : FireLeaseInv store clock) (hqueue : QueueInv store)
    (hfire : fire ∈ store.fires) (hleased : store.fireLeases fire.id ≠ []) :
    fire.queuePosition ≤ store.settledPosition fire.definitionID + 1 := by
  obtain ⟨_, hother, hid, hle⟩ := h.heads fire.id hleased
  rwa [hqueue.eq_of_id hother hfire hid] at hle

lemma timeCreated_le_lastRetry {fireID : String} {receipt last : EventJobFireReceipt}
    (hreceipt : receipt ∈ store.retriesOf fireID) (hlast : store.lastRetry fireID = some last) :
    receipt.timeCreated ≤ last.timeCreated := by
  have hle : receipt.orderKey ≤ last.orderKey := le_of_mem_argmax hreceipt hlast
  rcases Prod.Lex.toLex_le_toLex.mp hle with hlt | heq
  · exact hlt.le
  · exact heq.1.le

lemma exists_retryAt {outcome : EventReceiptOutcome} (h : outcome.isTerminal = false) :
    ∃ retryAt, outcome.retryAt = some retryAt := by
  cases outcome with
  | retryWait retryAt => exact ⟨retryAt, rfl⟩
  | succeeded | disposition => cases h

lemma FireLeaseInv.before_claim (h : FireLeaseInv store clock) (hqueue : QueueInv store)
    (hclaimable : Claimable store fire clock) (hlease : lease ∈ store.fireLeases fire.id) :
    lease.timeActivated < clock ∧ lease.expiresAt ≤ clock := by
  have hexpired : lease.expiresAt ≤ clock := by
    obtain ⟨current, hcurrent⟩ : ∃ current,
        currentControlLeaseInTransaction store.leases .eventFire fire.id = some current :=
      exists_argmax_of_mem hlease
    rcases (h.succeeding fire.id).eq_or_before hcurrent hlease with rfl | ⟨-, hbefore⟩
    · exact hclaimable.expired lease hcurrent
    · exact hbefore.trans (h.begun fire.id current
        (mem_ofTarget.mpr (mem_of_currentControlLease hcurrent)))
  refine ⟨?_, hexpired⟩
  rcases h.ended fire.id lease hlease with _ | ⟨receipt, hreceipt, hof, _⟩
  · omega
  · -- The receipt has put the fire off, because the fire is not settled.
    have hopen : receipt.outcome.isTerminal = false := by
      by_contra hterminal
      have hmem : receipt ∈ store.terminals :=
        mem_filter.mpr ⟨hreceipt, by simpa using hterminal⟩
      obtain ⟨other, hother, hid, hdefinition, hposition⟩ := hqueue.receipts receipt hreceipt
      obtain rfl : other = fire := hqueue.eq_of_id hother hclaimable.stored (hid.trans hof)
      have hsettled := (hqueue.position_le_settled hmem).2
      rw [← hdefinition, ← hposition, hclaimable.head] at hsettled
      omega
    have hretry : receipt ∈ store.retriesOf fire.id := by
      unfold retriesOf
      simp [hreceipt, hof, hopen]
    obtain ⟨last, hlast⟩ : ∃ last, store.lastRetry fire.id = some last := exists_argmax_of_mem hretry
    have hlastMem := mem_filter.mp (argmax_mem hlast)
    obtain ⟨retryAt, hretryAt⟩ : ∃ retryAt, last.outcome.retryAt = some retryAt := by
      have hkind := hlastMem.2
      simp only [decide_eq_true_eq] at hkind
      exact exists_retryAt hkind.2
    have hwaited := hclaimable.retried last hlast retryAt hretryAt
    have hsecond := h.retries last hlastMem.1 retryAt hretryAt
    have horder := timeCreated_le_lastRetry hretry hlast
    omega

variable {leases : ControlLeaseTables}

lemma fireLeases_of_claim {fireID ownerID leaseID other : String}
    (hleases : leases.leases = store.leases.leases ++ [(fireAcquisition fireID ownerID leaseID now).lease]) :
    EventStore.fireLeases { store with leases := leases } other = store.fireLeases other ++
      if fireID = other then [(fireAcquisition fireID ownerID leaseID now).lease] else [] := by
  unfold fireLeases ofTarget
  rw [hleases, filter_append]
  split_ifs with h <;> simp [fireAcquisition, lease, h]

section

variable (h : FireLeaseInv store clock)

include h

lemma FireLeaseInv.claim (hqueue : QueueInv store) {ownerID leaseID : String}
    (hclaimable : Claimable store fire clock)
    (hleases : leases.leases = store.leases.leases ++ [(fireAcquisition fire.id ownerID leaseID clock).lease])
    (hfresh : ∀ lease ∈ store.leases.leases, lease.id ≠ leaseID) :
    FireLeaseInv { store with leases := leases } clock := by
  set granted := (fireAcquisition fire.id ownerID leaseID clock).lease with hgranted
  have hrows : ∀ other, fireLeases { store with leases := leases } other =
      store.fireLeases other ++ if fire.id = other then [granted] else [] := fun other =>
    fireLeases_of_claim hleases
  have hsplit : ∀ other lease,
      lease ∈ fireLeases { store with leases := leases } other →
      lease ∈ store.fireLeases other ∨ other = fire.id ∧ lease = granted := by
    intro other lease hlease
    rw [hrows] at hlease
    rcases mem_append.mp hlease with hold | hnew
    · exact Or.inl hold
    · split_ifs at hnew with hsame
      · exact Or.inr ⟨hsame.symm, mem_singleton.mp hnew⟩
      · cases hnew
  refine ⟨?_, ?_, ?_, ?_, ?_, h.retries, ?_⟩
  · have hall : (rowsOf leases .eventFire) =
        store.leases.rowsOf .eventFire ++ [granted] := by
      unfold rowsOf
      rw [hleases, filter_append]
      simp [hgranted, fireAcquisition, lease]
    rw [hall]
    exact h.ids.concat fun lease hlease => hfresh lease (mem_of_mem_filter hlease)
  · intro other
    rw [hrows]
    split_ifs with hsame
    · subst hsame
      exact (h.succeeding fire.id).concat fun lease hlease => h.before_claim hqueue hclaimable hlease
    · rw [List.append_nil]
      exact h.succeeding other
  · intro other lease hlease
    rcases hsplit other lease hlease with hold | ⟨-, rfl⟩
    · exact h.begun other lease hold
    · exact le_rfl
  · intro other lease hlease
    rcases hsplit other lease hlease with hold | ⟨-, rfl⟩
    · exact h.ended other lease hold
    · exact Or.inl (by
        simp only [hgranted, fireAcquisition, lease, FIRE_LEASE_MS]
        omega)
  · intro other hleased
    by_cases hsame : fire.id = other
    · exact ⟨fire, hclaimable.stored, hsame, hclaimable.head.le⟩
    · rw [hrows, if_neg hsame, List.append_nil] at hleased
      exact h.heads other hleased
  · intro receipt hreceipt
    rw [hrows]
    exact fun hnil => h.leased receipt hreceipt (append_eq_nil_iff.mp hnil).1

lemma FireLeaseInv.move (hheld : heldFireLease store fireID ownerID now = some lease)
    (hmoves : Moves store.leases leases lease.id)
    (hended : ∀ moved ∈ leases.ofTarget .eventFire fireID, moved.timeActivated < moved.expiresAt ∨
      ∃ receipt ∈ store.receipts, receipt.fireID = fireID ∧ moved.timeActivated ≤ receipt.timeCreated) :
    FireLeaseInv { store with leases := leases } clock := by
  obtain ⟨hcurrent, -⟩ := heldFireLease_eq_some.mp hheld
  have hother : ∀ other, other ≠ fireID →
      fireLeases { store with leases := leases } other = store.fireLeases other :=
    fun other hne => hmoves.ofTarget_other h.ids hcurrent rfl hne
  obtain ⟨f, hleases, hf⟩ := id hmoves
  have hmap : ∀ other, fireLeases { store with leases := leases } other =
      (store.fireLeases other).map f := fun other =>
    ofTarget_of_map hleases (fun row => (hf row).1) .eventFire other
  refine ⟨hmoves.primaryKey h.ids, hmoves.succeeding h.ids hcurrent rfl h.succeeding, ?_, ?_, ?_,
    h.retries, ?_⟩
  · intro other moved hmoved
    rw [hmap] at hmoved
    obtain ⟨row, hrow, rfl⟩ := List.mem_map.mp hmoved
    rw [(hf row).1.timeActivated]
    exact h.begun other row hrow
  · intro other moved hmoved
    by_cases hsame : other = fireID
    · subst hsame
      exact hended moved hmoved
    · rw [hother other hsame] at hmoved
      exact h.ended other moved hmoved
  · intro other hleased
    rw [hmap] at hleased
    exact h.heads other fun hnil => hleased (by rw [hnil, map_nil])
  · intro receipt hreceipt
    rw [hmap]
    exact fun hnil => h.leased receipt hreceipt (map_eq_nil_iff.mp hnil)

lemma FireLeaseInv.receipt (hqueue : QueueInv store) {receipt : EventJobFireReceipt}
    (hinserted : ReceiptInserted store receipt)
    (hretry : ∀ retryAt ∈ receipt.outcome.retryAt, receipt.timeCreated + 1000 ≤ retryAt)
    (hleased : store.fireLeases receipt.fireID ≠ []) :
    FireLeaseInv { store with receipts := store.receipts ++ [receipt] } clock := by
  have hmem : ∀ other ∈ store.receipts ++ [receipt], other ∈ store.receipts ∨ other = receipt := by
    intro other hother
    rwa [mem_append, mem_singleton] at hother
  refine ⟨h.ids, h.succeeding, h.begun, ?_, ?_, ?_, ?_⟩
  · intro fireID lease hlease
    rcases h.ended fireID lease hlease with hlonger | ⟨other, hother, hof⟩
    · exact Or.inl hlonger
    · exact Or.inr ⟨other, mem_append_left _ hother, hof⟩
  · intro fireID hfire
    obtain ⟨fire, hmemFire, hid, hle⟩ := h.heads fireID hfire
    refine ⟨fire, hmemFire, hid, hle.trans (Nat.add_le_add_right ?_ 1)⟩
    exact (Nat.le_add_right _ _).trans_eq (hqueue.settledPosition_concat hinserted rfl _).symm
  · intro other hother
    rcases hmem other hother with hold | rfl
    · exact h.retries other hold
    · exact hretry
  · intro other hother
    rcases hmem other hother with hold | rfl
    · exact h.leased other hold
    · exact hleased

/-- A settlement. -/
lemma FireLeaseInv.settle (hqueue : QueueInv store) {e : EventExecution} {receipt : EventJobFireReceipt}
    (hsettled : FireSettled e.fire e.ownerID receipt clock store store') (hfound : e.Settles clock receipt.outcome) :
    FireLeaseInv store' clock := by
  obtain ⟨_, _, hheld, hmoves, rfl⟩ := hsettled.held
  have hretry : ∀ retryAt ∈ receipt.outcome.retryAt, receipt.timeCreated + 1000 ≤ retryAt := by
    rw [hsettled.at_now]
    intro retryAt hretryAt
    cases houtcome : receipt.outcome with
    | retryWait instant =>
      rw [houtcome] at hretryAt hfound
      obtain rfl : instant = retryAt := Option.some.inj hretryAt
      exact hfound
    | succeeded | disposition => rw [houtcome] at hretryAt; cases hretryAt
  have hleased : store.fireLeases receipt.fireID ≠ [] := by
    rw [hsettled.of_fire.1]
    exact ne_nil_of_mem (mem_fireLeases_of_held hheld)
  have hwritten := h.receipt hqueue hsettled.inserted hretry hleased
  refine hwritten.move hheld hmoves fun moved hmoved => Or.inr ?_
  refine ⟨receipt, mem_append_right _ (mem_singleton_self _), hsettled.of_fire.1, ?_⟩
  obtain ⟨_, hleases, hf⟩ := hmoves
  rw [ofTarget_of_map hleases (fun row => (hf row).1)] at hmoved
  obtain ⟨row, hrow, rfl⟩ := List.mem_map.mp hmoved
  rw [(hf row).1.timeActivated, hsettled.at_now]
  exact h.begun _ row hrow

/-- A renewal. -/
lemma FireLeaseInv.renew (hheld : heldFireLease store fireID ownerID clock = some lease)
    (hmoves : Moves store.leases leases lease.id)
    (hlater : ∀ moved ∈ leases.leases, moved ∈ store.leases.leases ∨ clock < moved.expiresAt) :
    FireLeaseInv { store with leases := leases } clock := by
  refine h.move hheld hmoves fun moved hmoved => ?_
  have hmovedMem := mem_ofTarget.mp hmoved
  rcases hlater moved hmovedMem.1 with hold | hlive
  · exact h.ended fireID moved (mem_ofTarget.mpr ⟨hold, hmovedMem.2⟩)
  · obtain ⟨_, hleases, hf⟩ := hmoves
    rw [ofTarget_of_map hleases (fun row => (hf row).1)] at hmoved
    obtain ⟨row, hrow, rfl⟩ := List.mem_map.mp hmoved
    have hbegun := h.begun fireID row hrow
    rw [(hf row).1.timeActivated]
    exact Or.inl (hbegun.trans_lt hlive)

lemma FireLeaseInv.frame {clock' : ℤ} (hclock : clock ≤ clock') (hleases : store'.leases = store.leases)
    (hreceipts : store'.receipts = store.receipts) (hfires : ∀ fire ∈ store.fires, fire ∈ store'.fires) :
    FireLeaseInv store' clock' := by
  have hsame : ∀ fireID, store'.fireLeases fireID = store.fireLeases fireID := by
    intro fireID
    unfold fireLeases
    rw [hleases]
  have hsettled : ∀ definitionID, store'.settledPosition definitionID = store.settledPosition definitionID := by
    intro definitionID
    unfold settledPosition EventStore.terminals
    rw [hreceipts]
  refine ⟨?_, ?_, ?_, ?_, ?_, ?_, ?_⟩
  · rw [hleases]
    exact h.ids
  · intro fireID
    rw [hsame]
    exact h.succeeding fireID
  · intro fireID lease hlease
    rw [hsame] at hlease
    exact (h.begun fireID lease hlease).trans hclock
  · intro fireID lease hlease
    rw [hsame] at hlease
    rw [hreceipts]
    exact h.ended fireID lease hlease
  · intro fireID hleased
    rw [hsame] at hleased
    obtain ⟨fire, hfire, hid, hle⟩ := h.heads fireID hleased
    exact ⟨fire, hfires fire hfire, hid, hsettled _ ▸ hle⟩
  · rw [hreceipts]
    exact h.retries
  · intro receipt hreceipt
    rw [hreceipts] at hreceipt
    rw [hsame]
    exact h.leased receipt hreceipt

end

/-- Before anything was created. -/
lemma fireLeaseInv_initial (clock : ℤ) : FireLeaseInv (initialEventWorld clock).store clock := by
  refine ⟨?_, ?_, ?_, ?_, ?_, ?_, ?_⟩ <;>
    simp [initialEventWorld, fireLeases, ofTarget, rowsOf]

variable [EventPayloads] {w w' : EventWorld}

theorem FireLeaseInv.effect (h : FireLeaseInv w.store w.clock) (hqueue : QueueInv w.store)
    (heffect : EventEffect w w') : FireLeaseInv w'.store w'.clock := by
  cases heffect with
  | around hclock hstore =>
    refine h.frame hclock hstore.leases hstore.receipts fun fire hfire => ?_
    rw [hstore.fires]
    exact hfire
  | created | purged => exact h.frame le_rfl rfl rfl fun _ hfire => hfire
  | accepted haccepted =>
    obtain ⟨_, _, rfl, hfires⟩ := frame_of_acceptance haccepted
    exact h.frame le_rfl rfl rfl fun _ hfire => hfires.subset hfire
  | claimed hclaimable hleases hfresh => exact h.claim hqueue hclaimable hleases hfresh
  | renewed _ hheld hmoves hlater => exact h.renew hheld hmoves hlater
  | moved | decided | finished => exact h
  | @committed e _ _ _ hcommit =>
    have hcommit := (commitEventWake_eq_ok hcommit).1
    obtain ⟨_, hmessages⟩ := upsertMessage_frame w.store e.wakeMessage
    rw [hmessages] at hcommit
    subst hcommit
    exact h.frame le_rfl rfl rfl fun _ hfire => hfire
  | settled _ hsettled hfound => exact h.settle hqueue hsettled hfound

end OpenCorvus.Scheduler
