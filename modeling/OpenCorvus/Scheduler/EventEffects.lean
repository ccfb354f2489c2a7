import OpenCorvus.Engine.ControlLeaseSuccession
import OpenCorvus.Scheduler.EventService

/-!
# What the transactions of the Event service write

An acceptance inserts fires one by one, each at the position after the last fire of its definition.  A claim
takes the lease of a head, a settlement appends a receipt and ends the lease of its owner, and a commit of a
wake Message has found its owner to hold the live lease of a fire that is not settled.
-/

namespace OpenCorvus.Scheduler

open Transaction NumberedLanes UniqueIndex Engine Relation List Option EventStore

variable {store store' : EventStore}

variable {job : EventJob} {now : ℤ} {fireID ownerID receiptID : String} {lease : ControlLease}
  {receipt : EventJobFireReceipt} {fire : EventJobFireRow}

lemma insertJob_eq_ok (h : store.insertJob job = .ok store') :
    (∀ other ∈ store.jobs, other.id ≠ job.id) ∧ store' = { store with jobs := store.jobs ++ [job] } := by
  unfold insertJob at h
  rw [throwWhen_bind_eq_ok, throwWhen_bind_eq_ok, pure_eq_ok] at h
  obtain ⟨hfresh, -, hstore⟩ := h
  push Not at hfresh
  exact ⟨hfresh, hstore.symm⟩

lemma removeEventJob_eq_ok {id projectID tombstoneID : String} {removed : Bool}
    (h : removeEventJob store id projectID tombstoneID = .ok (removed, store')) :
    ∃ tombstones, store' = { store with tombstones := tombstones } := by
  unfold removeEventJob at h
  split at h
  · cases h
    exact ⟨_, rfl⟩
  · split_ifs at h
    · cases h
      exact ⟨_, rfl⟩
    · obtain ⟨_, hnext, hrest⟩ := bind_eq_ok.mp h
      unfold insertTombstone at hnext
      rw [throwWhen_bind_eq_ok, throwWhen_bind_eq_ok, pure_eq_ok] at hnext
      rw [pure_eq_ok] at hrest
      cases hrest
      exact ⟨_, hnext.2.2.symm⟩

structure JobsWellFormed (store : EventStore) : Prop where
  ids : PrimaryKey EventJob.id store.jobs
  definitions : ∀ job ∈ store.jobs, job.definitionID = job.id ∧ job.revision = 1

lemma JobsWellFormed.eq_of_definitionID (h : JobsWellFormed store) {other : EventJob}
    (hjob : job ∈ store.jobs) (hother : other ∈ store.jobs) (heq : job.definitionID = other.definitionID) :
    job = other := by
  refine h.ids.eq_of_id hjob hother ?_
  rw [← (h.definitions job hjob).1, ← (h.definitions other hother).1, heq]

lemma pairwise_definitionPage (h : JobsWellFormed store) (projectID : String) (after : Option String) :
    (currentEventDefinitionPageInTransaction store projectID after).1.Pairwise
      fun job other => job.definitionID ≠ other.definitionID := by
  have hkeys : (store.jobs.filter fun job => job.projectID = projectID ∧ job.IsCurrent store).Pairwise
      fun job other => job.definitionID ≠ other.definitionID := by
    refine Pairwise.sublist filter_sublist ?_
    have hids := h.ids.pairwise
    rw [pairwise_iff_forall_sublist] at hids ⊢
    intro job other hsub heq
    have hjob : job ∈ store.jobs := hsub.subset (by simp)
    have hother : other ∈ store.jobs := hsub.subset (by simp)
    exact hids hsub (congrArg EventJob.id (h.eq_of_definitionID hjob hother heq))
  unfold currentEventDefinitionPageInTransaction KeysetPagination.page KeysetPagination.following
  have hordered := KeysetPagination.pairwise_ordered (hkeys.sublist
    (filter_sublist (p := fun job => after.all fun cursor => cursor < job.definitionID)))
  exact ((hordered.sublist (take_sublist _ _)).sublist (take_sublist _ _)).imp fun hlt => hlt.ne

structure FireInserted (fire : EventJobFire) (store store' : EventStore) : Prop where
  definition : ∃ job ∈ store.jobs, job.id = fire.eventJobRevisionID ∧ job.definitionID = fire.definitionID
  occurrence : ∀ other ∈ store.fires, other.eventJobRevisionID = fire.eventJobRevisionID →
    other.eventOccurrenceID ≠ fire.eventOccurrenceID
  fresh : ∀ other ∈ store.fires, other.id ≠ fire.id
  position : fire.queuePosition = nextEventFireQueuePositionsInTransaction store fire.definitionID
  store_eq : store' = { store with fires := store.fires ++ [fire] }

def AcceptanceStep (store store' : EventStore) : Prop :=
  (∃ occurrences, store' = { store with occurrences := occurrences }) ∨ ∃ fire, FireInserted fire store store'

lemma AcceptanceStep.frame (h : AcceptanceStep store store') :
    ∃ occurrences fires, store' = { store with occurrences := occurrences, fires := fires } ∧
      store.fires <+: fires := by
  rcases h with ⟨occurrences, rfl⟩ | ⟨fire, hfire⟩
  · exact ⟨occurrences, store.fires, rfl, prefix_rfl⟩
  · exact ⟨store.occurrences, store.fires ++ [fire], hfire.store_eq, prefix_append _ _⟩

lemma frame_of_acceptance (h : ReflTransGen AcceptanceStep store store') :
    ∃ occurrences fires, store' = { store with occurrences := occurrences, fires := fires } ∧
      store.fires <+: fires := by
  induction h with
  | refl => exact ⟨store.occurrences, store.fires, rfl, prefix_rfl⟩
  | tail _ hstep ih =>
    obtain ⟨_, _, rfl, hfires⟩ := ih
    obtain ⟨occurrences', fires', rfl, hfires'⟩ := hstep.frame
    exact ⟨occurrences', fires', rfl, hfires.trans hfires'⟩

lemma insertFireIfAbsent_eq_ok {fire : EventJobFire} {inserted : Bool}
    (h : store.insertFireIfAbsent fire = .ok (inserted, store')) :
    inserted = false ∧ store' = store ∨ inserted = true ∧
        (fire.queuePosition = nextEventFireQueuePositionsInTransaction store fire.definitionID →
          FireInserted fire store store') := by
  unfold insertFireIfAbsent at h
  obtain ⟨definition, hdefinition, hrest⟩ := bind_eq_ok.mp h
  rw [getOrThrow_eq_ok] at hdefinition
  replace hrest := of_throwWhen hrest
  split_ifs at hrest with hsame
  · rw [pure_eq_ok, Prod.mk.injEq] at hrest
    exact Or.inl ⟨hrest.1.symm, hrest.2.symm⟩
  · rw [throwWhen_bind_eq_ok, throwWhen_bind_eq_ok, throwWhen_bind_eq_ok, pure_eq_ok, Prod.mk.injEq] at hrest
    obtain ⟨hid, -, -, hinserted, hstore⟩ := hrest
    push Not at hsame hid
    refine Or.inr ⟨hinserted.symm, fun hposition => ⟨?_, hsame, hid, hposition, hstore.symm⟩⟩
    have hfound := find?_some hdefinition
    simp only [decide_eq_true_eq] at hfound
    exact ⟨definition, mem_of_find?_eq_some hdefinition, hfound⟩

variable {causation : EventFireCausation}

lemma createFire_eq_ok {input : EventFireInput} {queuePosition : ℕ} {occurrenceID : String} {row : EventJobFireRow}
    (h : createFire store input job queuePosition occurrenceID causation now = .ok (row, store'))
    (hposition : queuePosition = nextEventFireQueuePositionsInTransaction store job.definitionID) :
    store' = store ∨ ∃ fire, fire.definitionID = job.definitionID ∧ FireInserted fire store store' := by
  unfold createFire at h
  obtain ⟨_, hrest⟩ := of_bind h
  obtain ⟨⟨inserted, _⟩, hinsert, hrest⟩ := bind_eq_ok.mp hrest
  have heffect := insertFireIfAbsent_eq_ok hinsert
  cases inserted with
  | true =>
    simp only [if_true] at hrest
    obtain ⟨_, hanswer⟩ := of_bind hrest
    rw [pure_eq_ok, Prod.mk.injEq] at hanswer
    obtain ⟨rfl, rfl⟩ := hanswer
    simp only [Bool.true_eq_false, false_and, true_and, false_or] at heffect
    exact Or.inr ⟨_, rfl, heffect hposition⟩
  | false =>
    simp only [Bool.false_eq_true, if_false] at hrest
    obtain ⟨_, hrest⟩ := of_bind hrest
    obtain ⟨_, hanswer⟩ := of_bind hrest
    rw [pure_eq_ok, Prod.mk.injEq] at hanswer
    exact Or.inl hanswer.2.symm

lemma foldlM_createFire_eq_ok {inputs : String → EventFireInput} {queuePosition : String → ℕ}
    {occurrenceID : String} {jobs : List EventJob} {accepted rows : List EventJobFireRow}
    (hjobs : jobs.Pairwise fun job other => job.definitionID ≠ other.definitionID)
    (hpositions : ∀ job ∈ jobs,
      queuePosition job.definitionID = nextEventFireQueuePositionsInTransaction store job.definitionID)
    (h : jobs.foldlM (fun (accepted, written) job => do
        let (row, written) ← createFire written (inputs job.id) job (queuePosition job.definitionID)
          occurrenceID causation now
        return (accepted ++ [row], written)) (accepted, store) = .ok (rows, store')) :
    ReflTransGen AcceptanceStep store store' := by
  induction jobs generalizing store accepted with
  | nil =>
    rw [foldlM_nil, pure_eq_ok, Prod.mk.injEq] at h
    rw [h.2]
  | cons _ _ ih =>
    rw [foldlM_cons] at h
    obtain ⟨⟨_, _⟩, hfirst, hrest⟩ := bind_eq_ok.mp h
    obtain ⟨⟨_, _⟩, hcreate, hanswer⟩ := bind_eq_ok.mp hfirst
    rw [pure_eq_ok, Prod.mk.injEq] at hanswer
    obtain ⟨rfl, rfl⟩ := hanswer
    obtain ⟨hjob, hjobs⟩ := pairwise_cons.mp hjobs
    obtain ⟨hposition, hpositions⟩ := forall_mem_cons.mp hpositions
    rcases createFire_eq_ok hcreate hposition with rfl | ⟨fire, hdefinition, hinserted⟩
    · exact ih hjobs hpositions hrest
    · refine ReflTransGen.head (Or.inr ⟨fire, hinserted⟩) (ih hjobs (fun other hother => ?_) hrest)
      rw [hpositions other hother, hinserted.store_eq]
      unfold nextEventFireQueuePositionsInTransaction
      rw [frontier_concat_of_ne]
      rw [hdefinition]
      exact hjob other hother

section Acceptance

variable [EventPayloads]

lemma insertOccurrence_eq_ok {occurrence : EventOccurrence}
    (h : store.insertOccurrence occurrence = .ok store') :
    ∃ occurrences, store' = { store with occurrences := occurrences } := by
  unfold insertOccurrence at h
  split at h
  · cases h
    exact ⟨_, rfl⟩
  · have hstore := of_throwWhen h
    rw [pure_eq_ok] at hstore
    exact ⟨_, hstore.symm⟩

variable {projectID : String} {event : EventEnvelope} {inputs : String → EventFireInput} {now : ℤ}

lemma createFires_eq_ok {jobs : List EventJob} {causation : EventFireCausation} {rows : List EventJobFireRow}
    (hjobs : jobs.Pairwise fun job other => job.definitionID ≠ other.definitionID)
    (h : createFires store projectID event jobs inputs causation now = .ok (rows, store')) :
    ReflTransGen AcceptanceStep store store' := by
  unfold createFires at h
  obtain ⟨_, hoccurred, hrest⟩ := bind_eq_ok.mp h
  exact ReflTransGen.head (Or.inl (insertOccurrence_eq_ok hoccurred))
    (foldlM_createFire_eq_ok hjobs (fun _ _ => rfl) hrest)

lemma acceptPage_eq_ok {page : List EventJob} {acceptance next : EventAcceptance}
    (hpage : page.Pairwise fun job other => job.definitionID ≠ other.definitionID)
    (h : acceptPage projectID event inputs now page acceptance = .ok next) :
    ReflTransGen AcceptanceStep acceptance.store next.store := by
  unfold acceptPage at h
  split at h
  · cases h
    rfl
  · rename_i hjobs
    obtain ⟨_, hrest⟩ := of_bind h
    obtain ⟨⟨_, _⟩, hcreate, hanswer⟩ := bind_eq_ok.mp hrest
    rw [pure_eq_ok] at hanswer
    rw [← hanswer]
    exact createFires_eq_ok (hpage.sublist filter_sublist) hcreate

theorem accept_eq_ok (hjobs : JobsWellFormed store) {acceptance : EventAcceptance}
    (h : accept store projectID event inputs now = .ok acceptance) :
    ReflTransGen AcceptanceStep store acceptance.store := by
  have hpages : ∀ fuel after (current next : EventAcceptance), JobsWellFormed current.store →
      acceptPages projectID event inputs now fuel after current = .ok next →
      ReflTransGen AcceptanceStep current.store next.store := by
    intro fuel
    induction fuel with
    | zero => intro _ _ _ _ h; cases h
    | succ _ ih =>
      intro after current next hcurrent h
      unfold acceptPages at h
      obtain ⟨_, haccept, hrest⟩ := bind_eq_ok.mp h
      have hfirst := acceptPage_eq_ok (pairwise_definitionPage hcurrent projectID after) haccept
      split_ifs at hrest
      · obtain ⟨_, hrest⟩ := of_bind hrest
        obtain ⟨_, _, hstore, -⟩ := frame_of_acceptance hfirst
        refine hfirst.trans (ih _ _ _ ?_ hrest)
        rw [hstore]
        exact ⟨hcurrent.ids, hcurrent.definitions⟩
      · rw [pure_eq_ok] at hrest
        rw [← hrest]
        exact hfirst
  unfold accept at h
  split_ifs at h
  · cases h
    rfl
  · exact hpages _ _ _ _ hjobs h

end Acceptance

def EventStore.targetOf (store : EventStore) (fire : EventJobFire) : Option String :=
  (store.findJob fire.eventJobRevisionID).bind fun definition =>
    definition.sessionID.or fire.createdSessionID

lemma projectEventFire_eq_ok {fire : EventJobFire} {row : EventJobFireRow}
    (h : projectEventFireInTransaction store fire now = .ok row) :
    row.toEventJobFire = fire ∧ store.targetOf fire = some row.targetSessionID ∧
      row.status = fireStatus ((currentEventFireReceiptInTransaction store fire.id).map (·.outcome))
        (currentControlLeaseInTransaction store.leases .eventFire fire.id) now ∧
      row.ownerID = (currentControlLeaseInTransaction store.leases .eventFire fire.id).map
        ControlLease.ownerOccurrenceID := by
  unfold projectEventFireInTransaction at h
  obtain ⟨_, hdefinition, h⟩ := bind_eq_ok.mp h
  obtain ⟨_, h⟩ := of_bind h
  obtain ⟨_, h⟩ := of_bind h
  replace h := of_throwWhen h
  obtain ⟨_, htarget, h⟩ := bind_eq_ok.mp h
  obtain ⟨_, h⟩ := of_bind h
  obtain ⟨_, h⟩ := of_bind h
  replace h := of_throwWhen h
  rw [getOrThrow_eq_ok] at hdefinition htarget
  rw [pure_eq_ok] at h
  rw [← h]
  refine ⟨rfl, ?_, rfl, rfl⟩
  unfold targetOf
  rw [hdefinition, bind_some, htarget]
  rfl

lemma heldFireLease_eq_some : heldFireLease store fireID ownerID now = some lease ↔
      currentControlLeaseInTransaction store.leases .eventFire fireID = some lease ∧
        lease.ownerOccurrenceID = ownerID ∧ now < lease.expiresAt := by
  unfold heldFireLease
  rw [filter_eq_some_iff]
  simp

lemma terminalOf_eq_some (h : store.terminalOf fireID = some receipt) :
    receipt ∈ store.receipts ∧ receipt.outcome.isTerminal = true ∧ receipt.fireID = fireID := by
  have hmem := mem_filter.mp (mem_of_find?_eq_some h)
  have hid := find?_some h
  simp only [decide_eq_true_eq] at hid
  exact ⟨hmem.1, hmem.2, hid⟩

lemma terminalOf_eq_none (h : store.terminalOf fireID = none) (hreceipt : receipt ∈ store.terminals) :
    receipt.fireID ≠ fireID := by
  have hnone := find?_eq_none.mp h receipt hreceipt
  simpa using hnone

structure Claimable (store : EventStore) (fire : EventJobFire) (now : ℤ) : Prop where
  stored : fire ∈ store.fires
  head : fire.queuePosition = store.settledPosition fire.definitionID + 1
  retried : ∀ receipt ∈ store.lastRetry fire.id, ∀ retryAt ∈ receipt.outcome.retryAt, retryAt ≤ now
  expired : ∀ lease ∈ currentControlLeaseInTransaction store.leases .eventFire fire.id, lease.expiresAt ≤ now

lemma claimableEventFire_eq_some (hids : PrimaryKey EventJobFire.id store.fires) {fire : EventJobFire}
    (h : claimableEventFire store fireID now = some fire) : fire.id = fireID ∧ Claimable store fire now := by
  unfold claimableEventFire at h
  obtain ⟨row, hrow, h⟩ := bind_eq_some_iff.mp h
  obtain ⟨_, -, h⟩ := bind_eq_some_iff.mp h
  obtain ⟨head, hhead, h⟩ := bind_eq_some_iff.mp h
  split_ifs at h with hstatus
  obtain rfl : row = fire := some.inj h
  have hid : row.id = fireID := by simpa using find?_some hrow
  have hmem : row ∈ store.fires := mem_of_find?_eq_some hrow
  unfold currentEventFireHeadForOccurrenceInTransaction at hhead
  obtain ⟨row', hrow', hhead⟩ := bind_eq_some_iff.mp hhead
  obtain ⟨_, -, hhead⟩ := bind_eq_some_iff.mp hhead
  obtain rfl : row = row' := some.inj (hrow.symm.trans hrow')
  split_ifs at hhead
  obtain ⟨found, hfound, hhead⟩ := bind_eq_some_iff.mp hhead
  split_ifs at hhead with hsame
  obtain rfl : found = head := some.inj hhead
  unfold projectEventFireHeadsInTransaction at hfound
  obtain ⟨first, hfirst, rfl⟩ := map_eq_some_iff.mp hfound
  have hposition := find?_some hfirst
  simp only [decide_eq_true_eq] at hposition hsame
  obtain rfl : first = row :=
    hids.eq_of_id (mem_of_find?_eq_some hfirst) hmem (hsame.trans hid.symm)
  simp only [headStatus] at hstatus
  refine ⟨hid, hmem, hposition.2, ?_, ?_⟩
  · rintro _ hreceipt _ hretryAt
    rw [mem_def] at hreceipt hretryAt
    simp only [hreceipt, bind_some, hretryAt, getD_some] at hstatus
    by_contra hlt
    rw [if_pos (not_le.mp hlt)] at hstatus
    cases hstatus
  · rintro _ hlease
    rw [mem_def] at hlease
    by_contra hlt
    simp only [hlease, mem_def, some.injEq, exists_eq_left', not_le.mp hlt, if_true] at hstatus
    split_ifs at hstatus

lemma claimFire_eq_ok (hids : PrimaryKey EventJobFire.id store.fires) {leaseID : String}
    {claimed : Option EventJobFireRow}
    (h : claimFire store fireID ownerID leaseID now = .ok (claimed, store')) :
    claimed = none ∧ store' = store ∨
      ∃ row leases, claimed = some row ∧ row.id = fireID ∧ Claimable store row.toEventJobFire now ∧
        store' = { store with leases := leases } ∧
        leases.leases = store.leases.leases ++ [(fireAcquisition fireID ownerID leaseID now).lease] ∧
        (∀ lease ∈ store.leases.leases, lease.id ≠ leaseID) ∧
        store.targetOf row.toEventJobFire = some row.targetSessionID := by
  unfold claimFire at h
  split at h
  · cases h
    exact Or.inl ⟨rfl, rfl⟩
  · rename_i fire hfire
    obtain ⟨hid, hclaimable⟩ := claimableEventFire_eq_some hids hfire
    obtain ⟨⟨_, leases⟩, hacquired, h⟩ := bind_eq_ok.mp h
    unfold leasingFire at hacquired
    rw [mapError_eq_ok] at hacquired
    dsimp only at h
    split_ifs at h with htaken
    · obtain ⟨row, hrow, h⟩ := bind_eq_ok.mp h
      rw [pure_eq_ok, Prod.mk.injEq] at h
      obtain ⟨hfields, htarget, -⟩ := projectEventFire_eq_ok hrow
      refine Or.inr ⟨row, leases, h.1.symm, ?_, ?_, h.2.symm, ?_⟩
      · rw [hfields, hid]
      · rw [hfields]
        exact hclaimable
      · rcases acquireControlLease_eq_ok hacquired with ⟨_, -, -, rfl, -⟩ | ⟨-, hleases, -, -, hfresh, -⟩
        · cases htaken
        · exact ⟨hleases, hfresh, hfields ▸ htarget⟩
    · rw [pure_eq_ok, Prod.mk.injEq] at h
      exact Or.inl ⟨h.1.symm, h.2.symm⟩

lemma renewFireLease_eq_ok {renewed : Bool}
    (h : renewFireLease store fireID ownerID now = .ok (renewed, store')) :
    store' = store ∨ ∃ lease leases, heldFireLease store fireID ownerID now = some lease ∧
      store' = { store with leases := leases } ∧ Moves store.leases leases lease.id ∧
      ∀ moved ∈ leases.leases, moved ∈ store.leases.leases ∨ now < moved.expiresAt := by
  unfold renewFireLease at h
  split at h
  · cases h
    exact Or.inl rfl
  · rename_i lease hlease
    obtain ⟨leases, hrenewed, hanswer⟩ := bind_eq_ok.mp h
    unfold leasingFire at hrenewed
    rw [mapError_eq_ok] at hrenewed
    rw [pure_eq_ok, Prod.mk.injEq] at hanswer
    refine Or.inr ⟨lease, leases, hlease, hanswer.2.symm, (renew_moves hrenewed).1, ?_⟩
    obtain ⟨hlater, _, -, -, hleases⟩ := renewControlLease_eq_ok hrenewed
    intro moved hmoved
    rw [hleases] at hmoved
    obtain ⟨_, hrow, rfl⟩ := List.mem_map.mp hmoved
    split_ifs
    · exact Or.inr hlater
    · exact Or.inl hrow

lemma releaseFireLease_moves (hheld : heldFireLease store fireID ownerID now = some lease) :
    ∃ leases, store.releaseFireLease fireID lease.id ownerID now = { store with leases := leases } ∧
      Moves store.leases leases lease.id := by
  obtain ⟨hcurrent, howner, hlive⟩ := heldFireLease_eq_some.mp hheld
  have hreleased : (releaseControlLeaseInTransaction store.leases
      (fireLeaseClaim fireID lease.id ownerID now)).1 = true :=
    releaseControlLease_fst.mpr ⟨lease, hcurrent, rfl, howner, hlive⟩
  exact ⟨_, rfl, (release_moves (Prod.ext hreleased rfl)).1⟩

structure ReceiptInserted (store : EventStore) (receipt : EventJobFireReceipt) : Prop where
  fire : ∃ fire ∈ store.fires, fire.id = receipt.fireID ∧ fire.definitionID = receipt.definitionID ∧
    fire.queuePosition = receipt.queuePosition
  head : receipt.outcome.isTerminal = true → receipt.queuePosition = store.settledPosition receipt.definitionID + 1

lemma insertReceipt_eq_ok (h : store.insertReceipt receipt = .ok store') :
    ReceiptInserted store receipt ∧ store' = { store with receipts := store.receipts ++ [receipt] } := by
  unfold insertReceipt at h
  obtain ⟨fire, hfire, h⟩ := bind_eq_ok.mp h
  rw [getOrThrow_eq_ok] at hfire
  obtain ⟨hhead, h⟩ := throwWhen_bind_eq_ok.mp h
  replace h := of_throwWhen h
  replace h := of_throwWhen h
  replace h := of_throwWhen h
  replace h := of_throwWhen h
  rw [pure_eq_ok] at h
  push Not at hhead
  have hfound := find?_some hfire
  simp only [decide_eq_true_eq] at hfound
  exact ⟨⟨⟨fire, mem_of_find?_eq_some hfire, hfound⟩, hhead⟩, h.symm⟩

structure FireSettled (fire : EventJobFireRow) (ownerID : String) (receipt : EventJobFireReceipt)
    (now : ℤ) (store store' : EventStore) : Prop where
  held : ∃ lease leases, heldFireLease store fire.id ownerID now = some lease ∧
    Moves store.leases leases lease.id ∧
    store' = { store with receipts := store.receipts ++ [receipt], leases := leases }
  inserted : ReceiptInserted store receipt
  of_fire : receipt.fireID = fire.id ∧ receipt.definitionID = fire.definitionID ∧
    receipt.queuePosition = fire.queuePosition
  at_now : receipt.timeCreated = now

lemma settleFire_eq_ok {outcome : EventReceiptOutcome}
    (hheld : heldFireLease store fire.id ownerID now = some lease)
    (h : settleFire store fire lease ownerID receiptID outcome now = .ok store') :
    FireSettled fire ownerID (fireReceipt fire receiptID outcome now) now store store' := by
  obtain ⟨_, hwritten, h⟩ := bind_eq_ok.mp h
  obtain ⟨hinserted, rfl⟩ := insertReceipt_eq_ok hwritten
  rw [pure_eq_ok] at h
  have hstill : heldFireLease { store with
      receipts := store.receipts ++ [fireReceipt fire receiptID outcome now] } fire.id ownerID now =
        some lease := hheld
  obtain ⟨leases, hreleased, hmoves⟩ := releaseFireLease_moves hstill
  exact ⟨⟨lease, leases, hheld, hmoves, h.symm.trans hreleased⟩, hinserted, ⟨rfl, rfl, rfl⟩, rfl⟩

lemma settleSuccess_eq_ok {sessionID messageID : String}
    (h : settleSuccess store fire ownerID sessionID messageID receiptID now = .ok store') :
    store' = store ∨
      FireSettled fire ownerID (fireReceipt fire receiptID (.succeeded messageID) now) now store store' := by
  unfold settleSuccess at h
  split at h
  · rw [throwWhen_bind_eq_ok, pure_eq_ok] at h
    exact Or.inl h.2.symm
  · obtain ⟨_, hlease, h⟩ := bind_eq_ok.mp h
    rw [getOrThrow_eq_ok] at hlease
    replace h := of_throwWhen h
    exact Or.inr (settleFire_eq_ok hlease h)

lemma settleDisposition_eq_ok {reason : EventDisposition} {error : Option String} {settled : Bool}
    (h : settleDisposition store fire ownerID reason error receiptID now = .ok (settled, store')) :
    store' = store ∨ FireSettled fire ownerID (fireReceipt fire receiptID (.disposition reason error) now) now
        store store' := by
  unfold settleDisposition at h
  split at h
  · rw [throwWhen_bind_eq_ok, pure_eq_ok, Prod.mk.injEq] at h
    exact Or.inl h.2.2.symm
  · split at h
    · cases h
      exact Or.inl rfl
    · rename_i hlease
      obtain ⟨_, hwritten, h⟩ := bind_eq_ok.mp h
      rw [pure_eq_ok, Prod.mk.injEq] at h
      exact Or.inr (h.2 ▸ settleFire_eq_ok hlease hwritten)

lemma scheduleRetry_eq_ok {message : String} {settled : Bool}
    (h : scheduleRetry store fire ownerID message receiptID now = .ok (settled, store')) :
    store' = store ∨ FireSettled fire ownerID
        (fireReceipt fire receiptID (.retryWait (fireRetryAt fire.attempt now) message) now) now
        store store' := by
  unfold scheduleRetry at h
  split at h
  · cases h
    exact Or.inl rfl
  · rename_i hlease
    obtain ⟨_, hwritten, h⟩ := bind_eq_ok.mp h
    rw [pure_eq_ok, Prod.mk.injEq] at h
    exact Or.inr (h.2 ▸ settleFire_eq_ok hlease hwritten)

lemma add_le_fireRetryAt (attempt : ℕ) (now : ℤ) : now + 1000 ≤ fireRetryAt attempt now := by
  have hpow : (0 : ℤ) < 2 ^ min 16 (attempt - 1) := Int.pow_pos (by decide)
  unfold fireRetryAt FIRE_RETRY_MAX_MS FIRE_RETRY_BASE_MS
  omega

lemma fenceEventWakeCommit_eq_ok {sessionID : String} {u : Unit}
    (h : fenceEventWakeCommit store fireID ownerID sessionID now = .ok u) :
    store.terminalOf fireID = none ∧ ∃ lease, heldFireLease store fireID ownerID now = some lease := by
  unfold fenceEventWakeCommit at h
  obtain ⟨row, hrow, h⟩ := bind_eq_ok.mp h
  obtain ⟨_, hauthority, h⟩ := bind_eq_ok.mp h
  rw [getOrThrow_eq_ok] at hrow
  rw [throwWhen_eq_ok] at h
  push Not at h
  obtain ⟨hstatus, howner, -, -⟩ := h
  have hid : row.id = fireID := by simpa using find?_some hrow
  obtain ⟨-, -, hrunning, hownerID⟩ := projectEventFire_eq_ok hauthority
  rw [hid] at hrunning hownerID
  rw [hstatus] at hrunning
  have hopen : store.terminalOf fireID = none := by
    cases hterminal : store.terminalOf fireID with
    | none => rfl
    | some terminal =>
      have hsettles := (terminalOf_eq_some hterminal).2.1
      simp only [currentEventFireReceiptInTransaction, hterminal, map_some] at hrunning
      cases houtcome : terminal.outcome with
      | retryWait => rw [houtcome] at hsettles; cases hsettles
      | succeeded | disposition => rw [houtcome] at hrunning; cases hrunning
  refine ⟨hopen, ?_⟩
  rw [howner] at hownerID
  obtain ⟨lease, hlease, hleaseOwner⟩ := map_eq_some_iff.mp hownerID.symm
  refine ⟨lease, heldFireLease_eq_some.mpr ⟨hlease, hleaseOwner, ?_⟩⟩
  by_contra hexpired
  unfold fireStatus at hrunning
  simp only [hlease, mem_def, some.injEq, exists_eq_left', hexpired, if_false] at hrunning
  split at hrunning
  · cases hrunning
  · cases hrunning
  · split_ifs at hrunning

end OpenCorvus.Scheduler
