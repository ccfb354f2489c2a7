import OpenCorvus.Scheduler.AutomationWrites
import OpenCorvus.Scheduler.AutomationWorld

/-!
# The transactions as writes

Each transaction of the service is a sequence of writes, whose guards follow from what the transaction has
read and checked.
-/

namespace OpenCorvus.Scheduler

open Transaction UniqueIndex Engine List Option StoreWrite

/-! ## Leases -/

section Leases

variable {now : ℤ} {db : AutomationDatabase} {leases : ControlLeaseTables} {definitionID : String}

section

variable (hids : PrimaryKey ControlLease.id (db.leases.rowsOf .automation))

include hids

lemma leaseExchange_release {leaseID owner : String} {at_ : ℤ} : LeaseExchange now db
      (releaseControlLeaseInTransaction db.leases ⟨.automation, definitionID, leaseID, owner, at_⟩).2
      definitionID := by
  cases hreleased : releaseControlLeaseInTransaction db.leases
      ⟨.automation, definitionID, leaseID, owner, at_⟩ with
  | mk released after =>
    cases released with
    | false =>
      have hsame : after = db.leases := releaseControlLease_of_false hreleased
      subst hsame
      exact ⟨hids, fun _ _ => rfl, .inl⟩
    | true =>
      obtain ⟨hmoves, current, hcurrent, hholds⟩ := release_moves hreleased
      refine ⟨hmoves.primaryKey hids, fun other hne => ?_, fun hlive => ?_⟩
      · have hkept := hmoves.ofTarget_other hids hcurrent hholds.1 hne
        unfold automationLease currentControlLeaseInTransaction
        rw [hkept]
      · obtain ⟨last, hlast, -, hafter⟩ := currentControlLease_of_release hreleased
        obtain ⟨lease, hlease, hnow⟩ := hlive
        have hexpired : lease = { last with expiresAt := at_ } :=
          some.inj (mem_def.mp hlease ▸ hafter)
        have heq : last = current := some.inj (hlast ▸ hcurrent)
        subst heq hexpired
        have hheld : at_ < last.expiresAt := hholds.2.2
        dsimp only at hnow
        exact .inl ⟨last, hlast, by omega⟩

/-- So does a renewal. -/
lemma leaseExchange_renew {leaseID owner : String} {expiresAt : ℤ}
    (h : renewControlLeaseInTransaction db.leases ⟨.automation, definitionID, leaseID, owner, now⟩ expiresAt =
      .ok leases) : LeaseExchange now db leases definitionID := by
  obtain ⟨hmoves, current, hcurrent, hholds⟩ := renew_moves h
  refine ⟨hmoves.primaryKey hids, fun other hne => ?_, fun _ => .inl ⟨current, hcurrent, hholds.2.2⟩⟩
  have hkept := hmoves.ofTarget_other hids hcurrent hholds.1 hne
  unfold automationLease currentControlLeaseInTransaction
  rw [hkept]

lemma leaseExchange_acquire {owner leaseID : String} {leaseMilliseconds : ℤ} {result : ControlLeaseAcquisition}
    (h : acquireControlLeaseInTransaction db.leases
      (automationLeaseInput definitionID owner leaseID now leaseMilliseconds) = .ok (result, leases))
    (hleasable : Leasable db definitionID) : LeaseExchange now db leases definitionID := by
  rcases acquireControlLease_eq_ok h with ⟨_, -, -, -, rfl⟩ | ⟨rfl, -⟩
  · exact ⟨hids, fun _ _ => rfl, .inl⟩
  · obtain ⟨hunique, hothers⟩ := acquire_effect h hids
    refine ⟨hunique, fun other hne => ?_, fun _ => .inr hleasable⟩
    have hkept := hothers other hne
    unfold automationLease currentControlLeaseInTransaction
    exact congrArg (List.argmax ControlLease.orderKey) hkept

end

end Leases

/-! ## Shared parts -/

section Parts

variable [AutomationHashes] {now : ℤ} {woken : String → Prop} {store store' : AutomationStore}

lemma StoreWrite.writes (h : StoreWrite now woken store store') : Writes now woken store store' :=
  Relation.ReflTransGen.single h

lemma Writes.trans {store'' : AutomationStore} (h : Writes now woken store store')
    (h' : Writes now woken store' store'') : Writes now woken store store'' :=
  Relation.ReflTransGen.trans h h'

variable {at_ : ℤ} {row : AutomationDefinition}

lemma releaseAutomationLease_writes (hids : PrimaryKey ControlLease.id (store.leases.rowsOf .automation))
    {definitionID leaseID owner : String} :
    Writes now woken store (releaseAutomationLease store definitionID leaseID owner at_) :=
  (leases store _ definitionID (leaseExchange_release hids)).writes

lemma frontiers_writes (frontiers : List AutomationFireFrontier) :
    Writes now woken store { store with frontiers := frontiers } :=
  (aside store { store with frontiers := frontiers }).writes

lemma appendAutomationTombstone_writes {id : String}
    (h : appendAutomationTombstoneInTransaction store row id = .ok store') :
    Writes now woken store store' := by
  obtain ⟨-, rfl⟩ := appendAutomationTombstone_eq_ok.mp h
  exact (tombstone store ⟨id, row.definitionID, row.revision + 1⟩).writes.trans (frontiers_writes _)

lemma insertRunReceipt_writes {receipt : AutomationRunReceipt}
    (hwoken : receipt.outcome = .succeeded → woken receipt.runID)
    (h : store.insertRunReceipt receipt = .ok store') : Writes now woken store store' := by
  obtain ⟨hmay, rfl⟩ := insertRunReceipt_eq_ok.mp h
  exact (runReceipt store receipt hmay hwoken).writes

/-- And so are several. -/
lemma insertRunReceipts_writes {receipts : List AutomationRunReceipt}
    (hwoken : ∀ receipt ∈ receipts, receipt.outcome = .succeeded → woken receipt.runID)
    (h : insertRunReceipts receipts store = .ok store') : Writes now woken store store' := by
  induction receipts generalizing store with
  | nil =>
    rw [insertRunReceipts, Except.ok.injEq] at h
    exact h ▸ .refl
  | cons _ _ ih =>
    rw [insertRunReceipts, bind_eq_ok] at h
    obtain ⟨_, hnext, hrest⟩ := h
    obtain ⟨hfirst, hothers⟩ := forall_mem_cons.mp hwoken
    exact (insertRunReceipt_writes hfirst hnext).trans (ih hothers hrest)

lemma insertAttemptReceipt_writes {receipt : AutomationFireAttemptReceipt}
    (h : store.insertAttemptReceipt receipt = .ok store') : Writes now woken store store' := by
  obtain ⟨-, -, rfl⟩ := insertAttemptReceipt_eq_ok.mp h
  exact (attemptReceipt store receipt).writes

lemma ensureScheduledFrontier_writes {definition : AutomationDefinition} {due : Option ℤ}
    (hdefinition : definition ∈ store.definitions)
    (h : ensureScheduledAutomationFireFrontierInTransaction store definition due at_ = .ok store') :
    Writes now woken store store' := by
  rcases ensureScheduledFrontier_eq_ok h with
    ⟨-, rfl⟩ | ⟨dueAt, fire, -, -, hdue, -, -, -, -, rfl⟩
  · exact frontiers_writes _
  · have hinsert : Writes now woken store (store.insertFireIfAbsent (scheduledFire definition dueAt at_)) := by
      unfold AutomationStore.insertFireIfAbsent
      split_ifs
      · exact .refl
      · exact (StoreWrite.fire store (scheduledFire definition dueAt at_) definition hdefinition rfl
          fun _ => ⟨rfl, hdue⟩).writes
    exact hinsert.trans (frontiers_writes _)

lemma ensureAutomationFire_writes {fireID : String} {due : ℤ} {origin : AutomationFireOrigin}
    (hrow : row ∈ store.definitions) (hknown : store.findFire fireID = none → ¬row.IsDelay)
    (h : ensureAutomationFireInTransaction store row.id fireID due at_ origin = .ok store') :
    Writes now woken store store' := by
  rcases (ensureAutomationFire_eq_ok h).2 with rfl | ⟨hnone, -, rfl⟩
  · exact .refl
  · exact (fire store ⟨fireID, row.id, due, origin, at_⟩ row hrow rfl fun hdelay =>
      absurd hdelay (hknown hnone)).writes

lemma reserveAutomationFireAttempt_writes {fireID owner : String}
    (h : reserveAutomationFireAttemptInTransaction store fireID owner at_ = .ok store') :
    Writes now woken store store' := by
  obtain ⟨fire, _, settled, admission, hfire, -, -, hsettled, rfl⟩ :=
    reserveAutomationFireAttempt_eq_ok h
  have hsettle : Writes now woken store settled ∧ settled.fires = store.fires := by
    rcases settleLatestAttempt_eq_ok hsettled with ⟨rfl, -⟩ | ⟨_, _, -, hreceipt⟩
    · exact ⟨.refl, rfl⟩
    · refine ⟨insertAttemptReceipt_writes hreceipt, ?_⟩
      obtain ⟨-, -, rfl⟩ := insertAttemptReceipt_eq_ok.mp hreceipt
      rfl
  have hexists : ∃ fire ∈ settled.fires, fire.id = fireID := by
    rw [hsettle.2]
    exact ⟨fire, mem_of_find?_eq_some hfire, by simpa using find?_some hfire⟩
  have hattempt : StoreWrite now woken settled { settled with
      attempts := settled.attempts ++ [nextAttempt store.toAutomationDatabase fireID] } :=
    .attempt settled (nextAttempt store.toAutomationDatabase fireID) hexists
  exact hsettle.1.trans (hattempt.writes.trans
    (aside _ { settled with admissions := settled.admissions ++ [admission] }).writes)

omit [AutomationHashes] in
lemma leasable_of_latest {db : AutomationDatabase} {definitionID : String}
    (h : latestAutomationDefinitionInTransaction db definitionID = some row) : Leasable db definitionID := by
  obtain ⟨hcurrent, hof⟩ := latestAutomationDefinition_mem h
  exact ⟨row, (mem_current.mp hcurrent).1, hof, fun _ => h⟩

end Parts

/-! ## Definitions and claims -/

section Service

variable [AutomationHashes] {now : ℤ} {woken : String → Prop} {store store' : AutomationStore}

variable {at_ : ℤ} {persisted : AutomationDefinition} {input : ClaimInput} {job : Option AutomationRow}
  {fire : AutomationFire} {reserved : Option ManualToolClaim}

variable {definition : AutomationDefinition}

lemma ensureScheduledFrontier_definitions {due : Option ℤ}
    (h : ensureScheduledAutomationFireFrontierInTransaction store definition due at_ = .ok store') :
    store'.definitions = store.definitions := by
  rcases ensureScheduledFrontier_eq_ok h with ⟨-, rfl⟩ | ⟨_, _, -, -, -, -, -, -, -, rfl⟩
  · rfl
  · unfold AutomationStore.setFrontier AutomationStore.insertFireIfAbsent
    split_ifs <;> rfl

lemma mayDefine_first (hinv : StoreInv now store) {row : AutomationDefinition} (hfirst : row.revision = 1)
    (hids : PrimaryKey AutomationDefinition.id (store.definitions ++ [row]))
    (hrevisions : PrimaryKey (fun row : AutomationDefinition => (row.definitionID, row.revision))
      (store.definitions ++ [row])) :
    (∀ other ∈ store.definitions, other.id ≠ row.id) ∧ MayDefine store.toAutomationDatabase row := by
  have hnew : row ∈ store.definitions ++ [row] := mem_append_right _ (mem_singleton_self row)
  have hid : ∀ other ∈ store.definitions, other.id ≠ row.id := by
    unfold PrimaryKey at hids
    rw [map_append, nodup_append] at hids
    intro other hother
    exact hids.2.2 other.id (List.mem_map_of_mem hother) row.id (by simp)
  refine ⟨hid, .inl ⟨fun other hother hsame => ?_, hfirst⟩⟩
  obtain ⟨first, hmem, hof, hone⟩ := hinv.first other hother
  have heq : first = row := hrevisions.eq_of_id (mem_append_left _ hmem) hnew
    (Prod.ext (hof.trans hsame) (hone.trans hfirst.symm))
  exact hid first hmem (heq ▸ rfl)

lemma createAutomation_writes [RecurrenceRules] (hinv : StoreInv now store) {input : CreateAutomationInput}
    (h : createAutomation store input at_ = .ok store') (hc : store'.Constraints) :
    Writes now woken store store' := by
  have hdefinitions := ensureScheduledFrontier_definitions h
  have hids := hc.definitionIDs
  have hrevisions := hc.revisions
  rw [hdefinitions] at hids hrevisions
  obtain ⟨hid, hmay⟩ := mayDefine_first hinv rfl hids hrevisions
  exact (definition store (input.definition at_) input.target.projectIDs hid hmay).writes.trans
    (ensureScheduledFrontier_writes (mem_append_right _ (mem_singleton_self _)) h)

lemma createDelayedSessionWake_writes (hinv : StoreInv now store) {input : CreateDelayedSessionWakeInput}
    (h : createDelayedSessionWake store input at_ = .ok store') (hc : store'.Constraints) :
    Writes now woken store store' := by
  unfold createDelayedSessionWake at h
  have hdefinitions := ensureScheduledFrontier_definitions h
  have hids := hc.definitionIDs
  have hrevisions := hc.revisions
  rw [hdefinitions] at hids hrevisions
  obtain ⟨hid, hmay⟩ := mayDefine_first hinv rfl hids hrevisions
  exact (definition store (input.definition at_) [] hid hmay).writes.trans
    (ensureScheduledFrontier_writes (mem_append_right _ (mem_singleton_self _)) h)

lemma updateAutomation_eq_ok [RecurrenceRules] {input : UpdateAutomationInput}
    (h : updateAutomation store input at_ = .ok (some store')) :
    ∃ latest, latestAutomationDefinitionInTransaction store.toAutomationDatabase input.id = some latest ∧
      ¬latest.IsDelay ∧ ¬LeaseLive store.toAutomationDatabase input.id at_ ∧
      pendingFireIDInTransaction store latest = .ok none ∧
      let row := input.definition latest at_
      let inserted := store.insertDefinition row input.target.projectIDs
      (input.active = true ∧ ensureScheduledAutomationFireFrontierInTransaction inserted row
          (RecurrenceRules.nextRun input.recurrence at_) at_ = .ok store') ∨
        input.active = false ∧ store' = clearAutomationFireFrontierInTransaction inserted row.definitionID := by
  unfold updateAutomation at h
  split at h
  · cases h
  · next latest hlatest =>
    split_ifs at h with hrefused
    · cases h
    · push Not at hrefused
      obtain ⟨pending, hpending, h⟩ := bind_eq_ok.mp h
      dsimp only at h
      split_ifs at h with hchanged hactive
      · cases h
      · push Not at hchanged
        obtain ⟨_, hscheduled, h⟩ := bind_eq_ok.mp h
        rw [pure_eq_ok, some.injEq] at h
        subst h
        have hnone : pending = none := by simpa using hchanged.1
        exact ⟨latest, hlatest, hrefused.1, hrefused.2, hnone ▸ hpending, .inl ⟨hactive, hscheduled⟩⟩
      · push Not at hchanged
        rw [pure_eq_ok, some.injEq] at h
        subst h
        have hnone : pending = none := by simpa using hchanged.1
        exact ⟨latest, hlatest, hrefused.1, hrefused.2, hnone ▸ hpending, .inr
          ⟨by simpa [UpdateAutomationInput.definition] using hactive, rfl⟩⟩

lemma updateAutomation_writes [RecurrenceRules] {input : UpdateAutomationInput}
    (h : updateAutomation store input at_ = .ok (some store')) (hc : store'.Constraints) :
    Writes now woken store store' := by
  obtain ⟨latest, hlatest, hkind, -, -, hwritten⟩ := updateAutomation_eq_ok h
  have hof : latest.definitionID = input.id := (latestAutomationDefinition_mem hlatest).2
  have hdefinitions : store'.definitions = store.definitions ++ [input.definition latest at_] := by
    rcases hwritten with ⟨-, hscheduled⟩ | ⟨-, rfl⟩
    · exact ensureScheduledFrontier_definitions hscheduled
    · rfl
  have hid : ∀ other ∈ store.definitions, other.id ≠ (input.definition latest at_).id := by
    have hids := hc.definitionIDs
    rw [hdefinitions] at hids
    unfold PrimaryKey at hids
    rw [map_append, nodup_append] at hids
    intro other hother
    exact hids.2.2 other.id (List.mem_map_of_mem hother) _ (by simp)
  have hmay : MayDefine store.toAutomationDatabase (input.definition latest at_) :=
    .inr ⟨id, latest, hlatest, hkind, rfl⟩
  have hdefine : Writes now woken store
      (store.insertDefinition (input.definition latest at_) input.target.projectIDs) :=
    (definition store _ _ hid hmay).writes
  rcases hwritten with ⟨-, hscheduled⟩ | ⟨-, rfl⟩
  · exact hdefine.trans
      (ensureScheduledFrontier_writes (mem_append_right _ (mem_singleton_self _)) hscheduled)
  · exact hdefine.trans (frontiers_writes _)

lemma removeAutomation_eq_ok [RecurrenceRules] {id tombstoneID : String}
    (h : removeAutomation store id tombstoneID at_ = .ok (some store')) :
    ∃ latest, latestAutomationDefinitionInTransaction store.toAutomationDatabase id = some latest ∧
      ¬latest.IsDelay ∧ pendingFireIDInTransaction store latest = .ok none ∧
      appendAutomationTombstoneInTransaction store latest tombstoneID = .ok store' := by
  unfold removeAutomation at h
  split at h
  · cases h
  · next latest hlatest =>
    split_ifs at h with hrefused
    · cases h
    · push Not at hrefused
      obtain ⟨pending, hpending, h⟩ := bind_eq_ok.mp h
      split_ifs at h with hchanged
      · cases h
      · obtain ⟨_, hdeleted, h⟩ := bind_eq_ok.mp h
        rw [pure_eq_ok, some.injEq] at h
        subst h
        have hnone : pending = none := by simpa using hchanged
        exact ⟨latest, hlatest, hrefused.1, hnone ▸ hpending, hdeleted⟩

structure TakesClaim [RecurrenceRules] (store store' : AutomationStore) (persisted : AutomationDefinition) (input : ClaimInput)
    (fire : Option AutomationFire) (at_ : ℤ) (job : AutomationRow) : Prop where
  steps : ∃ lease leases ensured claimedFire fronted projected, acquireControlLeaseInTransaction store.leases
        (automationLeaseInput input.id input.owner input.leaseID at_ LEASE_MS) = .ok (⟨true, lease⟩, leases) ∧
      ensureAutomationFireInTransaction { store with leases := leases } persisted.id
        (claimedOccurrence input fire at_).1 (claimedOccurrence input fire at_).2.1 at_
        (claimedOccurrence input fire at_).2.2 = .ok ensured ∧
      ensured.findFire (claimedOccurrence input fire at_).1 = some claimedFire ∧
      (if input.force then
          publishAutomationFireFrontierInTransaction ensured persisted claimedFire lease.expiresAt
        else
          deferAutomationFireFrontierInTransaction ensured input.id (claimedOccurrence input fire at_).1
            lease.expiresAt) = .ok fronted ∧
      reserveAutomationFireAttemptInTransaction fronted (claimedOccurrence input fire at_).1 input.owner at_ =
        .ok store' ∧
      projectAutomationFrontierInTransaction store'.toAutomationDatabase persisted = .ok projected ∧
      job = { projected with leaseOwner := some lease.ownerOccurrenceID, leaseUntil := lease.expiresAt }

lemma takeClaim_eq_ok [RecurrenceRules] {fire : Option AutomationFire}
    (h : takeClaim store persisted input fire at_ = .ok (job, store')) :
    (job = none ∧ store' = store) ∨ ∃ row, job = some row ∧
      TakesClaim store store' persisted input fire at_ row := by
  unfold takeClaim at h
  obtain ⟨⟨_, leases⟩, hacquired, h⟩ := bind_eq_ok.mp h
  unfold leasing at hacquired
  rw [mapError_eq_ok] at hacquired
  rcases acquireControlLease_eq_ok hacquired with ⟨_, -, -, rfl, rfl⟩ | ⟨rfl, -⟩
  · rw [if_pos (by simp), pure_eq_ok, Prod.mk.injEq] at h
    exact .inl ⟨h.1.symm, h.2.symm⟩
  · rw [if_neg (by simp)] at h
    obtain ⟨ensured, hensured, h⟩ := bind_eq_ok.mp h
    obtain ⟨claimedFire, hclaimed, h⟩ := bind_eq_ok.mp h
    obtain ⟨fronted, hfronted, h⟩ : ∃ fronted, (if input.force then
          publishAutomationFireFrontierInTransaction ensured persisted claimedFire _
        else deferAutomationFireFrontierInTransaction ensured input.id _ _) = .ok fronted ∧ _ := by
      split_ifs at h ⊢ <;> exact bind_eq_ok.mp h
    obtain ⟨_, hreserved, h⟩ := bind_eq_ok.mp h
    obtain ⟨projected, hprojected, h⟩ := bind_eq_ok.mp h
    unfold projecting at hprojected
    rw [mapError_eq_ok] at hprojected
    rw [pure_eq_ok, Prod.mk.injEq] at h
    obtain ⟨rfl, rfl⟩ := h
    exact .inr ⟨_, rfl, ⟨_, leases, ensured, claimedFire, fronted, projected, hacquired, hensured,
      getOrThrow_eq_ok.mp hclaimed, hfronted, hreserved, hprojected, rfl⟩⟩

lemma TakesClaim.writes [RecurrenceRules] (hinv : StoreInv now store) {fire : Option AutomationFire}
    {job : AutomationRow}
    (hlatest : latestAutomationDefinitionInTransaction store.toAutomationDatabase input.id = some persisted)
    (hfire : ∀ known, fire = some known → store.findFire known.id = some known)
    (hforced : fire = none → ¬persisted.IsDelay) (h : TakesClaim store store' persisted input fire now job) :
    Writes now woken store store' := by
  obtain ⟨lease, leases, ensured, claimedFire, fronted, projected, hacquired, hensured, -, hfronted,
    hreserved, -, -⟩ := h.steps
  have hleases : Writes now woken store { store with leases := leases } :=
    (StoreWrite.leases store leases input.id
      (leaseExchange_acquire hinv.leaseIDs hacquired (leasable_of_latest hlatest))).writes
  have hrow : persisted ∈ store.definitions :=
    (mem_current.mp (latestAutomationDefinition_mem hlatest).1).1
  have hensure : Writes now woken { store with leases := leases } ensured := by
    refine ensureAutomationFire_writes hrow (fun hnone => ?_) hensured
    cases fire with
    | none => exact hforced rfl
    | some known =>
      have hknown : store.findFire known.id = some known := hfire known rfl
      have hnone' : store.findFire known.id = none := hnone
      rw [hknown] at hnone'
      cases hnone'
  have hfront : Writes now woken ensured fronted := by
    split_ifs at hfronted
    · obtain ⟨-, -, rfl⟩ := publishAutomationFireFrontier_eq_ok hfronted
      exact frontiers_writes _
    · obtain ⟨_, -, -, rfl⟩ := deferAutomationFireFrontier_eq_ok hfronted
      exact frontiers_writes _
  exact hleases.trans (hensure.trans (hfront.trans (reserveAutomationFireAttempt_writes hreserved)))

omit [AutomationHashes] in
lemma claimableFire_eq_some (h : claimableFire store persisted input at_ = some fire) :
    ∃ frontier, currentAutomationFireFrontierInTransaction store input.id = some frontier ∧
      frontier.automationRevisionID = persisted.id ∧ frontier.fireID = fire.id ∧
      store.findFire fire.id = some fire ∧ fire.automationRevisionID = persisted.id ∧
      (fire.origin = .scheduled → persisted.active = true) := by
  unfold claimableFire at h
  split at h
  · cases h
  · next frontier hfrontier =>
    split_ifs at h with hrefused
    push Not at hrefused
    obtain ⟨hfound, hown⟩ := filter_eq_some_iff.mp h
    rw [decide_eq_true_eq] at hown
    have hid : fire.id = frontier.fireID := by simpa using find?_some hfound
    refine ⟨frontier, hfrontier, hrefused.1, hid.symm, hid ▸ hfound, hown.1, fun hscheduled => ?_⟩
    by_contra hinactive
    exact hown.2 ⟨hinactive, hscheduled⟩

lemma claim_eq_ok [RecurrenceRules] (h : claim store input at_ = .ok (job, store')) :
    (job = none ∧ store' = store) ∨ ∃ persisted projected,
      latestAutomationDefinitionInTransaction store.toAutomationDatabase input.id = some persisted ∧
      projectAutomationFrontierInTransaction store.toAutomationDatabase persisted = .ok projected ∧
      ((job = none ∧ ∃ fire, claimableFire store persisted input at_ = some fire ∧
          delayBusyClaim store projected fire input at_ = .ok store') ∨
        ∃ row fire, job = some row ∧ TakesClaim store store' persisted input fire at_ row ∧
          ((input.force = true ∧ fire = none ∧ truthy projected.pendingFireID = none) ∨
            input.force = false ∧ ∃ known, fire = some known ∧
              claimableFire store persisted input at_ = some known)) := by
  unfold claim at h
  split at h
  · rw [Except.ok.injEq, Prod.mk.injEq] at h
    exact .inl ⟨h.1.symm, h.2.symm⟩
  · next persisted hlatest =>
    obtain ⟨projected, hprojected, h⟩ := bind_eq_ok.mp h
    unfold projecting at hprojected
    rw [mapError_eq_ok] at hprojected
    by_cases hforce : input.force = true
    · rw [if_pos hforce] at h
      split_ifs at h with hrefused
      · rw [pure_eq_ok, Prod.mk.injEq] at h
        exact .inl ⟨h.1.symm, h.2.symm⟩
      · push Not at hrefused
        rcases takeClaim_eq_ok h with hnone | ⟨row, hrow, htakes⟩
        · exact .inl hnone
        · exact .inr ⟨persisted, projected, hlatest, hprojected, .inr ⟨row, none, hrow, htakes,
            .inl ⟨hforce, rfl, by simpa using hrefused.1⟩⟩⟩
    · rw [if_neg hforce] at h
      cases hfire : claimableFire store persisted input at_ with
      | none =>
        rw [hfire, pure_eq_ok, Prod.mk.injEq] at h
        exact .inl ⟨h.1.symm, h.2.symm⟩
      | some fire =>
        rw [hfire] at h
        split_ifs at h with hbusy
        · obtain ⟨_, hdelayed, h⟩ := bind_eq_ok.mp h
          rw [pure_eq_ok, Prod.mk.injEq] at h
          obtain ⟨rfl, rfl⟩ := h
          exact .inr ⟨persisted, projected, hlatest, hprojected, .inl ⟨rfl, fire, hfire, hdelayed⟩⟩
        · rcases takeClaim_eq_ok h with hnone | ⟨row, hrow, htakes⟩
          · exact .inl hnone
          · exact .inr ⟨persisted, projected, hlatest, hprojected, .inr ⟨row, some fire, hrow, htakes,
              .inr ⟨by simpa using hforce, fire, rfl, hfire⟩⟩⟩

lemma delayBusyClaim_eq_ok {projected : AutomationRow}
    (h : delayBusyClaim store projected fire input at_ = .ok store') :
    store' = store ∨ ∃ lease leases, acquireControlLeaseInTransaction store.leases (automationLeaseInput input.id
        (busySessionDelayID input.id projected.nextRun) input.leaseID at_ HEARTBEAT_BUSY_RETRY_MS) =
          .ok (⟨true, lease⟩, leases) ∧
      deferAutomationFireFrontierInTransaction { store with leases := leases } input.id fire.id
        lease.expiresAt = .ok store' := by
  unfold delayBusyClaim at h
  obtain ⟨⟨_, leases⟩, hacquired, h⟩ := bind_eq_ok.mp h
  unfold leasing at hacquired
  rw [mapError_eq_ok] at hacquired
  rcases acquireControlLease_eq_ok hacquired with ⟨_, -, -, rfl, rfl⟩ | ⟨rfl, -⟩
  · rw [if_neg (by simp), pure_eq_ok] at h
    exact .inl h.symm
  · rw [if_pos (by simp)] at h
    exact .inr ⟨_, leases, hacquired, h⟩

lemma claim_writes [RecurrenceRules] (hinv : StoreInv now store)
    (hpublic : input.force = true → ∀ row ∈ store.definitions, row.definitionID = input.id → ¬row.IsDelay)
    (h : claim store input now = .ok (job, store')) : Writes now woken store store' := by
  rcases claim_eq_ok h with ⟨-, rfl⟩ | ⟨persisted, _, hlatest, -, htaken⟩
  · exact .refl
  · rcases htaken with ⟨-, _, -, hdelayed⟩ | ⟨_, _, -, htakes, hclaimed⟩
    · rcases delayBusyClaim_eq_ok hdelayed with rfl | ⟨_, leases, hacquired, hdeferred⟩
      · exact .refl
      · have hleases : Writes now woken store { store with leases := leases } := (StoreWrite.leases store leases input.id
          (leaseExchange_acquire hinv.leaseIDs hacquired (leasable_of_latest hlatest))).writes
        obtain ⟨_, -, -, rfl⟩ := deferAutomationFireFrontier_eq_ok hdeferred
        exact hleases.trans (frontiers_writes _)
    · refine htakes.writes hinv hlatest ?_ ?_
      · rintro _ rfl
        rcases hclaimed with ⟨-, hnone, -⟩ | ⟨-, _, hother, hclaimable⟩
        · cases hnone
        · cases hother
          obtain ⟨_, -, -, -, hfound, -⟩ := claimableFire_eq_some hclaimable
          exact hfound
      · rintro rfl
        rcases hclaimed with ⟨hforce, -⟩ | ⟨-, _, hother, -⟩
        · obtain ⟨hcurrent, hof⟩ := latestAutomationDefinition_mem hlatest
          exact hpublic hforce persisted (mem_current.mp hcurrent).1 hof
        · cases hother

/-! ## Manual runs of a Tool -/

lemma takeManualTool_eq_ok {input : ManualToolInput} {lease : ControlLease}
    (h : takeManualTool store definition fire input lease at_ = .ok (reserved, store')) :
    reserved = some ⟨definition, fire⟩ ∧ fire.automationRevisionID = definition.id ∧
      reserveAutomationFireAttemptInTransaction
        (store.setFrontier ⟨definition.definitionID, definition.id, fire.id, lease.expiresAt⟩) fire.id
        input.owner at_ = .ok store' := by
  unfold takeManualTool at h
  obtain ⟨_, hpublished, h⟩ := bind_eq_ok.mp h
  obtain ⟨_, hafter, h⟩ := bind_eq_ok.mp h
  rw [pure_eq_ok, Prod.mk.injEq] at h
  obtain ⟨rfl, rfl⟩ := h
  obtain ⟨hown, -, rfl⟩ := publishAutomationFireFrontier_eq_ok hpublished
  exact ⟨rfl, hown, hafter⟩

def manualToolFire (definition : AutomationDefinition) (input : ManualToolInput) (at_ : ℤ) :
    AutomationFire where
  id := manualFireID input.toolPartID
  automationRevisionID := definition.id
  scheduledDueAt := at_
  origin := .manualTool
  timeCreated := at_

def withManualToolFire (store : AutomationStore) (definition : AutomationDefinition) (input : ManualToolInput)
    (leases : ControlLeaseTables) (at_ : ℤ) : AutomationStore :=
  { store with
    leases := leases
    fires := store.fires ++ [manualToolFire definition input at_]
    toolFires := store.toolFires ++ [⟨manualFireID input.toolPartID, input.toolPartID, input.inputDigest⟩] }

lemma insertManualToolFire_eq_ok [RecurrenceRules] {input : ManualToolInput}
    (h : insertManualToolFire store input at_ = .ok (reserved, store')) :
    ∃ definition lease leases,
      latestAutomationDefinitionInTransaction store.toAutomationDatabase input.id = some definition ∧
      ¬definition.IsDelay ∧ pendingFireIDInTransaction store definition = .ok none ∧
      acquireControlLeaseInTransaction store.leases
        (automationLeaseInput input.id input.owner input.leaseID at_ LEASE_MS) = .ok (⟨true, lease⟩, leases) ∧
      takeManualTool (withManualToolFire store definition input leases at_) definition
        (manualToolFire definition input at_) input lease at_ = .ok (reserved, store') := by
  unfold insertManualToolFire at h
  obtain ⟨definition, hdefinition, h⟩ := bind_eq_ok.mp h
  obtain ⟨hkind, h⟩ := throwWhen_bind_eq_ok.mp h
  replace h := of_throwWhen h
  obtain ⟨pending, hpending, h⟩ := bind_eq_ok.mp h
  obtain ⟨hidle, h⟩ := throwWhen_bind_eq_ok.mp h
  obtain ⟨⟨result, leases⟩, hacquired, h⟩ := bind_eq_ok.mp h
  obtain ⟨htaken, h⟩ := throwWhen_bind_eq_ok.mp h
  unfold leasing at hacquired
  rw [mapError_eq_ok] at hacquired
  have hnone : pending = none := by simpa using hidle
  obtain ⟨acquired, lease⟩ := result
  have htrue : acquired = true := by simpa using htaken
  subst htrue
  exact ⟨definition, lease, leases, getOrThrow_eq_ok.mp hdefinition, hkind, hnone ▸ hpending, hacquired, h⟩

lemma replayManualToolFire_eq_ok [RecurrenceRules] {toolFire : AutomationToolFire} {input : ManualToolInput}
    (h : replayManualToolFire store toolFire fire input at_ = .ok (reserved, store')) :
    ∃ definition view, store.findDefinition fire.automationRevisionID = some definition ∧
      definition.definitionID = input.id ∧ fire.id = manualFireID input.toolPartID ∧
      fire.origin = .manualTool ∧
      projectAutomationFireInTransaction store.toAutomationDatabase fire = .ok view ∧
      ((reserved = none ∧ store' = store) ∨ (view.reduced.state.isTerminal = false ∧ ∃ lease leases,
        acquireControlLeaseInTransaction store.leases
          (automationLeaseInput input.id input.owner input.leaseID at_ LEASE_MS) = .ok (⟨true, lease⟩, leases) ∧
        takeManualTool { store with leases := leases } definition fire input lease at_ =
          .ok (reserved, store'))) := by
  unfold replayManualToolFire at h
  obtain ⟨definition, hdefinition, h⟩ := bind_eq_ok.mp h
  obtain ⟨hexact, h⟩ := throwWhen_bind_eq_ok.mp h
  push Not at hexact
  obtain ⟨view, hview, h⟩ := bind_eq_ok.mp h
  unfold projecting at hview
  rw [mapError_eq_ok] at hview
  refine ⟨definition, view, getOrThrow_eq_ok.mp hdefinition, hexact.1, hexact.2.1, hexact.2.2.2, hview, ?_⟩
  split_ifs at h with hterminal
  · rw [pure_eq_ok, Prod.mk.injEq] at h
    exact .inl ⟨h.1.symm, h.2.symm⟩
  · replace h := of_throwWhen h
    obtain ⟨⟨_, leases⟩, hacquired, h⟩ := bind_eq_ok.mp h
    unfold leasing at hacquired
    rw [mapError_eq_ok] at hacquired
    rcases acquireControlLease_eq_ok hacquired with ⟨_, -, -, rfl, rfl⟩ | ⟨rfl, -⟩
    · rw [if_pos (by simp), pure_eq_ok, Prod.mk.injEq] at h
      exact .inl ⟨h.1.symm, h.2.symm⟩
    · rw [if_neg (by simp)] at h
      exact .inr ⟨by simpa using hterminal, _, leases, hacquired, h⟩

lemma StoreInv.not_isDelay_of_manual (hinv : StoreInv now store) (hfire : fire ∈ store.fires)
    (horigin : fire.origin ≠ .scheduled) {row : AutomationDefinition} (hrow : row ∈ store.definitions)
    (hid : row.id = fire.automationRevisionID) : ¬row.IsDelay := by
  intro hdelay
  obtain ⟨other, hother, hotherID, hkind⟩ := hinv.fireRow fire hfire
  have heq : other = row := hinv.definitionIDs.eq_of_id hother hrow (hotherID.trans hid.symm)
  exact horigin (hkind (heq ▸ hdelay)).1

omit [AutomationHashes] in
lemma findToolFire_eq_some {toolPartID : String} {toolFire : AutomationToolFire}
    (h : findToolFire store toolPartID = some (toolFire, fire)) :
    toolFire ∈ store.toolFires ∧ toolFire.toolPartID = toolPartID ∧
      store.findFire toolFire.fireID = some fire := by
  unfold findToolFire at h
  obtain ⟨_, hfound, h⟩ := bind_eq_some_iff.mp h
  obtain ⟨_, hother, h⟩ := bind_eq_some_iff.mp h
  cases h
  exact ⟨mem_of_find?_eq_some hfound, by simpa using find?_some hfound, hother⟩

lemma runNowFromTool_writes [RecurrenceRules] (hinv : StoreInv now store) {input : ManualToolInput}
    (h : runNowFromTool store input now = .ok (reserved, store')) :
    Writes now woken store store' ∧ ∀ claimed, reserved = some claimed →
      claimed.definition ∈ store.definitions ∧ ¬claimed.definition.IsDelay := by
  unfold runNowFromTool at h
  split at h
  · next toolFire fire hfound =>
    obtain ⟨definition, _, hdefinition, hof, -, horigin, -, hreplayed⟩ := replayManualToolFire_eq_ok h
    have hrow : definition ∈ store.definitions := mem_of_find?_eq_some hdefinition
    have hid : definition.id = fire.automationRevisionID := by simpa using find?_some hdefinition
    have hfire : fire ∈ store.fires := mem_of_find?_eq_some (findToolFire_eq_some hfound).2.2
    have hkind : ¬definition.IsDelay :=
      hinv.not_isDelay_of_manual hfire (by rw [horigin]; decide) hrow hid
    rcases hreplayed with ⟨rfl, rfl⟩ | ⟨-, _, leases, hacquired, htaken⟩
    · exact ⟨.refl, fun _ hnone => nomatch hnone⟩
    · obtain ⟨rfl, -, hattempt⟩ := takeManualTool_eq_ok htaken
      have hleasable : Leasable store.toAutomationDatabase input.id :=
        ⟨definition, hrow, hof, fun hdelay => absurd hdelay hkind⟩
      have hleases : Writes now woken store { store with leases := leases } :=
        (StoreWrite.leases store leases input.id (leaseExchange_acquire hinv.leaseIDs hacquired hleasable)).writes
      refine ⟨hleases.trans ((frontiers_writes _).trans (reserveAutomationFireAttempt_writes hattempt)), ?_⟩
      rintro _ hclaimed
      cases hclaimed
      exact ⟨hrow, hkind⟩
  · obtain ⟨definition, _, leases, hlatest, hkind, -, hacquired, htaken⟩ := insertManualToolFire_eq_ok h
    have hrow : definition ∈ store.definitions :=
      (mem_current.mp (latestAutomationDefinition_mem hlatest).1).1
    obtain ⟨rfl, -, hattempt⟩ := takeManualTool_eq_ok htaken
    have hleases : Writes now woken store { store with leases := leases } := (StoreWrite.leases store leases input.id
      (leaseExchange_acquire hinv.leaseIDs hacquired (leasable_of_latest hlatest))).writes
    have hfire : Writes now woken { store with leases := leases } { store with
        leases := leases, fires := store.fires ++ [manualToolFire definition input now] } :=
      (StoreWrite.fire { store with leases := leases } (manualToolFire definition input now) definition hrow rfl fun hdelay =>
        absurd hdelay hkind).writes
    have haside : Writes now woken { store with
        leases := leases, fires := store.fires ++ [manualToolFire definition input now] }
        (withManualToolFire store definition input leases now) :=
      (StoreWrite.aside _ (withManualToolFire store definition input leases now)).writes
    refine ⟨hleases.trans (hfire.trans (haside.trans ((frontiers_writes _).trans
      (reserveAutomationFireAttempt_writes hattempt)))), ?_⟩
    rintro _ hclaimed
    cases hclaimed
    exact ⟨hrow, hkind⟩

end Service

end OpenCorvus.Scheduler
