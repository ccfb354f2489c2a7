import OpenCorvus.Scheduler.SessionDelay

/-!
# What the transactions of the Automation service write

The answer of a transaction is the store that it was given with rows appended, the frontier of its definition
replaced and a lease exchanged.  The lemmas say which, and what the transaction has checked before.
-/

namespace OpenCorvus.Scheduler

open Transaction Engine AutomationStore

variable {store store' : AutomationStore}

lemma insertTombstone_eq_ok {tombstone : AutomationDefinitionTombstone} :
    store.insertTombstone tombstone = .ok store' ↔
      (∀ other ∈ store.tombstones, other.definitionID = tombstone.definitionID →
        other.revision ≠ tombstone.revision) ∧
      store' = { store with tombstones := store.tombstones ++ [tombstone] } := by
  unfold insertTombstone
  rw [throwWhen_bind_eq_ok, pure_eq_ok]
  push Not
  exact and_congr_right fun _ => eq_comm

def MayInsertReceipt (store : AutomationStore) (receipt : AutomationRunReceipt) : Prop :=
  (receipt.outcome.IsTerminal → ∀ other ∈ store.receiptsOf receipt.runID, ¬other.outcome.IsTerminal) ∧
    ∃ run ∈ store.runs, run.id = receipt.runID

lemma insertRunReceipt_eq_ok {receipt : AutomationRunReceipt} : store.insertRunReceipt receipt = .ok store' ↔
      MayInsertReceipt store receipt ∧
      store' = { store with runReceipts := store.runReceipts ++ [receipt] } := by
  unfold insertRunReceipt MayInsertReceipt
  rw [throwWhen_bind_eq_ok, throwWhen_bind_eq_ok, pure_eq_ok, and_assoc]
  push Not
  exact and_congr_right fun _ => and_congr_right fun _ => eq_comm

lemma insertAttemptReceipt_eq_ok {receipt : AutomationFireAttemptReceipt} :
    store.insertAttemptReceipt receipt = .ok store' ↔
      (∀ other ∈ store.attemptReceipts, other.attemptID ≠ receipt.attemptID) ∧
      (∃ attempt ∈ store.attempts, attempt.id = receipt.attemptID) ∧
      store' = { store with attemptReceipts := store.attemptReceipts ++ [receipt] } := by
  unfold insertAttemptReceipt
  rw [throwWhen_bind_eq_ok, throwWhen_bind_eq_ok, pure_eq_ok]
  push Not
  exact and_congr_right fun _ => and_congr_right fun _ => eq_comm

lemma insertSettlement_eq_ok {settlement : AutomationDelaySettlement} :
    store.insertSettlement settlement = .ok store' ↔
      (∀ other ∈ store.settlements, other.definitionID ≠ settlement.definitionID) ∧
      store' = { store with settlements := store.settlements ++ [settlement] } := by
  unfold insertSettlement
  rw [throwWhen_bind_eq_ok, pure_eq_ok]
  push Not
  exact and_congr_right fun _ => eq_comm

lemma insertRunReceipts_eq_ok {receipts : List AutomationRunReceipt}
    (h : insertRunReceipts receipts store = .ok store') :
    store' = { store with runReceipts := store.runReceipts ++ receipts } := by
  induction receipts generalizing store with
  | nil =>
    rw [insertRunReceipts, Except.ok.injEq] at h
    rw [← h, List.append_nil]
  | cons _ _ ih =>
    rw [insertRunReceipts, bind_eq_ok] at h
    obtain ⟨_, hnext, hrest⟩ := h
    obtain ⟨-, rfl⟩ := insertRunReceipt_eq_ok.mp hnext
    rw [ih hrest, List.append_assoc, List.singleton_append]

lemma appendAutomationTombstone_eq_ok {row : AutomationDefinition} {id : String} :
    appendAutomationTombstoneInTransaction store row id = .ok store' ↔
      (∀ other ∈ store.tombstones, other.definitionID = row.definitionID → other.revision ≠ row.revision + 1) ∧
      store' = { store with
        tombstones := store.tombstones ++ [⟨id, row.definitionID, row.revision + 1⟩]
        frontiers := store.frontiers.filter fun frontier => frontier.definitionID ≠ row.definitionID } := by
  unfold appendAutomationTombstoneInTransaction
  rw [bind_eq_ok]
  constructor
  · rintro ⟨_, hdeleted, hclear⟩
    obtain ⟨hnew, rfl⟩ := insertTombstone_eq_ok.mp hdeleted
    exact ⟨hnew, (pure_eq_ok.mp hclear).symm⟩
  · rintro ⟨hnew, rfl⟩
    exact ⟨_, insertTombstone_eq_ok.mpr ⟨hnew, rfl⟩, rfl⟩

variable {definition : AutomationDefinition} {fireID : String} {now : ℤ}

lemma publishAutomationFireFrontier_eq_ok {fire : AutomationFire} {availableAt : ℤ}
    (h : publishAutomationFireFrontierInTransaction store definition fire availableAt = .ok store') :
    fire.automationRevisionID = definition.id ∧ (fire.origin = .scheduled → definition.active = true) ∧
      store' = store.setFrontier ⟨definition.definitionID, definition.id, fire.id, availableAt⟩ := by
  unfold publishAutomationFireFrontierInTransaction at h
  replace h := of_check h
  obtain ⟨hactive, h⟩ := throwWhen_bind_eq_ok.mp h
  obtain ⟨hown, h⟩ := throwWhen_bind_eq_ok.mp h
  push Not at hown
  refine ⟨hown.1, fun hscheduled => ?_, (pure_eq_ok.mp h).symm⟩
  by_contra hpaused
  exact hactive ⟨hpaused, hscheduled⟩

lemma deferAutomationFireFrontier_eq_ok {definitionID : String} {availableAt : ℤ}
    (h : deferAutomationFireFrontierInTransaction store definitionID fireID availableAt = .ok store') :
    ∃ current, currentAutomationFireFrontierInTransaction store definitionID = some current ∧
      current.fireID = fireID ∧ store' = store.setFrontier { current with availableAt := availableAt } := by
  unfold deferAutomationFireFrontierInTransaction at h
  replace h := of_check h
  split at h
  · exact absurd h throw_ne_ok
  · next current hcurrent =>
    obtain ⟨hfire, h⟩ := throwWhen_bind_eq_ok.mp h
    exact ⟨current, hcurrent, not_not.mp hfire, (pure_eq_ok.mp h).symm⟩

def scheduledFire [AutomationHashes] (definition : AutomationDefinition) (due now : ℤ) : AutomationFire where
  id := scheduledAutomationFireID definition.id due
  automationRevisionID := definition.id
  scheduledDueAt := due
  origin := .scheduled
  timeCreated := now

lemma ensureScheduledFrontier_eq_ok [AutomationHashes] {due : Option ℤ}
    (h : ensureScheduledAutomationFireFrontierInTransaction store definition due now = .ok store') :
    (due = none ∧ store' = clearAutomationFireFrontierInTransaction store definition.definitionID) ∨
      ∃ dueAt fire, due = some dueAt ∧ definition.active = true ∧ ¬definition.ChangesDue dueAt ∧
        (store.insertFireIfAbsent (scheduledFire definition dueAt now)).findFire fire.id = some fire ∧
        fire.automationRevisionID = definition.id ∧ fire.scheduledDueAt = dueAt ∧ fire.origin = .scheduled ∧
        store' = (store.insertFireIfAbsent (scheduledFire definition dueAt now)).setFrontier
          ⟨definition.definitionID, definition.id, fire.id, dueAt⟩ := by
  unfold ensureScheduledAutomationFireFrontierInTransaction at h
  cases due with
  | none => exact .inl ⟨rfl, (Except.ok.inj h).symm⟩
  | some dueAt =>
    obtain ⟨hactive, h⟩ := throwWhen_bind_eq_ok.mp h
    obtain ⟨hdue, h⟩ := throwWhen_bind_eq_ok.mp h
    obtain ⟨fire, hfound, h⟩ := bind_eq_ok.mp h
    obtain ⟨hexact, h⟩ := throwWhen_bind_eq_ok.mp h
    push Not at hexact
    obtain ⟨-, -, rfl⟩ := publishAutomationFireFrontier_eq_ok h
    rw [getOrThrow_eq_ok] at hfound
    have hid : fire.id = scheduledAutomationFireID definition.id dueAt := by
      simpa using List.find?_some hfound
    exact .inr ⟨dueAt, fire, rfl, not_not.mp hactive, hdue, by rw [hid]; exact hfound, hexact.1, hexact.2.1,
      hexact.2.2, rfl⟩

lemma restoreScheduledFrontier_eq_ok [RecurrenceRules] [AutomationHashes]
    (h : restoreScheduledAutomationFireFrontierInTransaction store definition = .ok store') :
    ∃ recurrence, definition.kind = .recurring recurrence ∧ ((definition.active = false ∧
          store' = clearAutomationFireFrontierInTransaction store definition.definitionID) ∨
        (definition.active = true ∧ ∃ fire,
          selectScheduledFire store.toAutomationDatabase definition.id = some fire ∧
          store' = store.setFrontier ⟨definition.definitionID, definition.id, fire.id, fire.scheduledDueAt⟩) ∨
        (definition.active = true ∧ selectScheduledFire store.toAutomationDatabase definition.id = none ∧
          (∃ completedAt, lastCompletion store definition = .ok completedAt ∧
            RecurrenceRules.nextRun recurrence completedAt = none) ∧
          store' = clearAutomationFireFrontierInTransaction store definition.definitionID)) := by
  unfold restoreScheduledAutomationFireFrontierInTransaction at h
  split at h
  · cases h
  · next recurrence hkind =>
    refine ⟨recurrence, hkind, ?_⟩
    split_ifs at h with hactive
    · split at h
      · next fire hfire =>
        obtain ⟨-, -, rfl⟩ := publishAutomationFireFrontier_eq_ok h
        exact .inr (.inl ⟨hactive, fire, hfire, rfl⟩)
      · next hnone =>
        obtain ⟨completedAt, hcompleted, h⟩ := bind_eq_ok.mp h
        obtain ⟨hnext, h⟩ := throwWhen_bind_eq_ok.mp h
        exact .inr (.inr ⟨hactive, hnone, ⟨completedAt, hcompleted, not_not.mp hnext⟩, (pure_eq_ok.mp h).symm⟩)
    · exact .inl ⟨by simpa using hactive, (Except.ok.inj h).symm⟩

lemma ensureAutomationFire_eq_ok {revisionID : String} {due : ℤ} {origin : AutomationFireOrigin}
    (h : ensureAutomationFireInTransaction store revisionID fireID due now origin = .ok store') :
    (∃ fire, store'.findFire fireID = some fire ∧ fire.automationRevisionID = revisionID ∧
      fire.scheduledDueAt = due ∧ fire.origin = origin) ∧
    (store' = store ∨ store.findFire fireID = none ∧ origin ≠ .manualTool ∧
      store' = { store with fires := store.fires ++ [⟨fireID, revisionID, due, origin, now⟩] }) := by
  unfold ensureAutomationFireInTransaction at h
  split at h
  · next existing hexisting =>
    obtain ⟨hexact, h⟩ := throwWhen_bind_eq_ok.mp h
    push Not at hexact
    rw [pure_eq_ok] at h
    subst h
    exact ⟨⟨existing, hexisting, hexact⟩, .inl rfl⟩
  · next hnone =>
    obtain ⟨htool, h⟩ := throwWhen_bind_eq_ok.mp h
    obtain ⟨fire, hfound, h⟩ := bind_eq_ok.mp h
    obtain ⟨hexact, h⟩ := throwWhen_bind_eq_ok.mp h
    push Not at hexact
    rw [pure_eq_ok] at h
    rw [getOrThrow_eq_ok] at hfound
    subst h
    refine ⟨⟨fire, hfound, hexact⟩, ?_⟩
    unfold insertFireIfAbsent
    split_ifs
    · exact .inl rfl
    · exact .inr ⟨hnone, htool, rfl⟩

lemma ownedLease_eq_ok {definitionID owner : String} {e : AutomationServiceError} {lease : ControlLease} :
    ownedLease store definitionID owner now e = .ok lease ↔
      automationLease store.toAutomationDatabase definitionID = some lease ∧
        lease.ownerOccurrenceID = owner ∧ now < lease.expiresAt := by
  unfold ownedLease
  constructor
  · intro h
    obtain ⟨_, hfound, h⟩ := bind_eq_ok.mp h
    obtain ⟨howned, h⟩ := throwWhen_bind_eq_ok.mp h
    push Not at howned
    rw [pure_eq_ok] at h
    subst h
    exact ⟨getOrThrow_eq_ok.mp hfound, howned⟩
  · rintro ⟨hfound, howner, hlive⟩
    refine bind_eq_ok.mpr ⟨lease, getOrThrow_eq_ok.mpr hfound, throwWhen_bind_eq_ok.mpr ⟨?_, rfl⟩⟩
    rintro (hother | hexpired)
    · exact hother howner
    · exact absurd hlive (not_lt.mpr hexpired)

lemma settleLatestAttempt_eq_ok (h : settleLatestAttempt store fireID now = .ok store') :
    (store' = store ∧ ∀ latest, lastAttempt store.toAutomationDatabase fireID = some latest →
      ∃ receipt, store.attemptReceipt latest.id = some receipt ∧ receipt.outcome.state ≠ .failed) ∨
    ∃ latest error, lastAttempt store.toAutomationDatabase fireID = some latest ∧
      store.insertAttemptReceipt ⟨latest.id, .retryWait now error, now⟩ = .ok store' := by
  unfold settleLatestAttempt at h
  split at h
  · next hnone =>
    refine .inl ⟨(Except.ok.inj h).symm, ?_⟩
    simp [hnone]
  · next latest hlatest =>
    split at h
    · exact .inr ⟨latest, _, hlatest, h⟩
    · next receipt hreceipt =>
      have hkeep : store' = store ∧ receipt.outcome.state ≠ .failed := by
        split at h
        · next houtcome => exact ⟨(Except.ok.inj h).symm, by rw [houtcome]; simp [AutomationAttemptOutcome.state]⟩
        · cases h
        · next houtcome =>
          split_ifs at h
          exact ⟨(Except.ok.inj h).symm, by rw [houtcome]; simp [AutomationAttemptOutcome.state]⟩
      refine .inl ⟨hkeep.1, ?_⟩
      rintro _ hother
      rw [hlatest, Option.some.injEq] at hother
      subst hother
      exact ⟨receipt, hreceipt, hkeep.2⟩

def nextAttempt [AutomationHashes] (db : AutomationDatabase) (fireID : String) : AutomationFireAttempt :=
  let ordinal := ((lastAttempt db fireID).map (·.ordinal)).getD 0 + 1
  ⟨fireAttemptID fireID ordinal, fireID, ordinal⟩

lemma reserveAutomationFireAttempt_eq_ok [AutomationHashes] {owner : String}
    (h : reserveAutomationFireAttemptInTransaction store fireID owner now = .ok store') :
    ∃ fire definition settled admission, store.findFire fireID = some fire ∧
      store.findDefinition fire.automationRevisionID = some definition ∧
      (∃ lease, automationLease store.toAutomationDatabase definition.definitionID = some lease ∧
        lease.ownerOccurrenceID = owner ∧ now < lease.expiresAt) ∧
      settleLatestAttempt store fireID now = .ok settled ∧
      store' = { settled with
        attempts := settled.attempts ++ [nextAttempt store.toAutomationDatabase fireID]
        admissions := settled.admissions ++ [admission] } := by
  unfold reserveAutomationFireAttemptInTransaction at h
  obtain ⟨fire, hfire, h⟩ := bind_eq_ok.mp h
  obtain ⟨definition, hdefinition, h⟩ := bind_eq_ok.mp h
  obtain ⟨lease, hlease, h⟩ := bind_eq_ok.mp h
  obtain ⟨_, h⟩ := of_bind h
  replace h := of_throwWhen h
  obtain ⟨settled, hsettled, h⟩ := bind_eq_ok.mp h
  rw [pure_eq_ok] at h
  exact ⟨fire, definition, settled, _, getOrThrow_eq_ok.mp hfire, getOrThrow_eq_ok.mp hdefinition,
    ⟨lease, ownedLease_eq_ok.mp hlease⟩, hsettled, h.symm⟩

lemma settleAttemptReserved_eq_ok {job : AutomationRow}
    (h : settleAutomationFireAttemptReservedInTransaction store job now = .ok store') :
    ∃ attemptID, truthy job.attemptID = some attemptID ∧
      ((store' = store ∧ ∃ receipt, store.attemptReceipt attemptID = some receipt ∧ receipt.outcome = .reserved) ∨
        store.attemptReceipt attemptID = none ∧
          store.insertAttemptReceipt ⟨attemptID, .reserved, now⟩ = .ok store') := by
  unfold settleAutomationFireAttemptReservedInTransaction at h
  obtain ⟨attemptID, hattempt, h⟩ := bind_eq_ok.mp h
  refine ⟨attemptID, getOrThrow_eq_ok.mp hattempt, ?_⟩
  split at h
  · next existing hexisting =>
    obtain ⟨hreserved, h⟩ := throwWhen_bind_eq_ok.mp h
    rw [pure_eq_ok] at h
    exact .inl ⟨h.symm, existing, hexisting, not_not.mp hreserved⟩
  · next hnone => exact .inr ⟨hnone, h⟩

end OpenCorvus.Scheduler
