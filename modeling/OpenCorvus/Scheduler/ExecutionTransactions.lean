import OpenCorvus.Scheduler.AutomationTransactions

/-!
# The transactions of an execution as writes

What an execution checks before it writes is its fire, the lease of its definition and the latest revision.
The runs that it reserves are those of its targets.
-/

namespace OpenCorvus.Scheduler

open Transaction Engine List

section Executions

variable [AutomationHashes] {now : ℤ} {woken : String → Prop} {store store' : AutomationStore}
  {execution : AutomationExecution}

/-! ## Checks -/

omit [AutomationHashes] in
lemma truthy_eq_some {value : Option String} {text : String} :
    truthy value = some text ↔ value = some text ∧ text ≠ "" := by
  unfold truthy
  rw [Option.filter_eq_some_iff]
  simp

variable {fire : AutomationFire} {row : AutomationDefinition} {at_ retryAt committedAt : ℤ}
  {fireID tombstoneID message : String} {reservations : List TargetReservation}
  {receiptID : String → String} {exhausted : Bool} {mission : StoredMissionReservation}

omit [AutomationHashes] in
lemma claimedFire_eq_ok (h : claimedFire store execution = .ok fire) :
    store.findFire fire.id = some fire ∧ fire.id = execution.fireID ∧ fire.id ≠ "" ∧
      execution.job.pendingFireID = some fire.id ∧ fire.automationRevisionID = execution.revisionID := by
  unfold claimedFire at h
  obtain ⟨found, hfound, h⟩ := bind_eq_ok.mp h
  obtain ⟨hown, h⟩ := throwWhen_bind_eq_ok.mp h
  rw [pure_eq_ok] at h
  subst h
  obtain ⟨fireID, htruthy, hfire⟩ := Option.bind_eq_some_iff.mp (getOrThrow_eq_ok.mp hfound)
  obtain ⟨hpending, hne⟩ := truthy_eq_some.mp htruthy
  have hid : found.id = fireID := by simpa using find?_some hfire
  subst hid
  refine ⟨hfire, ?_, hne, hpending, not_not.mp hown⟩
  unfold AutomationExecution.fireID
  rw [hpending, Option.getD_some]

omit [AutomationHashes] in
lemma requireRevision_eq_ok {occasion : String} (h : requireRevision store execution occasion = .ok row) :
    latestAutomationDefinitionInTransaction store.toAutomationDatabase execution.definitionID = some row ∧
      row.id = execution.revisionID := by
  unfold requireRevision at h
  obtain ⟨_, hlatest, h⟩ := bind_eq_ok.mp h
  obtain ⟨hsame, h⟩ := throwWhen_bind_eq_ok.mp h
  rw [pure_eq_ok] at h
  subst h
  exact ⟨getOrThrow_eq_ok.mp hlatest, not_not.mp hsame⟩

omit [AutomationHashes] in
lemma beginReservation_eq_ok (hfire : store.findFire fire.id = some fire)
    (h : beginReservation store execution fire at_ = .ok store') :
    ∃ attemptID, truthy execution.job.attemptID = some attemptID ∧
      ((store' = store ∧ ∃ receipt, store.attemptReceipt attemptID = some receipt ∧ receipt.outcome = .reserved) ∨
        store.attemptReceipt attemptID = none ∧
          store.insertAttemptReceipt ⟨attemptID, .reserved, at_⟩ = .ok store') := by
  unfold beginReservation at h
  obtain ⟨_, hensured, h⟩ := bind_eq_ok.mp h
  rcases (ensureAutomationFire_eq_ok hensured).2 with hsame | ⟨hnone, -⟩
  · rw [hsame] at h
    exact settleAttemptReserved_eq_ok h
  · rw [hfire] at hnone
    cases hnone

lemma beginReservation_writes (now : ℤ) (woken : String → Prop) (hfire : store.findFire fire.id = some fire)
    (h : beginReservation store execution fire at_ = .ok store') :
    Writes now woken store store' ∧ ∃ receipts, store' = { store with attemptReceipts := receipts } := by
  obtain ⟨_, -, ⟨rfl, -⟩ | ⟨-, hreceipt⟩⟩ := beginReservation_eq_ok hfire h
  · exact ⟨.refl, store'.attemptReceipts, rfl⟩
  · refine ⟨insertAttemptReceipt_writes hreceipt, ?_⟩
    obtain ⟨-, -, rfl⟩ := insertAttemptReceipt_eq_ok.mp hreceipt
    exact ⟨_, rfl⟩

/-! ## Runs -/

structure MayReserve (now : ℤ) (store : AutomationStore) (row : AutomationDefinition)
    (fireID : String) : Prop where
  mem : row ∈ store.definitions
  fire : ∃ fire ∈ store.fires, fire.id = fireID ∧ fire.automationRevisionID = row.id
  live : LeaseLive store.toAutomationDatabase row.definitionID now

lemma insertRunIfAbsent_writes (run : AutomationRun) (h : MayReserve now store row run.fireID)
    (hid : row.id = run.automationRevisionID) (htarget : IsTargetRun store row run) :
    Writes now woken store (store.insertRunIfAbsent run).2 := by
  unfold AutomationStore.insertRunIfAbsent
  split_ifs
  · exact .refl
  · obtain ⟨fire, hfire, hfireID, hrevision⟩ := h.fire
    exact (StoreWrite.run store run row h.mem hid ⟨fire, hfire, hfireID, hrevision.trans hid⟩ htarget
      h.live).writes

omit [AutomationHashes] in
lemma insertRunIfAbsent_eq (store : AutomationStore) (run : AutomationRun) :
    ∃ runs, (store.insertRunIfAbsent run).2 = { store with runs := runs } := by
  unfold AutomationStore.insertRunIfAbsent
  split_ifs
  · exact ⟨store.runs, rfl⟩
  · exact ⟨store.runs ++ [run], rfl⟩

lemma reserveTargets_writes (receiptID : String → String) (h : MayReserve now store execution.job.row fireID)
    (htargets : ∀ reservation ∈ reservations,
      automationTargetIdentity reservation.target ∈ runIdentities store execution.job.row) :
    Writes now woken store (reserveTargets execution receiptID fireID reservations store).1 ∧
      ∃ runs, (reserveTargets execution receiptID fireID reservations store).1 =
        { store with runs := runs } := by
  induction reservations generalizing store with
  | nil => exact ⟨.refl, store.runs, rfl⟩
  | cons reservation _ ih =>
    obtain ⟨htarget, hrest⟩ := forall_mem_cons.mp htargets
    have hinsert : Writes now woken store (store.insertRunIfAbsent (reservation.run execution fireID)).2 :=
      insertRunIfAbsent_writes _ h rfl ⟨_, htarget, rfl⟩
    obtain ⟨runs, hruns⟩ := insertRunIfAbsent_eq store (reservation.run execution fireID)
    rw [reserveTargets]
    dsimp only
    rw [hruns] at hinsert ⊢
    have hmay : MayReserve now { store with runs := runs } execution.job.row fireID :=
      ⟨h.mem, h.fire, h.live⟩
    obtain ⟨hwrites, runs', hruns'⟩ := ih hmay hrest
    exact ⟨hinsert.trans hwrites, runs', hruns'⟩

lemma reserveTargets_not_succeeded : ∀ receipt ∈ (reserveTargets execution receiptID fireID reservations store).2,
      receipt.outcome ≠ .succeeded := by
  induction reservations generalizing store with
  | nil => simp [reserveTargets]
  | cons _ _ ih =>
    intro receipt hreceipt
    rw [reserveTargets] at hreceipt
    rcases mem_append.mp hreceipt with hfirst | hothers
    · split_ifs at hfirst
      · obtain ⟨_, -, rfl⟩ := List.mem_map.mp hfirst
        simp
      · cases hfirst
    · exact ih receipt hothers

omit [AutomationHashes] in
lemma executionTargets_identities {targets : List ExecutionTarget} (hkind : ¬row.IsDelay)
    (h : executionTargets store row = .ok targets) :
    targets.map automationTargetIdentity = runIdentities store row := by
  unfold executionTargets at h
  unfold AutomationDefinition.IsDelay at hkind
  split at hkind
  · exact absurd trivial hkind
  · next recurrence hrecurring =>
    split at h <;> cases h
    · next sessionID hscope hsession =>
      unfold runIdentities
      rw [hrecurring, hscope, hsession]
      rfl
    · next hscope =>
      unfold runIdentities
      rw [hrecurring, hscope]
      rfl
    · next hscope =>
      unfold runIdentities
      rw [hrecurring, hscope]
      rw [List.map_map]
      rfl

/-! ## Recurring definitions -/

def unplannedRuns (reserved : AutomationStore) (planned : List AutomationRunReceipt) (runIDs : List String) :
    List AutomationRun :=
  (runIDs.filterMap reserved.findRun).filter fun run => ∀ receipt ∈ planned, receipt.runID ≠ run.id

structure Reserves [RecurrenceRules] (now : ℤ) (store store' : AutomationStore)
    (execution : AutomationExecution) (reservations : List TargetReservation) (receiptID : String → String)
    (ended : Bool) : Prop where
  steps : ∃ fire lease settled existing,
    claimedFire store execution = .ok fire ∧
    automationLease store.toAutomationDatabase execution.definitionID = some lease ∧
    lease.ownerOccurrenceID = execution.owner ∧ now < lease.expiresAt ∧
    beginReservation store execution fire execution.now = .ok settled ∧
    let reserved := (reserveTargets execution receiptID fire.id reservations settled).1
    let planned := (reserveTargets execution receiptID fire.id reservations settled).2
    let runIDs := reservations.map fun reservation => targetRunID fire.id reservation.target
    (unplannedRuns reserved planned runIDs).mapM
      (projectAutomationRunInTransaction reserved.toAutomationDatabase) = .ok existing ∧
    ((ended = true ∧ (∀ runID ∈ runIDs, reservedTerminal reserved planned existing runID) ∧
        ∃ fronted written, settleTerminalReservation reserved execution fire existing = .ok fronted ∧
          insertRunReceipts planned fronted = .ok written ∧
          store' = releaseAutomationLease written execution.definitionID lease.id execution.owner execution.now) ∨
      ended = false ∧
        (reservations = [] ∨ ∃ runID ∈ runIDs, ¬reservedTerminal reserved planned existing runID) ∧
        insertRunReceipts planned reserved = .ok store')

omit [AutomationHashes] in
lemma mapM_projecting_eq_ok {β γ : Type} {f : β → Except AutomationError γ} {xs : List β} {ys : List γ} :
    xs.mapM (fun x => projecting (f x)) = .ok ys ↔ xs.mapM f = .ok ys := by
  induction xs generalizing ys with
  | nil => simp
  | cons _ _ ih =>
    rw [mapM_cons, mapM_cons, bind_eq_ok, bind_eq_ok]
    unfold projecting
    simp only [mapError_eq_ok]
    refine exists_congr fun y => and_congr_right fun _ => ?_
    rw [bind_eq_ok, bind_eq_ok]
    exact exists_congr fun ys' => and_congr ih (by rw [pure_eq_ok, pure_eq_ok])

lemma reserveRecurring_eq_ok [RecurrenceRules] {ended : Bool}
    (h : reserveRecurring store execution reservations receiptID at_ = .ok (ended, store')) :
    Reserves at_ store store' execution reservations receiptID ended := by
  unfold reserveRecurring at h
  obtain ⟨fire, hfire, h⟩ := bind_eq_ok.mp h
  obtain ⟨lease, hlease, h⟩ := bind_eq_ok.mp h
  obtain ⟨hcurrent, howner, hlive⟩ := ownedLease_eq_ok.mp hlease
  obtain ⟨settled, hsettled, h⟩ := bind_eq_ok.mp h
  obtain ⟨existing, hexisting, h⟩ := bind_eq_ok.mp h
  refine ⟨fire, lease, settled, existing, hfire, hcurrent, howner, hlive, hsettled,
    mapM_projecting_eq_ok.mp hexisting, ?_⟩
  split_ifs at h with hover
  · obtain ⟨fronted, hfronted, h⟩ := bind_eq_ok.mp h
    obtain ⟨written, hwritten, h⟩ := bind_eq_ok.mp h
    rw [pure_eq_ok, Prod.mk.injEq] at h
    exact .inl ⟨h.1.symm, hover.2, fronted, written, hfronted, hwritten, h.2.symm⟩
  · obtain ⟨_, hwritten, h⟩ := bind_eq_ok.mp h
    rw [pure_eq_ok, Prod.mk.injEq] at h
    obtain ⟨rfl, rfl⟩ := h
    refine .inr ⟨rfl, ?_, hwritten⟩
    by_cases hnone : reservations = []
    · exact .inl hnone
    · right
      by_contra hall
      push Not at hall
      exact hover ⟨hnone, hall⟩

lemma settleTerminalReservation_eq_ok [RecurrenceRules] {existing : List AutomationRunRow}
    (h : settleTerminalReservation store execution fire existing = .ok store') :
    ∃ latest, latestAutomationDefinitionInTransaction store.toAutomationDatabase execution.definitionID =
        some latest ∧ latest.id = execution.revisionID ∧
      ((∃ recurrence, fire.origin = .scheduled ∧ execution.job.row.kind = .recurring recurrence ∧
          ∃ completedAt, completedAt =
              (existing.map fun row => row.completedAt.getD execution.now).foldl max execution.now ∧
            ensureScheduledAutomationFireFrontierInTransaction store latest
              (RecurrenceRules.nextRun recurrence completedAt) completedAt = .ok store') ∨
        (fire.origin ≠ .scheduled ∨ execution.job.row.IsDelay) ∧
          restoreScheduledAutomationFireFrontierInTransaction store latest = .ok store') := by
  unfold settleTerminalReservation at h
  obtain ⟨latest, hlatest, h⟩ := bind_eq_ok.mp h
  obtain ⟨hlatest, hid⟩ := requireRevision_eq_ok hlatest
  refine ⟨latest, hlatest, hid, ?_⟩
  split at h
  · next recurrence horigin hkind => exact .inl ⟨recurrence, horigin, hkind, _, rfl, h⟩
  · next hother =>
    refine .inr ⟨?_, h⟩
    by_cases horigin : fire.origin = .scheduled
    · right
      unfold AutomationDefinition.IsDelay
      split
      · trivial
      · next recurrence hkind => exact hother recurrence horigin hkind
    · exact .inl horigin

lemma restoreScheduledFrontier_writes [RecurrenceRules]
    (h : restoreScheduledAutomationFireFrontierInTransaction store row = .ok store') :
    Writes now woken store store' ∧ ∃ frontiers, store' = { store with frontiers := frontiers } := by
  obtain ⟨_, -, ⟨-, rfl⟩ | ⟨-, _, -, rfl⟩ | ⟨-, -, -, rfl⟩⟩ := restoreScheduledFrontier_eq_ok h
  · exact ⟨frontiers_writes _, _, rfl⟩
  · exact ⟨frontiers_writes _, _, rfl⟩
  · exact ⟨frontiers_writes _, _, rfl⟩

lemma settleTerminalReservation_writes [RecurrenceRules] {existing : List AutomationRunRow}
    (h : settleTerminalReservation store execution fire existing = .ok store') :
    Writes now woken store store' := by
  obtain ⟨_, hlatest, -, ⟨_, -, -, _, -, hscheduled⟩ | ⟨-, hrestored⟩⟩ :=
    settleTerminalReservation_eq_ok h
  · exact ensureScheduledFrontier_writes (mem_current.mp (latestAutomationDefinition_mem hlatest).1).1 hscheduled
  · exact (restoreScheduledFrontier_writes hrestored).1

lemma Reserves.writes [RecurrenceRules] (hinv : StoreInv now store) {ended : Bool}
    (hrow : execution.job.row ∈ store.definitions)
    (htargets : ∀ reservation ∈ reservations,
      automationTargetIdentity reservation.target ∈ runIdentities store execution.job.row)
    (h : Reserves now store store' execution reservations receiptID ended) :
    Writes now woken store store' := by
  obtain ⟨fire, lease, _, _, hfire, hlease, -, hlive, hsettled, -, hrest⟩ := h.steps
  obtain ⟨hfound, -, -, -, hrevision⟩ := claimedFire_eq_ok hfire
  obtain ⟨hbegin, receipts, rfl⟩ := beginReservation_writes now woken hfound hsettled
  have hmay : MayReserve now { store with attemptReceipts := receipts } execution.job.row fire.id :=
    ⟨hrow, ⟨fire, mem_of_find?_eq_some hfound, rfl, hrevision⟩, lease, hlease, hlive⟩
  obtain ⟨hreserve, -⟩ := reserveTargets_writes receiptID hmay htargets
  have hreserved := hbegin.trans hreserve
  have hplanned : ∀ receipt ∈ (reserveTargets execution receiptID fire.id reservations
      { store with attemptReceipts := receipts }).2, receipt.outcome = .succeeded → woken receipt.runID :=
    fun receipt hreceipt hsucceeded => absurd hsucceeded (reserveTargets_not_succeeded receipt hreceipt)
  rcases hrest with ⟨-, -, _, _, hfronted, hwritten, rfl⟩ | ⟨-, -, hwritten⟩
  · have hbefore := hreserved.trans
      ((settleTerminalReservation_writes hfronted).trans (insertRunReceipts_writes hplanned hwritten))
    exact hbefore.trans (releaseAutomationLease_writes (hinv.writes hbefore).leaseIDs)
  · exact hreserved.trans (insertRunReceipts_writes hplanned hwritten)

lemma settleTarget_eq_ok {runID : String} {result : TargetResult}
    (h : settleTarget receiptID exhausted retryAt committedAt runID result store = .ok store') :
    ∃ run prior, store.findRun runID = some run ∧
      projectAutomationRunInTransaction store.toAutomationDatabase run = .ok prior ∧
      (((prior.outcome = .succeeded ∨ prior.outcome = .disposition) ∧ store' = store) ∨
        ¬(prior.outcome = .succeeded ∨ prior.outcome = .disposition) ∧
          store.insertRunReceipt ⟨receiptID runID, runID, result.outcome exhausted retryAt, committedAt⟩ =
            .ok store') := by
  unfold settleTarget at h
  obtain ⟨run, hrun, h⟩ := bind_eq_ok.mp h
  obtain ⟨prior, hprior, h⟩ := bind_eq_ok.mp h
  unfold projecting at hprior
  rw [mapError_eq_ok] at hprior
  refine ⟨run, prior, getOrThrow_eq_ok.mp hrun, hprior, ?_⟩
  split_ifs at h with hsettled
  · rw [pure_eq_ok] at h
    exact .inl ⟨hsettled, h.symm⟩
  · exact .inr ⟨hsettled, h⟩

omit [AutomationHashes] in
lemma TargetResult.outcome_eq_succeeded {result : TargetResult} :
    result.outcome exhausted retryAt = .succeeded ↔ result = .succeeded := by
  cases result with
  | rejected => cases exhausted <;> simp [TargetResult.outcome]
  | succeeded | targetDeleted | missionClosed => simp [TargetResult.outcome]

lemma settleTargets_writes {results : List (String × TargetResult)}
    (hwoken : ∀ result ∈ results, result.2 = .succeeded → woken result.1)
    (h : settleTargets receiptID exhausted retryAt committedAt results store = .ok store') :
    Writes now woken store store' := by
  induction results generalizing store with
  | nil =>
    rw [settleTargets, Except.ok.injEq] at h
    exact h ▸ .refl
  | cons result _ ih =>
    rw [settleTargets, bind_eq_ok] at h
    obtain ⟨_, hnext, hrest⟩ := h
    obtain ⟨hfirst, hothers⟩ := forall_mem_cons.mp hwoken
    obtain ⟨_, _, -, -, ⟨-, rfl⟩ | ⟨-, hreceipt⟩⟩ := settleTarget_eq_ok hnext
    · exact ih hothers hrest
    · have hsucceeded : result.2.outcome exhausted retryAt = .succeeded → woken result.1 :=
        fun houtcome => hfirst (TargetResult.outcome_eq_succeeded.mp houtcome)
      exact (insertRunReceipt_writes hsucceeded hreceipt).trans (ih hothers hrest)

lemma settledFrontier_eq_ok [RecurrenceRules] (hkind : ¬execution.job.row.IsDelay)
    (h : settledFrontier store execution fire retryAt committedAt = .ok store') :
    (retryAt ≠ 0 ∧
      deferAutomationFireFrontierInTransaction store execution.definitionID fire.id retryAt = .ok store') ∨
    retryAt = 0 ∧ ∃ recurrence latest, execution.job.row.kind = .recurring recurrence ∧
      latestAutomationDefinitionInTransaction store.toAutomationDatabase execution.definitionID =
        some latest ∧ latest.id = execution.revisionID ∧
      ((fire.origin = .scheduled ∧ ensureScheduledAutomationFireFrontierInTransaction store latest
          (RecurrenceRules.nextRun recurrence committedAt) committedAt = .ok store') ∨
        fire.origin ≠ .scheduled ∧
          restoreScheduledAutomationFireFrontierInTransaction store latest = .ok store') := by
  unfold settledFrontier at h
  split_ifs at h with hretry horigin
  · exact .inl ⟨hretry, h⟩
  · refine .inr ⟨not_not.mp hretry, ?_⟩
    split at h
    · next dueAt hdelay =>
      unfold AutomationDefinition.IsDelay at hkind
      rw [hdelay] at hkind
      exact absurd trivial hkind
    · next recurrence hrecurring =>
      obtain ⟨latest, hlatest, h⟩ := bind_eq_ok.mp h
      obtain ⟨hlatest, hid⟩ := requireRevision_eq_ok hlatest
      exact ⟨recurrence, latest, hrecurring, hlatest, hid, .inl ⟨horigin, h⟩⟩
  · refine .inr ⟨not_not.mp hretry, ?_⟩
    split at h
    · next dueAt hdelay =>
      unfold AutomationDefinition.IsDelay at hkind
      rw [hdelay] at hkind
      exact absurd trivial hkind
    · next recurrence hrecurring =>
      obtain ⟨latest, hlatest, h⟩ := bind_eq_ok.mp h
      obtain ⟨hlatest, hid⟩ := requireRevision_eq_ok hlatest
      exact ⟨recurrence, latest, hrecurring, hlatest, hid, .inr ⟨horigin, h⟩⟩

lemma settleRecurring_eq_ok [RecurrenceRules] {results : List (ExecutionTarget × TargetResult)}
    (h : settleRecurring store execution results receiptID committedAt = .ok store') :
    ∃ fire lease fronted written, claimedFire store execution = .ok fire ∧
      automationLease store.toAutomationDatabase execution.definitionID = some lease ∧
      lease.ownerOccurrenceID = execution.owner ∧ committedAt < lease.expiresAt ∧
      settledFrontier store execution fire (settledRetryAt execution results committedAt) committedAt =
        .ok fronted ∧
      settleTargets receiptID (Exhausted execution results) (settledRetryAt execution results committedAt)
        committedAt (results.map fun result => (targetRunID fire.id result.1, result.2)) fronted = .ok written ∧
      store' = releaseAutomationLease written execution.definitionID lease.id execution.owner
        committedAt := by
  unfold settleRecurring at h
  obtain ⟨fire, hfire, h⟩ := bind_eq_ok.mp h
  obtain ⟨lease, hlease, h⟩ := bind_eq_ok.mp h
  obtain ⟨hcurrent, howner, hlive⟩ := ownedLease_eq_ok.mp hlease
  obtain ⟨fronted, hfronted, h⟩ := bind_eq_ok.mp h
  obtain ⟨written, hwritten, h⟩ := bind_eq_ok.mp h
  rw [pure_eq_ok] at h
  exact ⟨fire, lease, fronted, written, hfire, hcurrent, howner, hlive, hfronted, hwritten, h.symm⟩

lemma settleRecurring_writes [RecurrenceRules] (hinv : StoreInv now store)
    (hkind : ¬execution.job.row.IsDelay) {results : List (ExecutionTarget × TargetResult)}
    (hwoken : ∀ result ∈ results, result.2 = .succeeded → woken (targetRunID execution.fireID result.1))
    (h : settleRecurring store execution results receiptID committedAt = .ok store') :
    Writes now woken store store' := by
  obtain ⟨fire, _, fronted, _, hfire, -, -, -, hfronted, hwritten, rfl⟩ := settleRecurring_eq_ok h
  obtain ⟨-, hfireID, -⟩ := claimedFire_eq_ok hfire
  have hresults : ∀ result ∈ results.map fun result => (targetRunID fire.id result.1, result.2),
      result.2 = .succeeded → woken result.1 := by
    intro result hresult hsucceeded
    obtain ⟨entry, hentry, rfl⟩ := List.mem_map.mp hresult
    rw [hfireID]
    exact hwoken entry hentry hsucceeded
  have hfront : Writes now woken store fronted := by
    rcases settledFrontier_eq_ok hkind hfronted with
      ⟨-, hdeferred⟩ | ⟨-, recurrence, latest, -, hlatest, -, ⟨-, hscheduled⟩ | ⟨-, hrestored⟩⟩
    · obtain ⟨_, -, -, rfl⟩ := deferAutomationFireFrontier_eq_ok hdeferred
      exact frontiers_writes _
    · exact ensureScheduledFrontier_writes (mem_current.mp (latestAutomationDefinition_mem hlatest).1).1 hscheduled
    · exact (restoreScheduledFrontier_writes hrestored).1
  have hbefore := hfront.trans (settleTargets_writes hresults hwritten)
  exact hbefore.trans (releaseAutomationLease_writes (hinv.writes hbefore).leaseIDs)

/-! ## One-shot delays -/

def delayRun (execution : AutomationExecution) (fireID : String) (mission : StoredMissionReservation) :
    AutomationRun :=
  ⟨delayRunID fireID, execution.revisionID, fireID, none, mission, execution.now⟩

lemma isTargetRun_delayRun (hkind : execution.job.row.IsDelay) :
    IsTargetRun store execution.job.row (delayRun execution fireID mission) := by
  refine ⟨"delay", ?_, rfl⟩
  unfold AutomationDefinition.IsDelay at hkind
  split at hkind
  · next dueAt hdelay =>
    unfold runIdentities
    rw [hdelay]
    exact mem_singleton_self _
  · exact absurd hkind id

lemma settleDeletedDelayTarget_eq_ok {receiptID : String}
    (h : settleDeletedDelayTarget store execution tombstoneID receiptID at_ = .ok store') :
    ∃ fire lease settled run projected deleted disposed, claimedFire store execution = .ok fire ∧
      automationLease store.toAutomationDatabase execution.definitionID = some lease ∧
      lease.ownerOccurrenceID = execution.owner ∧ at_ < lease.expiresAt ∧
      beginReservation store execution fire at_ = .ok settled ∧
      let reserved := (settled.insertRunIfAbsent (delayRun execution fire.id .none)).2
      reserved.findRun (delayRunID fire.id) = some run ∧
      projectAutomationRunInTransaction reserved.toAutomationDatabase run = .ok projected ∧
      ((∃ latest, latestAutomationDefinitionInTransaction reserved.toAutomationDatabase
            execution.definitionID = some latest ∧ latest.id = execution.revisionID ∧
          appendAutomationTombstoneInTransaction reserved latest tombstoneID = .ok deleted) ∨
        (∀ latest, latestAutomationDefinitionInTransaction reserved.toAutomationDatabase
            execution.definitionID = some latest → latest.id ≠ execution.revisionID) ∧
          deleted = reserved) ∧
      (((projected.outcome = .running ∨ projected.outcome = .retryWait) ∧ deleted.insertRunReceipt
            ⟨receiptID, delayRunID fire.id, .disposition .targetDeleted, at_⟩ = .ok disposed) ∨
        ¬(projected.outcome = .running ∨ projected.outcome = .retryWait) ∧ disposed = deleted) ∧
      store' = releaseAutomationLease disposed execution.definitionID lease.id execution.owner at_ := by
  unfold settleDeletedDelayTarget at h
  obtain ⟨fire, hfire, h⟩ := bind_eq_ok.mp h
  obtain ⟨lease, hlease, h⟩ := bind_eq_ok.mp h
  obtain ⟨hcurrent, howner, hlive⟩ := ownedLease_eq_ok.mp hlease
  obtain ⟨settled, hsettled, h⟩ := bind_eq_ok.mp h
  obtain ⟨run, hrun, h⟩ := bind_eq_ok.mp h
  obtain ⟨projected, hprojected, h⟩ := bind_eq_ok.mp h
  obtain ⟨deleted, hdeleted, h⟩ := bind_eq_ok.mp h
  obtain ⟨disposed, hdisposed, h⟩ := bind_eq_ok.mp h
  unfold projecting at hprojected
  rw [mapError_eq_ok] at hprojected
  rw [pure_eq_ok] at h
  refine ⟨fire, lease, settled, run, projected, deleted, disposed, hfire, hcurrent, howner, hlive, hsettled,
    getOrThrow_eq_ok.mp hrun, hprojected, ?_, ?_, h.symm⟩
  · split at hdeleted
    · next latest hlatest =>
      split_ifs at hdeleted with hsame
      · exact .inl ⟨latest, hlatest, hsame, hdeleted⟩
      · refine .inr ⟨?_, (Except.ok.inj hdeleted).symm⟩
        rintro other hother
        have heq : latest = other := Option.some.inj (hlatest.symm.trans hother)
        exact heq ▸ hsame
    · next hnone =>
      refine .inr ⟨?_, (Except.ok.inj hdeleted).symm⟩
      rintro _ hother
      exact nomatch hnone.symm.trans hother
  · split_ifs at hdisposed with hopen
    · exact .inl ⟨hopen, hdisposed⟩
    · exact .inr ⟨hopen, (Except.ok.inj hdisposed).symm⟩

lemma settleDeletedDelayTarget_writes (hinv : StoreInv now store)
    (hrow : execution.job.row ∈ store.definitions) (hkind : execution.job.row.IsDelay) {receiptID : String}
    (h : settleDeletedDelayTarget store execution tombstoneID receiptID now = .ok store') :
    Writes now woken store store' := by
  obtain ⟨fire, lease, settled, run, projected, deleted, disposed, hfire, hlease, -, hlive, hsettled, -, -,
    hdeleted, hdisposed, rfl⟩ := settleDeletedDelayTarget_eq_ok h
  obtain ⟨hfound, -, -, -, hrevision⟩ := claimedFire_eq_ok hfire
  obtain ⟨hbegin, receipts, rfl⟩ := beginReservation_writes now woken hfound hsettled
  have hmay : MayReserve now { store with attemptReceipts := receipts } execution.job.row fire.id :=
    ⟨hrow, ⟨fire, mem_of_find?_eq_some hfound, rfl, hrevision⟩, lease, hlease, hlive⟩
  have hreserve := hbegin.trans (insertRunIfAbsent_writes (delayRun execution fire.id .none) hmay rfl
    (isTargetRun_delayRun hkind))
  have hdelete : Writes now woken store deleted := by
    refine hreserve.trans ?_
    rcases hdeleted with ⟨_, -, -, htombstone⟩ | ⟨-, rfl⟩
    · exact appendAutomationTombstone_writes htombstone
    · exact .refl
  have hdispose : Writes now woken store disposed := by
    rcases hdisposed with ⟨-, hreceipt⟩ | ⟨-, rfl⟩
    · exact hdelete.trans (insertRunReceipt_writes (by simp) hreceipt)
    · exact hdelete
  exact hdispose.trans (releaseAutomationLease_writes (hinv.writes hdispose).leaseIDs)

lemma reserveDelay_eq_ok {receiptID : String}
    (h : reserveDelay store execution mission tombstoneID receiptID at_ = .ok store') :
    ∃ fire lease settled, claimedFire store execution = .ok fire ∧
      automationLease store.toAutomationDatabase execution.definitionID = some lease ∧
      lease.ownerOccurrenceID = execution.owner ∧ at_ < lease.expiresAt ∧
      beginReservation store execution fire execution.now = .ok settled ∧
      let inserted := settled.insertRunIfAbsent (delayRun execution fire.id mission)
      ((∃ closureEventID latest deleted disposed, inserted.1 = true ∧ mission = .closed closureEventID ∧
          latestAutomationDefinitionInTransaction inserted.2.toAutomationDatabase execution.definitionID =
            some latest ∧ latest.id = execution.revisionID ∧
          appendAutomationTombstoneInTransaction inserted.2 latest tombstoneID = .ok deleted ∧
          deleted.insertRunReceipt ⟨receiptID, delayRunID fire.id,
            .disposition (.missionClosed closureEventID), execution.now⟩ = .ok disposed ∧
          store' = releaseAutomationLease disposed execution.definitionID lease.id execution.owner execution.now) ∨
        (inserted.1 = false ∨ ∀ closureEventID, mission ≠ .closed closureEventID) ∧
          store' = inserted.2) := by
  unfold reserveDelay at h
  obtain ⟨fire, hfire, h⟩ := bind_eq_ok.mp h
  obtain ⟨lease, hlease, h⟩ := bind_eq_ok.mp h
  obtain ⟨hcurrent, howner, hlive⟩ := ownedLease_eq_ok.mp hlease
  obtain ⟨settled, hsettled, h⟩ := bind_eq_ok.mp h
  refine ⟨fire, lease, settled, hfire, hcurrent, howner, hlive, hsettled, ?_⟩
  have hrun : (⟨delayRunID fire.id, execution.revisionID, fire.id, none, mission, execution.now⟩ :
      AutomationRun) = delayRun execution fire.id mission := rfl
  dsimp only at h ⊢
  rw [hrun] at h
  generalize settled.insertRunIfAbsent (delayRun execution fire.id mission) = inserted at h ⊢
  obtain ⟨inserted, _⟩ := inserted
  dsimp only at h ⊢
  cases inserted with
  | false => exact .inr ⟨.inl rfl, (pure_eq_ok.mp h).symm⟩
  | true =>
    cases mission with
    | none | opened => exact .inr ⟨.inr fun _ hclosed => (nomatch hclosed), (pure_eq_ok.mp h).symm⟩
    | closed closureEventID =>
      obtain ⟨latest, hlatest, h⟩ := bind_eq_ok.mp h
      obtain ⟨deleted, hdeleted, h⟩ := bind_eq_ok.mp h
      obtain ⟨disposed, hdisposed, h⟩ := bind_eq_ok.mp h
      obtain ⟨hlatest, hid⟩ := requireRevision_eq_ok hlatest
      exact .inl ⟨closureEventID, latest, deleted, disposed, rfl, rfl, hlatest, hid, hdeleted, hdisposed,
        (pure_eq_ok.mp h).symm⟩

lemma reserveDelay_writes (hinv : StoreInv now store) (hrow : execution.job.row ∈ store.definitions)
    (hkind : execution.job.row.IsDelay) {receiptID : String}
    (h : reserveDelay store execution mission tombstoneID receiptID now = .ok store') :
    Writes now woken store store' := by
  obtain ⟨fire, lease, _, hfire, hlease, -, hlive, hsettled, hrest⟩ := reserveDelay_eq_ok h
  obtain ⟨hfound, -, -, -, hrevision⟩ := claimedFire_eq_ok hfire
  obtain ⟨hbegin, receipts, rfl⟩ := beginReservation_writes now woken hfound hsettled
  have hmay : MayReserve now { store with attemptReceipts := receipts } execution.job.row fire.id :=
    ⟨hrow, ⟨fire, mem_of_find?_eq_some hfound, rfl, hrevision⟩, lease, hlease, hlive⟩
  have hreserve := hbegin.trans (insertRunIfAbsent_writes (delayRun execution fire.id mission) hmay rfl
    (isTargetRun_delayRun hkind))
  rcases hrest with ⟨_, _, _, _, -, -, -, -, hdeleted, hdisposed, rfl⟩ |
    ⟨-, rfl⟩
  · have hbefore := hreserve.trans
      ((appendAutomationTombstone_writes hdeleted).trans (insertRunReceipt_writes (by simp) hdisposed))
    exact hbefore.trans (releaseAutomationLease_writes (hinv.writes hbefore).leaseIDs)
  · exact hreserve

lemma settleAutomationMissionClosed_eq_ok {closureEventID receiptID : String}
    (h : settleAutomationMissionClosed store execution closureEventID tombstoneID receiptID at_ = .ok store') :
    (store' = store ∧ ∃ receipt ∈ store.receiptsOf (delayRunID execution.fireID), receipt.outcome.IsTerminal) ∨
      ∃ lease latest deleted disposed,
        automationLease store.toAutomationDatabase execution.definitionID = some lease ∧
        lease.ownerOccurrenceID = execution.owner ∧ at_ < lease.expiresAt ∧
        latestAutomationDefinitionInTransaction store.toAutomationDatabase execution.definitionID =
          some latest ∧ latest.id = execution.revisionID ∧
        appendAutomationTombstoneInTransaction store latest tombstoneID = .ok deleted ∧
        deleted.insertRunReceipt ⟨receiptID, delayRunID execution.fireID,
          .disposition (.missionClosed closureEventID), at_⟩ = .ok disposed ∧
        store' = releaseAutomationLease disposed execution.definitionID lease.id execution.owner at_ := by
  unfold settleAutomationMissionClosed at h
  dsimp only at h
  split at h
  · next existing hexisting =>
    replace h := of_throwWhen h
    rw [pure_eq_ok] at h
    exact .inl ⟨h.symm, existing, mem_of_find?_eq_some hexisting, by
      simpa using find?_some hexisting⟩
  · obtain ⟨lease, hlease, h⟩ := bind_eq_ok.mp h
    obtain ⟨hcurrent, howner, hlive⟩ := ownedLease_eq_ok.mp hlease
    obtain ⟨latest, hlatest, h⟩ := bind_eq_ok.mp h
    obtain ⟨deleted, hdeleted, h⟩ := bind_eq_ok.mp h
    obtain ⟨disposed, hdisposed, h⟩ := bind_eq_ok.mp h
    obtain ⟨hlatest, hid⟩ := requireRevision_eq_ok hlatest
    rw [pure_eq_ok] at h
    exact .inr ⟨lease, latest, deleted, disposed, hcurrent, howner, hlive, hlatest, hid, hdeleted,
      hdisposed, h.symm⟩

lemma settleAutomationMissionClosed_writes (hinv : StoreInv now store) {closureEventID receiptID : String}
    (h : settleAutomationMissionClosed store execution closureEventID tombstoneID receiptID at_ =
      .ok store') : Writes now woken store store' := by
  rcases settleAutomationMissionClosed_eq_ok h with
    ⟨rfl, -⟩ | ⟨lease, latest, deleted, disposed, -, -, -, -, -, hdeleted, hdisposed, rfl⟩
  · exact .refl
  · have hbefore : Writes now woken store disposed :=
      (appendAutomationTombstone_writes hdeleted).trans (insertRunReceipt_writes (by simp) hdisposed)
    exact hbefore.trans (releaseAutomationLease_writes (hinv.writes hbefore).leaseIDs)

lemma completeDelay_eq_ok {receiptID : String}
    (h : completeDelay store execution tombstoneID receiptID at_ = .ok store') :
    ∃ lease latest deleted succeeded,
      automationLease store.toAutomationDatabase execution.definitionID = some lease ∧
      lease.ownerOccurrenceID = execution.owner ∧ at_ < lease.expiresAt ∧
      latestAutomationDefinitionInTransaction store.toAutomationDatabase execution.definitionID =
        some latest ∧ latest.id = execution.revisionID ∧
      appendAutomationTombstoneInTransaction store latest tombstoneID = .ok deleted ∧
      (((∃ receipt ∈ store.receiptsOf (delayRunID execution.fireID), receipt.outcome = .succeeded) ∧
          succeeded = deleted) ∨
        (¬∃ receipt ∈ store.receiptsOf (delayRunID execution.fireID), receipt.outcome = .succeeded) ∧
          deleted.insertRunReceipt ⟨receiptID, delayRunID execution.fireID, .succeeded, at_⟩ = .ok succeeded) ∧
      store' = releaseAutomationLease succeeded execution.definitionID lease.id execution.owner at_ := by
  unfold completeDelay at h
  obtain ⟨lease, hlease, h⟩ := bind_eq_ok.mp h
  obtain ⟨hcurrent, howner, hlive⟩ := ownedLease_eq_ok.mp hlease
  obtain ⟨latest, hlatest, h⟩ := bind_eq_ok.mp h
  obtain ⟨deleted, hdeleted, h⟩ := bind_eq_ok.mp h
  obtain ⟨succeeded, hsucceeded, h⟩ := bind_eq_ok.mp h
  obtain ⟨hlatest, hid⟩ := requireRevision_eq_ok hlatest
  rw [pure_eq_ok] at h
  refine ⟨lease, latest, deleted, succeeded, hcurrent, howner, hlive, hlatest, hid, hdeleted, ?_, h.symm⟩
  split_ifs at hsucceeded with hover
  · exact .inl ⟨hover, (Except.ok.inj hsucceeded).symm⟩
  · exact .inr ⟨hover, hsucceeded⟩

lemma completeDelay_writes (hinv : StoreInv now store) {receiptID : String}
    (hwoken : woken (delayRunID execution.fireID))
    (h : completeDelay store execution tombstoneID receiptID at_ = .ok store') :
    Writes now woken store store' := by
  obtain ⟨_, _, _, succeeded, -, -, -, -, -, hdeleted, hsucceeded, rfl⟩ :=
    completeDelay_eq_ok h
  have hbefore : Writes now woken store succeeded := by
    refine (appendAutomationTombstone_writes hdeleted).trans ?_
    rcases hsucceeded with ⟨-, rfl⟩ | ⟨-, hreceipt⟩
    · exact .refl
    · exact insertRunReceipt_writes (fun _ => hwoken) hreceipt
  exact hbefore.trans (releaseAutomationLease_writes (hinv.writes hbefore).leaseIDs)

/-! ## Failures and renewals -/

lemma failedFrontier_eq_ok [RecurrenceRules] {fire : Option AutomationFire} {retryAt : Option ℤ}
    (h : failedFrontier store execution fire retryAt tombstoneID at_ = .ok store') :
    (∃ instant known, retryAt = some instant ∧ fire = some known ∧
      deferAutomationFireFrontierInTransaction store execution.definitionID known.id instant = .ok store') ∨
    ((retryAt = none ∨ fire = none) ∧ ((¬execution.job.row.IsDelay ∧
          ((fire = none ∨ ∀ latest, latestAutomationDefinitionInTransaction store.toAutomationDatabase
              execution.definitionID = some latest → latest.id ≠ execution.revisionID) ∧ store' = store ∨
            ∃ known latest recurrence, fire = some known ∧
              execution.job.row.kind = .recurring recurrence ∧
              latestAutomationDefinitionInTransaction store.toAutomationDatabase execution.definitionID =
                some latest ∧ latest.id = execution.revisionID ∧
              ((known.origin = .scheduled ∧ latest.active = true ∧
                  ensureScheduledAutomationFireFrontierInTransaction store latest
                    (RecurrenceRules.nextRun recurrence at_) at_ = .ok store') ∨
                ¬(known.origin = .scheduled ∧ latest.active = true) ∧
                  restoreScheduledAutomationFireFrontierInTransaction store latest = .ok store'))) ∨
        execution.job.row.IsDelay ∧ ∃ latest,
          latestAutomationDefinitionInTransaction store.toAutomationDatabase execution.definitionID =
            some latest ∧ latest.id = execution.revisionID ∧
          appendAutomationTombstoneInTransaction store latest tombstoneID = .ok store')) := by
  unfold failedFrontier at h
  dsimp only at h
  split at h
  · next instant known => exact .inl ⟨instant, known, rfl, rfl, h⟩
  · next hother =>
    have hnone : retryAt = none ∨ fire = none := by
      cases retryAt with
      | none => exact .inl rfl
      | some instant =>
        cases fire with
        | none => exact .inr rfl
        | some known => exact absurd rfl (hother instant known rfl)
    refine .inr ⟨hnone, ?_⟩
    unfold AutomationDefinition.IsDelay
    cases hkind : execution.job.row.kind with
    | delay =>
      rw [hkind] at h
      obtain ⟨latest, hlatest, h⟩ := bind_eq_ok.mp h
      obtain ⟨hlatest, hid⟩ := requireRevision_eq_ok hlatest
      exact .inr ⟨trivial, latest, hlatest, hid, h⟩
    | recurring recurrence =>
      rw [hkind] at h
      refine .inl ⟨id, ?_⟩
      dsimp only at h
      split at h
      · next known latest hlatest =>
        split_ifs at h with hid hscheduled
        · refine .inl ⟨.inr fun other hother => ?_, (Except.ok.inj h).symm⟩
          rw [hlatest, Option.some.injEq] at hother
          exact hother ▸ hid
        · exact .inr ⟨known, latest, recurrence, rfl, rfl, hlatest, not_not.mp hid,
            .inl ⟨hscheduled.1, hscheduled.2, h⟩⟩
        · exact .inr ⟨known, latest, recurrence, rfl, rfl, hlatest, not_not.mp hid, .inr ⟨hscheduled, h⟩⟩
      · next hmissing =>
        refine .inl ⟨or_iff_not_imp_left.mpr fun hsome latest hlatest => ?_, (Except.ok.inj h).symm⟩
        obtain ⟨known, hknown⟩ := Option.ne_none_iff_exists'.mp hsome
        exact (hmissing known latest hknown hlatest).elim

def failedAttemptOutcome (message : String) (retryAt : Option ℤ) : AutomationAttemptOutcome :=
  match retryAt with
  | none => .failed message
  | some retryAt => .retryWait retryAt message

def failedRunOutcome (message : String) (retryAt : Option ℤ) : AutomationReceiptOutcome :=
  match retryAt with
  | none => .failed message
  | some retryAt => .retryWait retryAt message

omit [AutomationHashes] in
lemma failedRunOutcome_ne_succeeded (message : String) (retryAt : Option ℤ) :
    failedRunOutcome message retryAt ≠ .succeeded := by
  cases retryAt <;> simp [failedRunOutcome]

lemma appendAutomationFailureReceipts_eq_ok {retryAt : Option ℤ}
    (h : appendAutomationFailureReceipts store execution message retryAt receiptID at_ = .ok store') :
    ∃ attemptID, truthy execution.job.attemptID = some attemptID ∧
      ((store.attemptReceipt attemptID = none ∧ store.insertAttemptReceipt
          ⟨attemptID, failedAttemptOutcome message retryAt, at_⟩ = .ok store') ∨
        ∃ receipt, store.attemptReceipt attemptID = some receipt ∧
          ((receipt.outcome ≠ .reserved ∧ store' = store) ∨ receipt.outcome = .reserved ∧ ∃ rows,
              (store.runsOf execution.fireID).mapM
                (projectAutomationRunInTransaction store.toAutomationDatabase) = .ok rows ∧
              (((∃ row ∈ rows, row.run.startedAt = execution.now ∧ row.outcome.isTerminal) ∧ store' = store) ∨
                (¬∃ row ∈ rows, row.run.startedAt = execution.now ∧ row.outcome.isTerminal) ∧
                  insertRunReceipts ((rows.filter fun row => ¬row.outcome.isTerminal).map fun row =>
                    ⟨receiptID row.run.id, row.run.id, failedRunOutcome message retryAt, at_⟩) store =
                      .ok store'))) := by
  unfold appendAutomationFailureReceipts at h
  obtain ⟨attemptID, hattempt, h⟩ := bind_eq_ok.mp h
  refine ⟨attemptID, getOrThrow_eq_ok.mp hattempt, ?_⟩
  split at h
  · next hnone =>
    refine .inl ⟨hnone, ?_⟩
    cases retryAt <;> exact h
  · next receipt hreceipt =>
    refine .inr ⟨receipt, hreceipt, ?_⟩
    split_ifs at h with hreserved
    · exact .inl ⟨hreserved, (pure_eq_ok.mp h).symm⟩
    · refine .inr ⟨not_not.mp hreserved, ?_⟩
      obtain ⟨fireID, hfireID, h⟩ := bind_eq_ok.mp h
      obtain ⟨rows, hrows, h⟩ := bind_eq_ok.mp h
      obtain ⟨hpending, -⟩ := truthy_eq_some.mp (getOrThrow_eq_ok.mp hfireID)
      have hof : execution.fireID = fireID := by
        unfold AutomationExecution.fireID
        rw [hpending, Option.getD_some]
      refine ⟨rows, hof ▸ mapM_projecting_eq_ok.mp hrows, ?_⟩
      split_ifs at h with hover
      · exact .inl ⟨hover, (pure_eq_ok.mp h).symm⟩
      · replace h := of_throwWhen h
        refine .inr ⟨hover, ?_⟩
        cases retryAt <;> exact h

lemma fail_eq_ok [RecurrenceRules] (h : fail store execution message tombstoneID receiptID at_ = .ok store') :
    store' = store ∨ ∃ lease fronted written,
      automationLease store.toAutomationDatabase execution.definitionID = some lease ∧
      lease.ownerOccurrenceID = execution.owner ∧ at_ < lease.expiresAt ∧
      failedFrontier store execution ((truthy execution.job.pendingFireID).bind store.findFire)
        (failureRetryAt execution at_) tombstoneID at_ = .ok fronted ∧
      appendAutomationFailureReceipts fronted execution message (failureRetryAt execution at_) receiptID at_ =
        .ok written ∧
      store' = releaseAutomationLease written execution.definitionID lease.id execution.owner at_ := by
  unfold fail at h
  split at h
  · exact .inl (Except.ok.inj h).symm
  · next lease hlease =>
    split_ifs at h with hlost
    · exact .inl (Except.ok.inj h).symm
    · push Not at hlost
      obtain ⟨fronted, hfronted, h⟩ := bind_eq_ok.mp h
      obtain ⟨written, hwritten, h⟩ := bind_eq_ok.mp h
      exact .inr ⟨lease, fronted, written, hlease, hlost.1, hlost.2, hfronted, hwritten, (pure_eq_ok.mp h).symm⟩

lemma fail_writes [RecurrenceRules] (hinv : StoreInv now store)
    (h : fail store execution message tombstoneID receiptID at_ = .ok store') :
    Writes now woken store store' := by
  rcases fail_eq_ok h with rfl | ⟨_, fronted, written, -, -, -, hfronted, hwritten, rfl⟩
  · exact .refl
  · have hfront : Writes now woken store fronted := by
      rcases failedFrontier_eq_ok hfronted with ⟨_, _, -, -, hdeferred⟩ |
        ⟨-, ⟨-, ⟨-, rfl⟩ | ⟨_, latest, _, -, -, hlatest, -, ⟨-, -, hscheduled⟩ | ⟨-, hrestored⟩⟩⟩ |
          ⟨-, latest, -, -, htombstone⟩⟩
      · obtain ⟨_, -, -, rfl⟩ := deferAutomationFireFrontier_eq_ok hdeferred
        exact frontiers_writes _
      · exact .refl
      · exact ensureScheduledFrontier_writes (mem_current.mp (latestAutomationDefinition_mem hlatest).1).1
          hscheduled
      · exact (restoreScheduledFrontier_writes hrestored).1
      · exact appendAutomationTombstone_writes htombstone
    have hwrite : Writes now woken fronted written := by
      obtain ⟨_, -, ⟨-, hreceipt⟩ | ⟨receipt, -, ⟨-, rfl⟩ | ⟨-, _, -, ⟨-, rfl⟩ | ⟨-, hreceipts⟩⟩⟩⟩ :=
        appendAutomationFailureReceipts_eq_ok hwritten
      · exact insertAttemptReceipt_writes hreceipt
      · exact .refl
      · exact .refl
      · refine insertRunReceipts_writes (fun receipt hreceipt hsucceeded => ?_) hreceipts
        obtain ⟨_, -, rfl⟩ := List.mem_map.mp hreceipt
        exact absurd hsucceeded (failedRunOutcome_ne_succeeded _ _)
    have hbefore := hfront.trans hwrite
    exact hbefore.trans (releaseAutomationLease_writes (hinv.writes hbefore).leaseIDs)

omit [AutomationHashes] in
lemma renew_eq_ok (h : renew store execution at_ = .ok store') : store' = store ∨ ∃ lease frontier leases,
      automationLease store.toAutomationDatabase execution.definitionID = some lease ∧
      lease.ownerOccurrenceID = execution.owner ∧ at_ < lease.expiresAt ∧
      currentAutomationFireFrontierInTransaction store execution.definitionID = some frontier ∧
      renewControlLeaseInTransaction store.leases
        ⟨.automation, execution.definitionID, lease.id, execution.owner, at_⟩ (at_ + LEASE_MS) = .ok leases ∧
      deferAutomationFireFrontierInTransaction { store with leases := leases } execution.definitionID
        frontier.fireID (at_ + LEASE_MS) = .ok store' := by
  unfold renew at h
  split at h
  · next lease frontier hlease hfrontier =>
    split_ifs at h with hlost
    · exact .inl (Except.ok.inj h).symm
    · push Not at hlost
      obtain ⟨leases, hrenewed, h⟩ := bind_eq_ok.mp h
      unfold leasing at hrenewed
      rw [mapError_eq_ok] at hrenewed
      exact .inr ⟨lease, frontier, leases, hlease, hlost.1, hlost.2, hfrontier, hrenewed, h⟩
  · exact .inl (Except.ok.inj h).symm

lemma renew_writes (hinv : StoreInv now store) (h : renew store execution now = .ok store') :
    Writes now woken store store' := by
  rcases renew_eq_ok h with rfl | ⟨_, _, leases, -, -, -, -, hrenewed, hdeferred⟩
  · exact .refl
  · obtain ⟨_, -, -, rfl⟩ := deferAutomationFireFrontier_eq_ok hdeferred
    exact (StoreWrite.leases store leases execution.definitionID
      (leaseExchange_renew hinv.leaseIDs hrenewed)).writes.trans (frontiers_writes _)

end Executions

end OpenCorvus.Scheduler
