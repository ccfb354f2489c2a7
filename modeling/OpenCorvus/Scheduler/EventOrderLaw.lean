import OpenCorvus.Scheduler.EventWakeLaw

/-!
# Event fires in order and at most once

Over every run of the service the fires of a definition are numbered without gaps and settled in this order, a
wake is committed only for the head of a queue by the holder of its live lease, and once, and a one-shot
succeeds once.
-/

namespace OpenCorvus.Scheduler

open Transaction NumberedLanes Engine ExecutableSystem Relation List

variable {store store' : EventStore} {w w' : EventWorld}

def FirstSuccess (store : EventStore) (definitionID : String) (queuePosition : ℕ) : Prop :=
  ∀ row ∈ store.jobs, row.definitionID = definitionID → row.oneShot = true →
    ¬SucceededBefore store definitionID queuePosition

structure OneShotInv (w : EventWorld) : Prop where
  resolved : ∀ e ∈ w.executions, ∀ job, e.job = some (some job) → job.enabled = true →
    FirstSuccess w.store e.fire.definitionID e.fire.queuePosition
  committed : ∀ commit ∈ w.commits, FirstSuccess w.store commit.definitionID commit.queuePosition

lemma resolveEventJob_eq_some {fire : EventJobFireRow} {job : EventJobRow}
    (h : resolveEventJob store fire = .ok (some job)) :
    ∃ persisted ∈ store.jobs, persisted.id = fire.eventJobRevisionID ∧
      job.cooldownMs = persisted.cooldownMs ∧
      job.enabled = (persisted.enabled &&
        !(persisted.oneShot && SucceededBefore store persisted.definitionID fire.queuePosition)) ∧
      job.lastRun = (store.previousFire fire.toEventJobFire).bind fun previous =>
        store.timeStarted previous.id := by
  unfold resolveEventJob at h
  split at h
  · cases h
  · rename_i persisted hpersisted
    obtain ⟨_, hresolved, hanswer⟩ := bind_eq_ok.mp h
    rw [pure_eq_ok, Option.some.injEq] at hanswer
    subst hanswer
    unfold projectEventJobForFireInTransaction at hresolved
    have hprojected := of_throwWhen hresolved
    rw [pure_eq_ok] at hprojected
    subst hprojected
    have hid := find?_some hpersisted
    simp only [decide_eq_true_eq] at hid
    exact ⟨persisted, mem_of_find?_eq_some hpersisted, hid.1, rfl, rfl, rfl⟩

lemma firstSuccess_of_resolve (hqueue : QueueInv store) {fire : EventJobFireRow} {job : EventJobRow}
    (hstored : fire.toEventJobFire ∈ store.fires) (h : resolveEventJob store fire = .ok (some job))
    (henabled : job.enabled = true) : FirstSuccess store fire.definitionID fire.queuePosition := by
  obtain ⟨persisted, hpersisted, hid, -, hprojected, -⟩ := resolveEventJob_eq_some h
  have hdefinition : persisted.definitionID = fire.definitionID := by
    rw [(hqueue.jobs.definitions persisted hpersisted).1, hid, hqueue.revision_eq hstored]
  intro row hrow hof hone hsucceeded
  obtain rfl : row = persisted :=
    hqueue.jobs.eq_of_definitionID hrow hpersisted (hof.trans hdefinition.symm)
  rw [henabled] at hprojected
  simp [hone, hof, hsucceeded] at hprojected

lemma FirstSuccess.settle {receipt : EventJobFireReceipt} (hinserted : ReceiptInserted store receipt)
    (hreceipts : store'.receipts = store.receipts ++ [receipt]) (hjobs : store'.jobs = store.jobs)
    {definitionID : String} {queuePosition : ℕ}
    (hle : queuePosition ≤ store.settledPosition definitionID + 1)
    (h : FirstSuccess store definitionID queuePosition) : FirstSuccess store' definitionID queuePosition := by
  intro row hrow hof hone
  rintro ⟨other, hother, hdefinition, hsucceeded, hbefore⟩
  rw [hreceipts] at hother
  rcases mem_concat.mp hother with hold | hnew
  · exact h row (hjobs ▸ hrow) hof hone ⟨other, hold, hdefinition, hsucceeded, hbefore⟩
  · obtain rfl := hnew
    have hterminal : other.outcome.isTerminal = true := by
      cases houtcome : other.outcome with
      | retryWait => rw [houtcome] at hsucceeded; cases hsucceeded
      | succeeded | disposition => rfl
    have hhead := hinserted.head hterminal
    rw [hdefinition] at hhead
    omega

lemma FirstSuccess.create {job : EventJob} {definitionID : String} {queuePosition : ℕ}
    (hne : job.definitionID ≠ definitionID) (h : FirstSuccess store definitionID queuePosition) :
    FirstSuccess { store with jobs := store.jobs ++ [job] } definitionID queuePosition := by
  intro row hrow hof hone
  rcases mem_concat.mp hrow with hold | hnew
  · exact h row hold hof hone
  · rw [hnew] at hof
    exact absurd hof hne

section Law

variable [EventPayloads]

theorem OneShotInv.effect (h : OneShotInv w) (hqueue : QueueInv w.store)
    (hleases : FireLeaseInv w.store w.clock) (hexecutions : ExecutionsInv w) (hwakes : EventWakeInv w)
    (heffect : EventEffect w w') : OneShotInv w' := by
  cases heffect with
  | around _ hstore =>
    have hsame : ∀ {definitionID queuePosition}, FirstSuccess w.store definitionID queuePosition →
        FirstSuccess _ definitionID queuePosition := fun hfirst row hrow hof hone hsucceeded =>
      hfirst row (hstore.jobs ▸ hrow) hof hone (by
        unfold SucceededBefore at hsucceeded ⊢
        rwa [hstore.receipts] at hsucceeded)
    exact ⟨fun e he job hjob henabled => hsame (h.resolved e he job hjob henabled),
      fun commit hcommit => hsame (h.committed commit hcommit)⟩
  | @created job hfresh hfirst =>
    have hother : ∀ fire ∈ w.store.fires, job.definitionID ≠ fire.definitionID := by
      intro fire hfire heq
      obtain ⟨row, hrow, -, hdefinition⟩ := hqueue.revisions fire hfire
      refine hfresh row hrow ?_
      rw [← (hqueue.jobs.definitions row hrow).1, hdefinition, ← heq, hfirst.1]
    refine ⟨fun e he row hrow henabled => ?_, fun commit hcommit => ?_⟩
    · exact (h.resolved e he row hrow henabled).create (hother _ (hexecutions.each e he).stored)
    · obtain ⟨fire, hfire, -, hdefinition, -⟩ := hwakes.fires commit hcommit
      exact (h.committed commit hcommit).create (hdefinition ▸ hother fire hfire)
  | accepted haccepted =>
    obtain ⟨_, _, rfl, -⟩ := frame_of_acceptance haccepted
    exact ⟨h.resolved, h.committed⟩
  | claimed =>
    refine ⟨fun e he job hjob henabled => ?_, h.committed⟩
    rcases mem_concat.mp he with hold | hnew
    · exact h.resolved e hold job hjob henabled
    · rw [hnew] at hjob
      cases hjob
  | renewed | purged => exact ⟨h.resolved, h.committed⟩
  | @moved e _ he hmoves =>
    refine ⟨fun x hx job hjob henabled => ?_, h.committed⟩
    rcases mem_concat.mp hx with hold | hnew
    · exact h.resolved x (mem_of_mem_erase hold) job hjob henabled
    · obtain rfl := hnew
      cases hmoves with
      | resolved _ _ hresolved =>
        rw [Option.some.injEq] at hjob
        exact firstSuccess_of_resolve hqueue (hexecutions.each e he).stored (hjob ▸ hresolved) henabled
      | _ => exact h.resolved e he job hjob henabled
  | @decided e _ he _ _ =>
    refine ⟨fun x hx job hjob henabled => ?_, h.committed⟩
    rcases mem_concat.mp hx with hold | hnew
    · exact h.resolved x (mem_of_mem_erase hold) job hjob henabled
    · obtain rfl := hnew
      exact h.resolved e he job hjob henabled
  | @committed e _ he hwaking hcommit =>
    have hcommit := (commitEventWake_eq_ok hcommit).1
    obtain ⟨_, hmessages⟩ := upsertMessage_frame w.store e.wakeMessage
    rw [hmessages] at hcommit
    subst hcommit
    refine ⟨fun x hx job hjob henabled => ?_, fun commit hmem => ?_⟩
    · rcases mem_concat.mp hx with hold | hnew
      · exact h.resolved x (mem_of_mem_erase hold) job hjob henabled
      · obtain rfl := hnew
        exact h.resolved e he job hjob henabled
    · rcases mem_concat.mp hmem with hold | hnew
      · exact h.committed commit hold
      · obtain rfl := hnew
        obtain ⟨-, -, job, hjob⟩ := (hexecutions.each e he).decided (by rw [hwaking.2.1]; rfl)
        obtain ⟨hresolved, henabled⟩ := Option.filter_eq_some_iff.mp hjob
        exact h.resolved e he job (Option.join_eq_some_iff.mp hresolved) henabled
  | @settled _ _ _ _ hsettled _ =>
    obtain ⟨_, _, -, -, rfl⟩ := hsettled.held
    refine ⟨fun x hx job hjob henabled => ?_, fun commit hcommit => ?_⟩
    · have hx := mem_of_mem_erase hx
      have hexecution := hexecutions.each x hx
      have hle := hleases.position_le hqueue hexecution.stored hexecution.leased
      refine FirstSuccess.settle hsettled.inserted ?_ ?_ hle (h.resolved x hx job hjob henabled)
      · rfl
      · rfl
    · obtain ⟨-, -, -, -, -, hle⟩ := hwakes.fires commit hcommit
      refine FirstSuccess.settle hsettled.inserted ?_ ?_ hle (h.committed commit hcommit)
      · rfl
      · rfl
  | finished =>
    exact ⟨fun x hx => h.resolved x (mem_of_mem_erase hx), h.committed⟩

structure EventBase (w : EventWorld) : Prop where
  queue : QueueInv w.store
  leases : FireLeaseInv w.store w.clock
  executions : ExecutionsInv w

omit [EventPayloads] in
/-- Before anything was created. -/
lemma eventBase_initial (clock : ℤ) : EventBase (initialEventWorld clock) :=
  ⟨queueInv_initial clock, fireLeaseInv_initial clock, executionsInv_initial clock⟩

lemma EventBase.effect (h : EventBase w) {action : EventAction}
    (hstep : eventServiceStep w action = some w') : EventEffect w w' :=
  eventServiceStep_effect h.queue.jobs h.queue.fireIDs hstep

theorem eventBase_preserves : Preserves eventServiceStep EventBase := by
  intro w action w' h hstep
  have heffect := h.effect hstep
  exact ⟨h.queue.effect heffect, h.leases.effect h.queue heffect, h.executions.effect h.queue heffect⟩

/-- The state is well formed, and the wakes are in order. -/
structure EventInv (w : EventWorld) : Prop extends EventBase w where
  wakes : EventWakeInv w
  oneShots : OneShotInv w

lemma fires_subset_of_effect (heffect : EventEffect w w') : ∀ fire ∈ w.store.fires, fire ∈ w'.store.fires := by
  cases heffect with
  | around _ hstore => exact fun fire hfire => hstore.fires ▸ hfire
  | accepted haccepted =>
    obtain ⟨_, _, rfl, hfires⟩ := frame_of_acceptance haccepted
    exact fun _ hfire => hfires.subset hfire
  | @committed e _ _ _ hcommit =>
    have hcommit := (commitEventWake_eq_ok hcommit).1
    obtain ⟨_, hmessages⟩ := upsertMessage_frame w.store e.wakeMessage
    rw [hmessages] at hcommit
    subst hcommit
    exact fun _ hfire => hfire
  | settled _ hsettled =>
    obtain ⟨_, _, -, -, rfl⟩ := hsettled.held
    exact fun _ hfire => hfire
  | _ => exact fun _ hfire => hfire

theorem eventInv_of_exec {start : ℤ} {actions : List EventAction} {w : EventWorld}
    (hrun : exec eventServiceStep (initialEventWorld start) actions = some w)
    (hdiffer : WakeIDsDiffer w.store) : EventInv w := by
  have hback : ∀ ⦃t action t'⦄, EventBase t → eventServiceStep t action = some t' →
      WakeIDsDiffer t'.store → WakeIDsDiffer t.store := by
    intro t action t' ht hstep hnext fire hfire other hother
    have hstays := fires_subset_of_effect (ht.effect hstep)
    exact hnext fire (hstays fire hfire) other (hstays other hother)
  have hwithin := (within_of_final eventBase_preserves hback (eventBase_initial start) hrun hdiffer).2
  have hinitial : EventInv (initialEventWorld start) :=
    ⟨eventBase_initial start, eventWakeInv_initial start, fun _ he => (nomatch he), fun _ hc => (nomatch hc)⟩
  refine hwithin.exec (fun t action t' ht hok hstep => ?_) hinitial hrun
  have heffect := ht.effect hstep
  exact ⟨eventBase_preserves ht.toEventBase hstep,
    ht.wakes.effect ht.queue ht.leases ht.executions hok heffect,
    ht.oneShots.effect ht.queue ht.leases ht.executions ht.wakes heffect⟩

def HoldsHead (w : EventWorld) (e : EventExecution) : Prop :=
  currentEventFireHeadRow w.store e.fire.definitionID = some e.fire.toEventJobFire ∧
    ∃ lease, heldFireLease w.store e.fire.id e.ownerID w.clock = some lease

lemma EventBase.holdsHead (h : EventBase w) {e : EventExecution} (he : e ∈ w.executions)
    (hcommit : commitEventWake w.store e w.clock = .ok store) : HoldsHead w e := by
  obtain ⟨-, hopen, lease, hheld⟩ := commitEventWake_eq_ok hcommit
  have hexecution := h.executions.each e he
  have hbefore := h.queue.settled_lt_of_open hexecution.stored hopen
  have hafter := h.leases.position_le h.queue hexecution.stored hexecution.leased
  refine ⟨?_, lease, hheld⟩
  have hhead : e.fire.queuePosition = w.store.settledPosition e.fire.definitionID + 1 := by omega
  unfold currentEventFireHeadRow
  cases hfound : w.store.fires.find? fun fire => fire.definitionID = e.fire.definitionID ∧
      fire.queuePosition = w.store.settledPosition e.fire.definitionID + 1 with
  | none =>
    have hnone := find?_eq_none.mp hfound _ hexecution.stored
    simp [hhead] at hnone
  | some fire =>
    have hfire := find?_some hfound
    simp only [decide_eq_true_eq] at hfire
    rw [h.queue.eq_of_position (mem_of_find?_eq_some hfound) hexecution.stored hfire.1
      (hfire.2.trans hhead.symm)]

structure EventsInOrder (start : ℤ) (actions : List EventAction) (w : EventWorld) : Prop where
  /-- The positions of the fires of a definition are those from 1 on. -/
  positions : ∀ definitionID, ∃ n,
    (inLane EventJobFire.definitionID w.store.fires definitionID).map EventJobFire.queuePosition = List.range' 1 n
  /-- An occurrence has one fire of a definition. -/
  occurrences : ∀ fire ∈ w.store.fires, ∀ other ∈ w.store.fires, fire.definitionID = other.definitionID →
    fire.eventOccurrenceID = other.eventOccurrenceID → fire = other
  /-- Every wake is committed for the head of a queue, by the holder of its live lease. -/
  fenced : ∀ before e after v, actions = before ++ .commitWake e :: after →
    exec eventServiceStep (initialEventWorld start) before = some v → HoldsHead v e
  /-- The wakes are recorded, and each is committed once. -/
  recorded : ∀ message ∈ w.store.messages, ∃ commit ∈ w.commits, commit.fireID = message.fireID
  once : (w.commits.map EventWakeCommit.fireID).Nodup
  /-- A fire is settled once, and the fires of a definition are settled in the order of their positions. -/
  settledOnce : ∀ receipt ∈ w.store.terminals, ∀ other ∈ w.store.terminals,
    receipt.fireID = other.fireID → receipt = other
  settledInOrder : ∀ definitionID, ∃ n,
    (inLane EventJobFireReceipt.definitionID w.store.terminals definitionID).map
      EventJobFireReceipt.queuePosition = List.range' 1 n
  /-- Receipts name the positions of their fires. -/
  receipts : ∀ receipt ∈ w.store.receipts, ∃ fire ∈ w.store.fires, fire.id = receipt.fireID ∧
    fire.definitionID = receipt.definitionID ∧ fire.queuePosition = receipt.queuePosition
  /-- A one-shot succeeds once. -/
  oneShot : ∀ job ∈ w.store.jobs, job.oneShot = true → ∀ receipt ∈ w.store.receipts,
    ∀ other ∈ w.store.receipts, receipt.definitionID = job.definitionID →
    other.definitionID = job.definitionID → receipt.outcome.messageID.isSome →
    other.outcome.messageID.isSome → receipt = other

omit [EventPayloads] in
lemma mem_terminals_of_succeeded {receipt : EventJobFireReceipt} (hreceipt : receipt ∈ store.receipts)
    (hsucceeded : receipt.outcome.messageID.isSome) : receipt ∈ store.terminals := by
  refine mem_filter.mpr ⟨hreceipt, ?_⟩
  cases houtcome : receipt.outcome with
  | retryWait => rw [houtcome] at hsucceeded; cases hsucceeded
  | succeeded | disposition => rfl

lemma EventInv.position_le_of_oneShot (h : EventInv w) {job : EventJob} (hjob : job ∈ w.store.jobs)
    (hone : job.oneShot = true) {receipt other : EventJobFireReceipt} (hreceipt : receipt ∈ w.store.receipts)
    (hother : other ∈ w.store.receipts) (hdefinition : receipt.definitionID = job.definitionID)
    (hdefinition' : other.definitionID = job.definitionID) (hsucceeded : receipt.outcome.messageID.isSome)
    (hsucceeded' : other.outcome.messageID.isSome) : other.queuePosition ≤ receipt.queuePosition := by
  by_contra hlt
  obtain ⟨commit, hcommit, hof⟩ := h.wakes.succeeded other hother hsucceeded'
  obtain ⟨fire, hfire, hid, hfireDefinition, _, -⟩ := h.wakes.fires commit hcommit
  obtain ⟨fire', hfire', hid', hfireDefinition', _⟩ := h.queue.receipts other hother
  obtain rfl : fire = fire' := h.queue.eq_of_id hfire hfire' (hid.trans (hof.trans hid'.symm))
  have hcommitDefinition : job.definitionID = commit.definitionID := by
    rw [← hdefinition', ← hfireDefinition', hfireDefinition]
  refine h.oneShots.committed commit hcommit job hjob hcommitDefinition hone
    ⟨receipt, hreceipt, hdefinition.trans hcommitDefinition, hsucceeded, ?_⟩
  omega

/-- Event fires are processed in order and at most once: over every run, when the fires name different wake
Messages. -/
theorem events_in_order {start : ℤ} {actions : List EventAction} {w : EventWorld}
    (hrun : exec eventServiceStep (initialEventWorld start) actions = some w)
    (hdiffer : WakeIDsDiffer w.store) : EventsInOrder start actions w := by
  have h := eventInv_of_exec hrun hdiffer
  refine ⟨fun definitionID => ⟨_, h.queue.fires definitionID⟩, ?_, ?_, ?_, h.wakes.once, ?_,
    fun definitionID => ⟨_, h.queue.terminals definitionID⟩, h.queue.receipts, ?_⟩
  · intro fire hfire other hother hdefinition hoccurrence
    exact h.queue.occurrence_unique hfire hother hdefinition hoccurrence
  · rintro _ _ _ v rfl hv
    obtain ⟨t, ht, hrest⟩ := (exec_append_eq_some eventServiceStep).mp hrun
    obtain rfl : t = v := Option.some.inj (ht.symm.trans hv)
    obtain ⟨_, hnext, -⟩ := (exec_cons_eq_some eventServiceStep).mp hrest
    obtain ⟨⟨he, -⟩, hcommitted⟩ := of_guard hnext
    obtain ⟨_, hcommit, -⟩ := of_toOption_map hcommitted
    exact (eventBase_preserves.exec (eventBase_initial start) hv).holdsHead he hcommit
  · exact fun message hmessage => (h.wakes.messages message hmessage).1
  · intro receipt hreceipt other hother hfire
    exact h.queue.terminal_unique hreceipt hother hfire
  · intro job hjob hone receipt hreceipt other hother hdefinition hdefinition' hsucceeded hsucceeded'
    have hle := h.position_le_of_oneShot hjob hone hreceipt hother hdefinition hdefinition' hsucceeded hsucceeded'
    have hge := h.position_le_of_oneShot hjob hone hother hreceipt hdefinition' hdefinition hsucceeded' hsucceeded
    exact h.queue.terminals.eq_of_number (mem_terminals_of_succeeded hreceipt hsucceeded)
      (mem_terminals_of_succeeded hother hsucceeded') (hdefinition.trans hdefinition'.symm)
      (le_antisymm hge hle)

/-- Of the fires of a definition that are not settled at most one was ever claimed, and every lease of a fire ends
before the next one begins. -/
theorem claims_serial {start : ℤ} {actions : List EventAction} {w : EventWorld}
    (hrun : exec eventServiceStep (initialEventWorld start) actions = some w) :
    (∀ fire ∈ w.store.fires, ∀ other ∈ w.store.fires, fire.definitionID = other.definitionID →
      w.store.fireLeases fire.id ≠ [] → w.store.fireLeases other.id ≠ [] →
      w.store.terminalOf fire.id = none → w.store.terminalOf other.id = none → fire = other) ∧
    ∀ fireID, (w.store.fireLeases fireID).Pairwise fun earlier later =>
      earlier.expiresAt ≤ later.timeActivated := by
  have h := eventBase_preserves.exec (eventBase_initial start) hrun
  refine ⟨?_, fun fireID => (h.leases.succeeding fireID).imp And.right⟩
  intro fire hfire other hother hdefinition hclaimed hclaimed' hopen hopen'
  have hafter := h.leases.position_le h.queue hfire hclaimed
  have hafter' := h.leases.position_le h.queue hother hclaimed'
  have hbefore := h.queue.settled_lt_of_open hfire hopen
  have hbefore' := h.queue.settled_lt_of_open hother hopen'
  rw [hdefinition] at hafter hbefore
  exact h.queue.eq_of_position hfire hother hdefinition (by omega)

end Law

@[reducible] def plainPayloads : EventPayloads where
  wildcardMatch type pattern := type = pattern
  pick _ _ _ := none
  isDeepStrictEqual properties properties' := properties = properties'
  eventWakeReason _ := none
  eventInfoID _ := none
  deterministicEventWakeID fireID := "msg" ++ "_event_" ++ fireID

def noEventExecution : EventExecution :=
  startEventExecution ⟨⟨"", "", 0, "", "", none, false, none, .none, 0⟩, "", "", "", [], "", false, none,
    .pending, none, none, 0, 0, none, none, none, 0, none⟩ ""

def latestEventExecution (w : EventWorld) : EventExecution := w.executions.getLast?.getD noEventExecution

def namedFireInputs (fireID jobID : String) : EventFireInput :=
  ⟨fireID ++ jobID, "ses_" ++ fireID ++ jobID, .ok .none⟩

/-- An occurrence comes twice; the owner of its fire is lost before it commits the wake, and another owner
commits it. -/
def takenOverFire : List (EventWorld → EventAction) := [
  fun _ => .createSession ⟨"ses_1", false⟩,
  fun _ => .create ⟨"evt_1", "prj_1", some "ses_1", "file.edited", [], true, 0⟩,
  fun _ => .accept "prj_1" ⟨"file.edited", "{}", "occ_1", none⟩ (namedFireInputs "fire_1"),
  fun _ => .accept "prj_1" ⟨"file.edited", "{}", "occ_1", none⟩ (namedFireInputs "fire_2"),
  fun _ => .claim "fire_1evt_1" "owner_1" "lease_1",
  fun w => .lookForWake (latestEventExecution w),
  fun w => .resolveJob (latestEventExecution w),
  fun w => .admitExecution (latestEventExecution w),
  fun w => .decide (latestEventExecution w),
  fun _ => .tick 40000,
  fun _ => .claim "fire_1evt_1" "owner_2" "lease_2",
  fun w => .lookForWake (latestEventExecution w),
  fun w => .resolveJob (latestEventExecution w),
  fun w => .admitExecution (latestEventExecution w),
  fun w => .decide (latestEventExecution w),
  fun w => .commitWake (latestEventExecution w),
  fun w => .confirmWake (latestEventExecution w),
  fun w => .succeed (latestEventExecution w) "receipt_1"]

def takenOverLabels : List EventAction :=
  letI := plainPayloads
  scripted eventServiceStep (initialEventWorld 1) takenOverFire

/-- The wake that the second owner commits is the only one. -/
theorem events_in_order_of_takeover :
    letI := plainPayloads
    ∃ w, exec eventServiceStep (initialEventWorld 1) takenOverLabels = some w ∧
      w.commits.map EventWakeCommit.ownerID = ["owner_2"] ∧ EventsInOrder 1 takenOverLabels w := by
  let _ : EventPayloads := plainPayloads
  have howners : (exec eventServiceStep (initialEventWorld 1) takenOverLabels).map
      (fun w => w.commits.map EventWakeCommit.ownerID) = some ["owner_2"] := by
    decide +kernel
  obtain ⟨w, hw, hcommits⟩ := Option.map_eq_some_iff.mp howners
  refine ⟨w, hw, hcommits, events_in_order hw ?_⟩
  exact fun _ _ _ _ h => String.append_right_inj _ |>.mp h

/-- Both claims of the fire had a lease. -/
theorem claims_serial_of_takeover :
    letI := plainPayloads
    ∃ w, exec eventServiceStep (initialEventWorld 1) takenOverLabels = some w ∧
      (w.store.fireLeases "fire_1evt_1").length = 2 ∧
      (w.store.fireLeases "fire_1evt_1").Pairwise fun earlier later => earlier.expiresAt ≤ later.timeActivated := by
  let _ : EventPayloads := plainPayloads
  have hleases : (exec eventServiceStep (initialEventWorld 1) takenOverLabels).map
      (fun w => (w.store.fireLeases "fire_1evt_1").length) = some 2 := by
    decide +kernel
  obtain ⟨w, hw, hlength⟩ := Option.map_eq_some_iff.mp hleases
  exact ⟨w, hw, hlength, (claims_serial hw).2 _⟩

end OpenCorvus.Scheduler
