import OpenCorvus.Scheduler.EventExecutionLaw

/-!
# The wakes of the Event service

The wake Message of a fire is committed by the owner of its current lease.  An owner that may still commit has looked
for the Message when it owned the fire, and whoever committed it before has lost the fire; so it is committed once.
A fire succeeds only after its wake, and a one-shot wakes only while no fire before has succeeded.
-/

namespace OpenCorvus.Scheduler

open Engine Relation List Option

def EventExecution.Owns (store : EventStore) (e : EventExecution) : Prop :=
  ∃ lease, currentControlLeaseInTransaction store.leases .eventFire e.fire.id = some lease ∧
    lease.ownerOccurrenceID = e.ownerID

variable {store store' : EventStore} {leases : ControlLeaseTables}

lemma owns_of_moves {e : EventExecution} {leaseID : String} (hmoves : Moves store.leases leases leaseID)
    (h : e.Owns { store with leases := leases }) : e.Owns store := by
  obtain ⟨_, hleases, hf⟩ := hmoves
  obtain ⟨_, hlease, howner⟩ := h
  rw [currentControlLease_of_map hleases fun row => (hf row).1] at hlease
  obtain ⟨row, hrow, rfl⟩ := map_eq_some_iff.mp hlease
  exact ⟨row, hrow, (hf row).1.ownerOccurrenceID ▸ howner⟩

lemma owns_of_claim {e : EventExecution} {fireID ownerID leaseID : String} {now : ℤ}
    (hsucceeding : ∀ other, Succeeding (EventStore.fireLeases { store with leases := leases } other))
    (hleases : leases.leases = store.leases.leases ++ [(fireAcquisition fireID ownerID leaseID now).lease])
    (hfree : e.ownerID = ownerID → e.fire.id ≠ fireID) (h : e.Owns { store with leases := leases }) :
    e.Owns store := by
  have hrows : EventStore.fireLeases { store with leases := leases } e.fire.id = store.fireLeases e.fire.id ++
        if fireID = e.fire.id then [(fireAcquisition fireID ownerID leaseID now).lease] else [] :=
    fireLeases_of_claim hleases
  obtain ⟨lease, hlease, howner⟩ := h
  by_cases hsame : fireID = e.fire.id
  · exfalso
    rw [if_pos hsame] at hrows
    have hlast : currentControlLeaseInTransaction leases .eventFire e.fire.id =
        (EventStore.fireLeases { store with leases := leases } e.fire.id).getLast? :=
      (hsucceeding e.fire.id).current_eq_getLast?
    rw [hrows, getLast?_concat] at hlast
    obtain rfl := some.inj (hlease.symm.trans hlast)
    exact hfree howner.symm hsame.symm
  · rw [if_neg hsame, List.append_nil] at hrows
    refine ⟨lease, ?_, howner⟩
    unfold currentControlLeaseInTransaction at hlease ⊢
    rw [← hlease]
    exact congrArg _ hrows.symm

lemma findWakeMessageID_eq_some {fire : EventJobFireRow} {messageID : String}
    (h : findWakeMessageID store fire = .ok (some messageID)) :
    ∃ message ∈ store.messages, message.fireID = fire.id := by
  unfold findWakeMessageID at h
  split at h
  · cases h
  · rename_i message hmessage
    have hmem := mem_filter.mp (hmessage ▸ mem_singleton_self message)
    simp only [decide_eq_true_eq] at hmem
    exact ⟨message, hmem.1, hmem.2.2⟩
  · cases h

lemma findWakeMessageID_eq_none {fire : EventJobFireRow}
    (h : findWakeMessageID store fire = .ok none) {message : EventWakeMessage}
    (hmessage : message ∈ store.messages) (hfire : message.fireID = fire.id) :
    message.sessionID ≠ fire.targetSessionID := by
  unfold findWakeMessageID at h
  split at h
  · rename_i hnil
    have hnot := filter_eq_nil_iff.mp hnil message hmessage
    simp only [decide_eq_true_eq] at hnot
    exact fun hsession => hnot ⟨hsession, hfire⟩
  · cases h
  · cases h

section Wakes

variable [EventPayloads]

def WakeIDsDiffer (store : EventStore) : Prop :=
  ∀ fire ∈ store.fires, ∀ other ∈ store.fires,
    deterministicEventWakeID fire.id = deterministicEventWakeID other.id → fire.id = other.id

def EventWakeMessage.IsOf (store : EventStore) (message : EventWakeMessage) (fire : EventJobFire) : Prop :=
  message.fireID = fire.id ∧ message.id = deterministicEventWakeID fire.id ∧
    store.targetOf fire = some message.sessionID

def EventExecution.HasWake (e : EventExecution) : Prop :=
  e.committed = true ∨ e.woken.isSome ∨ (∃ messageID, e.existing = some (some messageID)) ∨
    ∃ messageID, e.failed = some (some messageID)

structure EventWakeInv (w : EventWorld) : Prop where
  messages : ∀ message ∈ w.store.messages, (∃ commit ∈ w.commits, commit.fireID = message.fireID) ∧
    ∃ fire ∈ w.store.fires, message.IsOf w.store fire
  /-- A committed wake is of a fire that is settled or the head. -/
  fires : ∀ commit ∈ w.commits, ∃ fire ∈ w.store.fires, fire.id = commit.fireID ∧
    fire.definitionID = commit.definitionID ∧ fire.queuePosition = commit.queuePosition ∧
    commit.queuePosition ≤ w.store.settledPosition commit.definitionID + 1
  /-- A committed wake stays, unless its Session is deleted. -/
  kept : ∀ commit ∈ w.commits, (∃ message ∈ w.store.messages, message.fireID = commit.fireID) ∨
    ∃ fire ∈ w.store.fires, fire.id = commit.fireID ∧ ∃ sessionID, w.store.targetOf fire = some sessionID ∧
      sessionDeletedInTransaction w.store sessionID
  once : (w.commits.map EventWakeCommit.fireID).Nodup
  succeeded : ∀ receipt ∈ w.store.receipts, receipt.outcome.messageID.isSome →
    ∃ commit ∈ w.commits, commit.fireID = receipt.fireID
  woken : ∀ e ∈ w.executions, e.HasWake → ∃ commit ∈ w.commits, commit.fireID = e.fire.id
  /-- An owner that has found no wake Message, and has committed none, is the first to commit one. -/
  absent : ∀ e ∈ w.executions, e.existing = some none → e.committed = false → e.Owns w.store →
    (∀ commit ∈ w.commits, commit.fireID ≠ e.fire.id) ∨
      sessionDeletedInTransaction w.store e.fire.targetSessionID ∧ e.admitted = false

variable {w w' : EventWorld}

/-- Before anything was created. -/
lemma eventWakeInv_initial (clock : ℤ) : EventWakeInv (initialEventWorld clock) := by
  refine ⟨?_, ?_, ?_, ?_, ?_, ?_, ?_⟩ <;> simp [initialEventWorld]

variable {e : EventExecution}

section

variable (h : EventWakeInv w)

include h

lemma EventWakeInv.absent_of_find (hqueue : QueueInv w.store) (he : ExecutionInv w.store e)
    (hfound : findWakeMessageID w.store e.fire = .ok none) : (∀ commit ∈ w.commits, commit.fireID ≠ e.fire.id) ∨
      sessionDeletedInTransaction w.store e.fire.targetSessionID := by
  by_contra hnot
  push Not at hnot
  obtain ⟨⟨commit, hcommit, hof⟩, hstands⟩ := hnot
  rcases h.kept commit hcommit with ⟨message, hmessage, hmessageOf⟩ | ⟨fire, hfire, hid, sessionID, htarget,
    hdeleted⟩
  · obtain ⟨-, fire, hfire, hfireID, -, htarget⟩ := h.messages message hmessage
    obtain rfl : fire = e.fire.toEventJobFire :=
      hqueue.eq_of_id hfire he.stored (hfireID.symm.trans (hmessageOf.trans hof))
    have hsession : message.sessionID = e.fire.targetSessionID :=
      some.inj (htarget.symm.trans he.target)
    exact findWakeMessageID_eq_none hfound hmessage (hmessageOf.trans hof) hsession
  · obtain rfl : fire = e.fire.toEventJobFire := hqueue.eq_of_id hfire he.stored (hid.trans hof)
    obtain rfl : sessionID = e.fire.targetSessionID := some.inj (htarget.symm.trans he.target)
    exact hstands hdeleted

lemma EventWakeInv.withStore (hqueue : QueueInv w.store) (hjobs : w.store.jobs <+: store'.jobs)
    (hfires : ∀ fire ∈ w.store.fires, fire ∈ store'.fires)
    (hsettled : ∀ definitionID, w.store.settledPosition definitionID ≤ store'.settledPosition definitionID)
    (hmessages : store'.messages = w.store.messages) (hreceipts : store'.receipts = w.store.receipts)
    (hdeleted : ∀ sessionID, sessionDeletedInTransaction w.store sessionID →
      sessionDeletedInTransaction store' sessionID) (howns : ∀ e ∈ w.executions, e.Owns store' → e.Owns w.store) :
    EventWakeInv (w.withStore store') := by
  have htarget : ∀ fire ∈ w.store.fires, store'.targetOf fire = w.store.targetOf fire :=
    fun fire hfire => targetOf_of_jobs hqueue hfire hjobs
  refine ⟨?_, ?_, ?_, h.once, ?_, h.woken, ?_⟩
  · intro message hmessage
    obtain ⟨hcommit, fire, hfire, hid, hname, hsession⟩ :=
      h.messages message (hmessages ▸ hmessage)
    exact ⟨hcommit, fire, hfires fire hfire, hid, hname, (htarget fire hfire).trans hsession⟩
  · intro commit hcommit
    obtain ⟨fire, hfire, hid, hdefinition, hposition, hle⟩ := h.fires commit hcommit
    exact ⟨fire, hfires fire hfire, hid, hdefinition, hposition, hle.trans (Nat.add_le_add_right (hsettled _) 1)⟩
  · intro commit hcommit
    rcases h.kept commit hcommit with ⟨message, hmessage, hof⟩ | ⟨fire, hfire, hid, sessionID, hsession, hgone⟩
    · exact Or.inl ⟨message, hmessages.symm ▸ hmessage, hof⟩
    · exact Or.inr ⟨fire, hfires fire hfire, hid, sessionID, (htarget fire hfire).trans hsession,
        hdeleted sessionID hgone⟩
  · intro receipt hreceipt
    exact h.succeeded receipt (hreceipts ▸ hreceipt)
  · intro e he hexisting hcommitted hheld
    rcases h.absent e he hexisting hcommitted (howns e he hheld) with hnone | ⟨hgone, hadmitted⟩
    · exact Or.inl hnone
    · exact Or.inr ⟨hdeleted _ hgone, hadmitted⟩

lemma EventWakeInv.advance {e' : EventExecution}
    (hwoken : e'.HasWake → ∃ commit ∈ w.commits, commit.fireID = e'.fire.id)
    (habsent : e'.existing = some none → e'.committed = false → e'.Owns w.store →
      (∀ commit ∈ w.commits, commit.fireID ≠ e'.fire.id) ∨
        sessionDeletedInTransaction w.store e'.fire.targetSessionID ∧ e'.admitted = false) :
    EventWakeInv (w.advance e e') := by
  refine ⟨h.messages, h.fires, h.kept, h.once, h.succeeded, ?_, ?_⟩
  · intro x hx
    rcases mem_concat.mp hx with hold | hnew
    · exact h.woken x (mem_of_mem_erase hold)
    · rw [hnew]
      exact hwoken
  · intro x hx
    rcases mem_concat.mp hx with hold | hnew
    · exact h.absent x (mem_of_mem_erase hold)
    · rw [hnew]
      exact habsent

lemma EventWakeInv.moves (hqueue : QueueInv w.store) {e' : EventExecution} (he : e ∈ w.executions)
    (hexecution : ExecutionInv w.store e) (hmoves : e.Moves w.store e') : EventWakeInv (w.advance e e') := by
  have hfound : ∀ found, findWakeMessageID w.store e.fire = .ok (some found) →
      ∃ commit ∈ w.commits, commit.fireID = e.fire.id := by
    intro found hfind
    obtain ⟨message, hmessage, hof⟩ := findWakeMessageID_eq_some hfind
    obtain ⟨⟨commit, hcommit, hcommitOf⟩, -⟩ := h.messages message hmessage
    exact ⟨commit, hcommit, hcommitOf.trans hof⟩
  have hwoken := h.woken e he
  have habsent := h.absent e he
  cases hmoves with
  | @looked _ hopen hfind =>
    refine h.advance ?_ ?_
    · rintro (hcommitted | hsome | ⟨messageID, hmessageID⟩ | hfailed)
      · exact hwoken (Or.inl hcommitted)
      · exact hwoken (Or.inr (Or.inl hsome))
      · rw [some.injEq] at hmessageID
        exact hfound messageID (hmessageID ▸ hfind)
      · exact hwoken (Or.inr (Or.inr (Or.inr hfailed)))
    · intro hnone hcommitted _
      rw [some.injEq] at hnone
      have hadmitted : e.admitted = false := by
        by_contra hadmitted
        have hexisting := hexecution.resolved (hexecution.admitted (by simpa using hadmitted))
        rw [hopen] at hexisting
        cases hexisting
      rcases h.absent_of_find hqueue hexecution (hnone ▸ hfind) with hfirst | hdeleted
      · exact Or.inl hfirst
      · exact Or.inr ⟨hdeleted, hadmitted⟩
  | resolved => exact h.advance hwoken habsent
  | admitted _ hstands =>
    refine h.advance hwoken fun hexisting hcommitted howns => Or.inl ?_
    rcases habsent hexisting hcommitted howns with hfirst | ⟨hdeleted, -⟩
    · exact hfirst
    · exact absurd hdeleted hstands
  | resumed hexisting => exact h.advance (fun _ => hwoken (Or.inr (Or.inr (Or.inl ⟨_, hexisting⟩)))) habsent
  | confirmed hcommitted => exact h.advance (fun _ => hwoken (Or.inl hcommitted)) habsent
  | @failed _ hfind =>
    refine h.advance ?_ habsent
    rintro (hcommitted | hsome | hexisting | ⟨messageID, hmessageID⟩)
    · exact hwoken (Or.inl hcommitted)
    · cases hsome
    · exact hwoken (Or.inr (Or.inr (Or.inl hexisting)))
    · rw [some.injEq] at hmessageID
      exact hfound messageID (hmessageID ▸ hfind)
  | reconciled hfailed => exact h.advance (fun _ => hwoken (Or.inr (Or.inr (Or.inr ⟨_, hfailed⟩)))) habsent

lemma EventWakeInv.first_commit (he : e ∈ w.executions) (hexecution : ExecutionInv w.store e) (hwaking : e.Waking)
    (howns : e.Owns w.store) : ∀ commit ∈ w.commits, commit.fireID ≠ e.fire.id := by
  have hready : e.ready.isSome := by rw [hwaking.2.1]; rfl
  obtain ⟨hexisting, hadmitted, -⟩ := hexecution.decided hready
  rcases h.absent e he hexisting hwaking.2.2 howns with hfirst | ⟨-, hnot⟩
  · exact hfirst
  · rw [hadmitted] at hnot
    cases hnot

lemma EventWakeInv.upsert_of_first (hdiffer : WakeIDsDiffer w.store)
    (hstored : e.fire.toEventJobFire ∈ w.store.fires) (hfirst : ∀ commit ∈ w.commits, commit.fireID ≠ e.fire.id) :
    w.store.upsertMessage e.wakeMessage =
      { w.store with messages := w.store.messages ++ [e.wakeMessage] } := by
  unfold EventStore.upsertMessage
  rw [if_neg]
  rintro ⟨other, hother, hid⟩
  obtain ⟨⟨commit, hcommit, hof⟩, fire, hfire, hfireID, hname, -⟩ := h.messages other hother
  have hsame : fire.id = e.fire.id :=
    hdiffer fire hfire e.fire.toEventJobFire hstored (hname.symm.trans hid)
  exact hfirst commit hcommit (hof.trans (hfireID.trans hsame))

lemma EventWakeInv.commit (hqueue : QueueInv w.store) (hleases : FireLeaseInv w.store w.clock)
    (hexecutions : ExecutionsInv w) (hdiffer : WakeIDsDiffer w.store) (he : e ∈ w.executions) (hwaking : e.Waking)
    (hcommit : commitEventWake w.store e w.clock = .ok store) :
    EventWakeInv { (w.withStore store).advance e { e with committed := true } with
      commits := w.commits ++
        [⟨e.fire.id, e.fire.definitionID, e.fire.queuePosition, e.ownerID, w.clock⟩] } := by
  have hexecution := hexecutions.each e he
  obtain ⟨rfl, -, lease, hheld⟩ := commitEventWake_eq_ok hcommit
  obtain ⟨hcurrent, howner, -⟩ := heldFireLease_eq_some.mp hheld
  have hfirst := h.first_commit he hexecution hwaking ⟨lease, hcurrent, howner⟩
  rw [h.upsert_of_first hdiffer hexecution.stored hfirst]
  have hnew : e.wakeMessage ∈ w.store.messages ++ [e.wakeMessage] :=
    mem_append_right _ (mem_singleton_self _)
  have hold : ∀ {x : EventExecution}, x ∈ w.executions.erase e → x.Owns w.store → x.fire.id ≠ e.fire.id := by
    rintro _ hx ⟨_, hcurrent', howner'⟩ hfire
    rw [hfire, hcurrent] at hcurrent'
    obtain rfl := some.inj hcurrent'
    refine hexecutions.keys.id_ne_of_mem_erase he hx ?_
    rw [EventExecution.key, EventExecution.key, ← howner', howner, hfire]
  refine ⟨?_, ?_, ?_, ?_, ?_, ?_, ?_⟩
  · intro message hmessage
    rcases mem_concat.mp hmessage with hstored | hadded
    · obtain ⟨⟨commit, hmem, hof⟩, hfire⟩ := h.messages message hstored
      exact ⟨⟨commit, mem_append_left _ hmem, hof⟩, hfire⟩
    · rw [hadded]
      exact ⟨⟨_, mem_append_right _ (mem_singleton_self _), rfl⟩, e.fire.toEventJobFire,
        hexecution.stored, rfl, rfl, hexecution.target⟩
  · intro commit hmem
    rcases mem_concat.mp hmem with hstored | hadded
    · exact h.fires commit hstored
    · rw [hadded]
      exact ⟨e.fire.toEventJobFire, hexecution.stored, rfl, rfl, rfl,
        hleases.position_le hqueue hexecution.stored hexecution.leased⟩
  · intro commit hmem
    rcases mem_concat.mp hmem with hstored | hadded
    · rcases h.kept commit hstored with ⟨message, hmessage, hof⟩ | hgone
      · exact Or.inl ⟨message, mem_append_left _ hmessage, hof⟩
      · exact Or.inr hgone
    · rw [hadded]
      exact Or.inl ⟨e.wakeMessage, hnew, rfl⟩
  · rw [map_append, map_singleton, nodup_append]
    refine ⟨h.once, nodup_singleton _, fun fireID hfireID other hother => ?_⟩
    obtain ⟨commit, hmem, rfl⟩ := List.mem_map.mp hfireID
    rw [mem_singleton.mp hother]
    exact hfirst commit hmem
  · intro receipt hreceipt hsucceeded
    obtain ⟨commit, hmem, hof⟩ := h.succeeded receipt hreceipt hsucceeded
    exact ⟨commit, mem_append_left _ hmem, hof⟩
  · intro x hx hwake
    rcases mem_concat.mp hx with herased | hadded
    · obtain ⟨commit, hmem, hof⟩ := h.woken x (mem_of_mem_erase herased) hwake
      exact ⟨commit, mem_append_left _ hmem, hof⟩
    · rw [hadded]
      exact ⟨_, mem_append_right _ (mem_singleton_self _), rfl⟩
  · intro x hx hexisting hcommitted howns
    rcases mem_concat.mp hx with herased | hadded
    · rcases h.absent x (mem_of_mem_erase herased) hexisting hcommitted howns with hnone | hgone
      · refine Or.inl fun commit hmem => ?_
        rcases mem_concat.mp hmem with hstored | hlast
        · exact hnone commit hstored
        · rw [hlast]
          exact (hold herased howns).symm
      · exact Or.inr hgone
    · rw [hadded] at hcommitted
      cases hcommitted

theorem EventWakeInv.effect (hqueue : QueueInv w.store) (hleases : FireLeaseInv w.store w.clock)
    (hexecutions : ExecutionsInv w) (hdiffer : WakeIDsDiffer w.store) (heffect : EventEffect w w') :
    EventWakeInv w' := by
  have hsettled := settledPosition_le hqueue heffect
  have hnext := hleases.effect hqueue heffect
  cases heffect with
  | @around store _ _ hstore =>
    have hkept : EventWakeInv (w.withStore store) :=
      h.withStore hqueue (hstore.jobs ▸ prefix_rfl) (fun fire hfire => hstore.fires ▸ hfire) hsettled
        hstore.messages hstore.receipts hstore.deleted fun e _ howns => by
          unfold EventExecution.Owns at howns ⊢
          rwa [hstore.leases] at howns
    exact ⟨hkept.messages, hkept.fires, hkept.kept, hkept.once, hkept.succeeded, hkept.woken, hkept.absent⟩
  | created =>
    exact h.withStore hqueue (prefix_append _ _) (fun _ hf => hf) hsettled rfl rfl (fun _ hd => hd)
      fun _ _ ho => ho
  | accepted haccepted =>
    obtain ⟨_, _, rfl, hfires⟩ := frame_of_acceptance haccepted
    exact h.withStore hqueue prefix_rfl (fun _ hf => hfires.subset hf) hsettled rfl rfl
      (fun _ hd => hd) fun _ _ ho => ho
  | @claimed _ _ _ leases _ hrows _ _ hfree =>
    have hkept : EventWakeInv (w.withStore { w.store with leases := leases }) :=
      h.withStore hqueue prefix_rfl (fun _ hf => hf) hsettled rfl rfl (fun _ hd => hd)
        fun e he howns => owns_of_claim hnext.succeeding hrows (hfree e he) howns
    refine ⟨hkept.messages, hkept.fires, hkept.kept, hkept.once, hkept.succeeded, ?_, ?_⟩
    · intro e he hwake
      rcases mem_concat.mp he with hold | hnew
      · exact hkept.woken e hold hwake
      · rw [hnew] at hwake
        simp [EventExecution.HasWake, startEventExecution] at hwake
    · intro e he hexisting
      rcases mem_concat.mp he with hold | hnew
      · exact hkept.absent e hold hexisting
      · rw [hnew] at hexisting
        cases hexisting
  | renewed _ _ hmoves =>
    exact h.withStore hqueue prefix_rfl (fun _ hf => hf) hsettled rfl rfl (fun _ hd => hd)
      fun _ _ ho => owns_of_moves hmoves ho
  | moved he hmoves => exact h.moves hqueue he (hexecutions.each _ he) hmoves
  | @decided e job he _ _ =>
    have hdecided : EventWakeInv (w.advance e { e with ready := some (ready job w.clock) }) :=
      h.advance (h.woken e he) (h.absent e he)
    exact ⟨hdecided.messages, hdecided.fires, hdecided.kept, hdecided.once, hdecided.succeeded,
      hdecided.woken, hdecided.absent⟩
  | committed he hwaking hcommit => exact h.commit hqueue hleases hexecutions hdiffer he hwaking hcommit
  | @settled e receipt _ he hsettled' hfound =>
    obtain ⟨_, _, -, hmoves, rfl⟩ := hsettled'.held
    refine ⟨h.messages, ?_, h.kept, h.once, ?_, ?_, ?_⟩
    · intro commit hcommit
      obtain ⟨fire, hfire, hid, hdefinition, hposition, hle⟩ := h.fires commit hcommit
      exact ⟨fire, hfire, hid, hdefinition, hposition, hle.trans (Nat.add_le_add_right (hsettled _) 1)⟩
    · intro other hother hsucceeded
      rcases mem_concat.mp hother with hold | hnew
      · exact h.succeeded other hold hsucceeded
      · rw [hnew] at hsucceeded ⊢
        rw [hsettled'.of_fire.1]
        refine h.woken e he (Or.inr (Or.inl ?_))
        cases houtcome : receipt.outcome with
        | succeeded messageID =>
          rw [houtcome] at hfound
          rw [show e.woken = some messageID from hfound]
          rfl
        | retryWait | disposition => rw [houtcome] at hsucceeded; cases hsucceeded
    · exact fun x hx => h.woken x (mem_of_mem_erase hx)
    · exact fun x hx hexisting hcommitted howns =>
        h.absent x (mem_of_mem_erase hx) hexisting hcommitted (owns_of_moves hmoves howns)
  | finished =>
    exact ⟨h.messages, h.fires, h.kept, h.once, h.succeeded,
      fun x hx => h.woken x (mem_of_mem_erase hx), fun x hx => h.absent x (mem_of_mem_erase hx)⟩
  | @purged sessionID hdeleted =>
    refine ⟨?_, h.fires, ?_, h.once, h.succeeded, h.woken, h.absent⟩
    · exact fun message hmessage => h.messages message (mem_of_mem_filter hmessage)
    · intro commit hcommit
      rcases h.kept commit hcommit with ⟨message, hmessage, hof⟩ | hgone
      · by_cases hsession : message.sessionID = sessionID
        · obtain ⟨-, fire, hfire, hfireID, -, htarget⟩ := h.messages message hmessage
          exact Or.inr ⟨fire, hfire, hfireID.symm.trans hof, sessionID, hsession ▸ htarget, hdeleted⟩
        · exact Or.inl ⟨message, mem_filter.mpr ⟨hmessage, by simpa using hsession⟩, hof⟩
      · exact Or.inr hgone

end

end Wakes

end OpenCorvus.Scheduler
