import OpenCorvus.Scheduler.EventEffects
import OpenCorvus.Scheduler.EventWorld

/-!
# What a step of the Event service does

Every step is one of a few kinds, by what it does to the queues, the leases and the wakes.
-/

namespace OpenCorvus.Scheduler

open Transaction UniqueIndex Engine Relation Option

structure SameQueues (store store' : EventStore) : Prop where
  jobs : store'.jobs = store.jobs
  fires : store'.fires = store.fires
  receipts : store'.receipts = store.receipts
  leases : store'.leases = store.leases
  messages : store'.messages = store.messages
  deleted : ∀ sessionID, sessionDeletedInTransaction store sessionID → sessionDeletedInTransaction store' sessionID

inductive EventExecution.Moves (store : EventStore) (e : EventExecution) : EventExecution → Prop where
  | looked {found : Option String} (hopen : e.existing = none)
      (hfound : findWakeMessageID store e.fire = .ok found) : Moves store e { e with existing := some found }
  | resolved {job : Option EventJobRow} (hlooked : e.existing.isSome) (hopen : e.job = none)
      (hjob : resolveEventJob store e.fire = .ok job) : Moves store e { e with job := some job }
  | admitted (hjob : e.job.isSome) (hstands : ¬sessionDeletedInTransaction store e.fire.targetSessionID) :
      Moves store e { e with admitted := true }
  | resumed {messageID : String} (hfound : e.existing = some (some messageID)) :
      Moves store e { e with woken := some messageID }
  | confirmed {messageID : String} (hcommitted : e.committed = true) :
      Moves store e { e with woken := some messageID }
  | failed {found : Option String} (hfound : findWakeMessageID store e.fire = .ok found) :
      Moves store e { e with failed := some found, woken := none }
  | reconciled {messageID : String} (hfound : e.failed = some (some messageID)) :
      Moves store e { e with woken := some messageID }

def EventExecution.Settles (e : EventExecution) (now : ℤ) : EventReceiptOutcome → Prop
  | .succeeded messageID => e.woken = some messageID
  | .disposition reason _ => reason = .cooldown → e.ready = some false
  | .retryWait retryAt _ => now + 1000 ≤ retryAt

lemma SameQueues.refl (store : EventStore) : SameQueues store store :=
  ⟨rfl, rfl, rfl, rfl, rfl, fun _ h => h⟩

variable {w w' : EventWorld}

lemma of_guard {condition : Prop} [Decidable condition] {x : Option EventWorld}
    (h : (if condition then x else none) = some w') : condition ∧ x = some w' := by
  split_ifs at h with hcondition
  exact ⟨hcondition, h⟩

lemma of_toOption_map {β : Type} {x : Except EventServiceError β} {f : β → EventWorld}
    (h : x.toOption.map f = some w') : ∃ answer, x = .ok answer ∧ f answer = w' := by
  obtain ⟨answer, hanswer, hf⟩ := map_eq_some_iff.mp h
  exact ⟨answer, toOption_eq_some.mp hanswer, hf⟩

variable [EventPayloads]

/-- What a step does. -/
inductive EventEffect (w : EventWorld) : EventWorld → Prop where
  | around {store : EventStore} {clock : ℤ} (hclock : w.clock ≤ clock) (hstore : SameQueues w.store store) :
      EventEffect w { w with store := store, clock := clock }
  | created {job : EventJob} (hfresh : ∀ other ∈ w.store.jobs, other.id ≠ job.id)
      (hfirst : job.definitionID = job.id ∧ job.revision = 1) :
      EventEffect w (w.withStore { w.store with jobs := w.store.jobs ++ [job] })
  | accepted {store : EventStore} (haccepted : ReflTransGen AcceptanceStep w.store store) :
      EventEffect w (w.withStore store)
  | claimed {row : EventJobFireRow} {ownerID leaseID : String} {leases : ControlLeaseTables}
      (hclaimable : Claimable w.store row.toEventJobFire w.clock)
      (hleases : leases.leases = w.store.leases.leases ++ [(fireAcquisition row.id ownerID leaseID w.clock).lease])
      (hfresh : ∀ lease ∈ w.store.leases.leases, lease.id ≠ leaseID)
      (htarget : w.store.targetOf row.toEventJobFire = some row.targetSessionID)
      (hfree : ∀ e ∈ w.executions, e.ownerID = ownerID → e.fire.id ≠ row.id) :
      EventEffect w { w.withStore { w.store with leases := leases } with
        executions := w.executions ++ [startEventExecution row ownerID] }
  | renewed {e : EventExecution} {lease : ControlLease} {leases : ControlLeaseTables}
      (he : e ∈ w.executions)
      (hheld : heldFireLease w.store e.fire.id e.ownerID w.clock = some lease)
      (hmoves : Moves w.store.leases leases lease.id)
      (hlater : ∀ moved ∈ leases.leases, moved ∈ w.store.leases.leases ∨ w.clock < moved.expiresAt) :
      EventEffect w (w.withStore { w.store with leases := leases })
  | moved {e e' : EventExecution} (he : e ∈ w.executions) (hmoves : e.Moves w.store e') :
      EventEffect w (w.advance e e')
  | decided {e : EventExecution} {job : EventJobRow} (he : e ∈ w.executions) (hmay : e.MayDecide)
      (hjob : e.activeJob = some job) :
      EventEffect w { w.advance e { e with ready := some (ready job w.clock) } with
        decisions := w.decisions ++ [e.decision job w.clock] }
  | committed {e : EventExecution} {store : EventStore} (he : e ∈ w.executions) (hwaking : e.Waking)
      (hcommit : commitEventWake w.store e w.clock = .ok store) :
      EventEffect w { (w.withStore store).advance e { e with committed := true } with
        commits := w.commits ++ [⟨e.fire.id, e.fire.definitionID, e.fire.queuePosition, e.ownerID, w.clock⟩] }
  | settled {e : EventExecution} {receipt : EventJobFireReceipt} {store : EventStore}
      (he : e ∈ w.executions)
      (hsettled : FireSettled e.fire e.ownerID receipt w.clock w.store store)
      (hfound : e.Settles w.clock receipt.outcome) :
      EventEffect w ((w.withStore store).finish e)
  | finished {e : EventExecution} (he : e ∈ w.executions) : EventEffect w (w.finish e)
  | purged {sessionID : String} (hdeleted : sessionDeletedInTransaction w.store sessionID) :
      EventEffect w (w.withStore { w.store with
        sessions := w.store.sessions.filter fun session => session.id ≠ sessionID
        messages := w.store.messages.filter fun message => message.sessionID ≠ sessionID })

omit [EventPayloads] in
lemma upsertMessage_frame (store : EventStore) (message : EventWakeMessage) :
    ∃ messages, store.upsertMessage message = { store with messages := messages } := by
  unfold EventStore.upsertMessage
  split_ifs
  · exact ⟨_, rfl⟩
  · exact ⟨_, rfl⟩

lemma commitEventWake_eq_ok {store store' : EventStore} {e : EventExecution} {now : ℤ}
    (h : commitEventWake store e now = .ok store') :
    store' = store.upsertMessage e.wakeMessage ∧ store.terminalOf e.fire.id = none ∧
      ∃ lease, heldFireLease store e.fire.id e.ownerID now = some lease := by
  replace h := of_throwWhen h
  obtain ⟨_, hfence, h⟩ := bind_eq_ok.mp h
  rw [pure_eq_ok] at h
  obtain ⟨_, hmessages⟩ := upsertMessage_frame store e.wakeMessage
  have hpassed := fenceEventWakeCommit_eq_ok hfence
  rw [hmessages] at hpassed
  exact ⟨h.symm, hpassed⟩

lemma effect_of_disposition {e : EventExecution} {reason : EventDisposition} {error : Option String}
    {receiptID : String} (he : e ∈ w.executions)
    (h : w.settled e (settleDisposition w.store e.fire e.ownerID reason error receiptID w.clock) =
      some w') (hcooldown : reason = .cooldown → e.ready = some false) : EventEffect w w' := by
  obtain ⟨⟨settled, _⟩, hok, rfl⟩ := of_toOption_map h
  rcases settleDisposition_eq_ok hok with rfl | hsettled
  · exact .finished he
  · exact .settled he hsettled hcooldown

theorem eventServiceStep_effect (hjobs : JobsWellFormed w.store)
    (hids : PrimaryKey EventJobFire.id w.store.fires) {action : EventAction}
    (h : eventServiceStep w action = some w') : EventEffect w w' := by
  cases action with
  | tick =>
    obtain ⟨hnow, h⟩ := of_guard h
    rw [← some.inj h]
    exact .around hnow (SameQueues.refl _)
  | publish | createTargetSession | createSession =>
    obtain ⟨-, h⟩ := of_guard h
    rw [← some.inj h]
    exact .around le_rfl ⟨rfl, rfl, rfl, rfl, rfl, fun _ h => h⟩
  | create =>
    obtain ⟨_, hok, rfl⟩ := of_toOption_map h
    obtain ⟨hfresh, rfl⟩ := insertJob_eq_ok hok
    exact .created hfresh ⟨rfl, rfl⟩
  | remove =>
    obtain ⟨⟨_, _⟩, hok, rfl⟩ := of_toOption_map h
    obtain ⟨_, rfl⟩ := removeEventJob_eq_ok hok
    exact .around le_rfl ⟨rfl, rfl, rfl, rfl, rfl, fun _ h => h⟩
  | accept =>
    obtain ⟨-, h⟩ := of_guard h
    obtain ⟨_, hok, rfl⟩ := of_toOption_map h
    exact .accepted (accept_eq_ok hjobs hok)
  | claim =>
    obtain ⟨hfree, h⟩ := of_guard h
    obtain ⟨⟨claimed, _⟩, hok, h⟩ := bind_eq_some_iff.mp h
    rcases claimFire_eq_ok hids (toOption_eq_some.mp hok) with
      ⟨rfl, rfl⟩ | ⟨row, leases, rfl, rfl, hclaimable, rfl, hleases, hfresh, htarget⟩
    · rw [← some.inj h]
      exact .around le_rfl (SameQueues.refl _)
    · rw [← some.inj h]
      exact .claimed hclaimable hleases hfresh htarget hfree
  | renew =>
    obtain ⟨he, h⟩ := of_guard h
    obtain ⟨⟨renewed, _⟩, hok, rfl⟩ := of_toOption_map h
    rcases renewFireLease_eq_ok hok with rfl | ⟨_, _, hheld, rfl, hmoves, hlater⟩
    · exact .around le_rfl (SameQueues.refl _)
    · exact .renewed he hheld hmoves hlater
  | lookForWake =>
    obtain ⟨⟨he, -, hopen⟩, h⟩ := of_guard h
    obtain ⟨_, hok, rfl⟩ := of_toOption_map h
    exact .moved he (.looked hopen hok)
  | resolveJob =>
    obtain ⟨⟨he, -, hlooked, hopen⟩, h⟩ := of_guard h
    obtain ⟨_, hok, rfl⟩ := of_toOption_map h
    exact .moved he (.resolved hlooked hopen hok)
  | admitExecution =>
    obtain ⟨⟨he, -, hjob, -, -, hstands⟩, h⟩ := of_guard h
    rw [← some.inj h]
    exact .moved he (.admitted hjob hstands)
  | closeMission | breakCycle | dropDeletedTarget | disable =>
    obtain ⟨⟨he, -⟩, h⟩ := of_guard h
    exact effect_of_disposition he h (fun heq => (nomatch heq))
  | resumeWake =>
    simp only [eventServiceStep] at h
    split at h
    · rename_i messageID hfound
      obtain ⟨⟨he, -⟩, h⟩ := of_guard h
      rw [← some.inj h]
      exact .moved he (.resumed (join_eq_some_iff.mp hfound))
    · cases h
  | decide =>
    simp only [eventServiceStep] at h
    split at h
    · rename_i job hjob
      obtain ⟨⟨he, hmay⟩, h⟩ := of_guard h
      rw [← some.inj h]
      exact .decided he hmay hjob
    · cases h
  | suppress =>
    obtain ⟨⟨he, -, hready⟩, h⟩ := of_guard h
    exact effect_of_disposition he h (fun _ => hready)
  | commitWake =>
    obtain ⟨⟨he, hwaking⟩, h⟩ := of_guard h
    obtain ⟨_, hok, rfl⟩ := of_toOption_map h
    exact .committed he hwaking hok
  | confirmWake =>
    obtain ⟨⟨he, -, hcommitted, -⟩, h⟩ := of_guard h
    rw [← some.inj h]
    exact .moved he (.confirmed hcommitted)
  | succeed =>
    simp only [eventServiceStep] at h
    split at h
    · rename_i messageID hwoken
      obtain ⟨he, h⟩ := of_guard h
      obtain ⟨_, hok, rfl⟩ := of_toOption_map h
      rcases settleSuccess_eq_ok hok with rfl | hsettled
      · exact .finished he
      · exact .settled he hsettled hwoken
    · cases h
  | raise =>
    obtain ⟨⟨he, -⟩, h⟩ := of_guard h
    obtain ⟨_, hok, rfl⟩ := of_toOption_map h
    exact .moved he (.failed hok)
  | reconcileWake =>
    simp only [eventServiceStep] at h
    split at h
    · rename_i messageID hfound
      obtain ⟨⟨he, -⟩, h⟩ := of_guard h
      rw [← some.inj h]
      exact .moved he (.reconciled (join_eq_some_iff.mp hfound))
    · cases h
  | retry =>
    obtain ⟨⟨he, -⟩, h⟩ := of_guard h
    obtain ⟨⟨settled, _⟩, hok, rfl⟩ := of_toOption_map h
    rcases scheduleRetry_eq_ok hok with rfl | hsettled
    · exact .finished he
    · exact .settled he hsettled (add_le_fireRetryAt _ _)
  | leave =>
    obtain ⟨he, h⟩ := of_guard h
    rw [← some.inj h]
    exact .finished he
  | appendEvent =>
    obtain ⟨-, h⟩ := of_guard h
    rw [← some.inj h]
    refine .around le_rfl ⟨rfl, rfl, rfl, rfl, rfl, ?_⟩
    rintro _ ⟨deleted, hdeleted, hof⟩
    exact ⟨deleted, List.mem_append_left _ hdeleted, hof⟩
  | purgeSession =>
    obtain ⟨hdeleted, h⟩ := of_guard h
    rw [← some.inj h]
    exact .purged hdeleted

end OpenCorvus.Scheduler
