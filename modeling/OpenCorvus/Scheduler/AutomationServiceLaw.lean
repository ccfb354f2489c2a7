import OpenCorvus.Scheduler.SessionDelaySettlement

/-!
# What every step of the Automation service keeps

A step is the writes of one transaction, or changes nothing in the store.  The executions name stored
revisions, and their targets are those of the revision.
-/

namespace OpenCorvus.Scheduler

open EcmaScript Transaction OrderBy UniqueIndex Engine ExecutableSystem List Option

/-! ## The invariant -/

structure RunningInv (store : AutomationStore) (running : RunningExecution) : Prop where
  row : running.execution.job.row ∈ store.definitions
  targets : ¬running.execution.job.row.IsDelay →
    (running.targets = [] ∨ running.targets.map automationTargetIdentity =
      runIdentities store running.execution.job.row)

structure ToolClaimInv (store : AutomationStore) (reserved : ManualToolClaim) : Prop where
  mem : reserved.definition ∈ store.definitions
  recurring : ¬reserved.definition.IsDelay

structure ServiceInv [AutomationHashes] (w : AutomationWorld) : Prop where
  store : StoreInv w.clock w.store
  constraints : w.store.Constraints
  executions : ∀ running ∈ w.executions, RunningInv w.store running
  toolClaims : ∀ reserved ∈ w.toolClaims, ToolClaimInv w.store reserved.1

lemma committed_eq_some {x : Except AutomationServiceError AutomationStore} {store : AutomationStore} :
    committed x = some store ↔ x = .ok store ∧ store.Constraints := by
  unfold committed
  rw [filter_eq_some_iff, toOption_eq_some, decide_eq_true_eq]

lemma map_committed_eq_some {x : Except AutomationServiceError AutomationStore}
    {f : AutomationStore → AutomationWorld} {w : AutomationWorld} :
    (committed x).map f = some w ↔ ∃ store, x = .ok store ∧ store.Constraints ∧ f store = w := by
  simp [map_eq_some_iff, committed_eq_some, and_assoc]

structure WakeCommit.Fenced (commit : WakeCommit) (w : AutomationWorld) : Prop where
  lease : automationLease w.store.toAutomationDatabase commit.definitionID = some commit.lease
  owner : commit.lease.ownerOccurrenceID = commit.owner
  clock : commit.committedAt = w.clock
  live : commit.committedAt < commit.lease.expiresAt

def WakeCommit.Named [AutomationHashes] (commit : WakeCommit) : Prop :=
  commit.messageID = wakeMessageID commit.identityID ∧
    ∃ target, commit.identityID = targetRunID commit.fireID target

def WakeCommit.Wakes (commit : WakeCommit) (message : AutomationMessage) : Prop :=
  message.id = commit.messageID ∧ message.wake = some (.schedulerAutomation commit.definitionID commit.fireID)

def AutomationMessage.isAutomation (message : AutomationMessage) : Bool :=
  message.wake.any SessionWakeReason.isAutomation

def WasStored (messages : List AutomationMessage) (message : AutomationMessage) : Prop :=
  ∃ other ∈ messages, other.id = message.id ∧ other.wake = message.wake

def AutomationWorld.KnowsWoken [AutomationHashes] (w : AutomationWorld) (runID : String) : Prop :=
  (∃ running ∈ w.executions, ∃ target, running.execution.wakeRunID target = runID ∧
    running.execution.wakeIdentity target ∈ running.woken) ∨
  ∃ receipt ∈ w.store.receiptsOf runID, receipt.outcome = .succeeded

def FindsWake [AutomationHashes] (w w' : AutomationWorld) (execution : AutomationExecution)
    (identity : String) : Prop :=
  ∃ target, identity = execution.wakeIdentity target ∧ (ExactWake w.store execution target ∨
    ∃ commit ∈ w'.commits, commit.identityID = identity ∧ commit.fireID = execution.fireID)

def CommitsOne [AutomationHashes] (w w' : AutomationWorld) : Prop :=
  (w'.commits = w.commits ∧
    ∀ message ∈ w'.store.messages, message.isAutomation = true → WasStored w.store.messages message) ∨
  ∃ commit, w'.commits = w.commits ++ [commit] ∧ commit.Fenced w ∧ commit.Named ∧
    (∃ message ∈ w'.store.messages, message.id = commit.messageID) ∧
    ∀ message ∈ w'.store.messages, message.isAutomation = true →
      WasStored w.store.messages message ∨ commit.Wakes message

structure StepEffect [AutomationHashes] (action : AutomationAction) (w w' : AutomationWorld) : Prop where
  /-- The Messages change first. -/
  writes : Writes w.clock w.KnowsWoken { w.store with messages := w'.store.messages } w'.store
  kept : (∀ sessionID, action ≠ .deleteSession sessionID) →
    ∀ message ∈ w.store.messages, ∃ other ∈ w'.store.messages, other.id = message.id
  clock : w.clock ≤ w'.clock
  constraints : w'.store.Constraints
  executions : ∀ running ∈ w'.executions, running ∈ w.executions ∨ RunningInv w'.store running
  toolClaims : ∀ reserved ∈ w'.toolClaims, reserved ∈ w.toolClaims ∨ ToolClaimInv w'.store reserved.1
  woken : ∀ running ∈ w'.executions, ∀ identity ∈ running.woken,
    (∃ other ∈ w.executions, other.execution = running.execution ∧ identity ∈ other.woken) ∨
      FindsWake w w' running.execution identity
  commits : CommitsOne w w'

open StepEffect

section Growth

variable [AutomationHashes] {now : ℤ} {woken : String → Prop} {store store' : AutomationStore}

lemma StoreWrite.runIdentities (hwrite : StoreWrite now woken store store') {row : AutomationDefinition}
    (hrow : row ∈ store.definitions) : runIdentities store' row = runIdentities store row := by
  cases hwrite with
  | definition _ _ hid => exact runIdentities_insertDefinition (hid row hrow)
  | leases | tombstone | fire | attempt | attemptReceipt | run | runReceipt | settlement | aside => rfl

/-- They stay over a transaction. -/
lemma Writes.runIdentities (hwrites : Writes now woken store store') {row : AutomationDefinition}
    (hrow : row ∈ store.definitions) :
    OpenCorvus.Scheduler.runIdentities store' row = OpenCorvus.Scheduler.runIdentities store row := by
  induction hwrites with
  | refl => rfl
  | tail hbefore hwrite ih =>
    have hmem := Writes.growth hbefore
    rw [hwrite.runIdentities (hmem.definitions hrow), ih]

lemma RunningInv.writes {running : RunningExecution} (h : RunningInv store running)
    (hwrites : Writes now woken store store') : RunningInv store' running where
  row := hwrites.growth.definitions h.row
  targets hkind := by
    rw [hwrites.runIdentities h.row]
    exact h.targets hkind

lemma ToolClaimInv.writes {reserved : ManualToolClaim} (h : ToolClaimInv store reserved)
    (hwrites : Writes now woken store store') : ToolClaimInv store' reserved where
  mem := hwrites.growth.definitions h.mem
  recurring := h.recurring

lemma StoreInv.withMessages (hinv : StoreInv now store) (messages : List AutomationMessage) :
    StoreInv now { store with messages := messages } := { hinv with }

lemma StepEffect.serviceInv {action : AutomationAction} {w w' : AutomationWorld}
    (h : StepEffect action w w') (hinv : ServiceInv w) : ServiceInv w' where
  store := ((hinv.store.withMessages _).writes h.writes).later h.clock
  constraints := h.constraints
  executions := by
    intro running hrunning
    rcases h.executions running hrunning with hold | hnew
    · have hbefore : RunningInv { w.store with messages := w'.store.messages } running :=
        { hinv.executions running hold with }
      exact hbefore.writes h.writes
    · exact hnew
  toolClaims := by
    intro reserved hreserved
    rcases h.toolClaims reserved hreserved with hold | hnew
    · have hbefore : ToolClaimInv { w.store with messages := w'.store.messages } reserved.1 :=
        { hinv.toolClaims reserved hold with }
      exact hbefore.writes h.writes
    · exact hnew

end Growth

/-! ## The effects of the steps -/

section Effects

variable [AutomationHashes] {action : AutomationAction} {w : AutomationWorld} {store : AutomationStore}
  {running : RunningExecution}

lemma StepEffect.withMessages {messages : List AutomationMessage}
    (hwrites : Writes w.clock w.KnowsWoken { w.store with messages := messages } store)
    (hconstraints : store.Constraints)
    (hkept : (∀ sessionID, action ≠ .deleteSession sessionID) →
      ∀ message ∈ w.store.messages, ∃ other ∈ messages, other.id = message.id)
    (hstored : ∀ message ∈ messages, message.isAutomation = true → WasStored w.store.messages message) :
    StepEffect action w (w.withStore store) := by
  have hmessages : store.messages = messages := hwrites.messages
  subst hmessages
  exact ⟨hwrites, hkept, le_refl _, hconstraints, fun _ => .inl, fun _ => .inl,
    fun running hrunning identity hidentity => .inl ⟨running, hrunning, rfl, hidentity⟩, .inl ⟨rfl, hstored⟩⟩

lemma StepEffect.withStore (hwrites : Writes w.clock w.KnowsWoken w.store store)
    (hconstraints : store.Constraints) : StepEffect action w (w.withStore store) :=
  .withMessages hwrites hconstraints (fun _ message hmessage => ⟨message, hmessage, rfl⟩)
    fun message hmessage _ => ⟨message, hmessage, rfl, rfl⟩

/-- A transaction that ends an execution. -/
lemma StepEffect.finish (hwrites : Writes w.clock w.KnowsWoken w.store store)
    (hconstraints : store.Constraints) : StepEffect action w ((w.withStore store).finish running) := by
  have heffect : StepEffect action w (w.withStore store) := .withStore hwrites hconstraints
  refine { heffect with executions := fun _ hmem => .inl (mem_of_mem_erase hmem), woken := ?_ }
  intro other hother identity hidentity
  exact .inl ⟨other, mem_of_mem_erase hother, rfl, hidentity⟩

structure MovesOn (w w' : AutomationWorld) (running next : RunningExecution) : Prop where
  execution : next.execution = running.execution
  targets : next.targets = running.targets ∨
    next.targets.map automationTargetIdentity = runIdentities w'.store running.execution.job.row
  woken : ∀ identity ∈ next.woken, identity ∈ running.woken ∨ FindsWake w w' running.execution identity

lemma StepEffect.advance (hinv : ServiceInv w) (hmem : running ∈ w.executions)
    {w' : AutomationWorld} (heffect : StepEffect action w w') (hsame : w'.executions = w.executions)
    {next : RunningExecution} (hmoves : MovesOn w w' running next) :
    StepEffect action w (w'.advance running next) := by
  have hcases : ∀ other ∈ (w'.advance running next).executions, other ∈ w.executions ∨ other = next := by
    intro other hother
    rcases mem_concat.mp hother with hold | hnew
    · exact .inl (hsame ▸ mem_of_mem_erase hold)
    · exact .inr hnew
  refine { heffect with executions := ?_, woken := ?_ }
  · intro other hother
    rcases hcases other hother with hold | rfl
    · exact .inl hold
    · have hbefore : RunningInv { w.store with messages := w'.store.messages } running :=
        { hinv.executions running hmem with }
      have hrunning := hbefore.writes heffect.writes
      refine .inr ⟨hmoves.execution ▸ hrunning.row, fun hkind => ?_⟩
      rw [hmoves.execution] at hkind ⊢
      rcases hmoves.targets with htargets | hresolved
      · rw [htargets]
        exact hrunning.targets hkind
      · exact .inr hresolved
  · intro other hother identity hidentity
    rcases hcases other hother with hold | rfl
    · exact .inl ⟨other, hold, rfl, hidentity⟩
    · rw [hmoves.execution]
      rcases hmoves.woken identity hidentity with hold | hfound
      · exact .inl ⟨running, hmem, rfl, hold⟩
      · exact .inr hfound

variable {db : AutomationDatabase} {store' : AutomationStore}

lemma projectAutomationFrontier_row [RecurrenceRules] {row : AutomationDefinition} {projected : AutomationRow}
    (h : projectAutomationFrontierInTransaction db row = .ok projected) :
    projected.row = row := by
  unfold projectAutomationFrontierInTransaction at h
  obtain ⟨_, h⟩ := of_bind h
  obtain ⟨_, h⟩ := of_bind h
  replace h := of_throwWhen h
  obtain ⟨_, h⟩ := of_bind h
  rw [← pure_eq_ok.mp h]

/-- So is the projection of its history. -/
lemma projectAutomation_row [Collation] [RecurrenceRules] {row : AutomationDefinition}
    {projected : AutomationRow} (h : projectAutomationInTransaction db row = .ok projected) :
    projected.row = row := by
  unfold projectAutomationInTransaction at h
  obtain ⟨_, h⟩ := of_bind h
  replace h := of_throwWhen h
  replace h := of_throwWhen h
  rw [← pure_eq_ok.mp h]

lemma claim_effect [RecurrenceRules] (hinv : ServiceInv w) {input : ClaimInput} {job : Option AutomationRow}
    (hclaim : claim w.store input w.clock = .ok (job, store)) (hconstraints : store.Constraints)
    (hpublic : ForcesPublic w input) :
    StepEffect action w (w.withStore store) ∧ ∀ row, job = some row → row.row ∈ store.definitions := by
  have hwrites : Writes w.clock w.KnowsWoken w.store store := claim_writes hinv.store hpublic hclaim
  refine ⟨.withStore hwrites hconstraints, ?_⟩
  rintro row rfl
  rcases claim_eq_ok hclaim with ⟨hnone, -⟩ | ⟨persisted, _, hlatest, -, htaken⟩
  · cases hnone
  · rcases htaken with ⟨hnone, -⟩ | ⟨_, _, hjob, htakes, -⟩
    · cases hnone
    · obtain ⟨_, _, _, _, _, claimed, -, -, -, -, -, hprojected, hrow⟩ := htakes.steps
      have hof : row.row = persisted := by
        have hprojectedRow : claimed.row = persisted := projectAutomationFrontier_row hprojected
        rw [some.inj hjob, hrow]
        exact hprojectedRow
      rw [hof]
      exact hwrites.growth.definitions (mem_current.mp (latestAutomationDefinition_mem hlatest).1).1

lemma StepEffect.start {w' : AutomationWorld} (heffect : StepEffect action w w') {job : AutomationRow}
    {owner : String} {at_ : ℤ} (h : job.row ∈ w'.store.definitions) :
    StepEffect action w (w'.start (startExecution job owner at_)) := by
  have hcases : ∀ other ∈ (w'.start (startExecution job owner at_)).executions,
      other ∈ w'.executions ∨ other = startExecution job owner at_ := fun other hother =>
    (mem_append.mp hother).imp id mem_singleton.mp
  refine { heffect with executions := fun other hother => ?_, woken := fun other hother => ?_ }
  · rcases hcases other hother with hold | rfl
    · exact heffect.executions other hold
    · exact .inr ⟨h, fun _ => .inl rfl⟩
  · rcases hcases other hother with hold | rfl
    · exact heffect.woken other hold
    · exact fun identity hidentity => (not_mem_nil hidentity).elim

lemma ServiceInv.targets (hinv : ServiceInv w) (hmem : running ∈ w.executions)
    (hkind : ¬running.execution.job.row.IsDelay) {missions : List StoredMissionReservation} :
    ∀ reservation ∈ running.targets.zipWith TargetReservation.mk missions,
      automationTargetIdentity reservation.target ∈ runIdentities w.store running.execution.job.row := by
  intro reservation hreservation
  have htarget : reservation.target ∈ running.targets := by
    rw [← map_uncurry_zip_eq_zipWith] at hreservation
    obtain ⟨_, hentry, rfl⟩ := List.mem_map.mp hreservation
    exact (of_mem_zip hentry).1
  rcases (hinv.executions running hmem).targets hkind with hnone | hall
  · rw [hnone] at htarget
    cases htarget
  · rw [← hall]
    exact List.mem_map_of_mem htarget

lemma holdsLease_of_fence {input : WakeCommitInput} (h : fenceAutomationWakeCommit db input = .ok ()) :
    input.HoldsLease db := by
  unfold fenceAutomationWakeCommit at h
  exact not_not.mp (throwWhen_bind_eq_ok.mp h).1

lemma commitWakeMessage_eq_ok {execution : AutomationExecution} {target : ExecutionTarget}
    {pendingDelivery : Bool} {at_ : ℤ}
    (h : commitWakeMessage store execution target pendingDelivery at_ = .ok store') :
    store' = store.upsertMessage (execution.wakeMessage target pendingDelivery) ∧
      fenceAutomationWakeCommit store'.toAutomationDatabase (execution.commitInput target at_) = .ok () := by
  unfold commitWakeMessage at h
  obtain ⟨hfence, h⟩ := check_bind_eq_ok.mp h
  rw [pure_eq_ok] at h
  subst h
  exact ⟨rfl, hfence⟩

omit [AutomationHashes] in
lemma upsertMessage_eq (store : AutomationStore) (message : AutomationMessage) :
    ∃ messages, store.upsertMessage message = { store with messages := messages } := by
  unfold AutomationStore.upsertMessage
  split_ifs
  · exact ⟨_, rfl⟩
  · exact ⟨_, rfl⟩

omit [AutomationHashes] in
lemma mem_currentSessionDelayDefinitions {sessionID : String} {delay : AutomationDefinition}
    (h : delay ∈ currentSessionDelayDefinitionsInTransaction store sessionID) :
    delay ∈ currentAutomationDefinitionsInTransaction store.toAutomationDatabase ∧ delay.IsDelay := by
  unfold currentSessionDelayDefinitionsInTransaction at h
  rw [mem_orderBy, mem_filter, decide_eq_true_eq] at h
  exact ⟨h.1, h.2.2.1⟩

variable {receiptID : String → String} {input : AssistantAcceptance}

lemma beginAssistantReply_eq_ok {now : ℤ}
    (h : beginAssistantReplyWithCommit store input receiptID now = .ok store') :
    ∃ accepted, acceptedInputsInTransaction (deliverAcceptedInputs store input) input = .ok accepted ∧
      settleSessionDelays (deliverAcceptedInputs store input) input accepted receiptID now
        (currentSessionDelayDefinitionsInTransaction (deliverAcceptedInputs store input) input.sessionID)
        (deliverAcceptedInputs store input) = .ok store' := by
  unfold beginAssistantReplyWithCommit settleSessionDelaysAtAssistantAcceptanceInTransaction at h
  exact bind_eq_ok.mp h

lemma beginAssistantReply_settling {now : ℤ} (hinv : StoreInv now store)
    (h : beginAssistantReplyWithCommit store input receiptID now = .ok store') :
    StoreInv now (deliverAcceptedInputs store input) ∧ Settling now (deliverAcceptedInputs store input)
        (currentSessionDelayDefinitionsInTransaction (deliverAcceptedInputs store input) input.sessionID)
        store' := by
  obtain ⟨_, -, hsettled⟩ := beginAssistantReply_eq_ok h
  have hdeliver : StoreInv now (deliverAcceptedInputs store input) := hinv.withMessages _
  refine ⟨hdeliver, settleSessionDelays_settling hdeliver ?_ hsettled⟩
  intro delay hdelay
  obtain ⟨hcurrent, hkind⟩ := mem_currentSessionDelayDefinitions hdelay
  exact ⟨(mem_current.mp hcurrent).1, hkind⟩

omit [AutomationHashes] in
lemma deliverAcceptedInputs_messages (store : AutomationStore) (input : AssistantAcceptance) :
    (∀ message ∈ store.messages, ∃ other ∈ (deliverAcceptedInputs store input).messages, other.id = message.id) ∧
    ∀ message ∈ (deliverAcceptedInputs store input).messages, message.isAutomation = true →
      WasStored store.messages message := by
  unfold deliverAcceptedInputs
  constructor
  · intro message hmessage
    refine ⟨_, mem_append_left _ (List.mem_map_of_mem hmessage), ?_⟩
    split_ifs <;> rfl
  · intro message hmessage hwake
    rcases mem_append.mp hmessage with hold | hnew
    · obtain ⟨other, hother, rfl⟩ := List.mem_map.mp hold
      refine ⟨other, hother, ?_⟩
      split_ifs <;> exact ⟨rfl, rfl⟩
    · split_ifs at hnew
      · cases hnew
      · rw [mem_singleton.mp hnew] at hwake
        cases hwake

omit [AutomationHashes] in
lemma upsertMessage_messages (store : AutomationStore) (message : AutomationMessage) :
    (∀ other ∈ store.messages, ∃ stored ∈ (store.upsertMessage message).messages, stored.id = other.id) ∧
    (∃ stored ∈ (store.upsertMessage message).messages, stored.id = message.id) ∧
    ∀ stored ∈ (store.upsertMessage message).messages,
      stored ∈ store.messages ∨ stored.id = message.id ∧ stored.wake = message.wake := by
  unfold AutomationStore.upsertMessage
  split_ifs with hexists
  · refine ⟨?_, ?_, ?_⟩
    · intro other hother
      refine ⟨_, List.mem_map_of_mem hother, ?_⟩
      split_ifs with hsame
      · exact hsame.symm
      · rfl
    · obtain ⟨_, hother, hsame⟩ := hexists
      exact ⟨_, List.mem_map_of_mem hother, by simp [hsame]⟩
    · intro stored hstored
      obtain ⟨_, hother, rfl⟩ := List.mem_map.mp hstored
      split_ifs
      · exact .inr ⟨rfl, rfl⟩
      · exact .inl hother
  · refine ⟨fun other hother => ⟨other, mem_append_left _ hother, rfl⟩,
      ⟨message, mem_append_right _ (mem_singleton_self _), rfl⟩, fun stored hstored => ?_⟩
    rcases mem_concat.mp hstored with hold | hnew
    · exact .inl hold
    · rw [hnew]
      exact .inr ⟨rfl, rfl⟩

lemma commitWake_effect (hinv : ServiceInv w) (hmem : running ∈ w.executions) {target : ExecutionTarget}
    {pendingDelivery : Bool} {lease : ControlLease}
    (hcommitted : commitWakeMessage w.store running.execution target pendingDelivery w.clock = .ok store)
    (hconstraints : store.Constraints)
    (hlease : automationLease w.store.toAutomationDatabase running.execution.definitionID = some lease) :
    StepEffect (.commitWake running target pendingDelivery) w
      { (w.withStore store).advance running
          { running with woken := running.woken ++ [running.execution.wakeIdentity target] } with
        commits := w.commits ++ [⟨running.execution.definitionID, running.execution.fireID,
          running.execution.wakeIdentity target, wakeMessageID (running.execution.wakeIdentity target),
          running.execution.owner, lease, w.clock⟩] } := by
  obtain ⟨rfl, hfence⟩ := commitWakeMessage_eq_ok hcommitted
  obtain ⟨hkept, hmessage, hstored⟩ := upsertMessage_messages w.store
    (running.execution.wakeMessage target pendingDelivery)
  obtain ⟨messages, hmessages⟩ := upsertMessage_eq w.store (running.execution.wakeMessage target pendingDelivery)
  have hwrites : Writes w.clock w.KnowsWoken { w.store with messages := messages }
      (w.store.upsertMessage (running.execution.wakeMessage target pendingDelivery)) := by
    rw [hmessages]
    exact .refl
  rw [hmessages] at hfence hkept hmessage hstored hconstraints hwrites ⊢
  obtain ⟨held, hheld, howner, hlive⟩ := holdsLease_of_fence hfence
  have hsame : held = lease := some.inj ((mem_def.mp hheld).symm.trans hlease)
  subst hsame
  let commit : WakeCommit := ⟨running.execution.definitionID, running.execution.fireID,
    running.execution.wakeIdentity target, wakeMessageID (running.execution.wakeIdentity target),
    running.execution.owner, held, w.clock⟩
  let w' : AutomationWorld := { w.withStore { w.store with messages := messages } with
    commits := w.commits ++ [commit] }
  have heffect : StepEffect (.commitWake running target pendingDelivery) w w' := by
    refine ⟨hwrites, fun _ => hkept, le_refl _, hconstraints, fun _ => .inl, fun _ => .inl,
      fun other hother identity hidentity => .inl ⟨other, hother, rfl, hidentity⟩,
      .inr ⟨commit, rfl, ⟨hlease, howner, rfl, hlive⟩, ⟨rfl, target, rfl⟩, hmessage, ?_⟩⟩
    intro message hmessage _
    exact (hstored message hmessage).imp (fun hold => ⟨message, hold, rfl, rfl⟩) id
  refine heffect.advance hinv hmem rfl ⟨rfl, .inl rfl, fun identity hidentity => ?_⟩
  rcases mem_concat.mp hidentity with hold | hnew
  · exact .inl hold
  · refine .inr ⟨target, hnew, .inr ⟨commit, ?_, ?_, rfl⟩⟩
    · exact mem_append_right _ (mem_singleton_self _)
    · exact hnew.symm

end Effects

/-! ## Preservation -/

section Preservation

variable [Collation] [RecurrenceRules] [AutomationHashes]

theorem automationServiceStep_effect {w w' : AutomationWorld} {action : AutomationAction}
    (hinv : ServiceInv w) (h : automationServiceStep w action = some w') : StepEffect action w w' := by
  cases action with simp only [automationServiceStep] at h
  | tick now =>
    split_ifs at h with hle
    cases h
    have heffect : StepEffect (.tick now) w (w.withStore w.store) := .withStore .refl hinv.constraints
    exact { heffect with clock := hle }
  | create input =>
    split_ifs at h
    obtain ⟨store, hcreated, hconstraints, rfl⟩ := map_committed_eq_some.mp h
    exact .withStore (createAutomation_writes hinv.store hcreated hconstraints) hconstraints
  | createDelay input =>
    obtain ⟨store, hcreated, hconstraints, rfl⟩ := map_committed_eq_some.mp h
    exact .withStore (createDelayedSessionWake_writes hinv.store hcreated hconstraints) hconstraints
  | update input =>
    split_ifs at h
    obtain ⟨_, hupdated, h⟩ := bind_eq_some_iff.mp h
    obtain ⟨_, hsome, hstore⟩ := bind_eq_some_iff.mp h
    subst hsome
    split_ifs at hstore with hconstraints
    cases hstore
    exact .withStore (updateAutomation_writes (toOption_eq_some.mp hupdated) hconstraints) hconstraints
  | remove id tombstoneID =>
    obtain ⟨_, hremoved, h⟩ := bind_eq_some_iff.mp h
    obtain ⟨_, hsome, hstore⟩ := bind_eq_some_iff.mp h
    subst hsome
    split_ifs at hstore with hconstraints
    cases hstore
    obtain ⟨_, -, -, -, hdeleted⟩ := removeAutomation_eq_ok (toOption_eq_some.mp hremoved)
    exact .withStore (appendAutomationTombstone_writes hdeleted) hconstraints
  | claim input =>
    obtain ⟨⟨job, _⟩, hclaim, h⟩ := bind_eq_some_iff.mp h
    split_ifs at h with hguard
    obtain ⟨heffect, hrow⟩ := claim_effect hinv (toOption_eq_some.mp hclaim) hguard.1 hguard.2.2.1
    cases job with
    | none =>
      cases h
      exact heffect
    | some job =>
      cases h
      exact heffect.start (hrow job rfl)
  | runNowFromTool input =>
    obtain ⟨⟨reserved, store⟩, hreserved, h⟩ := bind_eq_some_iff.mp h
    split_ifs at h with hguard
    obtain ⟨hwrites, hclaimed⟩ := runNowFromTool_writes hinv.store (toOption_eq_some.mp hreserved)
    have heffect : StepEffect (.runNowFromTool input) w (w.withStore store) := .withStore hwrites hguard.1
    cases reserved with
    | none =>
      cases h
      exact heffect
    | some claimed =>
      cases h
      refine { heffect with toolClaims := fun other hother => ?_ }
      rcases mem_concat.mp hother with hold | hnew
      · exact .inl hold
      · rw [hnew]
        obtain ⟨hmem, hkind⟩ := hclaimed claimed rfl
        exact .inr ⟨hwrites.growth.definitions hmem, hkind⟩
  | startToolRun reserved =>
    split_ifs at h with hmem
    obtain ⟨job, hjob, h⟩ := bind_eq_some_iff.mp h
    cases h
    have hclaim := hinv.toolClaims reserved hmem
    have hrow : job.row = reserved.1.definition := by
      obtain ⟨projected, hprojected, hjob⟩ := bind_eq_ok.mp (toOption_eq_some.mp hjob)
      unfold projecting at hprojected
      rw [mapError_eq_ok] at hprojected
      have hprojectedRow : projected.row = reserved.1.definition := projectAutomation_row hprojected
      rw [← pure_eq_ok.mp hjob]
      exact hprojectedRow
    have hstored : StepEffect (.startToolRun reserved) w (w.withStore w.store) :=
      .withStore .refl hinv.constraints
    have heffect : StepEffect (.startToolRun reserved) w
        { w with toolClaims := w.toolClaims.erase reserved } :=
      { hstored with toolClaims := fun other hother => .inl (mem_of_mem_erase hother) }
    exact heffect.start (hrow ▸ hclaim.mem)
  | resolveTargets running =>
    split_ifs at h with hguard
    obtain ⟨_, htargets, h⟩ := bind_eq_some_iff.mp h
    cases h
    exact (withStore .refl hinv.constraints).advance hinv hguard.1 rfl
      ⟨rfl, .inr (executionTargets_identities hguard.2.1 (toOption_eq_some.mp htargets)), fun _ => .inl⟩
  | reserve running missions receiptID =>
    split_ifs at h with hguard
    obtain ⟨⟨_, store⟩, hreserved, h⟩ := bind_eq_some_iff.mp h
    split_ifs at h with hconstraints hover
    · cases h
      exact .finish ((reserveRecurring_eq_ok (toOption_eq_some.mp hreserved)).writes hinv.store
        (hinv.executions running hguard.1).row (hinv.targets hguard.1 hguard.2.1)) hconstraints
    · cases h
      have hwrites : Writes w.clock w.KnowsWoken w.store store :=
        (reserveRecurring_eq_ok (toOption_eq_some.mp hreserved)).writes hinv.store
          (hinv.executions running hguard.1).row (hinv.targets hguard.1 hguard.2.1)
      exact (withStore hwrites hconstraints).advance hinv hguard.1 rfl ⟨rfl, .inl rfl, fun _ => .inl⟩
  | reserveDelay running mission tombstoneID receiptID =>
    split_ifs at h with hguard
    obtain ⟨store, hreserved, hconstraints, rfl⟩ := map_committed_eq_some.mp h
    have hwrites : Writes w.clock w.KnowsWoken w.store store :=
      reserveDelay_writes hinv.store (hinv.executions running hguard.1).row hguard.2.1 hreserved
    exact (withStore hwrites hconstraints).advance hinv hguard.1 rfl ⟨rfl, .inl rfl, fun _ => .inl⟩
  | settleDeletedTarget running tombstoneID receiptID =>
    split_ifs at h with hguard
    obtain ⟨store, hsettled, hconstraints, rfl⟩ := map_committed_eq_some.mp h
    exact .finish (settleDeletedDelayTarget_writes hinv.store (hinv.executions running hguard.1).row
      hguard.2.1 hsettled) hconstraints
  | settleMissionClosed running closureEventID tombstoneID receiptID =>
    split_ifs at h with hguard
    obtain ⟨store, hsettled, hconstraints, rfl⟩ := map_committed_eq_some.mp h
    exact .finish (settleAutomationMissionClosed_writes hinv.store hsettled) hconstraints
  | lookForWake running target =>
    split_ifs at h with hguard hfound
    · cases h
      refine (withStore .refl hinv.constraints).advance hinv hguard.1 rfl
        ⟨rfl, .inl rfl, fun identity hidentity => ?_⟩
      rcases mem_concat.mp hidentity with hold | hnew
      · exact .inl hold
      · exact .inr ⟨target, hnew, .inl hfound⟩
    · cases h
      exact (withStore .refl hinv.constraints).advance hinv hguard.1 rfl ⟨rfl, .inl rfl, fun _ => .inl⟩
  | commitWake running target pendingDelivery =>
    split_ifs at h with hguard
    obtain ⟨_, hstore, h⟩ := bind_eq_some_iff.mp h
    obtain ⟨_, hlease, h⟩ := bind_eq_some_iff.mp h
    cases h
    obtain ⟨hcommitted, hconstraints⟩ := committed_eq_some.mp hstore
    exact commitWake_effect hinv hguard.1 hcommitted hconstraints hlease
  | settle running results receiptID =>
    split_ifs at h with hguard
    obtain ⟨store, hsettled, hconstraints, rfl⟩ := map_committed_eq_some.mp h
    refine .finish (settleRecurring_writes hinv.store hguard.2.1 (fun entry hentry hsucceeded => ?_) hsettled)
      hconstraints
    have hallowed := hguard.2.2.2.2 entry hentry
    have hrunID : running.execution.wakeRunID entry.1 = targetRunID running.execution.fireID entry.1 := by
      unfold AutomationExecution.wakeRunID
      rw [if_neg hguard.2.1]
    rw [hsucceeded] at hallowed
    rw [← hrunID]
    exact hallowed.imp (fun hwoken => ⟨running, hguard.1, entry.1, rfl, hwoken⟩) id
  | complete running tombstoneID receiptID =>
    split_ifs at h with hguard
    obtain ⟨store, hcompleted, hconstraints, rfl⟩ := map_committed_eq_some.mp h
    refine .finish (completeDelay_writes hinv.store (.inl ⟨running, hguard.1, _, ?_, hguard.2.2.2⟩) hcompleted)
      hconstraints
    unfold AutomationExecution.wakeRunID
    rw [if_pos hguard.2.1]
  | fail running message tombstoneID receiptID =>
    split_ifs at h with hguard
    obtain ⟨store, hfailed, hconstraints, rfl⟩ := map_committed_eq_some.mp h
    exact .finish (fail_writes hinv.store hfailed) hconstraints
  | renew running =>
    split_ifs at h with hguard
    obtain ⟨store, hrenewed, hconstraints, rfl⟩ := map_committed_eq_some.mp h
    exact .withStore (renew_writes hinv.store hrenewed) hconstraints
  | crash running =>
    split_ifs at h with hguard
    cases h
    exact finish .refl hinv.constraints
  | accept input receiptID =>
    obtain ⟨store, haccepted, hconstraints, rfl⟩ := map_committed_eq_some.mp h
    obtain ⟨hkept, hstored⟩ := deliverAcceptedInputs_messages w.store input
    exact .withMessages ((beginAssistantReply_settling hinv.store haccepted).2.writes _) hconstraints
      (fun _ => hkept) hstored
  | insertMessage message =>
    split_ifs at h with hguard
    obtain ⟨_, hinserted, hconstraints, rfl⟩ := map_committed_eq_some.mp h
    cases hinserted
    refine .withMessages .refl hconstraints
      (fun _ other hother => ⟨other, mem_append_left _ hother, rfl⟩) fun other hother hwake => ?_
    rcases mem_concat.mp hother with hold | hnew
    · exact ⟨other, hold, rfl, rfl⟩
    · rw [hnew] at hwake
      exact absurd hwake (by simpa [AutomationMessage.isAutomation] using hguard)
  | createSession session =>
    split_ifs at h with hguard
    cases h
    exact .withStore (StoreWrite.aside w.store { w.store with sessions := w.store.sessions ++ [session] }).writes
      { hinv.constraints with }
  | deleteSession sessionID =>
    split_ifs at h with hguard
    cases h
    have hwrites : Writes w.clock w.KnowsWoken
        { w.store with messages := w.store.messages.filter fun message => message.sessionID ≠ sessionID }
        { w.store with
          sessions := w.store.sessions.filter fun session => session.id ≠ sessionID
          messages := w.store.messages.filter fun message => message.sessionID ≠ sessionID } :=
      (StoreWrite.aside
        { w.store with messages := w.store.messages.filter fun message => message.sessionID ≠ sessionID }
        { w.store with
          sessions := w.store.sessions.filter fun session => session.id ≠ sessionID }).writes
    refine .withMessages hwrites { hinv.constraints with messageIDs := ?_ }
      (fun hother => absurd rfl (hother sessionID)) fun message hmessage _ =>
        ⟨message, mem_of_mem_filter hmessage, rfl, rfl⟩
    exact hinv.constraints.messageIDs.sublist (filter_sublist.map _)
  | appendEvent event =>
    split_ifs at h with hguard
    cases h
    exact .withStore (StoreWrite.aside w.store { w.store with events := w.store.events ++ [event] }).writes
      { hinv.constraints with }
  | setProjects projects =>
    cases h
    exact .withStore (StoreWrite.aside w.store { w.store with projects := projects }).writes
      { hinv.constraints with }

theorem automationServiceStep_preserves : Preserves automationServiceStep ServiceInv :=
  fun _ _ _ hinv h => (automationServiceStep_effect hinv h).serviceInv hinv

omit [Collation] [RecurrenceRules] in
/-- The invariant holds before anything was created. -/
lemma serviceInv_initial (clock : ℤ) : ServiceInv (initialAutomationWorld clock) := by
  constructor
  · constructor <;> simp [initialAutomationWorld, emptyAutomationStore, emptyAutomations,
      ControlLeaseTables.rowsOf, PrimaryKey]
  · have hempty : emptyAutomationStore.Constraints := by decide
    exact hempty
  · simp [initialAutomationWorld]
  · simp [initialAutomationWorld]

/-- The invariant holds in every reachable state. -/
theorem serviceInv_of_exec {clock : ℤ} {actions : List AutomationAction} {w : AutomationWorld}
    (hrun : exec automationServiceStep (initialAutomationWorld clock) actions = some w) : ServiceInv w :=
  automationServiceStep_preserves.exec (serviceInv_initial clock) hrun

end Preservation

end OpenCorvus.Scheduler
