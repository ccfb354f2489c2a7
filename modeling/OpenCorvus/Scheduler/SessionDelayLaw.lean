import OpenCorvus.Scheduler.AutomationServiceLaw

/-!
# One-shot delays and ordinary input

A delay that ordinary input consumes is deleted while no lease of it is live, so no execution of it ever owns a lease
again: it commits no wake, and its runs are over.  Ordinary input is meant to pass a delay of which no due wake is
owned or on its way; but the settlement it inserts is refused for a delay that has one already, from a due wake that
was accepted before.
-/

namespace OpenCorvus.Scheduler

open EcmaScript Transaction OrderBy UniqueIndex ExecutableSystem List

section Consumed

variable [Collation] [RecurrenceRules] [AutomationHashes] {w w' : AutomationWorld}

def AutomationWorld.commitsOf (w : AutomationWorld) (definitionID : String) : List WakeCommit :=
  w.commits.filter fun commit => commit.definitionID = definitionID

variable {settlement : AutomationDelaySettlement}

omit [Collation] [RecurrenceRules] in
lemma commitsOf_step (hinv : ServiceInv w) (hsettlement : settlement ∈ w.store.settlements)
    (hinput : settlement.disposition = .inputAccepted) {action : AutomationAction}
    (heffect : StepEffect action w w') :
    w'.commitsOf settlement.definitionID = w.commitsOf settlement.definitionID := by
  unfold AutomationWorld.commitsOf
  rcases heffect.commits with ⟨hsame, -⟩ | ⟨commit, hcommits, hfenced, -⟩
  · rw [hsame]
  · rw [hcommits, filter_append]
    refine append_right_eq_self.mpr (filter_eq_nil_iff.mpr fun other hother => ?_)
    rw [mem_singleton.mp hother]
    obtain ⟨_, hof, hconsumed⟩ := hinv.store.consumed settlement hsettlement hinput
    simp only [decide_eq_true_eq]
    intro hsame
    have hlive : w.clock < commit.lease.expiresAt := hfenced.clock ▸ hfenced.live
    refine hconsumed.idle ⟨commit.lease, ?_, hlive⟩
    rw [hof, ← hsame]
    exact hfenced.lease

lemma commitsOf_exec (hinv : ServiceInv w) (hsettlement : settlement ∈ w.store.settlements)
    (hinput : settlement.disposition = .inputAccepted) {actions : List AutomationAction}
    (hrun : exec automationServiceStep w actions = some w') :
    w'.commitsOf settlement.definitionID = w.commitsOf settlement.definitionID := by
  have hkept : Preserves automationServiceStep fun s : AutomationWorld =>
      ServiceInv s ∧ settlement ∈ s.store.settlements := by
    rintro _ _ _ ⟨hs, hmem⟩ hstep
    have heffect := automationServiceStep_effect hs hstep
    exact ⟨heffect.serviceInv hs, heffect.writes.growth.settlements hmem⟩
  refine exec_relates (R := fun s s' : AutomationWorld =>
    s'.commitsOf settlement.definitionID = s.commitsOf settlement.definitionID) hkept (fun _ => rfl)
    (fun _ _ _ h h' => h'.trans h) ?_ ⟨hinv, hsettlement⟩ hrun
  rintro _ _ _ ⟨hs, hmem⟩ hstep
  exact commitsOf_step hs hmem hinput (automationServiceStep_effect hs hstep)

end Consumed

section Ordinary

structure MeetsDelay (store : AutomationStore) (input : AssistantAcceptance) (now : ℤ)
    (accepted : List AutomationMessage) (delay : AutomationDefinition) : Prop where
  reads : acceptedInputsInTransaction store input = .ok accepted
  current : delay ∈ currentSessionDelayDefinitionsInTransaction store input.sessionID
  ordinary : accepted.any AutomationMessage.isOrdinary = true
  noDue : ∀ message ∈ accepted, message.wakeOf delay.definitionID = none
  idle : ¬LeaseLive store.toAutomationDatabase delay.definitionID now
  noPending : pendingWakeFires store input delay.definitionID = []

def Unsettled (store : AutomationStore) (delay : AutomationDefinition) : Prop :=
  ∀ settlement ∈ store.settlements, settlement.definitionID ≠ delay.definitionID

variable [AutomationHashes] {now : ℤ} {store written : AutomationStore} {input : AssistantAcceptance}
  {accepted : List AutomationMessage} {delay : AutomationDefinition} {receiptID : String → String}
  {before after : List AutomationDefinition}

lemma MeetsDelay.settle_eq (h : MeetsDelay store input now accepted delay) :
    settleSessionDelay store input accepted receiptID now written delay =
      consumeDelay store input delay receiptID now written := by
  have hnone : acceptedDueFire store accepted delay = none := by
    unfold acceptedDueFire
    rw [filterMap_eq_nil_iff.mpr h.noDue]
    rfl
  unfold settleSessionDelay
  rw [hnone]
  rw [if_pos h.ordinary]

lemma fireID_eq_of_delay (hinv : StoreInv now store) (hscheduled : Unique scheduledKey store.fires)
    (hdelay : delay ∈ store.definitions) (hkind : delay.IsDelay) {run other : AutomationRun}
    (hrun : run ∈ store.runs) (hother : other ∈ store.runs) (hof : run.automationRevisionID = delay.id)
    (hotherOf : other.automationRevisionID = delay.id) : run.fireID = other.fireID := by
  have hkey : ∀ run ∈ store.runs, run.automationRevisionID = delay.id → ∃ fire ∈ store.fires,
      fire.id = run.fireID ∧ ∃ dueAt, delay.kind = .delay (some dueAt) ∧
        scheduledKey fire = some (delay.id, dueAt) := by
    intro run hrun hof
    obtain ⟨fire, hfire, hid, hrevision⟩ := hinv.runFire run hrun
    obtain ⟨row, hrow, hrowID, hdue⟩ := hinv.fireRow fire hfire
    have heq : row = delay :=
      hinv.definitionIDs.eq_of_id hrow hdelay (hrowID.trans (hrevision.trans hof))
    subst heq
    obtain ⟨horigin, hsame⟩ := hdue hkind
    refine ⟨fire, hfire, hid, fire.scheduledDueAt, ?_, ?_⟩
    · unfold AutomationDefinition.ChangesDue at hsame
      unfold AutomationDefinition.IsDelay at hkind
      split at hkind
      · next dueAt hdelayKind =>
        rw [hdelayKind] at hsame ⊢
        exact congrArg AutomationKind.delay (not_not.mp hsame)
      · exact absurd hkind id
    · unfold scheduledKey
      rw [if_pos horigin, ← hrowID]
  obtain ⟨fire, hfire, hid, dueAt, hdue, hfireKey⟩ := hkey run hrun hof
  obtain ⟨otherFire, hotherFire, hotherID, otherDue, hotherDue, hotherKey⟩ := hkey other hother hotherOf
  have hsame : dueAt = otherDue := by
    rw [hdue] at hotherDue
    exact Option.some.inj (AutomationKind.delay.inj hotherDue)
  subst hsame
  have heq : fire = otherFire := hscheduled.eq_of_key hfire hotherFire hfireKey hotherKey
  rw [← hid, ← hotherID, heq]

omit [AutomationHashes] in
lemma length_dedup_le_one {β : Type*} [DecidableEq β] {xs : List β} (h : ∀ x ∈ xs, ∀ y ∈ xs, x = y) :
    xs.dedup.length ≤ 1 := by
  match hdedup : xs.dedup with
  | [] => simp
  | [_] => simp
  | x :: y :: rest =>
    have hmem : ∀ z ∈ xs.dedup, z ∈ xs := fun z => mem_dedup.mp
    have hnodup := nodup_dedup xs
    rw [hdedup] at hmem hnodup
    have hsame : x = y := h x (hmem x (by simp)) y (hmem y (by simp))
    rw [hsame] at hnodup
    simp at hnodup

lemma MeetsDelay.consumable (h : MeetsDelay store input now accepted delay) (hinv : StoreInv now store)
    (hscheduled : Unique scheduledKey store.fires) : Consumable store input delay now := by
  obtain ⟨hcurrent, hkind⟩ := mem_currentSessionDelayDefinitions h.current
  have hdelay := (mem_current.mp hcurrent).1
  refine ⟨h.idle, ?_, ?_⟩
  · refine length_dedup_le_one fun x hx y hy => ?_
    obtain ⟨_, hrun, rfl⟩ := List.mem_map.mp hx
    obtain ⟨_, hother, rfl⟩ := List.mem_map.mp hy
    obtain ⟨hrunMem, hof⟩ := mem_filter.mp (mem_of_mem_filter hrun)
    obtain ⟨hotherMem, hotherOf⟩ := mem_filter.mp (mem_of_mem_filter hother)
    exact fireID_eq_of_delay hinv hscheduled hdelay hkind hrunMem hotherMem (by simpa using hof)
      (by simpa using hotherOf)
  · rw [h.noPending]
    simp

lemma definitionID_ne_of_before (hinv : StoreInv now store)
    (hsplit : currentSessionDelayDefinitionsInTransaction store input.sessionID = before ++ delay :: after) :
    ∀ other ∈ before, other.definitionID ≠ delay.definitionID := by
  intro other hother hsame
  have hnodup : (currentSessionDelayDefinitionsInTransaction store input.sessionID).Nodup := by
    unfold currentSessionDelayDefinitionsInTransaction currentAutomationDefinitionsInTransaction
    rw [(orderBy_perm _ _).nodup_iff]
    exact ((Nodup.of_map _ hinv.definitionIDs).filter _).filter _
  have hmem : ∀ row ∈ before ++ delay :: after, row ∈ store.definitions ∧ row.IsDelay := by
    intro row hrow
    rw [← hsplit] at hrow
    obtain ⟨hcurrent, hkind⟩ := mem_currentSessionDelayDefinitions hrow
    exact ⟨(mem_current.mp hcurrent).1, hkind⟩
  obtain ⟨hdelay, hkind⟩ := hmem delay (by simp)
  have heq : other = delay := hinv.delayOnce delay hdelay hkind other
    (hmem other (mem_append_left _ hother)).1 hsame
  rw [hsplit, nodup_append] at hnodup
  exact hnodup.2.2 other hother delay mem_cons_self heq

lemma MeetsDelay.passes_iff (h : MeetsDelay store input now accepted delay) (hinv : StoreInv now store)
    (hscheduled : Unique scheduledKey store.fires) (hruns : PrimaryKey AutomationRun.id store.runs)
    (hsplit : currentSessionDelayDefinitionsInTransaction store input.sessionID = before ++ delay :: after)
    (hwritten : settleSessionDelays store input accepted receiptID now before store = .ok written) :
    (∃ written', settleSessionDelay store input accepted receiptID now written delay = .ok written') ↔
      Unsettled store delay := by
  have hbefore := definitionID_ne_of_before hinv hsplit
  have hstored : ∀ row ∈ before, row ∈ store.definitions ∧ row.IsDelay := by
    intro row hrow
    have hmem : row ∈ currentSessionDelayDefinitionsInTransaction store input.sessionID := by
      rw [hsplit]
      exact mem_append_left _ hrow
    obtain ⟨hcurrent, hkind⟩ := mem_currentSessionDelayDefinitions hmem
    exact ⟨(mem_current.mp hcurrent).1, hkind⟩
  have hsettling := settleSessionDelays_settling hinv hstored hwritten
  obtain ⟨hcurrent, _⟩ := mem_currentSessionDelayDefinitions h.current
  obtain ⟨hdelay, -, hlive⟩ := mem_current.mp hcurrent
  rw [h.settle_eq]
  constructor
  · rintro ⟨_, hconsume⟩ settlement hsettlement
    obtain ⟨-, _, _, hdeleted, hsuperseded, hsettled⟩ := consumeDelay_eq_ok.mp hconsume
    obtain ⟨-, rfl⟩ := appendAutomationTombstone_eq_ok.mp hdeleted
    rw [insertRunReceipts_eq_ok hsuperseded] at hsettled
    exact (insertSettlement_eq_ok.mp hsettled).1 settlement
      ((hsettling.writes fun _ => False).growth.settlements hsettlement)
  · intro hunsettled
    have htombstone : ∀ other ∈ written.tombstones, other.definitionID = delay.definitionID →
        other.revision ≠ delay.revision + 1 := by
      intro other hother hsame
      rcases hsettling.tombstones other hother with hold | ⟨row, hrow, hof⟩
      · have hlt := hlive other hold hsame
        omega
      · exact absurd (hof.symm.trans hsame) (hbefore row hrow)
    have hopen : ∀ receipt ∈ supersededReceipts store delay receiptID now,
        (∃ run ∈ written.runs, run.id = receipt.runID) ∧
          ∀ other ∈ written.receiptsOf receipt.runID, ¬other.outcome.IsTerminal := by
      intro receipt hreceipt
      obtain ⟨run, hrun, rfl⟩ := List.mem_map.mp hreceipt
      obtain ⟨hof, hunsettledRun⟩ := mem_filter.mp hrun
      obtain ⟨hmem, hrevision⟩ := mem_filter.mp hof
      rw [decide_eq_true_eq] at hunsettledRun hrevision
      refine ⟨⟨run, hsettling.runs ▸ hmem, rfl⟩, fun other hother => ?_⟩
      obtain ⟨hotherMem, hotherRun⟩ := mem_filter.mp hother
      rw [decide_eq_true_eq] at hotherRun
      rcases hsettling.receipts other hotherMem with hold | ⟨row, hrow, otherRun, hotherOf, hid⟩
      · exact hunsettledRun other (mem_filter.mpr ⟨hold, by simpa using hotherRun⟩)
      · obtain ⟨hotherRunMem, hotherRevision⟩ := mem_filter.mp hotherOf
        rw [decide_eq_true_eq] at hotherRevision
        have heq : otherRun = run := hruns.eq_of_id hotherRunMem hmem (hid.trans hotherRun)
        have hsame : row = delay := hinv.definitionIDs.eq_of_id (hstored row hrow).1 hdelay
          (hotherRevision.symm.trans (heq ▸ hrevision))
        exact absurd (congrArg AutomationDefinition.definitionID hsame) (hbefore row hrow)
    have hdistinct : ((supersededReceipts store delay receiptID now).map (·.runID)).Nodup := by
      unfold supersededReceipts unsettledRuns runsOfRevision
      rw [List.map_map]
      exact (filter_sublist.trans filter_sublist).map AutomationRun.id |>.nodup hruns
    let deleted : AutomationStore := { written with
      tombstones := written.tombstones ++
        [⟨inputConsumptionID delay.definitionID input.assistantMessageID, delay.definitionID, delay.revision + 1⟩]
      frontiers := written.frontiers.filter fun frontier => frontier.definitionID ≠ delay.definitionID }
    obtain ⟨superseded, hsuperseded⟩ : ∃ superseded,
        insertRunReceipts (supersededReceipts store delay receiptID now) deleted = .ok superseded :=
      exists_insertRunReceipts hdistinct hopen
    refine ⟨_, consumeDelay_eq_ok.mpr ⟨h.consumable hinv hscheduled, deleted, superseded,
      appendAutomationTombstone_eq_ok.mpr ⟨htombstone, rfl⟩, hsuperseded,
      insertSettlement_eq_ok.mpr ⟨?_, rfl⟩⟩⟩
    intro settlement hsettlement
    rw [insertRunReceipts_eq_ok hsuperseded] at hsettlement
    rcases hsettling.settlements settlement hsettlement with hold | ⟨row, hrow, hof⟩
    · exact hunsettled settlement hold
    · exact fun hsame => hbefore row hrow (hof.symm.trans hsame)

end Ordinary

section Law

variable [Collation] [RecurrenceRules] [AutomationHashes] (w : AutomationWorld)

/-- A delay that ordinary input has consumed has no run that is not over, and commits no wake any more. -/
def StaysConsumed : Prop :=
  ∀ settlement ∈ w.store.settlements, settlement.disposition = .inputAccepted →
    (∀ delay ∈ w.store.definitions, delay.definitionID = settlement.definitionID →
      unsettledRuns w.store delay.id = []) ∧
    ∀ actions w', exec automationServiceStep w actions = some w' →
      w'.commitsOf settlement.definitionID = w.commitsOf settlement.definitionID

def SupersedesRuns : Prop :=
  ∀ input receiptID w', automationServiceStep w (.accept input receiptID) = some w' →
    ∀ settlement ∈ w'.store.settlements, settlement ∉ w.store.settlements →
      settlement.disposition = .inputAccepted →
      ∀ delay ∈ w.store.definitions, delay.definitionID = settlement.definitionID →
        ∀ run ∈ unsettledRuns w.store delay.id,
          ∃ receipt ∈ w'.store.receiptsOf run.id, receipt.outcome = .disposition .superseded

def PassesDelay (input : AssistantAcceptance) (accepted : List AutomationMessage) (receiptID : String → String)
    (delay : AutomationDefinition) (written : AutomationStore) : Prop :=
  ∃ written', settleSessionDelay (deliverAcceptedInputs w.store input) input accepted receiptID w.clock
    written delay = .ok written'

/-- Whenever ordinary input meets a delay, the acceptance does not raise for it if the condition holds of the
state and the delay, and only then. -/
def PassesExactlyWhen (condition : AutomationWorld → AutomationDefinition → Prop) (w : AutomationWorld) : Prop :=
  ∀ input accepted delay,
    MeetsDelay (deliverAcceptedInputs w.store input) input w.clock accepted delay →
    ∀ receiptID before after written,
      currentSessionDelayDefinitionsInTransaction (deliverAcceptedInputs w.store input) input.sessionID =
        before ++ delay :: after →
      settleSessionDelays (deliverAcceptedInputs w.store input) input accepted receiptID w.clock before
        (deliverAcceptedInputs w.store input) = .ok written →
      (PassesDelay w input accepted receiptID delay written ↔ condition w delay)

lemma ServiceInv.staysConsumed {w : AutomationWorld} (hinv : ServiceInv w) : StaysConsumed w := by
  intro settlement hsettlement hinput
  refine ⟨fun delay hdelay hof => ?_, fun actions w' hrun => commitsOf_exec hinv hsettlement hinput hrun⟩
  obtain ⟨consumed, hsame, hconsumed⟩ := hinv.store.consumed settlement hsettlement hinput
  have heq : delay = consumed := hinv.store.delayOnce consumed hconsumed.mem hconsumed.isDelay delay hdelay
    (hof.trans hsame.symm)
  subst heq
  refine filter_eq_nil_iff.mpr fun run hrun => ?_
  obtain ⟨hmem, hrevision⟩ := mem_filter.mp hrun
  obtain ⟨receipt, hreceipt, hterminal⟩ := hconsumed.runs run hmem (by simpa using hrevision)
  rw [decide_eq_true_eq]
  exact fun hopen => hopen receipt hreceipt hterminal

omit [Collation] [RecurrenceRules] in
lemma superseded_of_settling {now : ℤ} {store written : AutomationStore} (hinv : StoreInv now store)
    {input : AssistantAcceptance} {accepted : List AutomationMessage} {receiptID : String → String}
    {delays : List AutomationDefinition}
    (hdelays : ∀ delay ∈ delays, delay ∈ store.definitions ∧ delay.IsDelay)
    (h : settleSessionDelays store input accepted receiptID now delays store = .ok written) :
    ∀ settlement ∈ written.settlements, settlement ∉ store.settlements →
      settlement.disposition = .inputAccepted → ∃ delay ∈ store.definitions, delay.IsDelay ∧
        delay.definitionID = settlement.definitionID ∧
        supersededReceipts store delay receiptID now ⊆ written.runReceipts := by
  refine (foldlM_eq_ok_invariant (P := fun done written => Settling now store done written ∧
    ∀ settlement ∈ written.settlements, settlement ∉ store.settlements →
      settlement.disposition = .inputAccepted → ∃ delay ∈ store.definitions, delay.IsDelay ∧
        delay.definitionID = settlement.definitionID ∧
        supersededReceipts store delay receiptID now ⊆ written.runReceipts) ?_ h ?_).2
  · rintro _ delay _ _ hmem ⟨hsettling, hbefore⟩ hstep
    obtain ⟨hstored, hkind⟩ := hdelays delay hmem
    have hnext := hsettling.settle hinv hstored hkind hstep
    refine ⟨hnext, fun settlement hsettlement hnew hinput => ?_⟩
    unfold settleSessionDelay at hstep
    split at hstep
    · obtain ⟨-, rfl | ⟨-, rfl⟩⟩ := admitDueWake_eq_ok hstep
      · exact hbefore settlement hsettlement hnew hinput
      · rcases mem_concat.mp hsettlement with hold | hadmitted
        · exact hbefore settlement hold hnew hinput
        · rw [hadmitted] at hinput
          cases hinput
    · split_ifs at hstep
      · obtain ⟨-, _, _, hdeleted, hsuperseded, hsettled⟩ := consumeDelay_eq_ok.mp hstep
        obtain ⟨-, rfl⟩ := appendAutomationTombstone_eq_ok.mp hdeleted
        obtain ⟨-, rfl⟩ := insertSettlement_eq_ok.mp hsettled
        rw [insertRunReceipts_eq_ok hsuperseded] at hsettlement ⊢
        rcases mem_concat.mp hsettlement with hold | hconsumed
        · obtain ⟨other, hother, hotherKind, hof, hreceipts⟩ := hbefore settlement hold hnew hinput
          exact ⟨other, hother, hotherKind, hof, fun receipt hreceipt =>
            mem_append_left _ (hreceipts hreceipt)⟩
        · rw [hconsumed]
          exact ⟨delay, hstored, hkind, rfl, subset_append_right _ _⟩
      · rw [← Except.ok.inj hstep] at hsettlement ⊢
        exact hbefore settlement hsettlement hnew hinput
  · exact ⟨⟨fun _ => .refl, rfl, rfl, rfl, fun _ => .inl, fun _ => .inl, fun _ => .inl⟩,
      fun settlement hsettlement hnew => absurd hsettlement hnew⟩

lemma ServiceInv.supersedesRuns {w : AutomationWorld} (hinv : ServiceInv w) : SupersedesRuns w := by
  intro input receiptID w' hstep settlement hsettlement hnew hinput delay hdelay hof run hrun
  simp only [automationServiceStep] at hstep
  obtain ⟨store, hstore, rfl⟩ := Option.map_eq_some_iff.mp hstep
  obtain ⟨haccepted, -⟩ := committed_eq_some.mp hstore
  obtain ⟨_, -, hsettled⟩ := beginAssistantReply_eq_ok haccepted
  have hdeliver : StoreInv w.clock (deliverAcceptedInputs w.store input) :=
    hinv.store.withMessages _
  obtain ⟨consumed, hstored, hkind, hsame, hreceipts⟩ := superseded_of_settling hdeliver
    (fun row hrow => by
      obtain ⟨hcurrent, hrowKind⟩ := mem_currentSessionDelayDefinitions hrow
      exact ⟨(mem_current.mp hcurrent).1, hrowKind⟩) hsettled settlement hsettlement hnew hinput
  have heq : delay = consumed :=
    hdeliver.delayOnce consumed hstored hkind delay hdelay (hof.trans hsame.symm)
  subst heq
  refine ⟨⟨receiptID run.id, run.id, .disposition .superseded, w.clock⟩, mem_filter.mpr ⟨hreceipts ?_,
    by simp⟩, rfl⟩
  exact List.mem_map.mpr ⟨run, hrun, rfl⟩

/-- In every reachable state a delay has one settlement at most, and a delay that ordinary input has consumed
stays consumed, its runs superseded; and ordinary input that meets a delay passes it exactly when the delay has
no settlement yet. -/
theorem sessionDelay_passes_iff_unsettled {clock : ℤ} {actions : List AutomationAction} {w : AutomationWorld}
    (hrun : exec automationServiceStep (initialAutomationWorld clock) actions = some w) :
    PrimaryKey AutomationDelaySettlement.definitionID w.store.settlements ∧ StaysConsumed w ∧
      SupersedesRuns w ∧ PassesExactlyWhen (fun w delay => Unsettled w.store delay) w := by
  have hinv := serviceInv_of_exec hrun
  refine ⟨hinv.store.oneSettlement, hinv.staysConsumed, hinv.supersedesRuns, ?_⟩
  intro input accepted delay hmeets receiptID before after written hsplit hwritten
  exact hmeets.passes_iff (hinv.store.withMessages _) hinv.constraints.scheduled
    hinv.constraints.runIDs hsplit hwritten

end Law

/-- Labels that name what is at hand in the states that they lead through. -/
def labelsOf [Collation] [RecurrenceRules] [AutomationHashes] (w : AutomationWorld) :
    List (AutomationWorld → AutomationAction) → List AutomationAction
  | [] => []
  | label :: rest => label w :: labelsOf ((automationServiceStep w (label w)).getD w) rest

def noDelay : AutomationDefinition := ⟨"", "", 0, none, none, .delay none, none, true, 0, ""⟩

def latestExecution (w : AutomationWorld) : RunningExecution :=
  w.executions.getLast?.getD (startExecution ⟨noDelay, none, 0, none, 0, none, none, none, none, none, 0⟩ "" 0)

@[reducible] def namedAutomations : AutomationHashes where
  deterministicRunSessionID runID := "ses_automation_" ++ runID
  scheduledAutomationFireID revisionID due := "fire_" ++ revisionID ++ "_" ++ toString due
  fireAttemptID fireID ordinal := "attempt_" ++ fireID ++ "_" ++ toString ordinal
  deterministicAutomationID kind parts := kind ++ "_automation_" ++ "_".intercalate parts
  busySessionDelayID id _ := "busy_" ++ id
  manualFireID toolPartID := "manual_" ++ toolPartID
  inputConsumptionID definitionID assistantMessageID :=
    "consumed_" ++ definitionID ++ "_" ++ assistantMessageID

def failedDueWake [AutomationHashes] : List (AutomationWorld → AutomationAction) := [
  fun _ => .createSession ⟨"ses_1", false⟩,
  fun _ => .createDelay ⟨"wait_1", "prj_1", "ses_1", 10, ""⟩,
  fun _ => .tick 10,
  fun _ => .claim ⟨"wait_1", "owner_1", false, none, "cal_1", "lease_1", false⟩,
  fun w => .reserveDelay (latestExecution w) .none "tombstone_1" "receipt_1",
  fun w => .lookForWake (latestExecution w) (latestExecution w).execution.delayTarget,
  fun w => .commitWake (latestExecution w) (latestExecution w).execution.delayTarget false,
  fun w => .accept ⟨"ses_1", "msg_1",
    [((latestExecution w).execution.wakeMessage (latestExecution w).execution.delayTarget false).id]⟩
      fun runID => "receipt_2_" ++ runID,
  fun w => .fail (latestExecution w) "provider error" "tombstone_2" fun runID => "receipt_3_" ++ runID,
  fun _ => .insertMessage ⟨"msg_2", "ses_1", true, false, none⟩]

/-- The assistant that answers the ordinary input after the failure. -/
def laterAcceptance : AssistantAcceptance := ⟨"ses_1", "msg_3", ["msg_2"]⟩

/-- The state after the failure. -/
def failedWorld : AutomationWorld :=
  letI := codePointCollation
  letI := hourlyRules
  letI := namedAutomations
  (exec automationServiceStep (initialAutomationWorld 0)
    (labelsOf (initialAutomationWorld 0) failedDueWake)).getD (initialAutomationWorld 0)

def waitingDelay : AutomationDefinition :=
  failedWorld.store.definitions.head?.getD noDelay

/-- The state is reached. -/
lemma exec_failedDueWake :
    letI := codePointCollation
    letI := hourlyRules
    letI := namedAutomations
    exec automationServiceStep (initialAutomationWorld 0)
      (labelsOf (initialAutomationWorld 0) failedDueWake) = some failedWorld := by
  decide +kernel

lemma meetsDelay_of_failure :
    letI := codePointCollation
    MeetsDelay (deliverAcceptedInputs failedWorld.store laterAcceptance) laterAcceptance failedWorld.clock
      [⟨"msg_2", "ses_1", true, false, none⟩] waitingDelay :=
  let _ : Collation := codePointCollation
  ⟨by decide +kernel, by decide +kernel, by decide +kernel, by decide +kernel, by decide +kernel,
    by decide +kernel⟩

/-- The delay does not pass ordinary input after its failure, and passes it exactly if it is unsettled. -/
theorem sessionDelay_passes_iff_unsettled_of_failure :
    letI := codePointCollation
    letI := hourlyRules
    letI := namedAutomations
    PassesExactlyWhen (fun w delay => Unsettled w.store delay) failedWorld :=
  let _ : Collation := codePointCollation
  let _ : RecurrenceRules := hourlyRules
  let _ : AutomationHashes := namedAutomations
  (sessionDelay_passes_iff_unsettled exec_failedDueWake).2.2.2

/-- A delay of which a due wake was accepted before stops ordinary input: the settlement that consumes the delay
meets the one that is there. -/
theorem ordinary_input_blocked_by_accepted_wake :
    ¬∀ (_ : Collation) (_ : RecurrenceRules) (_ : AutomationHashes) (clock : ℤ) (actions : List AutomationAction)
      (w : AutomationWorld), exec automationServiceStep (initialAutomationWorld clock) actions = some w →
        PassesExactlyWhen (fun _ _ => True) w := by
  intro h
  let _ : Collation := codePointCollation
  let _ : RecurrenceRules := hourlyRules
  let _ : AutomationHashes := namedAutomations
  have hpasses := h codePointCollation hourlyRules namedAutomations _ _ _ exec_failedDueWake laterAcceptance _ _
    meetsDelay_of_failure id [] [] _ (by decide +kernel) rfl
  obtain ⟨_, hwritten⟩ := hpasses.mpr trivial
  have hraises : (settleSessionDelay (deliverAcceptedInputs failedWorld.store laterAcceptance) laterAcceptance
      [⟨"msg_2", "ses_1", true, false, none⟩] id failedWorld.clock
      (deliverAcceptedInputs failedWorld.store laterAcceptance) waitingDelay).toOption = none := by
    decide +kernel
  rw [hwritten] at hraises
  cases hraises

end OpenCorvus.Scheduler
