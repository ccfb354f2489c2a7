import OpenCorvus.Scheduler.SessionDelayLaw

/-!
# One wake for a target

The Message that wakes a target of a fire is named by a hash of the fire and the target, so that whoever
commits the wake commits the same Message.  Only the owner of the live lease commits, and a run succeeds only
for an execution that has found the Message or has committed it.
-/

namespace OpenCorvus.Scheduler

open EcmaScript UniqueIndex Engine ExecutableSystem List

section Wakes

variable [AutomationHashes]

structure NamesDiffer : Prop where
  message : ∀ identityID identityID' : String, wakeMessageID identityID = wakeMessageID identityID' →
    identityID = identityID'
  run : ∀ fireID identity fireID' identity' : String,
    deterministicAutomationID "atr" [fireID, identity] = deterministicAutomationID "atr" [fireID', identity'] →
      fireID = fireID'

def WakeCommit.IsOf (commit : WakeCommit) (fireID : String) (target : ExecutionTarget) : Prop :=
  commit.fireID = fireID ∧ commit.identityID = targetRunID fireID target

def WakeCommit.IsOfRun (commit : WakeCommit) (runID : String) : Prop :=
  runID = commit.identityID ∨ runID = delayRunID commit.fireID

structure WakeInv (w : AutomationWorld) : Prop where
  stored : ∀ message ∈ w.store.messages, message.isAutomation = true → ∃ commit ∈ w.commits, commit.Wakes message
  woken : ∀ running ∈ w.executions, ∀ identity ∈ running.woken,
    ∃ commit ∈ w.commits, commit.identityID = identity ∧ commit.fireID = running.execution.fireID
  named : ∀ commit ∈ w.commits, commit.Named
  succeeded : ∀ receipt ∈ w.store.runReceipts, receipt.outcome = .succeeded →
    ∃ commit ∈ w.commits, commit.IsOfRun receipt.runID

variable {w w' : AutomationWorld} {action : AutomationAction}

lemma CommitsOne.subset (h : CommitsOne w w') : w.commits ⊆ w'.commits := by
  rcases h with ⟨hsame, -⟩ | ⟨_, hcommits, -⟩
  · rw [hsame]
    exact Subset.refl _
  · rw [hcommits]
    exact subset_append_left _ _

lemma WakeInv.wasStored (hinv : WakeInv w) {message : AutomationMessage} (hwake : message.isAutomation = true)
    (h : WasStored w.store.messages message) : ∃ commit ∈ w.commits, commit.Wakes message := by
  obtain ⟨other, hother, hid, hsame⟩ := h
  have hotherWake : other.isAutomation = true := by
    unfold AutomationMessage.isAutomation at hwake ⊢
    rwa [hsame]
  obtain ⟨commit, hcommit, hcommitID, hcommitWake⟩ := hinv.stored other hother hotherWake
  exact ⟨commit, hcommit, hid ▸ hcommitID, hsame ▸ hcommitWake⟩

lemma WakeInv.exactWake (hinv : WakeInv w) (hnames : NamesDiffer) {execution : AutomationExecution}
    {target : ExecutionTarget} (h : ExactWake w.store execution target) :
    ∃ commit ∈ w.commits, commit.identityID = execution.wakeIdentity target ∧
      commit.fireID = execution.fireID := by
  obtain ⟨message, hmessage, hid, -, hwake⟩ := h
  have hautomation : message.isAutomation = true := by
    unfold AutomationMessage.isAutomation
    rw [hwake]
    rfl
  obtain ⟨commit, hcommit, hcommitID, hcommitWake⟩ := hinv.stored message hmessage hautomation
  have hsame := hcommitWake.symm.trans hwake
  refine ⟨commit, hcommit, hnames.message _ _ ?_, ?_⟩
  · calc wakeMessageID commit.identityID = commit.messageID := ((hinv.named commit hcommit).1).symm
      _ = message.id := hcommitID.symm
      _ = wakeMessageID (execution.wakeIdentity target) := hid
  · simp only [AutomationExecution.wakeMessage, Option.some.injEq,
      SessionWakeReason.schedulerAutomation.injEq] at hsame
    exact hsame.2

lemma WakeInv.knowsWoken (hinv : WakeInv w) {runID : String} (h : w.KnowsWoken runID) :
    ∃ commit ∈ w.commits, commit.IsOfRun runID := by
  rcases h with ⟨running, hrunning, _, hrunID, hwoken⟩ | ⟨receipt, hreceipt, hsucceeded⟩
  · obtain ⟨commit, hcommit, hidentity, hfire⟩ := hinv.woken running hrunning _ hwoken
    refine ⟨commit, hcommit, ?_⟩
    unfold AutomationExecution.wakeRunID at hrunID
    split_ifs at hrunID
    · exact .inr (hrunID ▸ hfire ▸ rfl)
    · exact .inl (hrunID.symm.trans hidentity.symm)
  · obtain ⟨hmem, hrunID⟩ := mem_filter.mp hreceipt
    have hof : receipt.runID = runID := by simpa using hrunID
    exact hof ▸ hinv.succeeded receipt hmem hsucceeded

lemma WakeInv.step (hinv : WakeInv w) (hnames : NamesDiffer) (h : StepEffect action w w') : WakeInv w' := by
  have hsubset := h.commits.subset
  constructor
  · intro message hmessage hwake
    rcases h.commits with ⟨-, hstored⟩ | ⟨commit, hcommits, -, -, -, hstored⟩
    · obtain ⟨commit, hcommit, hof⟩ := hinv.wasStored hwake (hstored message hmessage hwake)
      exact ⟨commit, hsubset hcommit, hof⟩
    · rcases hstored message hmessage hwake with hold | hnew
      · obtain ⟨other, hother, hof⟩ := hinv.wasStored hwake hold
        exact ⟨other, hsubset hother, hof⟩
      · exact ⟨commit, hcommits ▸ mem_append_right _ (mem_singleton_self _), hnew⟩
  · intro running hrunning identity hidentity
    rcases h.woken running hrunning identity hidentity with
      ⟨other, hother, hsame, hold⟩ | ⟨target, rfl, hexact | hcommitted⟩
    · obtain ⟨commit, hcommit, hcommitIdentity, hfire⟩ := hinv.woken other hother identity hold
      exact ⟨commit, hsubset hcommit, hcommitIdentity, hsame ▸ hfire⟩
    · obtain ⟨commit, hcommit, hof⟩ := hinv.exactWake hnames hexact
      exact ⟨commit, hsubset hcommit, hof⟩
    · exact hcommitted
  · intro commit hcommit
    rcases h.commits with ⟨hsame, -⟩ | ⟨_, hcommits, -, hnamed, -, -⟩
    · exact hinv.named commit (hsame ▸ hcommit)
    · rw [hcommits] at hcommit
      rcases mem_append.mp hcommit with hold | hnew
      · exact hinv.named commit hold
      · rw [mem_singleton.mp hnew]
        exact hnamed
  · intro receipt hreceipt hsucceeded
    have hknown : ∃ commit ∈ w.commits, commit.IsOfRun receipt.runID := by
      rcases h.writes.succeeded receipt hreceipt hsucceeded with hold | hwoken
      · exact hinv.succeeded receipt hold hsucceeded
      · exact hinv.knowsWoken hwoken
    obtain ⟨commit, hcommit, hof⟩ := hknown
    exact ⟨commit, hsubset hcommit, hof⟩

end Wakes

section Law

variable [Collation] [RecurrenceRules] [AutomationHashes]

structure WakesOnce (clock : ℤ) (actions : List AutomationAction) (w : AutomationWorld) : Prop where
  /-- Whoever commits the wake of a target commits the same Message. -/
  once : ∀ fireID target, ∀ commit ∈ w.commits, ∀ other ∈ w.commits,
    commit.IsOf fireID target → other.IsOf fireID target → commit.messageID = other.messageID
  messageIDs : PrimaryKey AutomationMessage.id w.store.messages
  /-- Every commit is of a target, and every wake that is stored was committed. -/
  target : ∀ commit ∈ w.commits, ∃ target, commit.IsOf commit.fireID target
  stored : ∀ message ∈ w.store.messages, message.isAutomation = true → ∃ commit ∈ w.commits, commit.Wakes message
  /-- When a wake was committed, its writer held the live lease of the definition. -/
  fenced : ∀ commit ∈ w.commits, ∃ before rest at_, actions = before ++ rest ∧
    exec automationServiceStep (initialAutomationWorld clock) before = some at_ ∧ commit.Fenced at_
  /-- A Message that was committed stays while no Session is deleted. -/
  kept : (∀ sessionID, .deleteSession sessionID ∉ actions) → ∀ commit ∈ w.commits,
    ∃ message ∈ w.store.messages, message.id = commit.messageID
  terminal : ∀ run ∈ w.store.runs,
    ((w.store.receiptsOf run.id).filter fun receipt => receipt.outcome.IsTerminal).length ≤ 1
  succeeded : ∀ receipt ∈ w.store.runReceipts, receipt.outcome = .succeeded →
    ∃ run ∈ w.store.runs, run.id = receipt.runID ∧
      ∃ commit ∈ w.commits, commit.fireID = run.fireID ∧ commit.IsOfRun run.id

structure WakeHistory (clock : ℤ) (actions : List AutomationAction) (w : AutomationWorld) : Prop where
  wakes : WakeInv w
  fenced : ∀ commit ∈ w.commits, ∃ before rest at_, actions = before ++ rest ∧
    exec automationServiceStep (initialAutomationWorld clock) before = some at_ ∧ commit.Fenced at_
  kept : (∀ sessionID, .deleteSession sessionID ∉ actions) → ∀ commit ∈ w.commits,
    ∃ message ∈ w.store.messages, message.id = commit.messageID

lemma WakeHistory.step {clock : ℤ} {before : List AutomationAction} {w w' : AutomationWorld}
    {action : AutomationAction} (hnames : NamesDiffer)
    (hrun : exec automationServiceStep (initialAutomationWorld clock) before = some w)
    (h : WakeHistory clock before w) (heffect : StepEffect action w w') :
    WakeHistory clock (before ++ [action]) w' := by
  refine ⟨h.wakes.step hnames heffect, ?_, ?_⟩
  · have hold : ∀ commit ∈ w.commits, ∃ earlier rest at_, before ++ [action] = earlier ++ rest ∧
        exec automationServiceStep (initialAutomationWorld clock) earlier = some at_ ∧ commit.Fenced at_ := by
      intro commit hcommit
      obtain ⟨earlier, rest, at_, rfl, hearlier, hfenced⟩ := h.fenced commit hcommit
      exact ⟨earlier, rest ++ [action], at_, append_assoc _ _ _, hearlier, hfenced⟩
    intro commit hcommit
    rcases heffect.commits with ⟨hsame, -⟩ | ⟨_, hcommits, hfenced, -⟩
    · exact hold commit (hsame ▸ hcommit)
    · rw [hcommits] at hcommit
      rcases mem_concat.mp hcommit with hmem | hnew
      · exact hold commit hmem
      · rw [hnew]
        exact ⟨before, [action], w, rfl, hrun, hfenced⟩
  · intro hnone commit hcommit
    have hbefore : ∀ sessionID, AutomationAction.deleteSession sessionID ∉ before := fun sessionID hmem =>
      hnone sessionID (mem_append_left _ hmem)
    have hkept := heffect.kept fun sessionID hsame =>
      hnone sessionID (mem_append_right _ (hsame ▸ mem_singleton_self _))
    have hold : ∀ other ∈ w.commits, ∃ message ∈ w'.store.messages, message.id = other.messageID := by
      intro other hother
      obtain ⟨message, hmessage, hid⟩ := h.kept hbefore other hother
      obtain ⟨stored, hstored, hsame⟩ := hkept message hmessage
      exact ⟨stored, hstored, hsame.trans hid⟩
    rcases heffect.commits with ⟨hsame, -⟩ | ⟨_, hcommits, -, -, hstored, -⟩
    · exact hold commit (hsame ▸ hcommit)
    · rw [hcommits] at hcommit
      rcases mem_concat.mp hcommit with hmem | hnew
      · exact hold commit hmem
      · rw [hnew]
        exact hstored

omit [Collation] [RecurrenceRules] in
lemma fireID_of_isOfRun {now : ℤ} {store : AutomationStore} (hinv : StoreInv now store) (hnames : NamesDiffer)
    {commit : WakeCommit} (hnamed : commit.Named) {run : AutomationRun} (hrun : run ∈ store.runs)
    (hof : commit.IsOfRun run.id) : commit.fireID = run.fireID := by
  obtain ⟨_, -, -, _, -, hrunID⟩ := hinv.runTarget run hrun
  rcases hof with hidentity | hdelay
  · obtain ⟨-, _, htarget⟩ := hnamed
    exact hnames.run _ _ _ _ (htarget.symm.trans (hidentity.symm.trans hrunID))
  · exact hnames.run _ _ _ _ (hdelay.symm.trans hrunID)

omit [Collation] [RecurrenceRules] in
lemma StoreInv.length_terminal_le_one {now : ℤ} {store : AutomationStore} (hinv : StoreInv now store)
    (runID : String) :
    ((store.receiptsOf runID).filter fun receipt => receipt.outcome.IsTerminal).length ≤ 1 := by
  unfold AutomationDatabase.receiptsOf
  rw [List.filter_filter]
  refine hinv.oneTerminal.length_filter_le_one (k := runID) fun receipt _ hreceipt => ?_
  unfold terminalKey
  simp only [Bool.and_eq_true, decide_eq_true_eq] at hreceipt
  rw [if_pos hreceipt.1, hreceipt.2]

end Law

/-- Characters that are marked, so that what ends a part is none of them. -/
def markedText (text : List Char) : List Char := text.flatMap fun char => ['-', char]

def spelledParts (parts : List String) : String :=
  String.ofList (parts.flatMap fun part => markedText part.toList ++ ['.'])

lemma markedText_append_inj {text text' rest rest' : List Char}
    (h : markedText text ++ '.' :: rest = markedText text' ++ '.' :: rest') : text = text' := by
  induction text generalizing text' with
  | nil =>
    cases text' with
    | nil => rfl
    | cons => simp [markedText] at h
  | cons _ _ ih =>
    cases text' with
    | nil => simp [markedText] at h
    | cons =>
      simp only [markedText, flatMap_cons, cons_append, nil_append, cons.injEq, true_and] at h
      rw [h.1, ih h.2]

lemma spelledParts_head {part part' : String} {rest rest' : List String}
    (h : spelledParts (part :: rest) = spelledParts (part' :: rest')) : part = part' := by
  have hlists := String.ofList_injective h
  simp only [flatMap_cons, append_assoc, singleton_append] at hlists
  exact String.toList_injective (markedText_append_inj hlists)

@[reducible] def spelledAutomations : AutomationHashes :=
  { namedAutomations with
    deterministicRunSessionID := fun runID => "ses" ++ "_automation_" ++ spelledParts [runID]
    deterministicAutomationID := fun kind parts => kind ++ "_automation_" ++ spelledParts parts }

lemma namesDiffer_spelled : letI := spelledAutomations; NamesDiffer :=
  let _ : AutomationHashes := spelledAutomations
  ⟨fun _ _ h => spelledParts_head (String.append_right_inj _ |>.mp h),
    fun _ _ _ _ h => spelledParts_head (String.append_right_inj _ |>.mp h)⟩

/-- The owner of a fire is lost before it commits the wake, and another owner commits it. -/
def takenOverWake [AutomationHashes] : List (AutomationWorld → AutomationAction) := [
  fun _ => .create ⟨"cal_1", .global, "FREQ=HOURLY", ""⟩,
  fun _ => .tick 3600000,
  fun _ => .claim ⟨"cal_1", "owner_1", false, none, "cal_2", "lease_1", false⟩,
  fun w => .resolveTargets (latestExecution w),
  fun w => .reserve (latestExecution w) [.none] id,
  fun w => .lookForWake (latestExecution w) ⟨.global, none, none, false⟩,
  fun _ => .tick 3720000,
  fun _ => .claim ⟨"cal_1", "owner_2", false, none, "cal_3", "lease_2", false⟩,
  fun w => .resolveTargets (latestExecution w),
  fun w => .reserve (latestExecution w) [.none] id,
  fun w => .lookForWake (latestExecution w) ⟨.global, none, none, false⟩,
  fun w => .commitWake (latestExecution w) ⟨.global, none, none, false⟩ true,
  fun w => .settle (latestExecution w) [.succeeded] fun runID => "receipt_" ++ runID]

/-- The state after the second owner has settled the fire. -/
def takenOverWorld : Option AutomationWorld :=
  letI := codePointCollation
  letI := hourlyRules
  letI := spelledAutomations
  exec automationServiceStep (initialAutomationWorld 0) (labelsOf (initialAutomationWorld 0) takenOverWake)

end OpenCorvus.Scheduler
