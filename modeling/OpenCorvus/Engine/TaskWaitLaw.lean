import OpenCorvus.Engine.TaskWait
import OpenCorvus.Engine.TerminalConversation

/-!
# The law of the Task waits

A wait has at most one settlement; the ingress that settles it is the lowest one of its Task and epoch
after the ingress that created it; and an unsettled wait has no later ingress in its epoch.
-/

namespace OpenCorvus.Engine

open EcmaScript Transaction UniqueIndex ExecutableSystem List Option

/-! ## The law -/

structure ComesAfter (wait : TaskWaitRegistrationRow) (creator ingress : TaskRootIngressRow) : Prop where
  taskID : ingress.taskID = wait.taskID
  executionEpoch : ingress.executionEpoch = wait.executionEpoch
  sequence : creator.sequence < ingress.sequence

section Law

variable (db : TaskRootDatabase)

def WaitSettled (waitID : String) : Prop := ∃ row ∈ db.waitSettlements, row.waitID = waitID

def SettledByLowest (settlement : TaskWaitSettlementRow) : Prop :=
  ∃ wait ∈ db.waits, ∃ creator ∈ db.ingresses, ∃ ingress ∈ db.ingresses,
    wait.id = settlement.waitID ∧ creator.id = wait.creatorIngressID ∧
      ingress.id = settlement.ingressID ∧ ComesAfter wait creator ingress ∧
      ∀ other ∈ db.ingresses, ComesAfter wait creator other → ingress.sequence ≤ other.sequence

structure WaitLaw : Prop where
  /-- A wait has at most one settlement. -/
  once : ∀ waitID, (db.waitSettlements.filter fun row => row.waitID = waitID).length ≤ 1
  lowest : ∀ settlement ∈ db.waitSettlements, SettledByLowest db settlement
  /-- No unsettled wait has a later ingress. -/
  unsettled : ∀ wait ∈ db.waits, ¬WaitSettled db wait.id → ∀ creator ∈ db.ingresses,
    creator.id = wait.creatorIngressID → ∀ other ∈ db.ingresses, ¬ComesAfter wait creator other

instance (waitID : String) : Decidable (WaitSettled db waitID) :=
  inferInstanceAs (Decidable (∃ row ∈ db.waitSettlements, _))

end Law

instance (wait : TaskWaitRegistrationRow) (creator ingress : TaskRootIngressRow) :
    Decidable (ComesAfter wait creator ingress) :=
  decidable_of_iff (ingress.taskID = wait.taskID ∧ ingress.executionEpoch = wait.executionEpoch ∧
      creator.sequence < ingress.sequence)
    ⟨fun ⟨htask, hepoch, hsequence⟩ => ⟨htask, hepoch, hsequence⟩,
      fun ⟨htask, hepoch, hsequence⟩ => ⟨htask, hepoch, hsequence⟩⟩

def WakesDueWait (db : TaskRootDatabase) (taskID : String) (now : ℤ) (event : OrchestratorEvent) : Prop :=
  ∃ wake ∈ event.taskWaitWake, wake.fireID = wake.jobID ∧ ∃ wait ∈ db.waits, wait.id = wake.jobID ∧
    wait.taskID = taskID ∧ wait.dueAt = wake.dueAt ∧ wait.dueAt ≤ now ∧ ¬WaitSettled db wait.id ∧
    (taskLifecycleProjectionInTransaction db.events taskID).toOption.map (·.epoch) = some wait.executionEpoch

instance (db : TaskRootDatabase) (taskID : String) (now : ℤ) (event : OrchestratorEvent) :
    Decidable (WakesDueWait db taskID now event) :=
  inferInstanceAs (Decidable (∃ wake ∈ event.taskWaitWake, _))

def AcceptsNoWake [TaskRootIdentity] (s : TaskWaitState) : TaskWaitAction → Prop
  | .accept input =>
    ∀ payload ∈ input.inlinePayload, ¬WakesDueWait s.db input.taskID input.now payload
  | .dispatch taskID event identity now =>
    ∀ payload ∈ (sourceForEvent event (dispatchIdentity event identity)).2.2, ¬WakesDueWait s.db taskID now payload
  | _ => True

instance [TaskRootIdentity] (s : TaskWaitState) (action : TaskWaitAction) :
    Decidable (AcceptsNoWake s action) := by
  unfold AcceptsNoWake
  split <;> infer_instance

/-! ## Settlements -/

section Settlements

variable {db db' : TaskRootDatabase} {waitID ingressID : String} {disposition : TaskWaitDisposition}
  {now : ℤ} {waitIDs : List String}

lemma findWaitSettlement_eq_none : db.findWaitSettlement waitID = none ↔ ¬WaitSettled db waitID := by
  simp [TaskRootDatabase.findWaitSettlement, WaitSettled]

structure Settles (db : TaskRootDatabase) (ingressID : String) (waitIDs : List String)
    (db' : TaskRootDatabase) : Prop where
  tables : db' = { db with waitSettlements := db'.waitSettlements }
  kept : ∀ row ∈ db.waitSettlements, row ∈ db'.waitSettlements
  added : ∀ row ∈ db'.waitSettlements, row ∈ db.waitSettlements ∨
    row.ingressID = ingressID ∧ row.waitID ∈ waitIDs ∧ ¬WaitSettled db row.waitID
  settled : ∀ waitID ∈ waitIDs, WaitSettled db' waitID
  unique : Unique (fun row : TaskWaitSettlementRow => some row.waitID) db.waitSettlements →
    Unique (fun row : TaskWaitSettlementRow => some row.waitID) db'.waitSettlements

lemma Settles.nil : Settles db ingressID [] db where
  tables := rfl
  kept _ hrow := hrow
  added _ hrow := .inl hrow
  settled _ hwait := by cases hwait
  unique h := h

/-- Settlements follow one another. -/
lemma Settles.append {db'' : TaskRootDatabase} {waitIDs' : List String}
    (h : Settles db ingressID waitIDs db') (h' : Settles db' ingressID waitIDs' db'') :
    Settles db ingressID (waitIDs ++ waitIDs') db'' where
  tables := by rw [h'.tables, h.tables]
  kept row hrow := h'.kept row (h.kept row hrow)
  added row hrow := by
    rcases h'.added row hrow with hold | ⟨hingress, hwait, hfree⟩
    · exact (h.added row hold).imp_right fun ⟨hingress, hwait, hfree⟩ =>
        ⟨hingress, mem_append_left _ hwait, hfree⟩
    · refine .inr ⟨hingress, mem_append_right _ hwait, fun ⟨other, hother, hid⟩ => hfree ?_⟩
      exact ⟨other, h.kept other hother, hid⟩
  settled waitID hwait := by
    rcases mem_append.mp hwait with hfirst | hsecond
    · obtain ⟨row, hrow, hid⟩ := h.settled waitID hfirst
      exact ⟨row, h'.kept row hrow, hid⟩
    · exact h'.settled waitID hsecond
  unique hunique := h'.unique (h.unique hunique)

lemma settleTaskWait_settles
    (h : settleTaskWaitForIngressInTransaction db waitID ingressID disposition now = .ok db') :
    Settles db ingressID [waitID] db' := by
  unfold settleTaskWaitForIngressInTransaction at h
  obtain ⟨_, h⟩ := of_bind h
  obtain ⟨_, h⟩ := of_bind h
  replace h := of_check h
  split at h
  next existing hexisting =>
    replace h := of_check h
    cases pure_eq_ok.mp h
    have hsettled : WaitSettled db waitID := by
      by_contra hfree
      rw [findWaitSettlement_eq_none.mpr hfree] at hexisting
      cases hexisting
    refine ⟨rfl, fun _ hrow => hrow, fun _ hrow => .inl hrow, fun other hother => ?_, fun h => h⟩
    rw [mem_singleton.mp hother]
    exact hsettled
  next hnone =>
    replace h := of_check h
    cases pure_eq_ok.mp h
    have hfree : ¬WaitSettled db waitID := findWaitSettlement_eq_none.mp hnone
    refine ⟨rfl, fun _ hrow => mem_append_left _ hrow, fun row hrow => ?_, fun other hother => ?_,
      fun hunique => hunique.concat ?_⟩
    · refine (mem_append.mp hrow).imp_right fun hnew => ?_
      rw [mem_singleton.mp hnew]
      exact ⟨rfl, mem_singleton_self _, hfree⟩
    · rw [mem_singleton.mp hother]
      exact ⟨_, mem_append_right _ (mem_singleton_self _), rfl⟩
    · rintro ⟨row, hrow, _, hid, hsame⟩
      refine hfree ⟨row, hrow, ?_⟩
      exact some.inj (hid.trans hsame.symm)

lemma supersede_settles {ingress : TaskRootIngressRow} {exceptWaitID : Option String}
    (h : supersedeCurrentTaskWaitsForIngressInTransaction db ingress exceptWaitID now = .ok db') :
    Settles db ingress.id ((db.waits.filter fun wait =>
      wait.taskID = ingress.taskID ∧ wait.executionEpoch = ingress.executionEpoch ∧
        (db.findWaitSettlement wait.id).isNone ∧ some wait.id ≠ exceptWaitID).map (·.id)) db' := by
  unfold supersedeCurrentTaskWaitsForIngressInTransaction at h
  generalize db.waits.filter _ = waits at h
  induction waits generalizing db with
  | nil =>
    cases pure_eq_ok.mp h
    exact .nil
  | cons _ _ ih =>
    rw [foldlM_cons] at h
    obtain ⟨_, hnext, hrest⟩ := bind_eq_ok.mp h
    exact (settleTaskWait_settles hnext).append (ih hrest)

end Settlements

/-! ## The invariant -/

/-- The law, with what the tables guarantee and what an ingress that wakes a wait has done. -/
structure WaitSound (db : TaskRootDatabase) : Prop where
  ingressID : Unique (fun row : TaskRootIngressRow => some row.id) db.ingresses
  waitID : Unique (fun row : TaskWaitRegistrationRow => some row.id) db.waits
  settlementID : Unique (fun row : TaskWaitSettlementRow => some row.waitID) db.waitSettlements
  creators : ∀ wait ∈ db.waits, ∃ creator ∈ db.ingresses, creator.id = wait.creatorIngressID ∧
    creator.taskID = wait.taskID ∧ creator.executionEpoch = wait.executionEpoch
  lowest : ∀ settlement ∈ db.waitSettlements, SettledByLowest db settlement
  unsettled : ∀ wait ∈ db.waits, ¬WaitSettled db wait.id → ∀ creator ∈ db.ingresses,
    creator.id = wait.creatorIngressID → ∀ other ∈ db.ingresses, ¬ComesAfter wait creator other
  woken : ∀ ingress ∈ db.ingresses, ∀ wake ∈ ingress.inlinePayload.bind (·.taskWaitWake), WaitSettled db wake.jobID

section Invariant

variable {db db' : TaskRootDatabase}

lemma WaitSound.law (h : WaitSound db) : WaitLaw db where
  once waitID := h.settlementID.length_filter_le_one (k := waitID) fun _ _ hrow =>
    congrArg some (of_decide_eq_true hrow)
  lowest := h.lowest
  unsettled := h.unsettled

theorem WaitSound.accepted (h : WaitSound db) {row : TaskRootIngressRow}
    (hwaits : db'.waits = db.waits) (hingresses : db'.ingresses = db.ingresses ++ [row])
    (hfresh : ∀ other ∈ db.ingresses, other.id ≠ row.id)
    (hlast : ∀ other ∈ db.ingresses, other.taskID = row.taskID →
      other.executionEpoch = row.executionEpoch → other.sequence < row.sequence)
    (hkept : ∀ settlement ∈ db.waitSettlements, settlement ∈ db'.waitSettlements)
    (hadded : ∀ settlement ∈ db'.waitSettlements, settlement ∈ db.waitSettlements ∨
      settlement.ingressID = row.id ∧ ∃ wait ∈ db.waits, wait.id = settlement.waitID ∧
        wait.taskID = row.taskID ∧ wait.executionEpoch = row.executionEpoch ∧
        ¬WaitSettled db wait.id)
    (hsettled : ∀ wait ∈ db.waits, wait.taskID = row.taskID → wait.executionEpoch = row.executionEpoch →
      WaitSettled db' wait.id)
    (hunique : Unique (fun row : TaskWaitSettlementRow => some row.waitID) db'.waitSettlements)
    (hwoken : ∀ wake ∈ row.inlinePayload.bind (·.taskWaitWake), WaitSettled db' wake.jobID) :
    WaitSound db' := by
  have hmono : ∀ waitID, WaitSettled db waitID → WaitSettled db' waitID :=
    fun waitID ⟨settlement, hsettlement, hid⟩ => ⟨settlement, hkept settlement hsettlement, hid⟩
  have hmem : ∀ {other}, other ∈ db'.ingresses ↔ other ∈ db.ingresses ∨ other = row := by
    intro other
    rw [hingresses, mem_append, mem_singleton]
  refine ⟨?_, hwaits ▸ h.waitID, hunique, ?_, ?_, ?_, ?_⟩
  · rw [hingresses]
    refine h.ingressID.concat ?_
    rintro ⟨other, hother, _, hid, hsame⟩
    exact hfresh other hother (some.inj (hid.trans hsame.symm))
  · intro wait hwait
    obtain ⟨creator, hcreator, hof⟩ := h.creators wait (hwaits ▸ hwait)
    exact ⟨creator, hmem.mpr (.inl hcreator), hof⟩
  · intro settlement hsettlement
    rcases hadded settlement hsettlement with hold | ⟨hingress, wait, hwait, hid, htask, hepoch, hfree⟩
    · -- An earlier settlement stays the lowest: the new ingress comes last.
      obtain ⟨wait, hwait, creator, hcreator, ingress, hingress, hid, hof, hby, hafter, hlowest⟩ :=
        h.lowest settlement hold
      refine ⟨wait, hwaits ▸ hwait, creator, hmem.mpr (.inl hcreator), ingress,
        hmem.mpr (.inl hingress), hid, hof, hby, hafter, fun other hother hothers => ?_⟩
      rcases hmem.mp hother with holder | rfl
      · exact hlowest other holder hothers
      · refine Nat.le_of_lt (hlast ingress hingress ?_ ?_)
        · exact hafter.taskID.trans hothers.taskID.symm
        · exact hafter.executionEpoch.trans hothers.executionEpoch.symm
    · obtain ⟨creator, hcreator, hof, hcreatorTask, hcreatorEpoch⟩ := h.creators wait hwait
      refine ⟨wait, hwaits ▸ hwait, creator, hmem.mpr (.inl hcreator), row, hmem.mpr (.inr rfl), hid,
        hof, hingress.symm, ⟨htask.symm, hepoch.symm, ?_⟩, fun other hother hothers => ?_⟩
      · exact hlast creator hcreator (hcreatorTask.trans htask) (hcreatorEpoch.trans hepoch)
      · rcases hmem.mp hother with holder | rfl
        · exact absurd hothers (h.unsettled wait hwait hfree creator hcreator hof other holder)
        · exact Nat.le_refl _
  · intro wait hwait hfree creator hcreator hof other hother hothers
    have hwait' : wait ∈ db.waits := hwaits ▸ hwait
    have hcreator' : creator ∈ db.ingresses := by
      rcases hmem.mp hcreator with hold | rfl
      · exact hold
      · -- The creator of a wait was accepted before.
        obtain ⟨earlier, hearlier, hearlierOf, -⟩ := h.creators wait hwait'
        exact absurd (hearlierOf.trans hof.symm) (hfresh earlier hearlier)
    rcases hmem.mp hother with holder | rfl
    · exact h.unsettled wait hwait' (fun hset => hfree (hmono _ hset)) creator hcreator' hof other holder hothers
    · exact hfree (hsettled wait hwait' hothers.taskID.symm hothers.executionEpoch.symm)
  · intro ingress hingress wake hwake
    rcases hmem.mp hingress with hold | rfl
    · exact hmono _ (h.woken ingress hold wake hwake)
    · exact hwoken wake hwake

theorem WaitSound.settles (h : WaitSound db) {inserted : TaskRootDatabase} {row : TaskRootIngressRow}
    {waitIDs : List String} (hsettles : Settles inserted row.id waitIDs db')
    (hwaits : inserted.waits = db.waits) (hsettlements : inserted.waitSettlements = db.waitSettlements)
    (hingresses : inserted.ingresses = db.ingresses ++ [row])
    (hfresh : ∀ other ∈ db.ingresses, other.id ≠ row.id)
    (hlast : ∀ other ∈ db.ingresses, other.taskID = row.taskID →
      other.executionEpoch = row.executionEpoch → other.sequence < row.sequence)
    (hof : ∀ waitID ∈ waitIDs, ∃ wait ∈ db.waits, wait.id = waitID ∧ wait.taskID = row.taskID ∧
      wait.executionEpoch = row.executionEpoch)
    (hall : ∀ wait ∈ db.waits, wait.taskID = row.taskID → wait.executionEpoch = row.executionEpoch →
      ¬WaitSettled db wait.id → wait.id ∈ waitIDs)
    (hwoken : ∀ wake ∈ row.inlinePayload.bind (·.taskWaitWake), WaitSettled db' wake.jobID) :
    WaitSound db' := by
  have hsame : ∀ waitID, WaitSettled inserted waitID ↔ WaitSettled db waitID := by
    intro waitID
    unfold WaitSettled
    rw [hsettlements]
  have htables := hsettles.tables
  refine h.accepted ?_ ?_ hfresh hlast ?_ ?_ ?_ ?_ hwoken
  · rw [htables]
    exact hwaits
  · rw [htables]
    exact hingresses
  · intro settlement hsettlement
    exact hsettles.kept settlement (hsettlements ▸ hsettlement)
  · intro settlement hsettlement
    rcases hsettles.added settlement hsettlement with hold | ⟨hby, hmem, hfree⟩
    · exact .inl (hsettlements ▸ hold)
    · obtain ⟨wait, hwait, hid, htask, hepoch⟩ := hof _ hmem
      refine .inr ⟨hby, wait, hwait, hid, htask, hepoch, ?_⟩
      rw [hid]
      exact fun hsettled => hfree ((hsame _).mpr hsettled)
  · intro wait hwait htask hepoch
    by_cases hfree : WaitSettled db wait.id
    · obtain ⟨settlement, hsettlement, hid⟩ := hfree
      exact ⟨settlement, hsettles.kept settlement (hsettlements ▸ hsettlement), hid⟩
    · exact hsettles.settled _ (hall wait hwait htask hepoch hfree)
  · exact hsettles.unique (hsettlements ▸ h.settlementID)

end Invariant

/-! ## Acceptance -/

section Acceptance

variable [TaskRootIdentity] {db db' : TaskRootDatabase} {input : AcceptTaskRootIngressInput}
  {row : TaskRootIngressRow} {dueWaitID : Option String}

omit [TaskRootIdentity] in
lemma exactDueTaskWait_eq_ok (h : exactDueTaskWaitForIngressInTransaction db input = .ok dueWaitID) :
    (dueWaitID = none ∧ input.inlinePayload.bind (·.taskWaitWake) = none) ∨
      ∃ wake ∈ input.inlinePayload.bind (·.taskWaitWake), dueWaitID = some wake.jobID ∧
        wake.fireID = wake.jobID ∧ ∃ wait ∈ db.waits, wait.id = wake.jobID ∧
          wait.taskID = input.taskID ∧ wait.executionEpoch = input.executionEpoch ∧
          wait.dueAt = wake.dueAt ∧ wait.dueAt ≤ input.now ∧ ¬WaitSettled db wait.id := by
  unfold exactDueTaskWaitForIngressInTransaction at h
  split at h
  next hnone => exact .inl ⟨(Except.ok.inj h).symm, hnone⟩
  next wake hwake =>
    obtain ⟨hidentity, h⟩ := throwWhen_bind_eq_ok.mp h
    obtain ⟨wait, hwait, h⟩ := bind_eq_ok.mp h
    obtain ⟨hlineage, h⟩ := throwWhen_bind_eq_ok.mp h
    obtain ⟨hdue, h⟩ := throwWhen_bind_eq_ok.mp h
    obtain ⟨hfree, h⟩ := throwWhen_bind_eq_ok.mp h
    rw [getOrThrow_eq_ok] at hwait
    have hid : wait.id = wake.jobID := by simpa using find?_some hwait
    rw [not_isSome_iff_eq_none, findWaitSettlement_eq_none, ← hid] at hfree
    push Not at hidentity hlineage
    refine .inr ⟨wake, hwake, (pure_eq_ok.mp h).symm, hidentity.2.2.1, wait,
      mem_of_find?_eq_some hwait, hid, hlineage.1, hlineage.2.1, hlineage.2.2, ?_, hfree⟩
    exact not_lt.mp hdue

/-- What the first acceptance of a source does to the waits. -/
structure AcceptsAndSupersedes (db : TaskRootDatabase) (input : AcceptTaskRootIngressInput)
    (row : TaskRootIngressRow) (db' : TaskRootDatabase) (dueWaitID : Option String)
    (inserted : TaskRootDatabase) : Prop where
  due : exactDueTaskWaitForIngressInTransaction db input = .ok dueWaitID
  inlinePayload : row.inlinePayload = input.inlinePayload
  accepts : AcceptsNew db input row db'
  waits : inserted.waits = db.waits
  waitSettlements : inserted.waitSettlements = db.waitSettlements
  ingresses : inserted.ingresses = db.ingresses ++ [row]
  settles : Settles inserted row.id ((db.waits.filter fun wait =>
    wait.taskID = row.taskID ∧ wait.executionEpoch = row.executionEpoch ∧
      (db.findWaitSettlement wait.id).isNone ∧ some wait.id ≠ dueWaitID).map (·.id)) db'

lemma acceptNewTaskRootIngress_supersedes (h : acceptNewTaskRootIngress db input = .ok (row, db')) :
    ∃ dueWaitID inserted, AcceptsAndSupersedes db input row db' dueWaitID inserted := by
  have haccepts := acceptNewTaskRootIngress_eq_ok h
  unfold acceptNewTaskRootIngress at h
  obtain ⟨_, h⟩ := of_bind h
  obtain ⟨_, h⟩ := of_bind h
  replace h := of_check h
  replace h := of_check h
  obtain ⟨dueWaitID, hdue, h⟩ := bind_eq_ok.mp h
  obtain ⟨⟨_, _⟩, hensure, h⟩ := bind_eq_ok.mp h
  obtain ⟨_, hinserted, h⟩ := bind_eq_ok.mp h
  obtain ⟨_, hsuperseded, h⟩ := bind_eq_ok.mp h
  cases pure_eq_ok.mp h
  have hsettles := supersede_settles hsuperseded
  obtain ⟨_, rfl, -⟩ := ensureTaskRootIngressPolicy_eq_ok hensure
  obtain ⟨-, -, rfl⟩ := insertTaskRootIngress_eq_ok hinserted
  refine ⟨dueWaitID, _, hdue, rfl, haccepts, ?_, ?_, ?_, hsettles⟩ <;> rfl

lemma acceptTaskRootIngress_supersedes (h : acceptTaskRootIngressInTransaction db input = .ok (row, db')) :
    (row ∈ db.ingresses ∧ row.inlinePayload = input.inlinePayload ∧ db' = db) ∨
      ∃ dueWaitID inserted, AcceptsAndSupersedes db input row db' dueWaitID inserted := by
  obtain ⟨-, -, -, ⟨hold, -, hsame⟩ | ⟨-, hnew⟩⟩ := acceptTaskRootIngress_cases h
  · exact .inl ⟨hold, hsame⟩
  · exact .inr (acceptNewTaskRootIngress_supersedes hnew)

omit [TaskRootIdentity] in
lemma AcceptsNew.sequence_lt (h : AcceptsNew db input row db') :
    ∀ other ∈ db.ingresses, other.taskID = row.taskID → other.executionEpoch = row.executionEpoch →
      other.sequence < row.sequence := by
  intro other hother htask hepoch
  rw [h.sequence]
  refine Nat.lt_succ_of_le (maxOrZero_le_iff.mp le_rfl _ ?_)
  rw [List.mem_map]
  refine ⟨other, mem_filter.mpr ⟨hother, ?_⟩, rfl⟩
  simp [htask, hepoch, h.taskID, h.executionEpoch]

omit [TaskRootIdentity] in
lemma WaitSound.acceptsAndSupersedes (h : WaitSound db) {inserted db'' : TaskRootDatabase}
    {waitIDs : List String} (haccepts : AcceptsAndSupersedes db input row db' dueWaitID inserted)
    (hsettles : Settles db' row.id waitIDs db'') (hexempt : ∀ waitID, waitID ∈ waitIDs ↔ waitID ∈ dueWaitID)
    (hof : ∀ waitID ∈ dueWaitID, ∃ wait ∈ db.waits, wait.id = waitID ∧ wait.taskID = row.taskID ∧
      wait.executionEpoch = row.executionEpoch)
    (hwoken : ∀ wake ∈ row.inlinePayload.bind (·.taskWaitWake), wake.jobID ∈ dueWaitID) :
    WaitSound db'' := by
  refine h.settles (haccepts.settles.append hsettles) haccepts.waits haccepts.waitSettlements
    haccepts.ingresses haccepts.accepts.freshID haccepts.accepts.sequence_lt ?_ ?_ ?_
  · intro waitID hmem
    rcases mem_append.mp hmem with hsuperseded | hdue
    · obtain ⟨wait, hwait, rfl⟩ := List.mem_map.mp hsuperseded
      rw [mem_filter, decide_eq_true_eq] at hwait
      exact ⟨wait, hwait.1, rfl, hwait.2.1, hwait.2.2.1⟩
    · exact hof waitID ((hexempt waitID).mp hdue)
  · intro wait hwait htask hepoch hfree
    by_cases hdue : wait.id ∈ dueWaitID
    · exact mem_append_right _ ((hexempt wait.id).mpr hdue)
    · refine mem_append_left _ (List.mem_map.mpr ⟨wait, mem_filter.mpr ⟨hwait, ?_⟩, rfl⟩)
      rw [decide_eq_true_eq, findWaitSettlement_eq_none.mpr hfree]
      exact ⟨htask, hepoch, rfl, fun hsome => hdue hsome.symm⟩
  · intro wake hwake
    exact hsettles.settled _ ((hexempt _).mpr (hwoken wake hwake))

lemma WaitSound.acceptTaskRootIngress (h : WaitSound db)
    (haccept : acceptTaskRootIngressInTransaction db input = .ok (row, db'))
    (hwake : ∀ payload ∈ input.inlinePayload, ¬WakesDueWait db input.taskID input.now payload) :
    WaitSound db' := by
  rcases acceptTaskRootIngress_supersedes haccept with ⟨-, -, rfl⟩ | ⟨dueWaitID, _, haccepts⟩
  · exact h
  · have hnone : dueWaitID = none ∧ input.inlinePayload.bind (·.taskWaitWake) = none := by
      rcases exactDueTaskWait_eq_ok haccepts.due with hnone | ⟨wake, hmem, -, hfire, wait, hwait, hid,
        htask, hepoch, hdueAt, hdue, hfree⟩
      · exact hnone
      · obtain ⟨payload, hpayload, hof⟩ := bind_eq_some_iff.mp hmem
        obtain ⟨_, hlifecycle, hcurrent⟩ := haccepts.accepts.currentEpoch
        refine absurd ⟨wake, hof, hfire, wait, hwait, hid, htask, hdueAt, hdue, hfree, ?_⟩ (hwake payload hpayload)
        rw [hlifecycle, hepoch, ← hcurrent]
        rfl
    obtain ⟨rfl, hpayload⟩ := hnone
    refine h.acceptsAndSupersedes haccepts .nil (by simp) (by simp) ?_
    rw [haccepts.inlinePayload, hpayload]
    simp

lemma sourceForEvent_wakeEvent (wait : TaskWaitRegistrationRow) (waitJobID : Option String) :
    (sourceForEvent wait.wakeEvent (.ofWait waitJobID)).2.2 = some wait.wakeEvent := by
  simp [sourceForEvent, TaskRootIngressIdentity.ofWait, exactIdentity]

lemma WaitSound.materializeDueTaskWait (h : WaitSound db) {task : TaskRow} {executionEpoch : ℕ}
    {now : ℤ} {ingressID : Option String}
    (hmaterialize : materializeDueTaskWaitInTransaction db task executionEpoch now =
      .ok (ingressID, db')) : WaitSound db' := by
  unfold materializeDueTaskWaitInTransaction at hmaterialize
  split at hmaterialize
  next =>
    cases hmaterialize
    exact h
  next wait rest hdue =>
    obtain ⟨⟨row, _⟩, hpersist, hmaterialize⟩ := bind_eq_ok.mp hmaterialize
    obtain ⟨_, hsettle, hmaterialize⟩ := bind_eq_ok.mp hmaterialize
    cases pure_eq_ok.mp hmaterialize
    have hwait : wait ∈ dueTaskWaitsInTransaction db task.id executionEpoch now := by
      rw [hdue]
      exact mem_cons_self
    unfold dueTaskWaitsInTransaction at hwait
    rw [mem_toSorted, mem_filter, decide_eq_true_eq, isNone_iff_eq_none,
      findWaitSettlement_eq_none] at hwait
    obtain ⟨-, -, -, -, hfree⟩ := hwait
    obtain ⟨input, -, -, hpayload, haccept⟩ := persistTaskRootIngress_accepts hpersist
    rw [sourceForEvent_wakeEvent] at hpayload
    rcases acceptTaskRootIngress_supersedes haccept with ⟨hold, hsame, -⟩ | ⟨dueWaitID, _, hnew⟩
    · have hsettled : WaitSettled db wait.id := by
        refine h.woken row hold { jobID := wait.id, fireID := wait.id, dueAt := wait.dueAt } ?_
        rw [hsame, hpayload]
        rfl
      exact absurd hsettled hfree
    · have hdueWait : dueWaitID = some wait.id ∧ ∃ registered ∈ db.waits, registered.id = wait.id ∧
          registered.taskID = input.taskID ∧ registered.executionEpoch = input.executionEpoch := by
        have hdueIs := exactDueTaskWait_eq_ok hnew.due
        rw [hpayload] at hdueIs
        rcases hdueIs with ⟨-, hnone⟩ | ⟨_, hwake, rfl, -, registered, hmem, hid, htask, hepoch, -⟩
        · cases hnone
        · cases hwake
          exact ⟨rfl, registered, hmem, hid, htask, hepoch⟩
      obtain ⟨rfl, registered, hmem, hid, htask, hepoch⟩ := hdueWait
      refine h.acceptsAndSupersedes hnew (settleTaskWait_settles hsettle) (by simp [eq_comm]) ?_ ?_
      · rintro _ hwaitID
        cases hwaitID
        refine ⟨registered, hmem, hid, htask.trans hnew.accepts.taskID.symm, ?_⟩
        exact hepoch.trans hnew.accepts.executionEpoch.symm
      · rw [hnew.inlinePayload, hpayload]
        rintro _ hwake
        cases hwake
        rfl

/-- A convergence keeps the invariant. -/
lemma WaitSound.convergeDueTaskWait (h : WaitSound db) {taskID : String} {executionEpoch : ℕ} {now : ℤ}
    (hconverge : convergeDueTaskWait db taskID executionEpoch now = .ok db') : WaitSound db' := by
  unfold Engine.convergeDueTaskWait at hconverge
  obtain ⟨_, hconverge⟩ := of_bind hconverge
  split_ifs at hconverge
  · cases pure_eq_ok.mp hconverge
    exact h
  · split at hconverge
    · cases pure_eq_ok.mp hconverge
      exact h
    · obtain ⟨⟨_, _⟩, hmaterialize, hconverge⟩ := bind_eq_ok.mp hconverge
      cases pure_eq_ok.mp hconverge
      exact h.materializeDueTaskWait hmaterialize

end Acceptance

/-! ## Registrations -/

section Registrations

variable {db db' : TaskRootDatabase}

instance : Std.TransCmp TaskRootIngressRow.compareSequence :=
  inferInstanceAs (Std.TransCmp (compareLex (compareOn TaskRootIngressRow.sequence)
    (compareOn TaskRootIngressRow.id)))

lemma sequence_le_of_toSorted {first other : TaskRootIngressRow} {ingresses rest : List TaskRootIngressRow}
    (h : toSorted TaskRootIngressRow.compareSequence ingresses = first :: rest)
    (hother : other ∈ ingresses) : first.sequence ≤ other.sequence := by
  have hle := toSorted_head_isLE h hother
  unfold TaskRootIngressRow.compareSequence at hle
  by_contra hlt
  have hgt : compare first.sequence other.sequence = .gt := compare_gt_iff_gt.mpr (not_le.mp hlt)
  rw [hgt] at hle
  cases hle

def TaskRootDatabase.withWait (db : TaskRootDatabase) (wait : TaskWaitRegistrationRow) : TaskRootDatabase :=
  { db with waits := db.waits ++ [wait] }

variable {wait : TaskWaitRegistrationRow} {creator : TaskRootIngressRow}

lemma WaitSound.registers (h : WaitSound db) {ingressID : String} {waitIDs : List String}
    (hfresh : ∀ other ∈ db.waits, other.id ≠ wait.id) (hcreator : creator ∈ db.ingresses)
    (hof : creator.id = wait.creatorIngressID) (htask : creator.taskID = wait.taskID)
    (hepoch : creator.executionEpoch = wait.executionEpoch)
    (hsettles : Settles (db.withWait wait) ingressID waitIDs db')
    (hnew : ∀ settlement : TaskWaitSettlementRow, settlement.ingressID = ingressID →
      settlement.waitID ∈ waitIDs → SettledByLowest (db.withWait wait) settlement)
    (hopen : wait.id ∈ waitIDs ∨ ∀ other ∈ db.ingresses, ¬ComesAfter wait creator other) :
    WaitSound db' := by
  have hwaits : db'.waits = db.waits ++ [wait] := by
    rw [hsettles.tables]
    rfl
  have hingresses : db'.ingresses = db.ingresses := by
    rw [hsettles.tables]
    rfl
  have hlowest : ∀ settlement, SettledByLowest (db.withWait wait) settlement → SettledByLowest db' settlement := by
    intro settlement hsettlement
    rw [hsettles.tables]
    exact hsettlement
  have hmono : ∀ waitID, WaitSettled db waitID → WaitSettled db' waitID :=
    fun waitID ⟨settlement, hsettlement, hid⟩ => ⟨settlement, hsettles.kept settlement hsettlement, hid⟩
  refine ⟨hingresses ▸ h.ingressID, ?_, hsettles.unique h.settlementID, ?_, ?_, ?_, ?_⟩
  · rw [hwaits]
    refine h.waitID.concat ?_
    rintro ⟨other, hother, _, hid, hsame⟩
    exact hfresh other hother (some.inj (hid.trans hsame.symm))
  · intro other hother
    rw [hingresses]
    rw [hwaits, mem_append, mem_singleton] at hother
    rcases hother with hold | rfl
    · exact h.creators other hold
    · exact ⟨creator, hcreator, hof, htask, hepoch⟩
  · intro settlement hsettlement
    refine hlowest settlement ?_
    rcases hsettles.added settlement hsettlement with hold | ⟨hby, hmem, -⟩
    · obtain ⟨other, hother, hsettled⟩ := h.lowest settlement hold
      exact ⟨other, mem_append_left _ hother, hsettled⟩
    · exact hnew settlement hby hmem
  · intro other hother hfree creator' hcreator' hof' ingress hingress hafter
    rw [hingresses] at hcreator' hingress
    rw [hwaits, mem_append, mem_singleton] at hother
    rcases hother with hold | rfl
    · exact h.unsettled other hold (fun hsettled => hfree (hmono _ hsettled)) creator' hcreator' hof'
        ingress hingress hafter
    · have hsame : creator' = creator :=
        h.ingressID.eq_of_key hcreator' hcreator (congrArg some hof') (congrArg some hof)
      rcases hopen with hmem | hnone
      · exact hfree (hsettles.settled _ hmem)
      · exact hnone ingress hingress (hsame ▸ hafter)
  · intro ingress hingress wake hwake
    rw [hingresses] at hingress
    exact hmono _ (h.woken ingress hingress wake hwake)

lemma WaitSound.supersedeNewTaskWait (h : WaitSound db) {now : ℤ}
    (hfresh : ∀ other ∈ db.waits, other.id ≠ wait.id) (hcreator : creator ∈ db.ingresses)
    (hof : creator.id = wait.creatorIngressID) (htask : creator.taskID = wait.taskID)
    (hepoch : creator.executionEpoch = wait.executionEpoch)
    (hsupersede : supersedeNewTaskWait (db.withWait wait) wait.id creator now = .ok db') :
    WaitSound db' := by
  have hafter : ∀ other, other ∈ ingressesAfter (db.withWait wait) creator.taskID
      creator.executionEpoch creator.sequence ↔ other ∈ db.ingresses ∧ ComesAfter wait creator other := by
    intro other
    unfold ingressesAfter
    rw [mem_filter, decide_eq_true_eq, htask, hepoch]
    exact and_congr_right fun _ => ⟨fun ⟨hsame, hin, hlt⟩ => ⟨hsame, hin, hlt⟩,
      fun ⟨hsame, hin, hlt⟩ => ⟨hsame, hin, hlt⟩⟩
  unfold Engine.supersedeNewTaskWait at hsupersede
  split at hsupersede
  next hnone =>
    cases hsupersede
    rw [toSorted_eq_nil] at hnone
    have hnil : Settles (db.withWait wait) "" [] (db.withWait wait) := .nil
    refine h.registers hfresh hcreator hof htask hepoch hnil (by simp) (.inr ?_)
    intro other hother hothers
    have hmem := (hafter other).mpr ⟨hother, hothers⟩
    rw [hnone] at hmem
    cases hmem
  next newer rest hsorted =>
    have hfirst : newer ∈ toSorted TaskRootIngressRow.compareSequence (ingressesAfter (db.withWait wait)
        creator.taskID creator.executionEpoch creator.sequence) := by
      rw [hsorted]
      exact mem_cons_self
    have hnewer := (hafter newer).mp (mem_toSorted.mp hfirst)
    refine h.registers hfresh hcreator hof htask hepoch (settleTaskWait_settles hsupersede) ?_
      (.inl (mem_singleton_self _))
    intro settlement hby hmem
    refine ⟨wait, mem_append_right _ (mem_singleton_self _), creator, hcreator, newer,
      hnewer.1, (mem_singleton.mp hmem).symm, hof, hby.symm, hnewer.2, fun other hother hothers => ?_⟩
    exact sequence_le_of_toSorted hsorted ((hafter other).mpr ⟨hother, hothers⟩)

lemma taskWaitCreator_eq_ok {input : CreateTaskWaitInput} {executionEpoch : ℕ} {activationID : String}
    (h : taskWaitCreator db input executionEpoch = .ok (activationID, creator)) :
    creator ∈ db.ingresses ∧ creator.taskID = input.taskID ∧
      creator.executionEpoch = executionEpoch := by
  unfold taskWaitCreator at h
  obtain ⟨_, h⟩ := of_bind h
  obtain ⟨_, h⟩ := of_bind h
  obtain ⟨_, hfound, h⟩ := bind_eq_ok.mp h
  obtain ⟨hlost, h⟩ := throwWhen_bind_eq_ok.mp h
  cases pure_eq_ok.mp h
  rw [getOrThrow_eq_ok] at hfound
  push Not at hlost
  exact ⟨mem_of_find?_eq_some hfound, hlost.2.2.1, hlost.2.2.2⟩

lemma insertTaskWaitRegistration_eq_ok {task : TaskRow}
    (h : insertTaskWaitRegistration db task creator wait = .ok db') :
    (∀ other ∈ db.waits, other.id ≠ wait.id) ∧ db' = db.withWait wait := by
  unfold insertTaskWaitRegistration at h
  replace h := of_check h
  obtain ⟨hfresh, h⟩ := throwWhen_bind_eq_ok.mp h
  exact ⟨by simpa using hfresh, (pure_eq_ok.mp h).symm⟩

/-- A registration keeps the invariant. -/
lemma WaitSound.createTaskWait [TaskWaitIdentity] {s s' : TaskWaitState} (h : WaitSound s.db)
    {input : CreateTaskWaitInput} {projection : TaskWaitProjection}
    (hcreate : createTaskWait s input = .ok (projection, s')) : WaitSound s'.db := by
  unfold Engine.createTaskWait at hcreate
  replace hcreate := of_check hcreate
  replace hcreate := of_check hcreate
  split at hcreate
  · unfold createNewTaskWait at hcreate
    obtain ⟨_, hcreate⟩ := of_bind hcreate
    obtain ⟨_, hcreate⟩ := of_bind hcreate
    replace hcreate := of_check hcreate
    obtain ⟨⟨_, _⟩, hcreator, hcreate⟩ := bind_eq_ok.mp hcreate
    obtain ⟨_, hinserted, hcreate⟩ := bind_eq_ok.mp hcreate
    obtain ⟨_, hsettled, hcreate⟩ := bind_eq_ok.mp hcreate
    obtain ⟨_, hcreate⟩ := of_bind hcreate
    cases pure_eq_ok.mp hcreate
    obtain ⟨hmem, htask, hepoch⟩ := taskWaitCreator_eq_ok hcreator
    obtain ⟨hfresh, rfl⟩ := insertTaskWaitRegistration_eq_ok hinserted
    exact h.supersedeNewTaskWait hfresh hmem rfl htask hepoch hsettled
  · obtain ⟨_, hcreate⟩ := of_bind hcreate
    unfold replayTaskWait at hcreate
    replace hcreate := of_check hcreate
    obtain ⟨_, hcreate⟩ := of_bind hcreate
    cases pure_eq_ok.mp hcreate
    exact h

end Registrations

/-! ## Runs -/

section Runs

variable [TaskRootIdentity] [TaskWaitIdentity]

omit [TaskRootIdentity] [TaskWaitIdentity] in
lemma waitSound_of_initial {s : TaskWaitState} (h : s.Initial) : WaitSound s.db := by
  constructor <;> simp [h.waits, h.waitSettlements, h.ingresses]

theorem WaitSound.step {s s' : TaskWaitState} (h : WaitSound s.db) {action : TaskWaitAction}
    (hwake : AcceptsNoWake s action) (hstep : taskWaitStep s action = some s') : WaitSound s'.db := by
  cases action with
  | createTaskWait =>
    obtain ⟨⟨_, _⟩, hcreate, rfl⟩ := map_eq_some_iff.mp hstep
    exact h.createTaskWait (toOption_eq_some.mp hcreate)
  | accept =>
    obtain ⟨⟨_, _⟩, haccept, rfl⟩ := map_eq_some_iff.mp hstep
    exact h.acceptTaskRootIngress (toOption_eq_some.mp haccept) hwake
  | dispatch taskID =>
    obtain ⟨task, htask, hstep⟩ := bind_eq_some_iff.mp hstep
    obtain ⟨⟨_, _⟩, hpersist, hstep⟩ := bind_eq_some_iff.mp hstep
    cases hstep
    have hid : task.id = taskID := by simpa using find?_some htask
    obtain ⟨_, hof, hnow, hpayload, haccept⟩ :=
      persistTaskRootIngress_accepts (toOption_eq_some.mp hpersist)
    refine h.acceptTaskRootIngress haccept ?_
    rw [hpayload, hof, hid, hnow]
    exact hwake
  | converge =>
    obtain ⟨_, hconverge, rfl⟩ := map_eq_some_iff.mp hstep
    exact h.convergeDueTaskWait (toOption_eq_some.mp hconverge)
  | host =>
    cases hstep
    exact ⟨h.ingressID, h.waitID, h.settlementID, h.creators, h.lowest, h.unsettled, h.woken⟩

end Runs

/-! ### Examples -/

@[reducible] def toolCallIdentity : TaskWaitIdentity where
  taskWaitID := id
  scheduledToolInputDigest := fun _ _ _ reason => reason

/-- An activation of the ingress `inline` has called the Tool `wait`. -/
def waitingDatabase : TaskRootDatabase :=
  { requestedDatabase with
    events := [⟨"evt_1", .opened, "tsk_1", 1, 1, 1⟩]
    messages := [⟨"msg_1", "ses_1", 3, .assistant ⟨⟨none, "msg_0", [], some "cal_1", "a", "m", "p"⟩,
      none, none, false, ""⟩⟩]
    toolRequests := [⟨"prt_1", "msg_1", 3, "call_1", "wait", ⟨true, none, false, false, false, none, ""⟩, none⟩]
    activations := ⟨[⟨"cal_1", .taskRootIngress, "inline", "own_1", 2, 100⟩], []⟩ }

def registeredWait : TaskWaitRegistrationRow :=
  ⟨"prt_1", "tsk_1", 1, "inline", 9, 4⟩

def registeringActions : List TaskWaitAction :=
  [.dispatch "tsk_1" (.bare (some "go")) (.ofWait none) 2,
    .createTaskWait ⟨"tsk_1", "prj_1", 5, "later", ⟨"ses_1", "msg_1", "prt_1", "call_1"⟩, 4⟩]

def wokenState (payload : OrchestratorEvent) (settlements : List TaskWaitSettlementRow) :
    TaskWaitState where
  db := { waitingDatabase with
    policies := [⟨"art_policy", 3, 4, none⟩]
    ingresses :=
      [⟨"inline", "tsk_1", "prj_1", 1, 1, .inline, "inline", some (.bare (some "go")), "art_policy", 2⟩,
        ⟨"prt_1", "tsk_1", "prj_1", 1, 2, .inline, "prt_1", some payload, "art_policy", 9⟩]
    waits := [registeredWait]
    waitSettlements := settlements }
  intents := [⟨"prt_1", "prt_1", "later", "later", "cal_1"⟩]

end OpenCorvus.Engine
