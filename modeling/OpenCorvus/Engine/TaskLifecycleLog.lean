import OpenCorvus.Engine.TaskLifecycle

/-!
# The lifecycle log as an invariant

Every lifecycle operation either leaves the log alone or appends one event that the unique indexes
admit.  From this one fact follow the invariants of the log, and from these what the two readers of
the log answer: the projection of the current epoch, and the lifecycle facts of the reduction.
-/

namespace OpenCorvus.Engine

open EcmaScript Transaction UniqueIndex List TaskEvent

structure Admits (events : List TaskEvent) (row : TaskEvent) : Prop where
  notDeleted : row.type = .deleted ∨ taskDeletedInTransaction events row.aggregateID = false
  id : ¬Conflicts (fun row : TaskEvent => some row.id) events row
  openKey : ¬Conflicts TaskEvent.openKey events row
  terminalKey : ¬Conflicts TaskEvent.terminalKey events row
  boundaryRequestKey : ¬Conflicts TaskEvent.boundaryRequestKey events row
  deletedKey : ¬Conflicts TaskEvent.deletedKey events row

variable {events events' : List TaskEvent} {row terminal : TaskEvent} {taskID : String} {epoch : ℕ}
  {now : ℤ} {lifecycle : TaskLifecycleProjection}

lemma insertTaskEvent_eq_ok :
    insertTaskEvent events row = .ok events' ↔ Admits events row ∧ events' = events ++ [row] := by
  unfold insertTaskEvent
  split_ifs with hdeleted hid hopen hterminal hrequest hdeletion
  · have : ¬Admits events row := fun h => by
      rcases h.notDeleted with htype | hnot
      · exact hdeleted.1 htype
      · simp [hdeleted.2] at hnot
    simp [this]
  · have : ¬Admits events row := fun h => h.id hid
    simp [this]
  · have : ¬Admits events row := fun h => h.openKey hopen
    simp [this]
  · have : ¬Admits events row := fun h => h.terminalKey hterminal
    simp [this]
  · have : ¬Admits events row := fun h => h.boundaryRequestKey hrequest
    simp [this]
  · have : ¬Admits events row := fun h => h.deletedKey hdeletion
    simp [this]
  · have : Admits events row := by
      refine ⟨?_, hid, hopen, hterminal, hrequest, hdeletion⟩
      by_cases htype : row.type = .deleted
      · exact Or.inl htype
      · exact Or.inr (by simpa [htype] using hdeleted)
    simp [this, eq_comm]

/-- The second log arises from the first by at most one event, appended at the instant. -/
def AppendsEvent (events events' : List TaskEvent) (now : ℤ) : Prop :=
  events' = events ∨ ∃ row, Admits events row ∧ 0 < row.epoch ∧ row.emittedAt = now ∧ events' = events ++ [row]

lemma appendsEvent_of_append {id : String} {type : TaskEventType} (hepoch : 0 < epoch)
    (h : appendEventInTransaction events id taskID type epoch now = .ok events') :
    AppendsEvent events events' now := by
  unfold appendEventInTransaction at h
  obtain ⟨hadmits, hevents⟩ := insertTaskEvent_eq_ok.mp h
  exact Or.inr ⟨_, hadmits, hepoch, rfl, hevents⟩

lemma mem_lifecycleRows : row ∈ lifecycleRows events taskID ↔
      row ∈ events ∧ row.aggregateID = taskID ∧ row.type ≠ .deleted := by
  simp [lifecycleRows]

instance : Std.TransCmp fun left right : TaskEvent => compare right.epoch left.epoch where
  eq_swap := Std.OrientedCmp.eq_swap
  isLE_trans hab hbc := Std.TransCmp.isLE_trans hbc hab

theorem taskLifecycleProjection_eq_ok (h : taskLifecycleProjectionInTransaction events taskID = .ok lifecycle) :
    ∃ latestOpen ∈ events, latestOpen.aggregateID = taskID ∧ latestOpen.type.isOpen ∧
      0 < latestOpen.epoch ∧
      (∀ row ∈ events, row.aggregateID = taskID → row.type.isOpen → row.epoch ≤ latestOpen.epoch) ∧
      lifecycle = epochProjection taskID latestOpen
        ((lifecycleRows events taskID).filter fun row => row.epoch = latestOpen.epoch) := by
  unfold taskLifecycleProjectionInTransaction reduceTaskLifecycleRows at h
  split at h
  · cases h
  rename_i latestOpen rest hsorted
  split at h
  · cases h
  rename_i hpositive
  have hmem : latestOpen ∈ (lifecycleRows events taskID).filter (·.type.isOpen) := by
    have hhead : latestOpen ∈ latestOpen :: rest := mem_cons_self
    rw [← hsorted] at hhead
    exact mem_toSorted.mp hhead
  obtain ⟨hrow, hopen⟩ := mem_filter.mp hmem
  obtain ⟨hevents, htask, -⟩ := mem_lifecycleRows.mp hrow
  refine ⟨latestOpen, hevents, htask, hopen, ?_, ?_, (Except.ok.inj h).symm⟩
  · have hepoch := find?_eq_none.mp hpositive latestOpen (mem_append_right _ hrow)
    unfold executionEpoch at hepoch
    split_ifs at hepoch with hmissing
    · simp at hepoch
    · omega
  · intro row hrowEvents hrowTask hrowOpen
    have hnotDeleted : row.type ≠ .deleted := by
      intro htype
      rw [htype] at hrowOpen
      cases hrowOpen
    have hrowMem : row ∈ (lifecycleRows events taskID).filter (·.type.isOpen) :=
      mem_filter.mpr ⟨mem_lifecycleRows.mpr ⟨hrowEvents, hrowTask, hnotDeleted⟩, hrowOpen⟩
    have hle := toSorted_head_isLE hsorted hrowMem
    exact Nat.isLE_compare.mp hle

@[simp] lemma epoch_epochProjection (taskID : String) (latestOpen : TaskEvent)
    (rows : List TaskEvent) : (epochProjection taskID latestOpen rows).epoch = latestOpen.epoch := by
  unfold epochProjection
  split
  · rfl
  · split <;> rfl

lemma epoch_of_taskLifecycleProjection (h : taskLifecycleProjectionInTransaction events taskID = .ok lifecycle) :
    0 < lifecycle.epoch ∧
      (∃ row ∈ events, row.aggregateID = taskID ∧ row.type.isOpen ∧ row.epoch = lifecycle.epoch) ∧
      ∀ row ∈ events, row.aggregateID = taskID → row.type.isOpen → row.epoch ≤ lifecycle.epoch := by
  obtain ⟨latestOpen, hevents, htask, hopen, hpos, hmax, rfl⟩ := taskLifecycleProjection_eq_ok h
  rw [epoch_epochProjection]
  exact ⟨hpos, ⟨latestOpen, hevents, htask, hopen, rfl⟩, hmax⟩

lemma exists_taskLifecycleProjection (hrow : row ∈ events) (htask : row.aggregateID = taskID)
    (hopen : row.type.isOpen) (hpositive : ∀ row ∈ events, 0 < row.epoch) :
    ∃ lifecycle, taskLifecycleProjectionInTransaction events taskID = .ok lifecycle := by
  have hnotDeleted : row.type ≠ .deleted := by
    intro htype
    rw [htype] at hopen
    cases hopen
  have hmem : row ∈ (lifecycleRows events taskID).filter (·.type.isOpen) :=
    mem_filter.mpr ⟨mem_lifecycleRows.mpr ⟨hrow, htask, hnotDeleted⟩, hopen⟩
  have hcomplete : rowMissingExecutionEpoch (lifecycleRows events taskID) = none := by
    refine find?_eq_none.mpr fun other hother => ?_
    have hother' : other ∈ lifecycleRows events taskID := by
      rcases mem_append.mp hother with h | h
      · exact mem_of_mem_filter h
      · exact h
    obtain ⟨hevents, -, htype⟩ := mem_lifecycleRows.mp hother'
    have hepoch := hpositive other hevents
    unfold executionEpoch
    rw [if_neg (by simp [htype]; omega)]
    simp
  unfold taskLifecycleProjectionInTransaction reduceTaskLifecycleRows
  split
  · rename_i hsorted
    rw [toSorted_eq_nil] at hsorted
    simp [hsorted] at hmem
  · rw [hcomplete]
    exact ⟨_, rfl⟩

/-- The operations that append lifecycle events. -/
inductive TaskLifecycleWrite where
  | opened
  | reopened
  | requestCancellation
  | terminal (intent : TerminalTaskIntent)
  | deleted

def writeTaskLifecycle (events : List TaskEvent) (id taskID : String) (now : ℤ) :
    TaskLifecycleWrite → Except EngineError (List TaskEvent)
  | .opened => appendTaskOpenedInTransaction events id taskID now
  | .reopened => appendTaskReopenedInTransaction events id taskID now
  | .requestCancellation => requestTaskCancellationInTransaction events id taskID now
  | .terminal intent => writeTerminalTaskInTransaction events id taskID intent now
  | .deleted => appendTaskDeletedBoundaryInTransaction events id taskID now

theorem appendsEvent_of_writeTaskLifecycle {id : String} {write : TaskLifecycleWrite}
    (h : writeTaskLifecycle events id taskID now write = .ok events') :
    AppendsEvent events events' now := by
  cases write with
  | opened => exact appendsEvent_of_append Nat.one_pos h
  | reopened =>
    obtain ⟨_, hrest⟩ := of_bind h
    have happend := of_check hrest
    exact appendsEvent_of_append (Nat.succ_pos _) happend
  | requestCancellation =>
    obtain ⟨_, hlifecycle, hrest⟩ := bind_eq_ok.mp h
    have hpos := (epoch_of_taskLifecycleProjection hlifecycle).1
    split at hrest
    · cases hrest
    · cases hrest
    · exact Or.inl (Except.ok.inj hrest).symm
    · exact Or.inl (Except.ok.inj hrest).symm
    · exact appendsEvent_of_append hpos hrest
  | terminal =>
    have hrest := of_check h
    obtain ⟨_, hlifecycle, hrest⟩ := bind_eq_ok.mp hrest
    have hpos := (epoch_of_taskLifecycleProjection hlifecycle).1
    split at hrest
    · exact Or.inl (Except.ok.inj hrest).symm
    · have happend := of_check hrest
      exact appendsEvent_of_append hpos happend
  | deleted =>
    change appendTaskDeletedBoundaryInTransaction events id taskID now = .ok events' at h
    unfold appendTaskDeletedBoundaryInTransaction at h
    split_ifs at h
    · exact Or.inl (Except.ok.inj h).symm
    · obtain ⟨_, hlifecycle, happend⟩ := bind_eq_ok.mp h
      exact appendsEvent_of_append (epoch_of_taskLifecycleProjection hlifecycle).1 happend

structure TaskEventLog (events : List TaskEvent) (now : ℤ) : Prop where
  openKey : Unique TaskEvent.openKey events
  terminalKey : Unique TaskEvent.terminalKey events
  deletedKey : Unique TaskEvent.deletedKey events
  epoch_pos : ∀ row ∈ events, 0 < row.epoch
  emittedAt_le : ∀ row ∈ events, row.emittedAt ≤ now

lemma TaskEventLog.nil (now : ℤ) : TaskEventLog [] now := by
  constructor <;> simp

lemma TaskEventLog.mono {later : ℤ} (h : TaskEventLog events now) (hle : now ≤ later) :
    TaskEventLog events later :=
  { h with emittedAt_le := fun row hrow => (h.emittedAt_le row hrow).trans hle }

theorem TaskEventLog.appendsEvent (h : TaskEventLog events now) (happends : AppendsEvent events events' now) :
    TaskEventLog events' now := by
  rcases happends with rfl | ⟨_, hadmits, hpos, hnow, rfl⟩
  · exact h
  · refine ⟨h.openKey.concat hadmits.openKey, h.terminalKey.concat hadmits.terminalKey,
      h.deletedKey.concat hadmits.deletedKey, ?_, ?_⟩
    · intro other hother
      rcases mem_concat.mp hother with hold | hnew
      · exact h.epoch_pos other hold
      · rw [hnew]
        exact hpos
    · intro other hother
      rcases mem_concat.mp hother with hold | hnew
      · exact h.emittedAt_le other hold
      · rw [hnew, hnow]

lemma AppendsEvent.subset (h : AppendsEvent events events' now) : events ⊆ events' := by
  rcases h with rfl | ⟨_, -, -, -, rfl⟩
  · exact Subset.refl _
  · exact subset_append_left _ _

structure IsTerminalOf (terminal : TaskEvent) (taskID : String) (epoch : ℕ) : Prop where
  task : terminal.aggregateID = taskID
  isTerminal : terminal.type.isTerminal
  epoch : terminal.epoch = epoch

lemma IsTerminalOf.key (h : IsTerminalOf terminal taskID epoch) : terminal.terminalKey = some (taskID, epoch) := by
  unfold terminalKey
  rw [if_pos h.isTerminal, h.task, h.epoch]

lemma IsTerminalOf.filter_eq (hterminal : IsTerminalOf terminal taskID epoch) (hmem : terminal ∈ events)
    (hunique : Unique TaskEvent.terminalKey events) :
    ((lifecycleRows events taskID).filter fun row => row.epoch = epoch).filter
      (·.type.isTerminal) = [terminal] := by
  have hrows : Unique terminalKey
      ((lifecycleRows events taskID).filter fun row => row.epoch = epoch) := by
    refine Unique.sublist ?_ filter_sublist
    unfold lifecycleRows
    exact (hunique.sublist filter_sublist).perm (toSorted_perm _ _).symm
  have hnotDeleted : terminal.type ≠ .deleted := by
    intro htype
    have := hterminal.isTerminal
    rw [htype] at this
    cases this
  have hcovered : ∀ row ∈ (lifecycleRows events taskID).filter (fun row => row.epoch = epoch),
      row.type.isTerminal = true → row.terminalKey = some (taskID, epoch) := by
    intro row hrow hisTerminal
    obtain ⟨hrow, hepoch⟩ := mem_filter.mp hrow
    obtain ⟨-, htask, -⟩ := mem_lifecycleRows.mp hrow
    exact IsTerminalOf.key ⟨htask, hisTerminal, of_decide_eq_true hepoch⟩
  refine hrows.filter_eq_singleton hcovered ?_ hterminal.isTerminal
  refine mem_filter.mpr ⟨mem_lifecycleRows.mpr ⟨hmem, hterminal.task, hnotDeleted⟩, ?_⟩
  exact decide_eq_true hterminal.epoch

theorem terminalAt_of_taskLifecycleProjection (hlog : TaskEventLog events now)
    (h : taskLifecycleProjectionInTransaction events taskID = .ok lifecycle) (hmem : terminal ∈ events)
    (hterminal : IsTerminalOf terminal taskID lifecycle.epoch) :
    lifecycle.terminalAt = some terminal.emittedAt ∧ lifecycle.status ≠ .active := by
  obtain ⟨latestOpen, -, -, -, -, -, hlifecycle⟩ := taskLifecycleProjection_eq_ok h
  have hepoch : lifecycle.epoch = latestOpen.epoch := by
    rw [hlifecycle]
    exact epoch_epochProjection _ _ _
  rw [hepoch] at hterminal
  rw [hlifecycle]
  unfold epochProjection
  rw [hterminal.filter_eq hmem hlog.terminalKey]
  refine ⟨rfl, ?_⟩
  change (if terminal.type = .cancelled then TaskLifecycleStatus.cancelled
    else if terminal.type = .failed then .failed else .completed) ≠ .active
  split_ifs <;> simp

def TaskEvent.fact (row : TaskEvent) : TaskLifecycleFact :=
  { id := row.id, kind := lifecycleKind row.type, epoch := row.epoch, sequence := row.seq,
    time := row.emittedAt }

lemma lifecycleFact_eq_ok {fact : TaskLifecycleFact} :
    lifecycleFact row = .ok fact ↔ fact = row.fact ∧ row.type ≠ .deleted ∧ 0 < row.epoch := by
  unfold lifecycleFact TaskEvent.executionEpoch
  split_ifs with h
  · have : ¬(row.type ≠ .deleted ∧ 0 < row.epoch) := by
      rintro ⟨htype, _⟩
      rcases h with h | h
      · exact htype h
      · omega
    simp [this]
  · rw [not_or] at h
    simp [TaskEvent.fact, h.1, Nat.pos_of_ne_zero h.2, eq_comm]

variable {facts : List TaskLifecycleFact}

/-- The lifecycle facts of a Task are those of its events, in order; reading them raises for a
deleted Task, whose deletion carries no `execution_epoch`. -/
theorem lifecycleFacts_eq_ok : lifecycleFacts events taskID = .ok facts ↔ facts = (toSorted TaskEvent.compareSeq
        (events.filter fun row => row.aggregateID = taskID)).map TaskEvent.fact ∧
      ∀ row ∈ events, row.aggregateID = taskID → row.type ≠ .deleted ∧ 0 < row.epoch := by
  unfold lifecycleFacts
  rw [mapM_eq_ok_iff (g := fact) fun row fact h => (lifecycleFact_eq_ok.mp h).1]
  refine and_congr_right fun _ => ?_
  simp [lifecycleFact_eq_ok]

lemma mem_lifecycleFacts (h : lifecycleFacts events taskID = .ok facts) {fact : TaskLifecycleFact} :
    fact ∈ facts ↔ ∃ row ∈ events, row.aggregateID = taskID ∧ row.fact = fact := by
  rw [(lifecycleFacts_eq_ok.mp h).1]
  simp [and_assoc]

end OpenCorvus.Engine
