import Mathlib.Data.List.Range
import OpenCorvus.Engine.TaskUpdate
import OpenCorvus.Foundation.AppendOnlyLog

/-!
# The law of the lifecycle log

Over every sequence of lifecycle writes, the openings of a Task carry the epochs 1, 2, …, n in order;
an epoch has at most one terminal; no epoch is completed or failed after its cancellation was
requested; and a Task is reopened only when its current epoch has ended.
-/

namespace OpenCorvus.Engine

open EcmaScript Transaction UniqueIndex AppendOnlyLog ExecutableSystem List

section Law

variable (events : List TaskEvent) (taskID : String)

def taskEvents : List TaskEvent :=
  events.filter fun row => row.aggregateID = taskID

def openEpochs : List ℕ :=
  (events.filter fun row => row.aggregateID = taskID ∧ row.type.isOpen).map TaskEvent.epoch

def latestEpoch : ℕ := maxOrZero (openEpochs events taskID)

def terminals (epoch : ℕ) : List TaskEvent :=
  events.filter fun row => row.aggregateID = taskID ∧ row.type.isTerminal ∧ row.epoch = epoch

def NotSuperseding (before : List TaskEvent) (row : TaskEvent) : Prop :=
  row.aggregateID = taskID → row.type = .completed ∨ row.type = .failed →
    ∀ request ∈ before, request.aggregateID = taskID → request.type = .cancellationRequested →
      request.epoch ≠ row.epoch

def ReopensEnded (before : List TaskEvent) (row : TaskEvent) : Prop :=
  row.aggregateID = taskID → row.type = .reopened →
    ∃ terminal ∈ before, IsTerminalOf terminal taskID (latestEpoch before taskID)

structure LifecycleLaw : Prop where
  /-- The order of the log is that of the sequence numbers. -/
  ordered : (taskEvents events taskID).Pairwise fun left right => left.seq < right.seq
  epochs : openEpochs events taskID = List.range' 1 (openEpochs events taskID).length
  terminal : ∀ epoch, (terminals events taskID epoch).length ≤ 1
  cancellation : AtEachAppend (NotSuperseding taskID) events
  reopening : AtEachAppend (ReopensEnded taskID) events

end Law

section Projection

variable {events : List TaskEvent} {taskID : String} {lifecycle : TaskLifecycleProjection}

lemma maxOrZero_range' (n : ℕ) : maxOrZero (List.range' 1 n) = n := by
  apply Nat.le_antisymm
  · rw [maxOrZero_le_iff]
    intro x hx
    have hbounds := mem_range'_1.mp hx
    omega
  · rcases Nat.eq_zero_or_pos n with rfl | _
    · exact Nat.zero_le _
    · have hmem : n ∈ List.range' 1 n := mem_range'_1.mpr (by omega)
      exact maxOrZero_le_iff.mp (Nat.le_refl _) n hmem

lemma mem_openEpochs {epoch : ℕ} : epoch ∈ openEpochs events taskID ↔
    ∃ row ∈ events, row.aggregateID = taskID ∧ row.type.isOpen ∧ row.epoch = epoch := by
  simp [openEpochs, and_assoc]

section

variable (h : taskLifecycleProjectionInTransaction events taskID = .ok lifecycle)

include h

lemma epoch_eq_latestEpoch : lifecycle.epoch = latestEpoch events taskID := by
  obtain ⟨-, ⟨row, hrow, htask, hopen, hepoch⟩, hmax⟩ := epoch_of_taskLifecycleProjection h
  apply Nat.le_antisymm
  · have hmem : lifecycle.epoch ∈ openEpochs events taskID :=
      mem_openEpochs.mpr ⟨row, hrow, htask, hopen, hepoch⟩
    exact maxOrZero_le_iff.mp (Nat.le_refl _) _ hmem
  · unfold latestEpoch
    rw [maxOrZero_le_iff]
    intro epoch hepoch'
    obtain ⟨other, hother, htask', hopen', rfl⟩ := mem_openEpochs.mp hepoch'
    exact hmax other hother htask' hopen'

lemma exists_terminal_of_projection (hactive : lifecycle.status ≠ .active)
    (hcancelling : lifecycle.status ≠ .cancelling) :
    ∃ terminal ∈ events, IsTerminalOf terminal taskID lifecycle.epoch := by
  obtain ⟨latestOpen, -, -, -, -, -, hlifecycle⟩ := taskLifecycleProjection_eq_ok h
  have hepoch : lifecycle.epoch = latestOpen.epoch := by
    rw [hlifecycle]
    exact epoch_epochProjection _ _ _
  rw [hepoch]
  rw [hlifecycle] at hactive hcancelling
  unfold epochProjection at hactive hcancelling
  cases hterminals : ((lifecycleRows events taskID).filter fun row =>
      row.epoch = latestOpen.epoch).filter (·.type.isTerminal) with
  | nil =>
    exfalso
    rw [hterminals] at hactive hcancelling
    split at hactive
    next hcons => cases hcons
    · split at hactive
      next hrequests =>
        simp only [hrequests] at hcancelling
        exact hcancelling rfl
      · exact hactive rfl
  | cons terminal rest =>
    have hmem : terminal ∈ ((lifecycleRows events taskID).filter fun row =>
        row.epoch = latestOpen.epoch).filter (·.type.isTerminal) := by
      rw [hterminals]
      exact mem_cons_self
    obtain ⟨hrow, hterminal⟩ := mem_filter.mp hmem
    obtain ⟨hrow, hsame⟩ := mem_filter.mp hrow
    obtain ⟨hevents, htask, -⟩ := mem_lifecycleRows.mp hrow
    exact ⟨terminal, hevents, htask, hterminal, of_decide_eq_true hsame⟩

lemma no_request_of_projection (hactive : lifecycle.status = .active) :
    ∀ request ∈ events, request.aggregateID = taskID → request.type = .cancellationRequested →
      request.epoch ≠ lifecycle.epoch := by
  obtain ⟨latestOpen, -, -, -, -, -, hlifecycle⟩ := taskLifecycleProjection_eq_ok h
  have hepoch : lifecycle.epoch = latestOpen.epoch := by
    rw [hlifecycle]
    exact epoch_epochProjection _ _ _
  intro request hrequest htask htype hsame
  have hmem : request ∈ ((lifecycleRows events taskID).filter fun row =>
      row.epoch = latestOpen.epoch).filter (·.type.isBoundaryRequest) := by
    refine mem_filter.mpr ⟨mem_filter.mpr ⟨?_, ?_⟩, ?_⟩
    · exact mem_lifecycleRows.mpr ⟨hrequest, htask, by simp [htype]⟩
    · exact decide_eq_true (hsame.trans hepoch)
    · simp [TaskEventType.isBoundaryRequest, htype]
  rw [hlifecycle] at hactive
  unfold epochProjection at hactive
  split at hactive
  next terminal rest hterminals =>
    change (if terminal.type = .cancelled then TaskLifecycleStatus.cancelled
      else if terminal.type = .failed then .failed else .completed) = .active at hactive
    split_ifs at hactive
  · split at hactive
    · cases hactive
    next hrequests =>
      rw [hrequests] at hmem
      cases hmem

end

end Projection

/-- The projection read in the transaction permits the event. -/
inductive Permitted (events : List TaskEvent) (row : TaskEvent) : Prop where
  | opened (type : row.type = .opened) (epoch : row.epoch = 1)
  | reopened (type : row.type = .reopened) (epoch : row.epoch = latestEpoch events row.aggregateID + 1)
      (ended : ∃ terminal ∈ events, IsTerminalOf terminal row.aggregateID (latestEpoch events row.aggregateID))
  | closed (type : row.type = .completed ∨ row.type = .failed)
      (unrequested : ∀ request ∈ events, request.aggregateID = row.aggregateID →
        request.type = .cancellationRequested → request.epoch ≠ row.epoch)
  | other (type : row.type = .cancellationRequested ∨ row.type = .cancelled ∨ row.type = .deleted)

def LifecycleAppends (events events' : List TaskEvent) : Prop :=
  events' = events ∨ ∃ row, Admits events row ∧ row.seq = nextAggregateSequence events row.aggregateID ∧
    Permitted events row ∧ events' = events ++ [row]

section Writes

variable {events events' : List TaskEvent} {id taskID : String} {now : ℤ}
  {store store' : TaskStore}

lemma lifecycleAppends_of_append {type : TaskEventType} {epoch : ℕ}
    (h : appendEventInTransaction events id taskID type epoch now = .ok events')
    (hpermitted : Permitted events
      { id := id, type := type, aggregateID := taskID, seq := nextAggregateSequence events taskID,
        emittedAt := now, epoch := epoch }) : LifecycleAppends events events' := by
  unfold appendEventInTransaction at h
  obtain ⟨hadmits, hevents⟩ := insertTaskEvent_eq_ok.mp h
  exact .inr ⟨_, hadmits, rfl, hpermitted, hevents⟩

lemma lifecycleAppends_of_reopened (h : appendTaskReopenedInTransaction events id taskID now = .ok events') :
    LifecycleAppends events events' := by
  unfold appendTaskReopenedInTransaction at h
  obtain ⟨_, hcurrent, hrest⟩ := bind_eq_ok.mp h
  obtain ⟨hstatus, happend⟩ := throwWhen_bind_eq_ok.mp hrest
  obtain ⟨hactive, hcancelling⟩ := not_or.mp hstatus
  have hepoch := epoch_eq_latestEpoch hcurrent
  refine lifecycleAppends_of_append happend (.reopened rfl (by simp [hepoch]) ?_)
  exact hepoch ▸ exists_terminal_of_projection hcurrent hactive hcancelling

lemma lifecycleAppends_of_requested (h : requestTaskCancellationInTransaction events id taskID now = .ok events') :
    LifecycleAppends events events' := by
  unfold requestTaskCancellationInTransaction at h
  obtain ⟨_, hrest⟩ := of_bind h
  split at hrest
  · cases hrest
  · cases hrest
  · exact .inl (Except.ok.inj hrest).symm
  · exact .inl (Except.ok.inj hrest).symm
  · exact lifecycleAppends_of_append hrest (.other (.inl rfl))

lemma lifecycleAppends_of_deleted (h : appendTaskDeletedBoundaryInTransaction events id taskID now = .ok events') :
    LifecycleAppends events events' := by
  unfold appendTaskDeletedBoundaryInTransaction at h
  split_ifs at h
  · exact .inl (Except.ok.inj h).symm
  · obtain ⟨_, happend⟩ := of_bind h
    exact lifecycleAppends_of_append happend (.other (.inr (.inr rfl)))

lemma lifecycleAppends_of_update {values : TaskUpdateValues} {options : TerminalTaskOptions}
    {kind : TaskUpdateKind}
    (h : writeTaskUpdateInTransaction store id taskID values options now = .ok (kind, store')) :
    LifecycleAppends store.events store'.events := by
  unfold writeTaskUpdateInTransaction at h
  obtain ⟨task, htask, hrest⟩ := bind_eq_ok.mp h
  obtain ⟨lifecycle, hproject, hrest⟩ := bind_eq_ok.mp hrest
  obtain ⟨events, hevents, hrest⟩ := bind_eq_ok.mp hrest
  have hid : task.id = taskID := by
    have hfound : store.findTask taskID = some task := by simpa using htask
    simpa using find?_some hfound
  have hlifecycle : taskLifecycleProjectionInTransaction store.events taskID = .ok lifecycle := by
    unfold projectTaskRowInTransaction at hproject
    have hprojected := of_throwWhen hproject
    exact hid ▸ hprojected
  unfold reopenForUpdate at hevents
  split at hrest
  · -- No terminal is written.
    cases pure_eq_ok.mp hrest
    split_ifs at hevents
    · have hreopened := of_throwWhen hevents
      exact lifecycleAppends_of_reopened hreopened
    · exact .inl (Except.ok.inj hevents).symm
  next status type hintent =>
    obtain ⟨hstatus, hterminal⟩ : values.status = some status ∧ status.terminalType = some type := by
      simpa [Option.bind_eq_some_iff] using hintent
    have hsame : events = store.events := by
      split_ifs at hevents with hreopens
      · rw [hstatus, Option.some.injEq] at hreopens
        rw [hreopens.1] at hterminal
        cases hterminal
      · exact (Except.ok.inj hevents).symm
    subst hsame
    split_ifs at hrest with hended
    · cases pure_eq_ok.mp hrest
      exact .inl rfl
    · obtain ⟨_, hrest⟩ := throwWhen_bind_eq_ok.mp hrest
      replace hrest := of_throwWhen hrest
      obtain ⟨ended, happend, hrest⟩ := bind_eq_ok.mp hrest
      have hstore : store'.events = ended := by
        split at hrest
        · cases hrest
        · cases pure_eq_ok.mp hrest
          rfl
      rw [hstore]
      refine lifecycleAppends_of_append happend ?_
      by_cases hcancelled : type = .cancelled
      · exact .other (.inr (.inl hcancelled))
      · have hclosed : type = .completed ∨ type = .failed := by
          cases status <;> simp_all [TaskStatusIntent.terminalType]
        have hactive : lifecycle.status = .active := by
          cases hstatus : lifecycle.status <;>
            simp_all [TaskLifecycleProjection.ended]
        exact .closed hclosed (no_request_of_projection hlifecycle hactive)

theorem lifecycleAppends_of_step {write : TaskStoreWrite} (h : taskStoreStep store write = some store') :
    LifecycleAppends store.events store'.events := by
  cases write with
  | createTask =>
    obtain ⟨-, hrest⟩ := throwWhen_bind_eq_ok.mp (toOption_eq_some.mp h)
    obtain ⟨_, happend, hstore⟩ := bind_eq_ok.mp hrest
    cases pure_eq_ok.mp hstore
    exact lifecycleAppends_of_append happend (.opened rfl rfl)
  | updateTask =>
    obtain ⟨⟨_, _⟩, hwrite, rfl⟩ := Option.map_eq_some_iff.mp h
    obtain ⟨-, hupdate⟩ := throwWhen_bind_eq_ok.mp (toOption_eq_some.mp hwrite)
    exact lifecycleAppends_of_update hupdate
  | terminalTask =>
    obtain ⟨⟨_, _⟩, hwrite, rfl⟩ := Option.map_eq_some_iff.mp h
    obtain ⟨-, hrest⟩ := throwWhen_bind_eq_ok.mp (toOption_eq_some.mp hwrite)
    replace hrest := of_throwWhen hrest
    replace hrest := of_throwWhen hrest
    replace hrest := of_throwWhen hrest
    have hupdate := of_throwWhen hrest
    exact lifecycleAppends_of_update hupdate
  | openTaskForContinuation =>
    obtain ⟨_, -, hrest⟩ := bind_eq_ok.mp (toOption_eq_some.mp h)
    obtain ⟨_, hrest⟩ := of_bind hrest
    replace hrest := of_throwWhen hrest
    replace hrest := of_throwWhen hrest
    obtain ⟨_, hreopened, hstore⟩ := bind_eq_ok.mp hrest
    cases pure_eq_ok.mp hstore
    exact lifecycleAppends_of_reopened hreopened
  | requestTaskCancellation =>
    obtain ⟨_, -, hrest⟩ := bind_eq_ok.mp (toOption_eq_some.mp h)
    obtain ⟨_, hrequested, hstore⟩ := bind_eq_ok.mp hrest
    cases pure_eq_ok.mp hstore
    exact lifecycleAppends_of_requested hrequested
  | deleteTask =>
    obtain ⟨_, hdeleted, hstore⟩ := bind_eq_ok.mp (toOption_eq_some.mp h)
    cases pure_eq_ok.mp hstore
    exact lifecycleAppends_of_deleted hdeleted
  | deleteTaskRow =>
    cases h
    exact .inl rfl

end Writes

section Append

variable {events : List TaskEvent} {row : TaskEvent} {taskID : String}

lemma openEpochs_concat : openEpochs (events ++ [row]) taskID = openEpochs events taskID ++
      if row.aggregateID = taskID ∧ row.type.isOpen = true then [row.epoch] else [] := by
  unfold openEpochs
  rw [filter_append, map_append]
  split_ifs with h <;> simp [h]

lemma ordered_concat (h : (taskEvents events taskID).Pairwise fun left right => left.seq < right.seq)
    (hseq : row.seq = nextAggregateSequence events row.aggregateID) :
    (taskEvents (events ++ [row]) taskID).Pairwise fun left right => left.seq < right.seq := by
  unfold taskEvents at h ⊢
  rw [filter_append, pairwise_append]
  refine ⟨h, Pairwise.sublist filter_sublist (pairwise_singleton _ _), ?_⟩
  intro left hleft right hright
  obtain ⟨hright, htask⟩ := mem_filter.mp hright
  rw [mem_singleton.mp hright] at htask ⊢
  rw [hseq, of_decide_eq_true htask]
  have hle : left.seq ≤ maxOrZero ((events.filter fun row => row.aggregateID = taskID).map (·.seq)) :=
    maxOrZero_le_iff.mp (Nat.le_refl _) _ (List.mem_map_of_mem hleft)
  exact Nat.lt_succ_of_le hle

lemma epochs_concat (h : openEpochs events taskID = List.range' 1 (openEpochs events taskID).length)
    (hadmits : Admits events row) (hpermitted : Permitted events row) :
    openEpochs (events ++ [row]) taskID =
      List.range' 1 (openEpochs (events ++ [row]) taskID).length := by
  rw [openEpochs_concat]
  split_ifs with hopens
  · obtain ⟨htask, hopen⟩ := hopens
    have hnext : row.epoch = (openEpochs events taskID).length + 1 := by
      cases hpermitted with
      | opened _ hepoch =>
        -- The index of the openings holds no opening of epoch 1 before.
        have hfirst : 1 ∉ openEpochs events taskID := by
          intro hone
          obtain ⟨other, hother, hothertask, hotheropen, hotherepoch⟩ := mem_openEpochs.mp hone
          refine hadmits.openKey ⟨other, hother, (taskID, 1), ?_, ?_⟩
          · simp [TaskEvent.openKey, hothertask, hotheropen, hotherepoch]
          · simp [TaskEvent.openKey, htask, hopen, hepoch]
        rw [h, mem_range'_1] at hfirst
        omega
      | reopened _ hepoch =>
        have hlatest : latestEpoch events taskID = (openEpochs events taskID).length := by
          unfold latestEpoch
          rw [h, maxOrZero_range', length_range']
        rw [hepoch, htask, hlatest]
      | closed htype => rcases htype with htype | htype <;> rw [htype] at hopen <;> cases hopen
      | other htype => rcases htype with htype | htype | htype <;> rw [htype] at hopen <;> cases hopen
    rw [length_append, length_singleton, range'_1_concat, ← h, hnext, Nat.add_comm 1]
  · rw [List.append_nil]
    exact h

structure LifecycleSound (events : List TaskEvent) : Prop where
  terminalKey : Unique TaskEvent.terminalKey events
  law : ∀ taskID, LifecycleLaw events taskID

/-- The empty log. -/
lemma LifecycleSound.nil : LifecycleSound [] where
  terminalKey := unique_nil
  law taskID := by
    refine ⟨List.Pairwise.nil, rfl, fun epoch => Nat.zero_le _, AtEachAppend.nil, AtEachAppend.nil⟩

theorem LifecycleSound.appends {events' : List TaskEvent} (h : LifecycleSound events)
    (happends : LifecycleAppends events events') : LifecycleSound events' := by
  rcases happends with rfl | ⟨_, hadmits, hseq, hpermitted, rfl⟩
  · exact h
  have hterminals := h.terminalKey.concat hadmits.terminalKey
  refine ⟨hterminals, fun taskID => ?_⟩
  obtain ⟨hordered, hepochs, -, hcancellation, hreopening⟩ := h.law taskID
  refine ⟨ordered_concat hordered hseq, epochs_concat hepochs hadmits hpermitted, fun epoch => ?_,
    hcancellation.concat ?_, hreopening.concat ?_⟩
  · refine hterminals.length_filter_le_one (k := (taskID, epoch)) fun terminal _ hterminal => ?_
    obtain ⟨htask, hkind, hepoch⟩ := of_decide_eq_true hterminal
    exact IsTerminalOf.key ⟨htask, hkind, hepoch⟩
  · rintro rfl hclosed
    cases hpermitted with
    | closed _ hunrequested => exact hunrequested
    | opened htype | reopened htype => rcases hclosed with hclosed | hclosed <;> rw [htype] at hclosed <;> cases hclosed
    | other htype =>
      rcases hclosed with hclosed | hclosed <;> rcases htype with htype | htype | htype <;>
        rw [htype] at hclosed <;> cases hclosed
  · rintro rfl hreopened
    cases hpermitted with
    | reopened _ _ hended => exact hended
    | opened htype => rw [htype] at hreopened; cases hreopened
    | closed htype => rcases htype with htype | htype <;> rw [htype] at hreopened <;> cases hreopened
    | other htype =>
      rcases htype with htype | htype | htype <;> rw [htype] at hreopened <;> cases hreopened

end Append

/-- Over every sequence of accepted lifecycle writes from the empty log, the log of every Task meets
its law. -/
theorem lifecycleLaw_of_writes {store store' : TaskStore} {writes : List TaskStoreWrite}
    (hempty : store.events = []) (hrun : exec taskStoreStep store writes = some store')
    (taskID : String) : LifecycleLaw store'.events taskID := by
  have hkept : Preserves taskStoreStep fun store => LifecycleSound store.events :=
    fun _ _ _ h hstep => h.appends (lifecycleAppends_of_step hstep)
  have hsound : LifecycleSound store.events := hempty ▸ LifecycleSound.nil
  exact (hkept.exec hsound hrun).law taskID

def continuedAfterCancellation : List TaskStoreWrite :=
  [.createTask "opened" { id := "task", projectID := "project", sessionID := some "root" } 1,
    .requestTaskCancellation "requested" "task" 2,
    .terminalTask "cancelled" "task" .cancelled ⟨none, some "task cancelled", false⟩
      ⟨some "requested", false, none⟩ 3,
    .openTaskForContinuation "reopened" "task" 4,
    .terminalTask "completed" "task" .completed ⟨none, none, false⟩ ⟨none, false, none⟩ 5]

/-- Its log meets the law, with two epochs. -/
theorem lifecycleLaw_of_continuedAfterCancellation :
    ∃ store, exec taskStoreStep ⟨[], []⟩ continuedAfterCancellation = some store ∧
      openEpochs store.events "task" = [1, 2] ∧ LifecycleLaw store.events "task" := by
  have hepochs : (exec taskStoreStep ⟨[], []⟩ continuedAfterCancellation).map
      (fun store => openEpochs store.events "task") = some [1, 2] := by decide
  obtain ⟨store, hrun, htwo⟩ := Option.map_eq_some_iff.mp hepochs
  exact ⟨store, hrun, htwo, lifecycleLaw_of_writes rfl hrun "task"⟩

end OpenCorvus.Engine
