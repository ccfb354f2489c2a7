import OpenCorvus.Scheduler.AutomationReducer

/-!
# When the projections of an Automation agree

In a well-formed database each of the three projections is one function of three fires: the latest started one, the
unsettled one, and the next scheduled one.  The selections of the last two agree when the unsettled fire is of the
current revision.  Those of the latest fire do not: the history orders the fires by due instant and start, the
frontier by due instant and creation.
-/

namespace OpenCorvus.Scheduler

open EcmaScript Transaction OrderBy LatestRow List

/-- What the scheduler reads of the projection of an Automation. -/
structure AutomationFrontierView where
  nextRun : Option ℤ
  pendingFireID : Option String
  scheduledDueAt : Option ℤ
  failureCount : ℕ
  lastError : Option String
  lastRun : Option ℤ
  attemptID : Option String
  attemptOrdinal : ℕ
deriving DecidableEq

/-- The part of a row that the scheduler reads. -/
def AutomationRow.view (row : AutomationRow) : AutomationFrontierView where
  nextRun := row.nextRun
  pendingFireID := row.pendingFireID
  scheduledDueAt := row.scheduledDueAt
  failureCount := row.failureCount
  lastError := row.lastError
  lastRun := row.lastRun
  attemptID := row.attemptID
  attemptOrdinal := row.attemptOrdinal

structure IsPage (db : AutomationDatabase) (definitions : List AutomationDefinition) : Prop where
  current : ∀ row ∈ definitions, row ∈ currentAutomationDefinitionsInTransaction db
  nodup : definitions.Nodup

section Views

variable {db : AutomationDatabase} {row : AutomationDefinition}

def frontierView [RecurrenceRules] (db : AutomationDatabase) (row : AutomationDefinition)
    (latest pending scheduled : Option AutomationFire) : AutomationFrontierView where
  nextRun :=
    match pending with
    | some fire => some ((reducedOf db fire).retryAt.getD fire.scheduledDueAt)
    | none => row.idleNextRun (scheduled.map (·.scheduledDueAt))
        (latest.bind fun fire => (reducedOf db fire).completedAt)
  pendingFireID := pending.map (·.id)
  scheduledDueAt := (pending.map (·.scheduledDueAt)) <|> scheduled.map (·.scheduledDueAt)
  failureCount := (latest.map (failuresOf db)).getD 0
  lastError := latest.bind fun fire => (reducedOf db fire).error
  lastRun := latest.map fun fire => (reducedOf db fire).startedAt
  attemptID := pending.bind fun fire => (lastAttempt db fire.id).map (·.id)
  attemptOrdinal := (pending.map fun fire => (db.attemptsOf fire.id).length).getD 0

variable {fire : AutomationFire} {fires : List AutomationFire}

lemma mem_of_argmax_filter {p : AutomationFire → Bool}
    (h : (fires.filter p).argmax AutomationFire.orderKey = some fire) : fire ∈ fires ∧ p fire = true :=
  mem_filter.mp (argmax_mem h)

lemma mem_fires_of_mem_firesOf {definitionID : String} (h : fire ∈ db.firesOf definitionID) : fire ∈ db.fires := by
  unfold AutomationDatabase.firesOf at h
  exact mem_of_mem_filter h

lemma selectLatestFire_mem {definitionID : String} (h : selectLatestFire db definitionID = some fire) :
    fire ∈ db.firesOf definitionID ∧ Started db fire := by
  obtain ⟨hmem, hstarted⟩ := mem_of_argmax_filter h
  exact ⟨hmem, by simpa using hstarted⟩

lemma selectPendingFire_mem {revisionID : String} (h : selectPendingFire db revisionID = some fire) :
    fire ∈ db.fires ∧ fire.automationRevisionID = revisionID ∧ FirePending db fire := by
  obtain ⟨hmem, hpending⟩ := mem_of_argmax_filter h
  exact ⟨hmem, by simpa using hpending⟩

lemma selectScheduledFire_mem {revisionID : String} (h : selectScheduledFire db revisionID = some fire) :
    fire ∈ db.fires ∧ fire.automationRevisionID = revisionID ∧ fire.origin = .scheduled ∧
      ¬Started db fire := by
  obtain ⟨hmem, hscheduled⟩ := mem_of_argmax_filter h
  exact ⟨hmem, by simpa using hscheduled⟩

section Frontier

variable [AutomationIdentity]

lemma projectSelected_eq_ok {viewOf : AutomationFire → AutomationFireProjection}
    (hviews : ∀ fire ∈ db.fires, projectAutomationFireInTransaction db fire = .ok (viewOf fire) ∧
      Views db fire (viewOf fire)) {selected : Option AutomationFire}
    (hselected : ∀ fire ∈ selected, fire ∈ db.fires) :
    projectSelected db selected = .ok (selected.map viewOf) := by
  cases selected with
  | none => rfl
  | some fire =>
    have hok := (hviews fire (hselected fire rfl)).1
    exact congrArg (Except.map some) hok

lemma frontierView_of_views [RecurrenceRules]
    {viewOf : AutomationFire → AutomationFireProjection}
    (hviews : ∀ fire ∈ db.fires, projectAutomationFireInTransaction db fire = .ok (viewOf fire) ∧
      Views db fire (viewOf fire)) {latest pending scheduled : Option AutomationFire}
    (hlatest : ∀ fire ∈ latest, fire ∈ db.fires) (hpending : ∀ fire ∈ pending, fire ∈ db.fires)
    (hscheduled : ∀ fire ∈ scheduled, fire ∈ db.fires) (row : AutomationDefinition) :
    ({ nextRun :=
          match pending.map viewOf with
          | some fire => some (fire.reduced.retryAt.getD fire.scheduledDueAt)
          | none => row.idleNextRun ((scheduled.map viewOf).map (·.scheduledDueAt))
              ((latest.map viewOf).bind (·.reduced.completedAt))
       pendingFireID := (pending.map viewOf).map (·.id)
       scheduledDueAt := ((pending.map viewOf).map (·.scheduledDueAt)) <|>
        (scheduled.map viewOf).map (·.scheduledDueAt)
       failureCount := ((latest.map viewOf).map (fireFailureCount db)).getD 0
       lastError := (latest.map viewOf).bind (·.reduced.error)
       lastRun := (latest.map viewOf).map (·.reduced.startedAt)
       attemptID := pending.bind fun fire => (lastAttempt db fire.id).map (·.id)
       attemptOrdinal := (pending.map fun fire => (db.attemptsOf fire.id).length).getD 0 } :
      AutomationFrontierView) = frontierView db row latest pending scheduled := by
  have hdue : (scheduled.map viewOf).map (·.scheduledDueAt) = scheduled.map (·.scheduledDueAt) := by
    cases scheduled with
    | none => rfl
    | some fire => exact congrArg some (hviews fire (hscheduled fire rfl)).2.due
  have hreduced : ∀ {β : Type} (f : AutomationFireReducedState → Option β),
      (latest.map viewOf).bind (fun fire => f fire.reduced) = latest.bind fun fire => f (reducedOf db fire) := by
    intro β f
    cases latest with
    | none => rfl
    | some fire => exact congrArg f (hviews fire (hlatest fire rfl)).2.reduced
  have hstarted : (latest.map viewOf).map (·.reduced.startedAt) =
      latest.map fun fire => (reducedOf db fire).startedAt := by
    cases latest with
    | none => rfl
    | some fire =>
      exact congrArg (fun reduced => some reduced.startedAt) (hviews fire (hlatest fire rfl)).2.reduced
  have hfailures : (latest.map viewOf).map (fireFailureCount db) = latest.map (failuresOf db) := by
    cases latest with
    | none => rfl
    | some fire => exact congrArg some (hviews fire (hlatest fire rfl)).2.failures
  unfold frontierView
  rw [hdue, hreduced, hreduced, hstarted, hfailures]
  cases pending with
  | none => rfl
  | some fire =>
    have hview := (hviews fire (hpending fire rfl)).2
    simp only [Option.map_some, hview.id, hview.due, hview.reduced]

theorem projectAutomationFrontier_view [RecurrenceRules] (hdb : WellFormed db) (row : AutomationDefinition) :
    (projectAutomationFrontierInTransaction db row).map AutomationRow.view =
      .ok (frontierView db row (selectLatestFire db row.definitionID) (selectPendingFire db row.id)
        (selectScheduledFire db row.id)) := by
  obtain ⟨_, hviews⟩ := exists_views hdb
  have hlatest : ∀ fire ∈ selectLatestFire db row.definitionID, fire ∈ db.fires := fun fire h =>
    mem_fires_of_mem_firesOf (selectLatestFire_mem h).1
  have hpending : ∀ fire ∈ selectPendingFire db row.id, fire ∈ db.fires := fun fire h =>
    (selectPendingFire_mem h).1
  have hscheduled : ∀ fire ∈ selectScheduledFire db row.id, fire ∈ db.fires := fun fire h =>
    (selectScheduledFire_mem h).1
  have hguard : ¬(selectPendingFire db row.id).any (fun fire => fire.automationRevisionID ≠ row.id) := by
    cases hselected : selectPendingFire db row.id with
    | none => simp
    | some => simp [(selectPendingFire_mem hselected).2.1]
  have hordinal : (((selectPendingFire db row.id).bind fun fire => lastAttempt db fire.id).map
      (·.ordinal)).getD 0 =
        ((selectPendingFire db row.id).map fun fire => (db.attemptsOf fire.id).length).getD 0 := by
    cases selectPendingFire db row.id with
    | none => rfl
    | some fire => exact lastAttempt_ordinal hdb fire.id
  have hattempt : ((selectPendingFire db row.id).bind fun fire => lastAttempt db fire.id).map (·.id) =
      (selectPendingFire db row.id).bind fun fire => (lastAttempt db fire.id).map (·.id) := by
    cases selectPendingFire db row.id <;> rfl
  unfold projectAutomationFrontierInTransaction throwWhen
  dsimp only
  rw [projectSelected_eq_ok hviews hlatest, projectSelected_eq_ok hviews hpending,
    projectSelected_eq_ok hviews hscheduled, if_neg hguard]
  refine congrArg Except.ok ?_
  rw [← frontierView_of_views hviews hlatest hpending hscheduled, ← hordinal, ← hattempt]
  rfl

end Frontier

lemma mem_firesOf_of_revision (hrow : row ∈ db.definitions) (hfire : fire ∈ db.fires)
    (hrevision : fire.automationRevisionID = row.id) :
    fire ∈ db.firesOf row.definitionID := by
  unfold AutomationDatabase.firesOf
  refine mem_filter.mpr ⟨hfire, ?_⟩
  rw [decide_eq_true_eq, hrevision]
  exact List.mem_map_of_mem (mem_filter.mpr ⟨hrow, by simp⟩)

lemma filter_views {viewOf : AutomationFire → AutomationFireProjection} {p : AutomationFireProjection → Bool}
    {q : AutomationFire → Bool} (h : ∀ fire ∈ fires, p (viewOf fire) = q fire) :
    (fires.map viewOf).filter p = (fires.filter q).map viewOf := by
  rw [List.filter_map]
  congr 1
  exact filter_congr h

section History

variable [Collation]

def historyCompare (db : AutomationDatabase) (left right : AutomationFire) : Ordering :=
  ((compare left.scheduledDueAt right.scheduledDueAt).then
    (compare (reducedOf db left).startedAt (reducedOf db right).startedAt)).then (localeCompare left.id right.id)

instance : Std.TransCmp (historyCompare db) :=
  have : Std.TransCmp (localeCompare : String → String → Ordering) := Collation.trans
  have : Std.TransCmp fun left right : AutomationFire => localeCompare left.id right.id :=
    { eq_swap := Std.OrientedCmp.eq_swap
      isLE_trans := Std.TransCmp.isLE_trans }
  inferInstanceAs (Std.TransCmp (compareLex (compareLex (compareOn AutomationFire.scheduledDueAt)
    (compareOn fun fire => (reducedOf db fire).startedAt))
    fun left right : AutomationFire => localeCompare left.id right.id))

def historyFires (db : AutomationDatabase) (definitionID : String) : List AutomationFire :=
  toSorted (historyCompare db) (orderBy AutomationFire.orderKey (db.firesOf definitionID))

def historyLatest (db : AutomationDatabase) (definitionID : String) : Option AutomationFire :=
  ((historyFires db definitionID).filter fun fire => Started db fire).getLast?

def historyPending (db : AutomationDatabase) (definitionID : String) : List AutomationFire :=
  (historyFires db definitionID).filter fun fire => FirePending db fire

def historyScheduled (db : AutomationDatabase) (row : AutomationDefinition) : Option AutomationFire :=
  ((historyFires db row.definitionID).filter fun fire => fire.origin = .scheduled ∧
    fire.automationRevisionID = row.id ∧ ¬Started db fire).getLast?

variable {definitionID : String} {fire : AutomationFire}

@[simp] lemma mem_historyFires : fire ∈ historyFires db definitionID ↔ fire ∈ db.firesOf definitionID := by
  unfold historyFires
  rw [mem_toSorted, mem_orderBy]

lemma historyScheduled_eq (hdb : WellFormed db) (hrow : row ∈ db.definitions) :
    historyScheduled db row = selectScheduledFire db row.id := by
  have hmem : ∀ fire, fire ∈ (historyFires db row.definitionID).filter (fun fire =>
      fire.origin = .scheduled ∧ fire.automationRevisionID = row.id ∧ ¬Started db fire) ↔
        fire ∈ db.fires ∧ fire.automationRevisionID = row.id ∧ fire.origin = .scheduled ∧
          ¬Started db fire := by
    intro fire
    rw [mem_filter, mem_historyFires, decide_eq_true_eq]
    constructor
    · rintro ⟨hof, horigin, hrevision, hstarted⟩
      exact ⟨mem_fires_of_mem_firesOf hof, hrevision, horigin, hstarted⟩
    · rintro ⟨hfire, hrevision, horigin, hstarted⟩
      exact ⟨mem_firesOf_of_revision hrow hfire hrevision, horigin, hrevision, hstarted⟩
  have hsorted : ((historyFires db row.definitionID).filter fun fire => fire.origin = .scheduled ∧
      fire.automationRevisionID = row.id ∧ ¬Started db fire).Pairwise fun left right =>
        left.orderKey ≤ right.orderKey := by
    have hcompared : (historyFires db row.definitionID).Pairwise fun left right =>
        (historyCompare db left right).isLE = true := pairwise_toSorted _
    refine (hcompared.filter _).imp_of_mem fun {left right} hleft hright hle => ?_
    obtain ⟨hleftMem, hleftRevision, hleftOrigin, -⟩ := (hmem left).mp hleft
    obtain ⟨hrightMem, hrightRevision, hrightOrigin, -⟩ := (hmem right).mp hright
    rcases lt_trichotomy left.scheduledDueAt right.scheduledDueAt with hlt | heq | hgt
    · exact (Prod.Lex.toLex_lt_toLex.mpr (.inl hlt)).le
    · have hsame : left = right :=
        hdb.scheduled.eq_of_key (k := (row.id, left.scheduledDueAt)) hleftMem hrightMem
          (by simp [scheduledKey, hleftOrigin, hleftRevision])
          (by simp [scheduledKey, hrightOrigin, hrightRevision, heq])
      rw [hsame]
    · have hcompare : historyCompare db left right = .gt := by
        have hdue : compare left.scheduledDueAt right.scheduledDueAt = .gt := compare_gt_iff_gt.mpr hgt
        unfold historyCompare
        rw [hdue]
        rfl
      rw [hcompare] at hle
      cases hle
  refine getLast?_eq_argmax ((keyInjective_fires hdb).filter _) (fun fire => ?_) hsorted
  rw [hmem, mem_filter, decide_eq_true_eq]

lemma length_historyPending (hone : AtMostOneUnsettled db) (definitionID : String) :
    (historyPending db definitionID).length ≤ 1 := by
  have hperm : (historyFires db definitionID).Perm (db.firesOf definitionID) :=
    (toSorted_perm _ _).trans (orderBy_perm _ _)
  unfold historyPending
  rw [(hperm.filter _).length_eq]
  exact hone definitionID

lemma mem_historyPending :
    fire ∈ historyPending db definitionID ↔ fire ∈ db.firesOf definitionID ∧ FirePending db fire := by
  unfold historyPending
  rw [mem_filter, mem_historyFires, decide_eq_true_eq]

lemma historyPending_head? (hone : AtMostOneUnsettled db) :
    (historyPending db definitionID).head? = some fire ↔ fire ∈ historyPending db definitionID := by
  have hlength := length_historyPending hone definitionID
  constructor
  · exact mem_of_mem_head?
  · intro hmem
    match hpending : historyPending db definitionID with
    | [] =>
      rw [hpending] at hmem
      cases hmem
    | [only] =>
      rw [hpending, mem_singleton] at hmem
      rw [hmem]
      rfl
    | _ :: _ :: _ =>
      rw [hpending] at hlength
      simp at hlength

lemma historyPending_eq (hdb : WellFormed db) (hone : AtMostOneUnsettled db) (hrow : row ∈ db.definitions)
    (hcurrent : ∀ fire ∈ db.firesOf row.definitionID, FirePending db fire → fire.automationRevisionID = row.id) :
    (historyPending db row.definitionID).head? = selectPendingFire db row.id := by
  ext fire
  rw [historyPending_head? hone, mem_historyPending]
  constructor
  · rintro ⟨hmem, hpending⟩
    have hrevision := hcurrent fire hmem hpending
    unfold selectPendingFire
    rw [argmax_eq_some_iff_of_keyInjective ((keyInjective_fires hdb).filter _)]
    refine ⟨mem_filter.mpr ⟨mem_fires_of_mem_firesOf hmem, by simp [hrevision, hpending]⟩, ?_⟩
    intro other hother
    obtain ⟨hotherMem, hotherPending⟩ := mem_filter.mp hother
    rw [decide_eq_true_eq] at hotherPending
    have hotherHead : (historyPending db row.definitionID).head? = some other :=
      (historyPending_head? hone).mpr (mem_historyPending.mpr
        ⟨mem_firesOf_of_revision hrow hotherMem hotherPending.1, hotherPending.2⟩)
    have hhead : (historyPending db row.definitionID).head? = some fire :=
      (historyPending_head? hone).mpr (mem_historyPending.mpr ⟨hmem, hpending⟩)
    rw [hotherHead, Option.some.injEq] at hhead
    rw [hhead]
  · intro hselected
    obtain ⟨hmem, hrevision, hpending⟩ := selectPendingFire_mem hselected
    exact ⟨mem_firesOf_of_revision hrow hmem hrevision, hpending⟩

variable [AutomationIdentity] [RecurrenceRules]

theorem projectAutomation_view (hdb : WellFormed db) (hone : AtMostOneUnsettled db) (row : AutomationDefinition) :
    (∀ view, (projectAutomationInTransaction db row).map AutomationRow.view = .ok view →
      view = frontierView db row (historyLatest db row.definitionID)
        (historyPending db row.definitionID).head? (historyScheduled db row)) ∧
    ((∀ fire ∈ historyPending db row.definitionID, fire.automationRevisionID = row.id) →
      ∃ view, (projectAutomationInTransaction db row).map AutomationRow.view = .ok view) := by
  obtain ⟨viewOf, hviews⟩ := exists_views hdb
  have hfires : ∀ fire ∈ historyFires db row.definitionID, fire ∈ db.fires := fun fire h =>
    mem_fires_of_mem_firesOf (mem_historyFires.mp h)
  have hprojected : (orderBy AutomationFire.orderKey (db.firesOf row.definitionID)).mapM
      (projectAutomationFireInTransaction db) =
        .ok ((orderBy AutomationFire.orderKey (db.firesOf row.definitionID)).map viewOf) :=
    mapM_eq_ok_map fun fire h => (hviews fire (mem_fires_of_mem_firesOf (mem_orderBy.mp h))).1
  have hsorted : toSorted AutomationFireProjection.compareStarted
      ((orderBy AutomationFire.orderKey (db.firesOf row.definitionID)).map viewOf) =
        (historyFires db row.definitionID).map viewOf := by
    refine toSorted_map_of_mem fun left hleft right hright => ?_
    have hl := (hviews left (mem_fires_of_mem_firesOf (mem_orderBy.mp hleft))).2
    have hr := (hviews right (mem_fires_of_mem_firesOf (mem_orderBy.mp hright))).2
    unfold AutomationFireProjection.compareStarted historyCompare
    rw [hl.due, hl.reduced, hl.id, hr.due, hr.reduced, hr.id]
  have hlatest : (((historyFires db row.definitionID).map viewOf).filter fun fire =>
      fire.reduced.state ≠ .scheduled).getLast? = (historyLatest db row.definitionID).map viewOf := by
    rw [filter_views (q := fun fire => decide (Started db fire)) fun fire h => ?_, getLast?_map]
    · rfl
    · rw [(hviews fire (hfires fire h)).2.reduced]
      exact decide_eq_decide.mpr (started_iff fire).symm
  have hscheduled : (((historyFires db row.definitionID).map viewOf).filter fun fire =>
      fire.origin = .scheduled ∧ fire.automationRevisionID = row.id ∧
        fire.reduced.state = .scheduled).getLast? = (historyScheduled db row).map viewOf := by
    rw [filter_views (q := fun fire => decide (fire.origin = .scheduled ∧
      fire.automationRevisionID = row.id ∧ ¬Started db fire)) fun fire h => ?_, getLast?_map]
    · rfl
    · have hview := (hviews fire (hfires fire h)).2
      rw [hview.origin, hview.revision, hview.reduced]
      exact decide_eq_decide.mpr (by rw [started_iff, not_not])
  have hpending : ((historyFires db row.definitionID).map viewOf).filter (fun fire =>
      fire.reduced.state.isPending) = (historyPending db row.definitionID).map viewOf := by
    refine filter_views fun fire h => ?_
    rw [(hviews fire (hfires fire h)).2.reduced]
    exact Bool.eq_iff_iff.mpr (by rw [decide_eq_true_eq, firePending_iff hdb])
  have hlatestMem : ∀ fire ∈ historyLatest db row.definitionID, fire ∈ db.fires := fun fire h =>
    hfires fire (mem_of_mem_filter (mem_of_getLast? h))
  have hpendingMem : ∀ fire ∈ (historyPending db row.definitionID).head?, fire ∈ db.fires :=
    fun fire h => hfires fire (mem_of_mem_filter (mem_of_mem_head? h))
  have hscheduledMem : ∀ fire ∈ historyScheduled db row, fire ∈ db.fires := fun fire h =>
    hfires fire (mem_of_mem_filter (mem_of_getLast? h))
  constructor
  · intro view h
    obtain ⟨_, hanswer, rfl⟩ := map_eq_ok.mp h
    unfold projectAutomationInTransaction at hanswer
    rw [hprojected] at hanswer
    obtain ⟨_, hmapped, hanswer⟩ := bind_eq_ok.mp hanswer
    cases hmapped
    dsimp only at hanswer
    rw [hsorted, hlatest, hscheduled, hpending] at hanswer
    replace hanswer := of_throwWhen hanswer
    replace hanswer := of_throwWhen hanswer
    cases pure_eq_ok.mp hanswer
    rw [← frontierView_of_views hviews hlatestMem hpendingMem hscheduledMem]
    unfold AutomationRow.view
    dsimp only
    rw [head?_map]
    cases hhead : (historyPending db row.definitionID).head? with
    | none => rfl
    | some fire =>
      have hview := (hviews fire (hpendingMem fire hhead)).2
      have hcount : (viewOf fire).reduced.attemptCount = (db.attemptsOf fire.id).length := by
        rw [hview.reduced]
        exact attemptsState_count fire.id
      simp only [Option.map_some, Option.bind_some, Option.getD_some, hview.id, hcount, argmax_ordinal hdb]
  · intro hcurrent
    have hmany : ¬1 < ((historyPending db row.definitionID).map viewOf).length := by
      rw [length_map]
      exact not_lt.mpr (length_historyPending hone _)
    have hforeign : ¬(((historyPending db row.definitionID).map viewOf).head?.any fun fire =>
        fire.runs.any fun member => member.run.automationRevisionID ≠ row.id) := by
      rw [head?_map]
      cases hhead : (historyPending db row.definitionID).head? with
      | none => simp
      | some fire =>
        have hmembers := (hviews fire (hpendingMem fire hhead)).2.members
        rw [hcurrent fire (mem_of_mem_head? hhead)] at hmembers
        simpa using hmembers
    unfold projectAutomationInTransaction
    rw [hprojected]
    dsimp only [bind, Except.bind]
    rw [hsorted, hlatest, hscheduled, hpending]
    unfold throwWhen
    rw [if_neg hmany, if_neg hforeign]
    exact ⟨_, rfl⟩

end History

end Views

end OpenCorvus.Scheduler
