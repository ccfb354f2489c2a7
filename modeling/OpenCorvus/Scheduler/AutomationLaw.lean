import OpenCorvus.Engine.TaskRootIngressWake
import OpenCorvus.Scheduler.AutomationBatch
import OpenCorvus.Scheduler.AutomationHistory

/-!
# The law of the projections of the Automations

In every history the three projectors answer every current definition alike, provided that the started
fire which was created last, of those that fell due last, also started last.  The frontier selects the
former, the history the latter.
-/

namespace OpenCorvus.Scheduler

open EcmaScript Transaction OrderBy ExecutableSystem List

section Agreement

variable [Collation] [RecurrenceRules] [AutomationIdentity] {db : AutomationDatabase}
  {definitions : List AutomationDefinition}

/-- The three projectors answer the definitions with the same rows. -/
def ProjectionsAgree (db : AutomationDatabase) (definitions : List AutomationDefinition) : Prop :=
  ∃ views, definitions.mapM (fun row => (projectAutomationInTransaction db row).map AutomationRow.view) =
      .ok views ∧
    definitions.mapM (fun row => (projectAutomationFrontierInTransaction db row).map AutomationRow.view) =
      .ok views ∧
    (automationFrontierEntriesForDefinitionsInTransaction db definitions).map (·.map (·.1.view)) = .ok views

omit [Collation] [RecurrenceRules] [AutomationIdentity] in
lemma IsPage.nodup_definitionIDs (hdb : WellFormed db) (hpage : IsPage db definitions) :
    (definitions.map (·.definitionID)).Nodup := by
  refine Nodup.map_on (fun row hrow other hother hsame => ?_) hpage.nodup
  exact eq_of_current hdb (hpage.current row hrow) (hpage.current other hother) hsame

def historyView (db : AutomationDatabase) (row : AutomationDefinition) : AutomationFrontierView :=
  frontierView db row (historyLatest db row.definitionID) (selectPendingFire db row.id)
    (selectScheduledFire db row.id)

def selectedView (db : AutomationDatabase) (row : AutomationDefinition) : AutomationFrontierView :=
  frontierView db row (selectLatestFire db row.definitionID) (selectPendingFire db row.id)
    (selectScheduledFire db row.id)

lemma HistoryInv.projectAutomation_eq_ok (hinv : HistoryInv db) {row : AutomationDefinition}
    (hrow : row ∈ currentAutomationDefinitionsInTransaction db) :
    (projectAutomationInTransaction db row).map AutomationRow.view = .ok (historyView db row) := by
  have hdb := hinv.wellFormed
  have hone := hinv.atMostOneUnsettled
  have hmem := (mem_current.mp hrow).1
  obtain ⟨hview, hanswers⟩ := projectAutomation_view hdb hone row
  obtain ⟨view, hview'⟩ := hanswers fun fire hfire => by
    obtain ⟨hof, hpending⟩ := mem_historyPending.mp hfire
    exact hinv.current row hrow fire hof hpending
  have heq := hview view hview'
  rw [historyPending_eq hdb hone hmem (hinv.current row hrow), historyScheduled_eq hdb hmem] at heq
  rw [hview', heq]
  rfl

theorem HistoryInv.projectionsAgree_iff (hinv : HistoryInv db) (hpage : IsPage db definitions) :
    ProjectionsAgree db definitions ↔ ∀ row ∈ definitions, historyView db row = selectedView db row := by
  have hdb := hinv.wellFormed
  have hhistory : definitions.mapM (fun row =>
      (projectAutomationInTransaction db row).map AutomationRow.view) =
        .ok (definitions.map (historyView db)) :=
    mapM_eq_ok_map fun row hrow => hinv.projectAutomation_eq_ok (hpage.current row hrow)
  have hfrontier : definitions.mapM (fun row =>
      (projectAutomationFrontierInTransaction db row).map AutomationRow.view) =
        .ok (definitions.map (selectedView db)) :=
    mapM_eq_ok_map fun row _ => projectAutomationFrontier_view hdb row
  have hbatch : (automationFrontierEntriesForDefinitionsInTransaction db definitions).map
      (·.map (·.1.view)) = .ok (definitions.map (selectedView db)) :=
    automationFrontierEntries_view hdb (hpage.nodup_definitionIDs hdb)
  unfold ProjectionsAgree
  rw [hhistory, hfrontier, hbatch]
  constructor
  · rintro ⟨_, hleft, hright, -⟩
    have heq := Except.ok.inj (hleft.trans hright.symm)
    exact map_inj_left.mp heq
  · intro h
    exact ⟨_, congrArg Except.ok (map_congr_left h), rfl, rfl⟩

end Agreement

section Latest

variable [Collation] {db : AutomationDatabase}

def fireStart (db : AutomationDatabase) (fire : AutomationFire) : ℤ :=
  (((db.runsOf fire.id).map (·.startedAt)).min?).getD fire.timeCreated

def startOrder (db : AutomationDatabase) (left right : AutomationFire) : Ordering :=
  (compare (fireStart db left) (fireStart db right)).then (localeCompare left.id right.id)

def LastCreatedStartsLast (db : AutomationDatabase) (definitionID : String) : Prop :=
  ∀ last ∈ db.firesOf definitionID, Started db last →
    (∀ other ∈ db.firesOf definitionID, Started db other → other.orderKey ≤ last.orderKey) →
      ∀ other ∈ db.firesOf definitionID, Started db other → other.scheduledDueAt = last.scheduledDueAt →
        startOrder db last other ≠ .lt

instance (definitionID : String) : Decidable (LastCreatedStartsLast db definitionID) :=
  inferInstanceAs (Decidable (∀ last ∈ db.firesOf definitionID, _))

omit [Collation] in
lemma startedAt_eq (fire : AutomationFire) : (reducedOf db fire).startedAt = fireStart db fire := by
  have hstates : (runStates db fire.id).map (·.startedAt) =
      (orderBy AutomationRun.orderKey (db.runsOf fire.id)).map (·.startedAt) := by
    unfold runStates
    rw [List.map_map]
    rfl
  have hmin : ((runStates db fire.id).map (·.startedAt)).min? = ((db.runsOf fire.id).map (·.startedAt)).min? := by
    rw [hstates]
    have hperm := (orderBy_perm AutomationRun.orderKey (db.runsOf fire.id)).map (·.startedAt)
    ext start
    rw [min?_eq_some_iff, min?_eq_some_iff, hperm.mem_iff]
    simp only [hperm.mem_iff]
  unfold reducedOf reduceAutomationFireState fireStart
  rw [hmin]

omit [Collation] in
lemma not_pair_sublist_concat {β : Type*} {init : List β} {x y : β} (hnodup : (init ++ [x]).Nodup) :
    ¬[x, y].Sublist (init ++ [x]) := by
  intro hpair
  obtain ⟨front, _, hsplit, hfront, hback⟩ := sublist_append_iff.mp hpair
  have hnotin : x ∉ init := fun hmem =>
    (nodup_append.mp hnodup).2.2 x hmem x (mem_singleton_self x) rfl
  match front with
  | [] =>
    have hlength := hback.length_le
    rw [nil_append] at hsplit
    rw [← hsplit] at hlength
    simp at hlength
  | z :: front =>
    have hz : x = z := (cons.inj hsplit).1
    exact hnotin (hz ▸ hfront.subset mem_cons_self)

lemma historyLatest_eq (hdb : WellFormed db) {definitionID : String}
    (hcondition : LastCreatedStartsLast db definitionID) :
    historyLatest db definitionID = selectLatestFire db definitionID := by
  have hmem : ∀ fire, fire ∈ (historyFires db definitionID).filter (fun fire => Started db fire) ↔
      fire ∈ db.firesOf definitionID ∧ Started db fire := fun fire => by
    rw [mem_filter, mem_historyFires, decide_eq_true_eq]
  cases hselected : selectLatestFire db definitionID with
  | none =>
    have hnil := filter_eq_nil_iff.mp (argmax_eq_none.mp hselected)
    unfold historyLatest
    rw [getLast?_eq_none_iff, filter_eq_nil_iff]
    exact fun fire hfire => hnil fire (mem_historyFires.mp hfire)
  | some last =>
    obtain ⟨hlast, hstarted⟩ := selectLatestFire_mem hselected
    have hgreatest : ∀ other ∈ db.firesOf definitionID, Started db other →
        other.orderKey ≤ last.orderKey := fun other hother hotherStarted =>
      le_of_mem_argmax (mem_filter.mpr ⟨hother, by simpa using hotherStarted⟩) hselected
    cases hhistory : historyLatest db definitionID with
    | none =>
      unfold historyLatest at hhistory
      rw [getLast?_eq_none_iff] at hhistory
      have hin := (hmem last).mpr ⟨hlast, hstarted⟩
      rw [hhistory] at hin
      cases hin
    | some final =>
      rw [Option.some.injEq]
      by_contra hne
      unfold historyLatest at hhistory
      obtain ⟨init, hinit⟩ := getLast?_eq_some_iff.mp hhistory
      obtain ⟨hfinal, hfinalStarted⟩ := (hmem final).mp (by rw [hinit]; simp)
      have hbefore : last ∈ init := by
        have hin := (hmem last).mpr ⟨hlast, hstarted⟩
        rw [hinit, mem_append, mem_singleton] at hin
        exact hin.resolve_right fun heq => hne heq.symm
      -- The history puts the last created fire before another one of the same instant.
      have hsorted : (historyFires db definitionID).Pairwise fun left right =>
          (historyCompare db left right).isLE = true := pairwise_toSorted _
      have hle : (historyCompare db last final).isLE = true := by
        have hfiltered := hsorted.filter fun fire => decide (Started db fire)
        rw [hinit, pairwise_append] at hfiltered
        exact hfiltered.2.2 last hbefore final (mem_singleton_self final)
      have hkey := hgreatest final hfinal hfinalStarted
      have hdue : final.scheduledDueAt = last.scheduledDueAt := by
        refine le_antisymm (Prod.Lex.monotone_fst _ _ hkey) (not_lt.mp fun hlt => ?_)
        have hcompare : compare last.scheduledDueAt final.scheduledDueAt = .gt := compare_gt_iff_gt.mpr hlt
        unfold historyCompare at hle
        rw [hcompare] at hle
        cases hle
      have hsame : historyCompare db last final = startOrder db last final := by
        have hcompare : compare last.scheduledDueAt final.scheduledDueAt = .eq :=
          compare_eq_iff_eq.mpr hdue.symm
        unfold historyCompare startOrder
        rw [hcompare, startedAt_eq, startedAt_eq]
        rfl
      have hnot := hcondition last hlast hstarted hgreatest final hfinal hfinalStarted hdue
      have heq : historyCompare db last final = .eq := by
        rw [hsame] at hle ⊢
        cases horder : startOrder db last final with
        | lt => exact absurd horder hnot
        | eq => rfl
        | gt =>
          rw [horder] at hle
          cases hle
      -- Fires that started alike stay in the order of their creation.
      have hlt : final.orderKey < last.orderKey := by
        refine lt_of_le_of_ne hkey fun hsameKey => hne ?_
        exact keyInjective_fires hdb final (mem_fires_of_mem_firesOf hfinal) last
          (mem_fires_of_mem_firesOf hlast) hsameKey
      have hpair : [final, last].Sublist (historyFires db definitionID) := by
        refine pair_sublist_insertionSort ?_ (pair_sublist_orderBy hfinal hlast hlt)
        have hswap : historyCompare db final last = (historyCompare db last final).swap :=
          Std.OrientedCmp.eq_swap
        rw [hswap, heq]
        rfl
      have hfilteredPair : [final, last].Sublist (init ++ [final]) := by
        rw [← hinit]
        have hfiltered := hpair.filter fun fire => decide (Started db fire)
        simpa [hfinalStarted, hstarted] using hfiltered
      have hnodup : (init ++ [final]).Nodup := by
        rw [← hinit]
        have hfires : (db.firesOf definitionID).Nodup :=
          (Nodup.of_map _ hdb.fireIDs).filter _
        have hperm : (historyFires db definitionID).Perm (db.firesOf definitionID) :=
          (toSorted_perm _ _).trans (orderBy_perm _ _)
        exact (hperm.nodup_iff.mpr hfires).filter _
      exact not_pair_sublist_concat hnodup hfilteredPair

end Latest

section Law

variable [Collation] [RecurrenceRules] [AutomationIdentity]

/-- In every history the projectors agree on every page of definitions whose fires that were created last
also started last. -/
theorem projectionsAgree_of_lastCreatedStartsLast {db : AutomationDatabase}
    {inserts : List AutomationInsert} (hrun : exec automationStep emptyAutomations inserts = some db)
    {definitions : List AutomationDefinition} (hpage : IsPage db definitions)
    (hlast : ∀ row ∈ definitions, LastCreatedStartsLast db row.definitionID) :
    ProjectionsAgree db definitions := by
  have hinv := historyInv_of_exec hrun
  refine (hinv.projectionsAgree_iff hpage).mpr fun row hrow => ?_
  unfold historyView selectedView
  rw [historyLatest_eq hinv.wellFormed (hlast row hrow)]

end Law

/-- In every history a definition has at most one unsettled fire, of its current revision, and the attempts of a fire
are numbered from 1 on. -/
theorem one_unsettled_of_exec {db : AutomationDatabase} {inserts : List AutomationInsert}
    (hrun : exec automationStep emptyAutomations inserts = some db) : AtMostOneUnsettled db ∧
      (∀ row ∈ currentAutomationDefinitionsInTransaction db, ∀ fire ∈ db.firesOf row.definitionID,
        FirePending db fire → fire.automationRevisionID = row.id) ∧
      ∀ fireID, (db.attemptsOf fireID).map (·.ordinal) = List.range' 1 (db.attemptsOf fireID).length := by
  have hinv := historyInv_of_exec hrun
  exact ⟨hinv.atMostOneUnsettled, hinv.current, hinv.wellFormed.ordinals⟩

/-! ### Examples -/

@[reducible] def hourlyRules : RecurrenceRules := ⟨fun _ now => some ((now / 3600000 + 1) * 3600000)⟩

/-- Ids in place of hashes. -/
@[reducible] def namedSessions : AutomationIdentity := ⟨fun runID => "ses_automation_" ++ runID⟩

def hourlyDefinition : AutomationDefinition where
  id := "cal_1"
  definitionID := "cal_1"
  revision := 1
  projectID := none
  sessionID := none
  kind := .recurring "FREQ=HOURLY"
  scope := some .global
  active := true
  timeCreated := 0
  rest := ""

def hourlyRun (id fireID : String) (startedAt : ℤ) : AutomationRun :=
  ⟨id, "cal_1", fireID, none, .none, startedAt⟩

/-- The definition is created, and run by hand at the very instant at which its scheduled fire falls due. -/
def manualInserts : List AutomationInsert :=
  [.createDefinition hourlyDefinition, .insertFire ⟨"cal_automation_1", "cal_1", 3600000, .scheduled, 0⟩,
    .insertFire ⟨"cal_2", "cal_1", 3600000, .manualApi, 3600000⟩, .insertAttempt ⟨"cal_3", "cal_2", 1⟩,
    .settleAttempt ⟨"cal_3", .reserved, 3600000⟩, .reserveRun (hourlyRun "atr_1" "cal_2" 3600000) none,
    .settleRun ⟨"cal_4", "atr_1", .succeeded, 3600200⟩]

/-- Then the scheduled fire runs, and is put off. -/
def tiedInserts : List AutomationInsert :=
  manualInserts ++ [.insertAttempt ⟨"cal_5", "cal_automation_1", 1⟩, .settleAttempt ⟨"cal_5", .reserved, 3600300⟩,
    .reserveRun (hourlyRun "atr_2" "cal_automation_1" 3600300) none,
    .settleRun ⟨"cal_6", "atr_2", .retryWait 3660400 "offline", 3600400⟩]

def tablesAfter (inserts : List AutomationInsert) : AutomationDatabase :=
  (exec automationStep emptyAutomations inserts).getD emptyAutomations

/-- After the manual run the projectors agree. -/
theorem projectionsAgree_of_manual :
    letI := codePointCollation
    letI := hourlyRules
    letI := namedSessions
    ProjectionsAgree (tablesAfter manualInserts) [hourlyDefinition] := by
  have hlast : ∀ row ∈ [hourlyDefinition],
      @LastCreatedStartsLast codePointCollation (tablesAfter manualInserts) row.definitionID := by
    decide
  let _ : Collation := codePointCollation
  let _ : RecurrenceRules := hourlyRules
  let _ : AutomationIdentity := namedSessions
  have hrun : exec automationStep emptyAutomations manualInserts = some (tablesAfter manualInserts) := by
    decide
  have hpage : IsPage (tablesAfter manualInserts) [hourlyDefinition] :=
    ⟨by decide, nodup_singleton _⟩
  exact projectionsAgree_of_lastCreatedStartsLast hrun hpage hlast

/-- The definition of the manual fire has no other unsettled one. -/
theorem one_unsettled_of_manual : AtMostOneUnsettled (tablesAfter manualInserts) := by
  have hrun : exec automationStep emptyAutomations manualInserts = some (tablesAfter manualInserts) := by
    decide
  exact (one_unsettled_of_exec hrun).1

/-- After the scheduled run they do not: the history shows its failure, and the frontier the manual run. -/
theorem projections_disagree_of_tied :
    ¬∀ (_ : Collation) (_ : RecurrenceRules) (_ : AutomationIdentity) (db : AutomationDatabase)
      (inserts : List AutomationInsert), exec automationStep emptyAutomations inserts = some db →
        ∀ definitions, IsPage db definitions → ProjectionsAgree db definitions := by
  intro h
  let _ : Collation := codePointCollation
  let _ : RecurrenceRules := hourlyRules
  let _ : AutomationIdentity := namedSessions
  have hrun : exec automationStep emptyAutomations tiedInserts = some (tablesAfter tiedInserts) := by
    decide
  have hpage : IsPage (tablesAfter tiedInserts) [hourlyDefinition] :=
    ⟨by decide, nodup_singleton _⟩
  have hagree := h codePointCollation hourlyRules namedSessions _ _ hrun _ hpage
  have hviews := ((historyInv_of_exec hrun).projectionsAgree_iff hpage).mp hagree hourlyDefinition
    (mem_singleton_self _)
  have hdiffer : historyView (tablesAfter tiedInserts) hourlyDefinition ≠
      selectedView (tablesAfter tiedInserts) hourlyDefinition := by decide
  exact hdiffer hviews

end OpenCorvus.Scheduler
