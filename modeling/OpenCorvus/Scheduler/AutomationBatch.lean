import OpenCorvus.Scheduler.AutomationAgreement

/-!
# The batched projection of the Automations

The batched projector reads the facts of all selected fires of a page at once, and distributes them by the
ids of the fires.  Every definition of the page gets its own three fires, with the facts that the other
projectors reduce them to.
-/

namespace OpenCorvus.Scheduler

open EcmaScript Transaction OrderBy Engine LatestRow List AutomationRun

section Maps

variable {β γ : Type*} {xs : List β}

lemma getLast?_of_forall_eq {x : β} (hmem : x ∈ xs) (h : ∀ y ∈ xs, y = x) : xs.getLast? = some x := by
  cases hlast : xs.getLast? with
  | none =>
    rw [getLast?_eq_none_iff] at hlast
    rw [hlast] at hmem
    cases hmem
  | some last => rw [h last (mem_of_getLast? hlast)]

lemma filter_flatMap_eq {x : β} {f : β → List γ} {p : γ → Bool} (hnodup : xs.Nodup) (hx : x ∈ xs)
    (hp : ∀ z ∈ xs, ∀ y ∈ f z, p y = true ↔ z = x) : (xs.flatMap f).filter p = f x := by
  induction xs with
  | nil => cases hx
  | cons z xs ih =>
    obtain ⟨hz, hrest⟩ := nodup_cons.mp hnodup
    obtain ⟨hpz, hpxs⟩ := forall_mem_cons.mp hp
    rw [flatMap_cons, filter_append]
    rcases mem_cons.mp hx with rfl | hmem
    · have hself : (f x).filter p = f x := filter_eq_self.mpr fun y hy => (hpz y hy).mpr rfl
      have hnone : (xs.flatMap f).filter p = [] := by
        rw [filter_eq_nil_iff]
        intro y hy hpy
        obtain ⟨z, hzMem, hyz⟩ := mem_flatMap.mp hy
        exact hz ((hpxs z hzMem y hyz).mp hpy ▸ hzMem)
      rw [hself, hnone, List.append_nil]
    · have hnone : (f z).filter p = [] := by
        rw [filter_eq_nil_iff]
        intro y hy hpy
        exact hz ((hpz y hy).mp hpy ▸ hmem)
      rw [hnone, nil_append, ih hrest hmem hpxs]

/-- The same, for contributions of at most one element. -/
lemma filter_filterMap_eq {x : β} {f : β → Option γ} {p : γ → Bool} (hnodup : xs.Nodup) (hx : x ∈ xs)
    (hp : ∀ z ∈ xs, ∀ y ∈ f z, p y = true ↔ z = x) : (xs.filterMap f).filter p = (f x).toList := by
  rw [filterMap_eq_flatMap_toList]
  refine filter_flatMap_eq hnodup hx fun z hz y hy => hp z hz y ?_
  exact Option.mem_toList.mp hy

/-- Contributions of at most one element each are counted by a selection. -/
lemma length_flatMap_eq {f : β → List γ} {p : β → Bool} (h : ∀ x ∈ xs, (f x).length = if p x then 1 else 0) :
    (xs.flatMap f).length = (xs.filter p).length := by
  induction xs with
  | nil => rfl
  | cons _ _ ih =>
    obtain ⟨hx, hxs⟩ := forall_mem_cons.mp h
    rw [flatMap_cons, length_append, ih hxs, hx, filter_cons]
    split_ifs
    · rw [length_cons, Nat.add_comm]
    · rw [Nat.zero_add]

end Maps

@[simp] lemma mem_mapKeys {keys : List String} {key : String} : key ∈ mapKeys keys ↔ key ∈ keys := by
  unfold mapKeys
  rw [mem_reverse, mem_dedup, mem_reverse]

lemma nodup_mapKeys (keys : List String) : (mapKeys keys).Nodup :=
  nodup_reverse.mpr (nodup_dedup _)

section Facts

variable {db : AutomationDatabase} {fireIDs : List String}

lemma filter_runFacts (hdb : WellFormed db) (hnodup : fireIDs.Nodup) {fireID : String}
    (hmem : fireID ∈ fireIDs) :
    (automationFrontierRunFactsInTransaction db fireIDs).filter (fun fact => fact.run.fireID = fireID) =
      (orderBy AutomationRun.orderKey (db.runsOf fireID)).map fun run =>
        { run := run, receipt := db.selectReceipt run.id, retryCount := (db.retriesOf run.id).length } := by
  have hruns : ∀ run ∈ fireIDs.flatMap db.runsOf, run ∈ db.runs := by
    intro run hrun
    obtain ⟨_, -, hof⟩ := mem_flatMap.mp hrun
    exact mem_of_mem_filter hof
  have hinj : KeyInjective batchKey (fireIDs.flatMap db.runsOf) := by
    intro r hr s hs hkey
    simp only [batchKey, EmbeddingLike.apply_eq_iff_eq, Prod.mk.injEq] at hkey
    exact keyInjective_runs hdb r (hruns r hr) s (hruns s hs) hkey.2
  have hselected : (fireIDs.flatMap db.runsOf).filter (fun run => run.fireID = fireID) = db.runsOf fireID := by
    refine filter_flatMap_eq hnodup hmem fun id _ run hrun => ?_
    have hof : run.fireID = id := by simpa using of_mem_filter hrun
    rw [decide_eq_true_eq, hof]
  unfold automationFrontierRunFactsInTransaction
  rw [List.filter_map]
  congr 1
  have hfilter : (orderBy batchKey (fireIDs.flatMap db.runsOf)).filter
      ((fun fact : AutomationFrontierRunFact => decide (fact.run.fireID = fireID)) ∘ fun run =>
        { run := run, receipt := db.selectReceipt run.id, retryCount := (db.retriesOf run.id).length }) =
      (orderBy batchKey (fireIDs.flatMap db.runsOf)).filter fun run =>
        run.fireID = fireID := rfl
  rw [hfilter, filter_orderBy hinj, hselected]
  refine orderBy_congr_key fun r hr s hs => ?_
  have hof : ∀ run ∈ db.runsOf fireID, run.fireID = fireID := fun run hrun => by
    simpa using of_mem_filter hrun
  unfold batchKey
  rw [hof r hr, hof s hs, Prod.Lex.toLex_le_toLex]
  simp

lemma attemptFactSummary_eq (hdb : WellFormed db) (fireID : String) :
    attemptFactSummary (some (automationFrontierAttemptFact db fireID)) = attemptsState db fireID := by
  have hfailures : ((db.attemptsOf fireID).flatMap fun attempt => db.attemptReceipts.filter fun receipt =>
      receipt.attemptID = attempt.id ∧ receipt.outcome.isFailure = true).length =
        (attemptsState db fireID).failureCount := by
    have hperm := (orderBy_perm AutomationFireAttempt.orderKey (db.attemptsOf fireID)).filter fun attempt =>
      (db.attemptReceipt attempt.id).any (·.outcome.isFailure)
    unfold attemptsState attemptSummary
    rw [hperm.length_eq]
    refine length_flatMap_eq fun attempt _ => ?_
    cases hreceipt : db.attemptReceipt attempt.id with
    | none =>
      have hnone : db.attemptReceipts.filter (fun receipt =>
          receipt.attemptID = attempt.id ∧ receipt.outcome.isFailure = true) = [] := by
        rw [filter_eq_nil_iff]
        intro receipt hmem hmatch
        rw [decide_eq_true_eq] at hmatch
        have hsome := (attemptReceipt_eq_some hdb).mpr ⟨hmem, hmatch.1⟩
        rw [hreceipt] at hsome
        cases hsome
      rw [hnone]
      rfl
    | some receipt =>
      obtain ⟨hmem, hid⟩ := (attemptReceipt_eq_some hdb).mp hreceipt
      have hsplit : db.attemptReceipts.filter (fun other =>
          other.attemptID = attempt.id ∧ other.outcome.isFailure = true) =
            [receipt].filter fun other => other.outcome.isFailure := by
        rw [← hdb.attemptReceipts.filter_eq_singleton hmem, List.filter_filter]
        refine filter_congr fun other _ => ?_
        rw [hid, Bool.decide_and, Bool.and_comm, Bool.decide_eq_true]
      rw [hsplit, Option.any_some, filter_cons]
      split_ifs <;> rfl
  have hlatest : (attemptFactSummary (some (automationFrontierAttemptFact db fireID))).latest =
      (attemptsState db fireID).latest := by
    rw [attemptsState_latest hdb]
    unfold attemptFactSummary automationFrontierAttemptFact
    change (lastAttempt db fireID).map (fun _ => latestAttemptOf
      ((lastAttempt db fireID).bind fun attempt => db.attemptReceipt attempt.id)) = _
    cases lastAttempt db fireID <;> rfl
  have hcount : (attemptFactSummary (some (automationFrontierAttemptFact db fireID))).count =
      (attemptsState db fireID).count := (attemptsState_count fireID).symm
  rw [AutomationFireAttemptSummary.mk.injEq]
  exact ⟨hcount, hfailures, hlatest⟩

end Facts

def selectFire (db : AutomationDatabase) (row : AutomationDefinition) :
    AutomationFrontierRole → Option AutomationFire
  | .latest => selectLatestFire db row.definitionID
  | .pending => selectPendingFire db row.id
  | .boundary => selectScheduledFire db row.id

def fireState (db : AutomationDatabase) (fire : AutomationFire) : BatchedAutomationFireState where
  fire := fire
  reduced := reducedOf db fire
  latestAttempt := (lastAttempt db fire.id).map fun attempt => (attempt.id, attempt.ordinal)
  reservedTargetFailures :=
    maxOrZero ((orderBy AutomationRun.orderKey (db.runsOf fire.id)).map (runFailures db))

section Batch

variable {db : AutomationDatabase} {page : List AutomationDefinition} {row : AutomationDefinition}

lemma fireState_failures (fire : AutomationFire) : (fireState db fire).failures = failuresOf db fire := by
  have hmax : ∀ n : ℕ, maxOrZero [n] = n := fun n => Nat.zero_max n
  unfold BatchedAutomationFireState.failures failuresOf reduceAutomationFireFailureCount fireState
  rw [hmax]

lemma selectFire_mem {role : AutomationFrontierRole} {fire : AutomationFire}
    (h : selectFire db row role = some fire) : fire ∈ db.fires := by
  cases role with
  | latest => exact mem_fires_of_mem_firesOf (selectLatestFire_mem h).1
  | pending => exact (selectPendingFire_mem h).1
  | boundary => exact (selectScheduledFire_mem h).1

variable {fact : AutomationFrontierFireFact}

lemma mem_fireFacts : fact ∈ automationFrontierFireFactsInTransaction db page ↔ ∃ row ∈ page, ∃ fire,
      selectFire db row fact.role = some fire ∧ fact = ⟨row.definitionID, fact.role, fire⟩ := by
  unfold automationFrontierFireFactsInTransaction frontierFact
  simp only [mem_append, mem_filterMap, Option.map_eq_some_iff]
  constructor
  · rintro ((⟨row, hrow, fire, hfire, rfl⟩ | ⟨row, hrow, fire, hfire, rfl⟩) | ⟨row, hrow, fire, hfire, rfl⟩)
    all_goals exact ⟨row, hrow, fire, hfire, rfl⟩
  · rintro ⟨row, hrow, fire, hfire, hfact⟩
    cases hrole : fact.role with
    | latest =>
      rw [hrole] at hfire hfact
      exact .inl (.inl ⟨row, hrow, fire, hfire, hfact.symm⟩)
    | pending =>
      rw [hrole] at hfire hfact
      exact .inl (.inr ⟨row, hrow, fire, hfire, hfact.symm⟩)
    | boundary =>
      rw [hrole] at hfire hfact
      exact .inr ⟨row, hrow, fire, hfire, hfact.symm⟩

lemma filter_fireFacts (hnodup : (page.map (·.definitionID)).Nodup) (hrow : row ∈ page)
    (role : AutomationFrontierRole) :
    (automationFrontierFireFactsInTransaction db page).filter (fun fact =>
        fact.definitionID = row.definitionID ∧ fact.role = role) =
      (frontierFact role row (selectFire db row role)).toList := by
  have hsame : ∀ selected : AutomationDefinition → Option AutomationFire, (page.filterMap fun definition =>
      frontierFact role definition (selected definition)).filter (fun fact =>
        fact.definitionID = row.definitionID ∧ fact.role = role) =
          (frontierFact role row (selected row)).toList := by
    intro selected
    refine filter_filterMap_eq hnodup.of_map hrow fun other hother fact hfact => ?_
    obtain ⟨_, -, rfl⟩ := Option.map_eq_some_iff.mp hfact
    rw [decide_eq_true_eq]
    rw [and_iff_left rfl]
    exact ⟨fun heq => inj_on_of_nodup_map hnodup hother hrow heq, fun heq => heq ▸ rfl⟩
  have hother : ∀ other, other ≠ role → ∀ selected : AutomationDefinition → Option AutomationFire,
      (page.filterMap fun definition => frontierFact other definition (selected definition)).filter
        (fun fact => fact.definitionID = row.definitionID ∧ fact.role = role) = [] := by
    intro other hne selected
    rw [filter_eq_nil_iff]
    intro fact hfact hmatch
    obtain ⟨_, -, hselected⟩ := mem_filterMap.mp hfact
    obtain ⟨_, -, rfl⟩ := Option.map_eq_some_iff.mp hselected
    rw [decide_eq_true_eq] at hmatch
    exact hne hmatch.2
  unfold automationFrontierFireFactsInTransaction
  rw [filter_append, filter_append]
  cases role with
  | latest =>
    rw [hsame, hother .pending (by decide), hother .boundary (by decide), List.append_nil, List.append_nil]
    rfl
  | pending =>
    rw [hsame, hother .latest (by decide), hother .boundary (by decide), List.append_nil, nil_append]
    rfl
  | boundary =>
    rw [hsame, hother .latest (by decide), hother .pending (by decide), List.append_nil, nil_append]
    rfl

lemma batchedFireState_eq (hdb : WellFormed db)
    (hfact : fact ∈ (batchedAutomationFireStatesInTransaction db page).facts) :
    batchedFireState (batchedAutomationFireStatesInTransaction db page).runs
      (batchedAutomationFireStatesInTransaction db page).attempts fact.fire = fireState db fact.fire := by
  let fireIDs := mapKeys ((automationFrontierFireFactsInTransaction db page).map (·.fire.id))
  have hmem : fact.fire.id ∈ fireIDs := mem_mapKeys.mpr (List.mem_map_of_mem hfact)
  have hruns := filter_runFacts hdb (nodup_mapKeys _) hmem
  have hattempt : ((fireIDs.map (automationFrontierAttemptFact db)).filter fun attempt =>
      attempt.fireID = fact.fire.id).getLast? = some (automationFrontierAttemptFact db fact.fire.id) := by
    refine getLast?_of_forall_eq (mem_filter.mpr ⟨List.mem_map_of_mem hmem, by
      simp [automationFrontierAttemptFact]⟩) fun attempt hin => ?_
    obtain ⟨hin, hid⟩ := mem_filter.mp hin
    obtain ⟨_, -, rfl⟩ := List.mem_map.mp hin
    rw [decide_eq_true_eq] at hid
    exact congrArg (automationFrontierAttemptFact db) hid
  unfold batchedFireState batchedAutomationFireStatesInTransaction
  dsimp only
  rw [hruns, hattempt, attemptFactSummary_eq hdb, List.map_map, List.map_map]
  rfl

lemma stateOf_eq (hdb : WellFormed db) (hnodup : (page.map (·.definitionID)).Nodup) (hrow : row ∈ page)
    (role : AutomationFrontierRole) :
    (batchedAutomationFireStatesInTransaction db page).stateOf row.definitionID role =
      (selectFire db row role).map (fireState db) := by
  have hfacts : (batchedAutomationFireStatesInTransaction db page).facts =
      automationFrontierFireFactsInTransaction db page := rfl
  unfold AutomationFrontierBatch.stateOf
  rw [hfacts, filter_fireFacts hnodup hrow]
  cases hselected : selectFire db row role with
  | none => rfl
  | some fire =>
    have hin : (⟨row.definitionID, role, fire⟩ : AutomationFrontierFireFact) ∈
        automationFrontierFireFactsInTransaction db page :=
      mem_fireFacts.mpr ⟨row, hrow, fire, hselected, rfl⟩
    change (batchedAutomationFireStatesInTransaction db page).state fire.id = some (fireState db fire)
    unfold AutomationFrontierBatch.state
    rw [hfacts]
    cases hlast : ((automationFrontierFireFactsInTransaction db page).filter fun fact =>
        fact.fire.id = fire.id).getLast? with
    | none =>
      rw [getLast?_eq_none_iff, filter_eq_nil_iff] at hlast
      exact absurd (by simp) (hlast _ hin)
    | some last =>
      obtain ⟨hlastMem, hlastID⟩ := mem_filter.mp (mem_of_getLast? hlast)
      rw [decide_eq_true_eq] at hlastID
      obtain ⟨_, -, found, hfound, hlastFact⟩ := mem_fireFacts.mp hlastMem
      have hlastFire : last.fire = found := congrArg AutomationFrontierFireFact.fire hlastFact
      have hsame : last.fire = fire := by
        rw [hlastFire] at hlastID ⊢
        exact hdb.fireIDs.eq_of_id (selectFire_mem hfound) (selectFire_mem hselected) hlastID
      rw [Option.map_some, batchedFireState_eq hdb hlastMem, hsame]

end Batch

lemma flatten_pagesOf {β : Type} {size : ℕ} (hsize : 0 < size) {fuel : ℕ} {rows : List β}
    (hfuel : rows.length ≤ fuel) : (pagesOf size fuel rows).flatten = rows := by
  induction fuel generalizing rows with
  | zero =>
    rw [length_eq_zero_iff.mp (Nat.le_zero.mp hfuel)]
    rfl
  | succ fuel ih =>
    unfold pagesOf
    split_ifs with hempty
    · rw [List.isEmpty_iff.mp hempty]
      rfl
    · have hpos : 0 < rows.length := length_pos_iff.mpr (by simpa using hempty)
      have hdrop : (rows.drop size).length ≤ fuel := by
        rw [length_drop]
        omega
      rw [flatten_cons, ih hdrop, take_append_drop]

lemma sublist_of_mem_pagesOf {β : Type} {size fuel : ℕ} {rows page : List β}
    (h : page ∈ pagesOf size fuel rows) : page.Sublist rows := by
  induction fuel generalizing rows with
  | zero => cases h
  | succ _ ih =>
    unfold pagesOf at h
    split_ifs at h with hempty
    · cases h
    rcases mem_cons.mp h with rfl | h
    · exact take_sublist _ _
    · exact (ih h).trans (drop_sublist _ _)

section Rows

variable [RecurrenceRules] {db : AutomationDatabase} {page definitions : List AutomationDefinition}

lemma batchedRow_view (hdb : WellFormed db) (hnodup : (page.map (·.definitionID)).Nodup)
    {row : AutomationDefinition} (hrow : row ∈ page) (leases : List (String × ControlLease)) :
    (batchedRow (batchedAutomationFireStatesInTransaction db page) leases row).map (·.1.view) =
      .ok (frontierView db row (selectLatestFire db row.definitionID) (selectPendingFire db row.id)
        (selectScheduledFire db row.id)) := by
  have hlatest := stateOf_eq hdb hnodup hrow .latest
  have hpending := stateOf_eq hdb hnodup hrow .pending
  have hboundary := stateOf_eq hdb hnodup hrow .boundary
  dsimp only [selectFire] at hlatest hpending hboundary
  have hguard : ¬((selectPendingFire db row.id).map (fireState db)).any fun state =>
      state.fire.automationRevisionID ≠ row.id := by
    cases hselected : selectPendingFire db row.id with
    | none => simp
    | some => simp [fireState, (selectPendingFire_mem hselected).2.1]
  have hfailures : ∀ latest : Option AutomationFire, (latest.map (fireState db)).map (·.failures) =
      latest.map (failuresOf db) := by
    rintro (_ | fire)
    · rfl
    · exact congrArg some (fireState_failures fire)
  have hordinal : ((((selectPendingFire db row.id).map (fireState db)).bind (·.latestAttempt)).map (·.2)).getD 0 =
        ((selectPendingFire db row.id).map fun fire => (db.attemptsOf fire.id).length).getD 0 := by
    cases selectPendingFire db row.id with
    | none => rfl
    | some fire =>
      have hlast := lastAttempt_ordinal hdb fire.id
      change (((lastAttempt db fire.id).map fun attempt => (attempt.id, attempt.ordinal)).map
        (·.2)).getD 0 = (db.attemptsOf fire.id).length
      rw [← hlast, Option.map_map]
      rfl
  have hattempt : (((selectPendingFire db row.id).map (fireState db)).bind (·.latestAttempt)).map (·.1) =
      (selectPendingFire db row.id).bind fun fire => (lastAttempt db fire.id).map (·.id) := by
    cases selectPendingFire db row.id with
    | none => rfl
    | some fire =>
      change ((lastAttempt db fire.id).map fun attempt => (attempt.id, attempt.ordinal)).map (·.1) = _
      rw [Option.map_map]
      rfl
  unfold batchedRow throwWhen
  dsimp only
  rw [hlatest, hpending, hboundary, if_neg hguard]
  refine congrArg Except.ok ?_
  unfold AutomationRow.view frontierView
  dsimp only
  rw [hfailures, hordinal, hattempt]
  cases selectPendingFire db row.id <;> cases selectScheduledFire db row.id <;>
    cases selectLatestFire db row.definitionID <;> rfl

lemma frontierPage_view (hdb : WellFormed db) (hnodup : (page.map (·.definitionID)).Nodup) :
    (frontierPage db page).map (·.map (·.1.view)) = .ok (page.map fun row =>
      frontierView db row (selectLatestFire db row.definitionID) (selectPendingFire db row.id)
        (selectScheduledFire db row.id)) := by
  let leases := currentAutomationLeaseFrontiersInTransaction db (page.map (·.definitionID))
  have hentries : ∀ row ∈ page, ∃ entry,
      batchedRow (batchedAutomationFireStatesInTransaction db page) leases row = .ok entry ∧
        entry.1.view = frontierView db row (selectLatestFire db row.definitionID)
          (selectPendingFire db row.id) (selectScheduledFire db row.id) := fun row hrow =>
    map_eq_ok.mp (batchedRow_view hdb hnodup hrow leases)
  obtain ⟨rows, hrows, hviews⟩ := exists_mapM_eq_ok hentries
  exact map_eq_ok.mpr ⟨rows, hrows, hviews⟩

theorem automationFrontierEntries_view (hdb : WellFormed db) (hnodup : (definitions.map (·.definitionID)).Nodup) :
    (automationFrontierEntriesForDefinitionsInTransaction db definitions).map (·.map (·.1.view)) =
      .ok (definitions.map fun row =>
        frontierView db row (selectLatestFire db row.definitionID) (selectPendingFire db row.id)
          (selectScheduledFire db row.id)) := by
  have hpages : ∀ page ∈ pagesOf AUTOMATION_FRONTIER_PAGE_SIZE definitions.length definitions,
      (page.map (·.definitionID)).Nodup := fun page hpage =>
    hnodup.sublist ((sublist_of_mem_pagesOf hpage).map _)
  have hentries : ∀ page ∈ pagesOf AUTOMATION_FRONTIER_PAGE_SIZE definitions.length definitions,
      ∃ entries, frontierPage db page = .ok entries ∧ entries.map (·.1.view) = page.map fun row =>
        frontierView db row (selectLatestFire db row.definitionID) (selectPendingFire db row.id)
          (selectScheduledFire db row.id) := fun page hpage =>
    map_eq_ok.mp (frontierPage_view hdb (hpages page hpage))
  obtain ⟨answers, hanswers, hviews⟩ := exists_mapM_eq_ok hentries
  refine map_eq_ok.mpr ⟨answers.flatten, ?_, ?_⟩
  · unfold automationFrontierEntriesForDefinitionsInTransaction
    exact bind_eq_ok.mpr ⟨answers, hanswers, rfl⟩
  · rw [map_flatten, hviews, ← map_flatten, flatten_pagesOf (by decide) le_rfl]

end Rows

end OpenCorvus.Scheduler
