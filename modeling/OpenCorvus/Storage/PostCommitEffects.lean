import OpenCorvus.Storage.Database

/-!
# Effects and commits

What a program writes and registers follows from the program alone, scope by scope.  Markers, written next to each
registration, tell which registrations became durable.  The effects that are started are exactly those, in their
order, unless an outermost `use` ends with an error: what was committed in it stays, and its effects are dropped.
-/

namespace OpenCorvus.Storage

open SavepointStack DatabaseProgram List

def Completion.isThrown : Completion → Bool
  | thrown _ => true
  | _ => false

variable {ρ : Type} (env : DatabaseSurroundings)

namespace DatabaseProgram

/-! ## What a program leaves -/

/-- How the program ends in a context of the depth, or in none. -/
def completion : DatabaseProgram ρ → Option ℕ → Completion
  | answer promise, _ => if promise then .promise else .value
  | write _, _ => .value
  | throw error, _ => .thrown error
  | effect _, _ => .ofFailure env.effectFailure
  | requireActiveTransaction operation, active =>
    if active.any (0 < ·) then .value else .thrown (activeTransactionRequired operation)
  | andThen first second, active =>
    match first.completion active with
    | .thrown error => .thrown error
    | _ => second.completion active
  | tryCatch body handler, active =>
    match body.completion active with
    | .thrown _ => handler.completion active
    | ended => ended
  | use callback, active =>
    match env.scopeFailure "Database.use", active with
    | some error, _ => .thrown error
    | none, some depth => .ofFailure ((callback.completion (some depth)).failure "Database.use" none)
    | none, none => .ofFailure (((callback.completion (some 0)).failure "Database.use" none).map fun error =>
        env.normalizeError error "Database.use")
  | transaction immediate failure callback, active =>
    match env.scopeFailure (transactionOperation immediate), active with
    | some error, _ => .thrown error
    | none, some depth => .ofFailure
        ((callback.completion (some (depth + 1))).failure (transactionOperation immediate) failure)
    | none, none => .ofFailure (((callback.completion (some 1)).failure (transactionOperation immediate)
        failure).map fun error => env.normalizeError error (transactionOperation immediate))
  | savepoint failure callback, active =>
    match active with
    | none => .thrown (activeTransactionRequired "Database.savepoint")
    | some depth => .ofFailure ((callback.completion (some (depth + 1))).failure "Database.savepoint" failure)

def innerDepth (active : Option ℕ) : Option ℕ := some (active.elim 1 (· + 1))

def rollsBack (immediate : Bool) (failure : Option DatabaseError) (callback : DatabaseProgram ρ)
    (active : Option ℕ) : Bool :=
  (env.scopeFailure (transactionOperation immediate)).isSome ||
    ((callback.completion env (innerDepth active)).failure (transactionOperation immediate) failure).isSome

def savepointRollsBack (failure : Option DatabaseError) (callback : DatabaseProgram ρ) (active : Option ℕ) :
    Bool :=
  active.isNone ||
    ((callback.completion env (innerDepth active)).failure "Database.savepoint" failure).isSome

/-- What is kept of a program: `leaf` of what stands in it, in order, without what is rolled back. -/
def kept {β : Type} (leaf : DatabaseProgram ρ → List β) : DatabaseProgram ρ → Option ℕ → List β
  | andThen first second, active => first.kept leaf active ++
      if (first.completion env active).isThrown then [] else second.kept leaf active
  | tryCatch body handler, active => body.kept leaf active ++
      if (body.completion env active).isThrown then handler.kept leaf active else []
  | use callback, active =>
    if (env.scopeFailure "Database.use").isSome then [] else callback.kept leaf (some (active.getD 0))
  | transaction immediate failure callback, active =>
    if rollsBack env immediate failure callback active then [] else callback.kept leaf (innerDepth active)
  | savepoint failure callback, active =>
    if savepointRollsBack env failure callback active then []
    else callback.kept leaf (innerDepth active)
  | program, _ => leaf program

def rowOf : DatabaseProgram ρ → List ρ
  | write row => [row]
  | _ => []

def effectOf : DatabaseProgram ρ → List DatabaseEffect
  | effect fn => if env.effectFailure.isSome then [] else [fn]
  | _ => []

def written (program : DatabaseProgram ρ) (active : Option ℕ) : List ρ := program.kept env rowOf active

def registered (program : DatabaseProgram ρ) (active : Option ℕ) : List DatabaseEffect :=
  program.kept env (effectOf env) active

/-- The outermost `use` of the callback ends with an error. -/
def useThrows (callback : DatabaseProgram ρ) : Bool :=
  ((callback.completion env (some 0)).failure "Database.use" none).isSome

def startedEffects : DatabaseProgram ρ → List DatabaseEffect
  | andThen first second => first.startedEffects ++
      if (first.completion env none).isThrown then [] else second.startedEffects
  | tryCatch body handler => body.startedEffects ++
      if (body.completion env none).isThrown then handler.startedEffects else []
  | use callback => if useThrows env callback then [] else (use callback).registered env none
  | program => program.registered env none

/-- The effects of the contexts of outermost `use`s that end with an error: those that were registered in them
outside a scope that was rolled back. -/
def lostEffects : DatabaseProgram ρ → List DatabaseEffect
  | andThen first second => first.lostEffects ++
      if (first.completion env none).isThrown then [] else second.lostEffects
  | tryCatch body handler => body.lostEffects ++
      if (body.completion env none).isThrown then handler.lostEffects else []
  | use callback => if useThrows env callback then (use callback).registered env none else []
  | _ => []

def marked : DatabaseProgram ρ → DatabaseProgram (ρ ⊕ DatabaseEffect)
  | answer promise => answer promise
  | write row => write (.inl row)
  | throw error => throw error
  | effect fn => andThen (effect fn) (write (.inr fn))
  | requireActiveTransaction operation => requireActiveTransaction operation
  | andThen first second => andThen first.marked second.marked
  | tryCatch body handler => tryCatch body.marked handler.marked
  | use callback => use callback.marked
  | transaction immediate failure callback => transaction immediate failure callback.marked
  | savepoint failure callback => savepoint failure callback.marked

end DatabaseProgram

def markers (rows : List (ρ ⊕ DatabaseEffect)) : List DatabaseEffect := rows.filterMap Sum.getRight?

/-! ## The property -/

def EffectsMatchCommits (program : DatabaseProgram ρ) : Prop :=
  ∃ effects,
    (∀ st : DatabaseState ρ, (program.run env none st).2.started = st.started ++ effects) ∧
    ∀ st : DatabaseState (ρ ⊕ DatabaseEffect), st.sqlite.Idle →
      markers (program.marked.run env none st).2.sqlite.durable = markers st.sqlite.durable ++ effects

def FailuresAreRollbacks (callback : DatabaseProgram ρ) : Prop :=
  ∀ immediate failure active (st : DatabaseState ρ),
    (((DatabaseProgram.transaction immediate failure callback).run env active st).1 = .value ∨
      ((DatabaseProgram.transaction immediate failure callback).run env active st).2.sqlite = st.sqlite)

/-! ## Runs -/

attribute [local simp] run completion kept startedEffects lostEffects marked

section Runs

variable {env}

lemma assertEffectAdmission_of_effectFailure (h : env.effectFailure = none) :
    env.assertEffectAdmission "Database.effect" = none := by
  unfold DatabaseSurroundings.effectFailure at h
  exact (Option.or_eq_none_iff.mp h).1

lemma drainEffects_eq (h : env.assertEffectAdmission "Database.effect" = none)
    (effects : List DatabaseEffect) (st : DatabaseState ρ) :
    drainEffects env effects st = (none, { st with
      started := st.started ++ effects
      effectFailureCount := st.effectFailureCount + effects.countP DatabaseEffect.throws }) := by
  induction effects generalizing st with
  | nil => simp [drainEffects]
  | cons fn _ ih =>
    have hcall : runEffect env fn st = (none, { st with
        started := st.started ++ [fn]
        effectFailureCount := st.effectFailureCount + if fn.throws then 1 else 0 }) := by
      unfold runEffect
      rw [h]
    simp only [drainEffects, hcall, ih, append_assoc, singleton_append, countP_cons]
    congr 2
    omega

def leaves (env : DatabaseSurroundings) (program : DatabaseProgram ρ) (active : Option ℕ) (st : DatabaseState ρ) : DatabaseState ρ :=
  { st with
    sqlite := st.sqlite.append (program.written env active)
    effects := st.effects ++ program.registered env active }

lemma runSavepoint_eq {operation : String} {failure : Option DatabaseError} {callback : DatabaseProgram ρ}
    {depth : ℕ} (h : ∀ st : DatabaseState ρ, callback.run env (some depth) st =
      (callback.completion env (some depth), leaves env callback (some depth) st))
    (st : DatabaseState ρ) :
    runSavepoint operation failure (callback.run env (some depth)) st =
      (.ofFailure ((callback.completion env (some depth)).failure operation failure),
        if ((callback.completion env (some depth)).failure operation failure).isSome then st
        else leaves env callback (some depth) st) := by
  unfold runSavepoint
  simp only [h]
  cases hfailure : (callback.completion env (some depth)).failure operation failure with
  | none | some => simp [leaves, Completion.ofFailure]

lemma run_active (program : DatabaseProgram ρ) (depth : ℕ) (st : DatabaseState ρ) :
    program.run env (some depth) st =
      (program.completion env (some depth), leaves env program (some depth) st) := by
  induction program generalizing depth st with
  | answer promise => cases promise <;> simp [leaves, written, registered, rowOf, effectOf]
  | write | throw => simp [leaves, written, registered, rowOf, effectOf]
  | effect =>
    cases hfailure : env.effectFailure <;>
      simp [leaves, written, registered, rowOf, effectOf, hfailure, Completion.ofFailure]
  | requireActiveTransaction =>
    simp [leaves, written, registered, rowOf, effectOf]
  | andThen first _ ihfirst ihsecond =>
    simp only [run, ihfirst, completion]
    cases hfirst : first.completion env (some depth) <;>
      simp [ihsecond, leaves, written, registered, hfirst, Completion.isThrown]
  | tryCatch body _ ihbody ihhandler =>
    simp only [run, ihbody, completion]
    cases hbody : body.completion env (some depth) <;>
      simp [ihhandler, leaves, written, registered, hbody, Completion.isThrown]
  | use _ ih =>
    simp only [run, completion, ih]
    cases hscope : env.scopeFailure "Database.use" <;>
      simp [leaves, written, registered, hscope]
  | transaction immediate failure callback ih =>
    simp only [run, completion]
    cases hscope : env.scopeFailure (transactionOperation immediate) with
    | some => simp [leaves, written, registered, rollsBack, hscope]
    | none =>
      simp only [runSavepoint_eq (fun st => ih (depth + 1) st)]
      cases hfailure : (callback.completion env (some (depth + 1))).failure
          (transactionOperation immediate) failure <;>
        simp [leaves, written, registered, rollsBack, innerDepth, hscope, hfailure]
  | savepoint failure callback ih =>
    simp only [run, completion, runSavepoint_eq (fun st => ih (depth + 1) st)]
    cases hfailure : (callback.completion env (some (depth + 1))).failure "Database.savepoint" failure <;>
      simp [leaves, written, registered, savepointRollsBack, innerDepth, hfailure]

lemma registered_eq_nil (program : DatabaseProgram ρ) (active : Option ℕ) (h : env.effectFailure ≠ none) :
    program.registered env active = [] := by
  unfold registered
  have hsome : env.effectFailure.isSome = true := Option.isSome_iff_ne_none.mpr h
  induction program generalizing active with
  | andThen _ _ ihfirst ihsecond => simp [ihfirst, ihsecond]
  | tryCatch _ _ ihbody ihhandler => simp [ihbody, ihhandler]
  | use callback ih | transaction _ _ callback ih | savepoint _ callback ih => simp [ih]
  | effect => simp [effectOf, hsome]
  | answer | write | throw | requireActiveTransaction => simp [effectOf]

lemma drainContext_eq (operation : String) (program : DatabaseProgram ρ) (active : Option ℕ)
    (st : DatabaseState ρ) (h : st.effects = program.registered env active) :
    (drainContext env operation st).1 = .value ∧ (drainContext env operation st).2.sqlite = st.sqlite ∧
      (drainContext env operation st).2.started = st.started ++ program.registered env active := by
  unfold drainContext
  rw [h]
  by_cases hadmitted : env.effectFailure = none
  · rw [drainEffects_eq (assertEffectAdmission_of_effectFailure hadmitted)]
    exact ⟨rfl, rfl, rfl⟩
  · rw [registered_eq_nil program active hadmitted]
    simp [drainEffects]

/-- An outermost `use` writes what its callback writes, and starts its effects when it ends well. -/
lemma runUse_eq (callback : DatabaseProgram ρ) (st : DatabaseState ρ) :
    let failure := (callback.completion env (some 0)).failure "Database.use" none
    (runUse env (callback.run env (some 0)) st).1 =
        .ofFailure (failure.map fun error => env.normalizeError error "Database.use") ∧
      (runUse env (callback.run env (some 0)) st).2.sqlite = st.sqlite.append (callback.written env (some 0)) ∧
      (runUse env (callback.run env (some 0)) st).2.started =
        st.started ++ if failure.isSome then [] else callback.registered env (some 0) := by
  unfold runUse
  simp only [run_active]
  split
  · next hfailure =>
    rw [hfailure]
    exact drainContext_eq _ callback (some 0) _ (nil_append _)
  · next error hfailure =>
    rw [hfailure]
    exact ⟨rfl, rfl, (List.append_nil _).symm⟩

variable (env) in
lemma runTransaction_eq (operation : String) (commit : Option DatabaseError) (callback : DatabaseProgram ρ)
    (st : DatabaseState ρ) :
    let failure := (callback.completion env (some 1)).failure operation commit
    (runTransaction env operation commit (callback.run env (some 1)) st).1 =
        .ofFailure (failure.map fun error => env.normalizeError error operation) ∧
      (runTransaction env operation commit (callback.run env (some 1)) st).2.sqlite =
        (if failure.isSome then st.sqlite else st.sqlite.append (callback.written env (some 1))) ∧
      (runTransaction env operation commit (callback.run env (some 1)) st).2.started =
        st.started ++ if failure.isSome then [] else callback.registered env (some 1) := by
  unfold runTransaction
  simp only [run_active]
  split
  · next hfailure =>
    rw [hfailure]
    obtain ⟨hvalue, hsqlite, hstarted⟩ := drainContext_eq operation callback (some 1)
      { leaves env callback (some 1) { st with sqlite := st.sqlite.push, effects := [] } with
        sqlite := (st.sqlite.push.append (callback.written env (some 1))).release } (nil_append _)
    refine ⟨hvalue, hsqlite.trans ?_, hstarted⟩
    exact Connection.release_append_push _
  · next error hfailure =>
    rw [hfailure]
    exact ⟨rfl, Connection.discard_append_push _, (List.append_nil _).symm⟩

def OutermostRun (env : DatabaseSurroundings) (program : DatabaseProgram ρ) : Prop :=
  ∀ st : DatabaseState ρ, (program.run env none st).1 = program.completion env none ∧
    (program.run env none st).2.sqlite = st.sqlite.append (program.written env none) ∧
    (program.run env none st).2.started = st.started ++ program.startedEffects env

lemma OutermostRun.andThen {first second : DatabaseProgram ρ} (hfirst : OutermostRun env first)
    (hsecond : OutermostRun env second) : OutermostRun env (first.andThen second) := by
  intro st
  obtain ⟨hcompletion, hsqlite, hstarted⟩ := hfirst st
  simp only [run, completion, written, startedEffects, kept]
  rw [← hcompletion]
  rcases hrun : first.run env none st with ⟨ended, next⟩
  rw [hrun] at hsqlite hstarted
  obtain ⟨hcompletion', hsqlite', hstarted'⟩ := hsecond next
  cases ended with
  | thrown =>
    exact ⟨rfl, by simpa [Completion.isThrown, written] using hsqlite,
      by simpa [Completion.isThrown] using hstarted⟩
  | value | promise =>
    refine ⟨hcompletion', hsqlite'.trans ?_, hstarted'.trans ?_⟩
    · rw [hsqlite]
      simp [Completion.isThrown, written]
    · rw [hstarted]
      simp [Completion.isThrown]

lemma OutermostRun.tryCatch {body handler : DatabaseProgram ρ} (hbody : OutermostRun env body)
    (hhandler : OutermostRun env handler) : OutermostRun env (body.tryCatch handler) := by
  intro st
  obtain ⟨hcompletion, hsqlite, hstarted⟩ := hbody st
  simp only [run, completion, written, startedEffects, kept]
  rw [← hcompletion]
  rcases hrun : body.run env none st with ⟨ended, next⟩
  rw [hrun] at hsqlite hstarted
  obtain ⟨hcompletion', hsqlite', hstarted'⟩ := hhandler next
  cases ended with
  | thrown =>
    refine ⟨hcompletion', hsqlite'.trans ?_, hstarted'.trans ?_⟩
    · rw [hsqlite]
      simp [Completion.isThrown, written]
    · rw [hstarted]
      simp [Completion.isThrown]
  | value | promise =>
    exact ⟨rfl, by simpa [Completion.isThrown, written] using hsqlite,
      by simpa [Completion.isThrown] using hstarted⟩

lemma run_outermost (program : DatabaseProgram ρ) : OutermostRun env program := by
  induction program with
  | answer | write | throw | requireActiveTransaction =>
    intro st
    simp [written, registered, rowOf, effectOf]
  | effect =>
    intro st
    cases hfailure : env.effectFailure with
    | some =>
      simp [written, registered, rowOf, effectOf, hfailure, Completion.ofFailure]
    | none =>
      simp [written, registered, rowOf, effectOf, hfailure, runEffect,
        assertEffectAdmission_of_effectFailure hfailure, Completion.ofFailure]
  | andThen _ _ ihfirst ihsecond => exact ihfirst.andThen ihsecond
  | tryCatch _ _ ihbody ihhandler => exact ihbody.tryCatch ihhandler
  | use callback =>
    intro st
    simp only [run, completion, written, startedEffects, registered, kept, useThrows]
    cases hscope : env.scopeFailure "Database.use" with
    | some => simp
    | none => exact runUse_eq callback st
  | transaction immediate failure callback =>
    intro st
    obtain ⟨hcompletion, hsqlite, hstarted⟩ :=
      runTransaction_eq env (transactionOperation immediate) failure callback st
    obtain hscope | ⟨_, hscope⟩ := Option.eq_none_or_eq_some
      (env.scopeFailure (transactionOperation immediate))
    · simp only [run, completion, written, startedEffects, registered, kept, rollsBack, innerDepth, hscope,
        Option.elim_none, Option.isSome_none, Bool.false_or]
      refine ⟨hcompletion, hsqlite.trans ?_, hstarted⟩
      split_ifs with h
      · simp
      · rfl
    · simp [written, registered, rollsBack, hscope]
  | savepoint =>
    intro st
    simp [written, registered, savepointRollsBack]

end Runs

/-! ## Markers -/

section Markers

variable {env} (program : DatabaseProgram ρ)

lemma completion_marked (active : Option ℕ) :
    program.marked.completion env active = program.completion env active := by
  induction program generalizing active with
  | answer | write | throw | requireActiveTransaction => rfl
  | effect => cases h : env.effectFailure <;> simp [h, Completion.ofFailure]
  | andThen _ _ ihfirst ihsecond => simp only [marked, completion, ihfirst, ihsecond]
  | tryCatch _ _ ihbody ihhandler => simp only [marked, completion, ihbody, ihhandler]
  | use callback ih | transaction _ _ callback ih | savepoint _ callback ih =>
    simp only [marked, completion, ih]

lemma markers_written (active : Option ℕ) :
    markers (program.marked.written env active) = program.registered env active := by
  unfold written registered markers
  induction program generalizing active with
  | answer | write | throw | requireActiveTransaction => rfl
  | effect =>
    cases h : env.effectFailure <;>
      simp [rowOf, effectOf, h, Completion.ofFailure, Completion.isThrown]
  | andThen _ _ ihfirst ihsecond =>
    simp only [marked, kept, filterMap_append, ihfirst, completion_marked]
    split_ifs <;> simp [ihsecond]
  | tryCatch _ _ ihbody ihhandler =>
    simp only [marked, kept, filterMap_append, ihbody, completion_marked]
    split_ifs <;> simp [ihhandler]
  | use _ ih =>
    simp only [marked, kept]
    rw [apply_ite (List.filterMap Sum.getRight?), filterMap_nil, ih]
  | transaction immediate failure callback ih =>
    have hsame : rollsBack env immediate failure callback.marked active =
        rollsBack env immediate failure callback active := by
      simp only [rollsBack, completion_marked]
    simp only [marked, kept, hsame]
    rw [apply_ite (List.filterMap Sum.getRight?), filterMap_nil, ih]
  | savepoint failure callback ih =>
    have hsame : savepointRollsBack env failure callback.marked active =
        savepointRollsBack env failure callback active := by
      simp only [savepointRollsBack, completion_marked]
    simp only [marked, kept, hsame]
    rw [apply_ite (List.filterMap Sum.getRight?), filterMap_nil, ih]

lemma registered_perm :
    (program.registered env none).Perm (program.startedEffects env ++ program.lostEffects env) := by
  induction program with
  | andThen _ _ ihfirst ihsecond =>
    simp only [registered, kept, startedEffects, lostEffects] at ihfirst ihsecond ⊢
    split_ifs
    · simpa using ihfirst
    · refine (ihfirst.append ihsecond).trans ?_
      simp only [append_assoc]
      exact (perm_append_comm_assoc _ _ _).append_left _
  | tryCatch _ _ ihbody ihhandler =>
    simp only [registered, kept, startedEffects, lostEffects] at ihbody ihhandler ⊢
    split_ifs
    · refine (ihbody.append ihhandler).trans ?_
      simp only [append_assoc]
      exact (perm_append_comm_assoc _ _ _).append_left _
    · simpa using ihbody
  | use =>
    simp only [startedEffects, lostEffects]
    split_ifs <;> simp
  | answer | write | throw | effect | requireActiveTransaction | transaction | savepoint =>
    simp

lemma registered_eq_started (h : program.lostEffects env = []) :
    program.registered env none = program.startedEffects env := by
  induction program with
  | andThen _ _ ihfirst ihsecond =>
    simp only [lostEffects, append_eq_nil_iff] at h
    simp only [registered, kept, startedEffects] at ihfirst ihsecond ⊢
    rw [ihfirst h.1]
    split_ifs with hthrown
    · rfl
    · rw [ihsecond (by simpa [hthrown] using h.2)]
  | tryCatch _ _ ihbody ihhandler =>
    simp only [lostEffects, append_eq_nil_iff] at h
    simp only [registered, kept, startedEffects] at ihbody ihhandler ⊢
    rw [ihbody h.1]
    split_ifs with hthrown
    · rw [ihhandler (by simpa [hthrown] using h.2)]
    · rfl
  | use =>
    simp only [lostEffects] at h
    simp only [startedEffects]
    split_ifs at h ⊢
    · exact h
    · rfl
  | answer | write | throw | effect | requireActiveTransaction | transaction | savepoint => rfl

end Markers

/-! ## The law -/

lemma effectsMatchCommits_iff (program : DatabaseProgram ρ) :
    EffectsMatchCommits env program ↔ program.lostEffects env = [] := by
  have hstarted (st : DatabaseState ρ) :
      (program.run env none st).2.started = st.started ++ program.startedEffects env :=
    (run_outermost program st).2.2
  have hdurable (st : DatabaseState (ρ ⊕ DatabaseEffect)) (hidle : st.sqlite.Idle) :
      markers (program.marked.run env none st).2.sqlite.durable =
        markers st.sqlite.durable ++ program.registered env none := by
    rw [(run_outermost program.marked st).2.1, Connection.append_of_idle hidle]
    unfold markers
    rw [filterMap_append]
    exact congrArg _ (markers_written program none)
  constructor
  · rintro ⟨effects, hall, hmarkers⟩
    have hsame : effects = program.startedEffects env := by
      have h := (hall ⟨⟨[], []⟩, [], [], 0⟩).symm.trans (hstarted _)
      simpa using h
    have hregistered : effects = program.registered env none := by
      have h := (hmarkers ⟨⟨[], []⟩, [], [], 0⟩ rfl).symm.trans (hdurable _ rfl)
      simpa using h
    have hlength : (program.registered env none).length =
        (program.startedEffects env ++ program.lostEffects env).length :=
      (registered_perm program).length_eq
    rw [← hregistered, hsame, length_append] at hlength
    exact eq_nil_of_length_eq_zero (by omega)
  · intro hnone
    rw [← registered_eq_started program hnone] at hstarted
    exact ⟨program.registered env none, hstarted, hdurable⟩

lemma failuresAreRollbacks (callback : DatabaseProgram ρ) : FailuresAreRollbacks env callback := by
  intro immediate failure active st
  obtain hscope | ⟨_, hscope⟩ := Option.eq_none_or_eq_some (env.scopeFailure (transactionOperation immediate))
  · cases active with
    | none =>
      obtain ⟨hcompletion, hsqlite, -⟩ :=
        runTransaction_eq env (transactionOperation immediate) failure callback st
      simp only [run, hscope, hcompletion, hsqlite]
      cases (callback.completion env (some 1)).failure (transactionOperation immediate) failure with
      | none => exact .inl rfl
      | some => exact .inr rfl
    | some depth =>
      simp only [run, hscope, runSavepoint_eq (fun st => run_active callback (depth + 1) st)]
      cases (callback.completion env (some (depth + 1))).failure (transactionOperation immediate) failure with
      | none => exact .inl rfl
      | some => exact .inr rfl
  · right
    simp [hscope]

/-- No program leaves a scope open or closes one of its caller, wherever it throws, and it commits nothing of a
transaction that it runs in. -/
theorem run_keepsScopes (program : DatabaseProgram ρ) (active : Option ℕ) (st : DatabaseState ρ) :
    let ended := (program.run env active st).2.sqlite
    ended.layers.length = st.sqlite.layers.length ∧ ended.layers.tail = st.sqlite.layers.tail ∧
      (st.sqlite.layers ≠ [] → ended.durable = st.sqlite.durable) := by
  obtain ⟨rows, hrun⟩ : ∃ rows, (program.run env active st).2.sqlite = st.sqlite.append rows := by
    cases active with
    | none => exact ⟨_, (run_outermost program st).2.1⟩
    | some depth => exact ⟨_, by rw [run_active]; rfl⟩
  rw [hrun]
  unfold Connection.append
  split
  case h_1 hidle => simp [hidle]
  case h_2 hopen => simp [hopen]

/-- Started effects match commits, and a transaction that was committed reports no failure, exactly for the
programs of which no outermost `use` ends with an error while it holds effects. -/
theorem postCommitEffects_iff (program : DatabaseProgram ρ) :
    EffectsMatchCommits env program ∧ FailuresAreRollbacks env program ↔ program.lostEffects env = [] := by
  rw [effectsMatchCommits_iff]
  exact and_iff_left (failuresAreRollbacks env program)

/-! ## An error after a commit -/

/-- Nothing bars access. -/
def openSurroundings : DatabaseSurroundings := ⟨none, false, none, none, fun error _ => error⟩

/-- A transaction is committed inside `use`, and then the callback throws. -/
def throwsAfterCommit : DatabaseProgram String :=
  .use (.andThen (.transaction false none (.andThen (.write "row") (.effect ⟨"publish", false⟩)))
    (.throw ⟨"Error", "later"⟩))

/-- The row is durable, and its effect is never started. -/
theorem effect_lost_after_commit : ¬∀ (ρ : Type) (env : DatabaseSurroundings) (program : DatabaseProgram ρ),
      EffectsMatchCommits env program ∧ FailuresAreRollbacks env program := by
  intro h
  obtain ⟨⟨effects, hstarted, hmarkers⟩, -⟩ := h String openSurroundings throwsAfterCommit
  have hnone := hstarted ⟨⟨[], []⟩, [], [], 0⟩
  have hsome := hmarkers ⟨⟨[], []⟩, [], [], 0⟩ rfl
  have hstart : (throwsAfterCommit.run openSurroundings none ⟨⟨[], []⟩, [], [], 0⟩).2.started = [] := by
    decide
  have hdurable : markers (throwsAfterCommit.marked.run openSurroundings none
      ⟨⟨[], []⟩, [], [], 0⟩).2.sqlite.durable = [⟨"publish", false⟩] := by
    decide
  rw [hstart] at hnone
  rw [hdurable] at hsome
  have hempty : effects = [] := by simpa using hnone.symm
  rw [hempty] at hsome
  cases hsome

end OpenCorvus.Storage
