import OpenCorvus.Foundation.SavepointStack

/-!
# Scopes of the database and post-commit effects

What runs between two turns of the event loop against the one connection: `Database.use`, `Database.transaction`,
`Database.immediateTransaction` and `Database.savepoint`, nested in any way, with `Database.effect` registrations, and
with exceptions at any level.  The gates of other turns stand still meanwhile.
-/

namespace OpenCorvus.Storage

open SavepointStack

structure DatabaseError where
  name : String
  message : String

structure DatabaseEffect where
  id : String
  throws : Bool
deriving DecidableEq

inductive DatabaseProgram (ρ : Type) where
  /-- Answer, with a promise perhaps. -/
  | answer (promise : Bool)
  | write (row : ρ)
  | throw (error : DatabaseError)
  | effect (fn : DatabaseEffect)
  | requireActiveTransaction (operation : String)
  | andThen (first second : DatabaseProgram ρ)
  | tryCatch (body handler : DatabaseProgram ρ)
  | use (callback : DatabaseProgram ρ)
  /-- A transaction, immediate perhaps, of which the commit may fail. -/
  | transaction (immediate : Bool) (failure : Option DatabaseError) (callback : DatabaseProgram ρ)
  /-- A savepoint of which the release may fail. -/
  | savepoint (failure : Option DatabaseError) (callback : DatabaseProgram ρ)

/-- How a program ends. -/
inductive Completion where
  | value
  | promise
  | thrown (error : DatabaseError)

structure EffectOwner where
  closed : Bool
  /-- It is among the active effects. -/
  active : Bool
  /-- The lifecycle operation that runs has accepted it. -/
  accepted : Bool

/-- What the turn finds. -/
structure DatabaseSurroundings where
  effectOwner : Option EffectOwner
  effectSettlementGate : Bool
  /-- The label of the lifecycle operation that owns the database. -/
  lifecycleOwner : Option String
  unavailable : Option DatabaseError
  /-- `normalizeError`, by the operation. -/
  normalizeError : DatabaseError → String → DatabaseError

namespace DatabaseSurroundings

variable (env : DatabaseSurroundings) (operation : String)

def inheritedOwnerFailure : Option DatabaseError :=
  if env.effectOwner.any EffectOwner.closed then
    some ⟨"Error", operation ++ " rejected because its inherited database effect owner is closed"⟩
  else none

def lifecycleConflict (operation label : String) : DatabaseError :=
  ⟨"Error", operation ++ " rejected because Database." ++ label ++ " owns the database lifecycle"⟩

def admissionClosed : DatabaseError :=
  ⟨"DatabaseEffectAdmissionClosedError",
    operation ++ " rejected because database effect admission is closed during runtime settlement"⟩

def assertEffectAdmission : Option DatabaseError :=
  if env.effectSettlementGate then some (admissionClosed operation) else none

def assertLifecycleUnowned : Option DatabaseError :=
  (env.inheritedOwnerFailure operation).or (env.lifecycleOwner.map fun label => lifecycleConflict operation label)

/-- Access while effects are being settled, or by the lifecycle, is that of effects which are active and
accepted. -/
def assertDatabaseAccess : Option DatabaseError :=
  (env.inheritedOwnerFailure operation).or
    ((if env.effectSettlementGate ∧ ¬env.effectOwner.any (fun owner => !owner.closed && owner.active) then
        some (admissionClosed operation)
      else none).or
    (if env.effectOwner.any (fun owner => !owner.closed && owner.accepted) then none
      else env.lifecycleOwner.map fun label => lifecycleConflict operation label))

def scopeFailure : Option DatabaseError :=
  (env.assertDatabaseAccess operation).or env.unavailable

def effectFailure : Option DatabaseError :=
  (env.assertEffectAdmission "Database.effect").or (env.assertLifecycleUnowned "Database.effect")

end DatabaseSurroundings

structure DatabaseState (ρ : Type) where
  sqlite : Connection ρ
  /-- The array that the nested contexts share. -/
  effects : List DatabaseEffect
  /-- The effects that were called, in order. -/
  started : List DatabaseEffect
  effectFailureCount : ℕ

section Run

variable {ρ : Type} (env : DatabaseSurroundings)

def runEffect (fn : DatabaseEffect) (st : DatabaseState ρ) : Option DatabaseError × DatabaseState ρ :=
  match env.assertEffectAdmission "Database.effect" with
  | some error => (some error, st)
  | none => (none, { st with
      started := st.started ++ [fn]
      effectFailureCount := st.effectFailureCount + if fn.throws then 1 else 0 })

def drainEffects : List DatabaseEffect → DatabaseState ρ → Option DatabaseError × DatabaseState ρ
  | [], st => (none, st)
  | fn :: rest, st =>
    match runEffect env fn st with
    | (some error, next) => (some error, next)
    | (none, next) => drainEffects rest next

variable (operation : String)

def synchronousCallback : DatabaseError :=
  ⟨"Error", operation ++ " callback must be synchronous"⟩

/-- Why a scope fails after its callback has ended, and its commit was tried. -/
def Completion.failure (commit : Option DatabaseError) : Completion → Option DatabaseError
  | value => commit
  | promise => some (synchronousCallback operation)
  | thrown error => some error

def Completion.ofFailure : Option DatabaseError → Completion
  | none => value
  | some error => thrown error

def runSavepoint (failure : Option DatabaseError) (callback : DatabaseState ρ → Completion × DatabaseState ρ)
    (st : DatabaseState ρ) : Completion × DatabaseState ρ :=
  let effectStart := st.effects.length
  let (completion, after) := callback { st with sqlite := st.sqlite.push }
  match completion.failure operation failure with
  | none => (.value, { after with sqlite := after.sqlite.release })
  | some error => (.thrown error, { after with
      effects := after.effects.take effectStart
      sqlite := after.sqlite.rollbackTo.release })

def drainContext (st : DatabaseState ρ) : Completion × DatabaseState ρ :=
  match drainEffects env st.effects { st with effects := [] } with
  | (none, drained) => (.value, drained)
  | (some error, drained) => (.thrown (env.normalizeError error operation), drained)

/-- The outermost `use`, a context outside a transaction. -/
def runUse (callback : DatabaseState ρ → Completion × DatabaseState ρ) (st : DatabaseState ρ) :
    Completion × DatabaseState ρ :=
  let (completion, after) := callback { st with effects := [] }
  match completion.failure "Database.use" none with
  | none => drainContext env "Database.use" after
  | some error => (.thrown (env.normalizeError error "Database.use"), { after with effects := [] })

def runTransaction (failure : Option DatabaseError) (callback : DatabaseState ρ → Completion × DatabaseState ρ)
    (st : DatabaseState ρ) : Completion × DatabaseState ρ :=
  let (completion, after) := callback { st with sqlite := st.sqlite.push, effects := [] }
  match completion.failure operation failure with
  | none => drainContext env operation { after with sqlite := after.sqlite.release }
  | some error => (.thrown (env.normalizeError error operation), { after with
      effects := []
      sqlite := after.sqlite.discard })

def transactionOperation (immediate : Bool) : String :=
  if immediate then "Database.immediateTransaction" else "Database.transaction"

def activeTransactionRequired : DatabaseError :=
  ⟨"ActiveDatabaseTransactionRequiredError", operation ++ " requires an active Database transaction"⟩

/-- Run a program, in the active context of a transaction depth or in none. -/
def DatabaseProgram.run : DatabaseProgram ρ → Option ℕ → DatabaseState ρ → Completion × DatabaseState ρ
  | answer promise, _, st => (if promise then .promise else .value, st)
  | write row, _, st => (.value, { st with sqlite := st.sqlite.append [row] })
  | throw error, _, st => (.thrown error, st)
  | effect fn, active, st =>
    match env.effectFailure, active with
    | some error, _ => (.thrown error, st)
    | none, some _ => (.value, { st with effects := st.effects ++ [fn] })
    | none, none =>
      let (failure, next) := runEffect env fn st
      (.ofFailure failure, next)
  | requireActiveTransaction operation, active, st =>
    (if active.any (0 < ·) then .value else .thrown (activeTransactionRequired operation), st)
  | andThen first second, active, st =>
    match first.run active st with
    | (.thrown error, next) => (.thrown error, next)
    | (_, next) => second.run active next
  | tryCatch body handler, active, st =>
    match body.run active st with
    | (.thrown _, next) => handler.run active next
    | ended => ended
  | use callback, active, st =>
    match env.scopeFailure "Database.use", active with
    | some error, _ => (.thrown error, st)
    | none, some depth =>
      let (completion, next) := callback.run (some depth) st
      (.ofFailure (completion.failure "Database.use" none), next)
    | none, none => runUse env (callback.run (some 0)) st
  | transaction immediate failure callback, active, st =>
    match env.scopeFailure (transactionOperation immediate), active with
    | some error, _ => (.thrown error, st)
    | none, some depth =>
      runSavepoint (transactionOperation immediate) failure (callback.run (some (depth + 1))) st
    | none, none => runTransaction env (transactionOperation immediate) failure (callback.run (some 1)) st
  | savepoint failure callback, active, st =>
    match active with
    | none => (.thrown (activeTransactionRequired "Database.savepoint"), st)
    | some depth => runSavepoint "Database.savepoint" failure (callback.run (some (depth + 1))) st

end Run

end OpenCorvus.Storage
