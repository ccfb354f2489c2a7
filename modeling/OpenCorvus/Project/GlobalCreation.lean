import OpenCorvus.Foundation.Interleaving
import OpenCorvus.Project.GlobalCreationAllocation

/-!
# Global creation

The calls of all callers of global creation: transactions, calls to the file system, and the lock of a directory.
`find`, `reserve`, `acceptInTransaction` and `reject` are one transaction each; `materializeProject` binds an
allocation to the Project that is created in its directory, or joins the one that another caller has created there.
-/

namespace OpenCorvus.Project

open Interleaving Transaction

structure Host where
  data : String
  cwd : String

/-- `text.split(separator)` -/
def split (separator : Char) (text : String) : List String := (text.toList.splitOn separator).map String.ofList

def normalize (segments : List String) : List String :=
  segments.foldl (fun front segment =>
    if segment = "" ∨ segment = "." then front else if segment = ".." then front.dropLast else front ++ [segment]) []

variable (host : Host)

/-- The segments of `path.resolve(path)`. -/
def Host.segments (path : String) : List String :=
  normalize ((if path.startsWith "/" then [] else split '/' host.cwd) ++ split '/' path)

/-- `path.resolve(path)` -/
def Host.resolve (path : String) : String := "/" ++ "/".intercalate (host.segments path)

/-- `path.dirname(path)` of a resolved path. -/
def Host.dirname (path : String) : String := "/" ++ "/".intercalate (host.segments path).dropLast

def numeral (text : String) : ℕ := text.toList.foldl (fun value c => 10 * value + (c.toNat - '0'.toNat)) 0

def isNumeral (length low high : ℕ) (text : String) : Bool :=
  text.length = length && text.toList.all Char.isDigit && low ≤ numeral text && numeral text ≤ high

def isHex (c : Char) : Bool := c.isDigit || ('a' ≤ c.toLower && c.toLower ≤ 'f')

def isRandomUUID (text : String) : Bool :=
  match split '-' text with
  | [first, second, third, fourth, last] =>
    [first, second, third, fourth, last].all (fun group => group.toList.all isHex) &&
      first.length = 8 && second.length = 4 && third.length = 4 && fourth.length = 4 && last.length = 12 &&
      third.toList.head? = some '4' && fourth.toList.head?.any fun c => c.toLower ∈ ['8', '9', 'a', 'b']
  | _ => false

/-- `isAnonymousDirectory(directory)` -/
def Host.isAnonymousDirectory (directory : String) : Bool :=
  let root := host.segments (host.data ++ "/projects")
  match (host.segments directory).drop root.length with
  | [year, month, day, name] =>
    root.isPrefixOf (host.segments directory) && isNumeral 4 0 9999 year && isNumeral 2 1 12 month &&
      isNumeral 2 1 31 day && isRandomUUID name
  | _ => false

/-- What the registration of a directory found out before its transaction. -/
structure DirectoryIdentity where
  id : String
  worktree : String
  proposedSandbox : Option String

structure CarryingProject where
  directory : String
  project : ProjectRow

def ProjectRow.carrying (row : ProjectRow) : CarryingProject := ⟨row.worktree, row⟩

/-- The allocation that a caller wants to be materialized. -/
structure AllocationInput where
  id : String
  kind : GlobalCreationKind
  requestID : String
  directory : String

def missingAllocation (id : String) : CreationError :=
  .error ("Global creation allocation " ++ id ++ " does not exist")

variable (db : CreationDatabase)

def readBound (allocation : AllocationInput) : Except CreationError (Option CarryingProject) := do
  let current ← getOrThrow (db.allocations.find? fun row => row.id = allocation.id) (missingAllocation allocation.id)
  match current.materializedProjectID.filter (· ≠ "") with
  | none => return none
  | some projectID =>
    let unavailable := CreationError.projectUnavailable ("Global " ++ allocation.kind.text ++ " request " ++
      allocation.requestID ++ " carrying Project is no longer retained") allocation.kind allocation.requestID
      projectID (current.materializedProjectGeneration.getD "") current.directory
    let project ← getOrThrow (db.projects.find? fun row => row.id = projectID) unavailable
    throwWhen (some project.generation ≠ current.materializedProjectGeneration) unavailable
    return some project.carrying

/-- `commitInTransaction`: bind the allocation to a Project, in the transaction that registers the Project. -/
def bindProject (allocations : List GlobalCreationAllocation) (projects : List ProjectRow) (id : String)
    (project : ProjectRow) (now : ℤ) : Except CreationError (List GlobalCreationAllocation) := do
  let current ← getOrThrow (allocations.find? fun row => row.id = id) (missingAllocation id)
  if set current.materializedProjectID then do
    throwWhen (current.materializedProjectID ≠ some project.id ∨
        current.materializedProjectGeneration ≠ some project.generation)
      (.error ("Global creation allocation " ++ id ++ " is bound to another Project occurrence"))
    return allocations
  else
    updateAllocations allocations (fun row => row.id = id)
      (fun row => { row with
        materializedProjectID := some project.id
        materializedProjectGeneration := some project.generation
        timeMaterialized := some now })
      (projectWriteOnce projects)

def ProjectRow.registered (row : ProjectRow) : List String := row.worktree :: row.sandboxes

/-- `assertRegisteredDirectoryAvailable`, for the directories of a Project. -/
def assertRegisteredDirectories (projects : List ProjectRow) (project : ProjectRow) : Except CreationError Unit :=
  throwWhen (∃ other ∈ projects, other.id ≠ project.id ∧ ∃ directory ∈ other.registered,
      ∃ own ∈ project.registered, host.resolve own = host.resolve directory)
    (.error ("Cannot register a directory for Project " ++ project.id))

def registeredProject (current : Option ProjectRow) (identity : DirectoryIdentity) (generation : String) (now : ℤ) :
    ProjectRow :=
  let row := current.getD
    { id := identity.id, generation, worktree := identity.worktree, timeCreated := now, timeUpdated := now }
  { row with
    worktree := identity.worktree
    sandboxes := row.sandboxes ++ identity.proposedSandbox.toList.filter (· ∉ row.sandboxes) }

/-- The transaction of `Project.fromDirectory` that registers a Project and binds the allocation to it. -/
def registerProject (identity : DirectoryIdentity) (allocationID generation : String) (now : ℤ) :
    Except CreationError (CreationDatabase × ProjectRow) := do
  let currentRow := db.projects.find? fun row => row.id = identity.id
  let project := registeredProject currentRow identity generation now
  if currentRow = some project then
    return ({ db with allocations := ← bindProject db.allocations db.projects allocationID project now }, project)
  else do
    assertRegisteredDirectories host db.projects project
    let project := { project with timeUpdated := now }
    let projects :=
      if currentRow.isSome then db.projects.map fun row => if row.id = identity.id then project else row
      else db.projects ++ [project]
    return ({ db with projects, allocations := ← bindProject db.allocations projects allocationID project now }, project)

/-- `DELETE FROM project WHERE id = …`, with its triggers; the value tells the generation. -/
def deleteProject (id : String) : Except CreationError (CreationDatabase × List String) := do
  let deleted := db.projects.filter fun row => row.id = id
  let carries (row : GlobalCreationAllocation) : Bool := row.carried deleted
  throwWhen (∃ row ∈ db.allocations, carries row ∧ row.acceptedTargetID.isNone ∧ row.rejectedError.isNone)
    (.database "project: pending global creation allocation owns this Project")
  let allocations ← updateAllocations db.allocations
    (fun row => carries row && (row.acceptedTargetID.isSome || row.rejectedError.isSome) && row.timeProjectRetained.isNone)
    (fun row =>
      let updated := ((deleted.find? fun project => row.materializedProjectID = some project.id).map
        ProjectRow.timeUpdated).getD 0
      { row with
        timeProjectRetained := some (max updated
          (((row.timeAccepted.or row.timeRejected).or row.timeMaterialized).getD updated)) })
    (retentionWriteOnce db.projects)
  return ({ db with allocations, projects := db.projects.filter fun row => row.id ≠ id },
    deleted.map ProjectRow.generation)

/-- Work that may fail and that leaves nothing in the tables. -/
inductive Effect where
  /-- `ImplicitProjectCreation.begin` -/
  | begin
  /-- `git init` -/
  | gitInit
  /-- What `Project.fromDirectory` and `Project.initGit` do after the registration. -/
  | afterCommit
  /-- `captureProjectOwningInfo` -/
  | capture
  | revalidatePhysical
  | assertOwnedNow
  | settle
  /-- `ImplicitProjectCreation.rollback` -/
  | rollback

inductive Change where
  | insertProject (row : ProjectRow)
  | updateProject (row : ProjectRow)
  | deleteProject (id : String)
  | writeTargets (targets : Targets)
  | makeDirectory (directory : String)
  | removeDirectory (directory : String)

/-- What an admission for a compensation answers: the Project that owns the directory, and whether the directory is
its worktree, or no owner. -/
inductive Decision where
  | owned (project : ProjectRow) (exact : Bool)
  | admitted

/-- The calls of the operations. -/
inductive CreationCommand where
  | find (input : CreationRequest)
  | reserve (input : CreationRequest)
  | accept (input : AcceptInput)
  | reject (allocationID : String) (error : ThrownError)
  | readBound (allocation : AllocationInput)
  | lock (directory : String)
  | unlock (directory : String)
  | mkdirs (directory : String)
  | mkdir (directory : String)
  | isGitRepo (directory : String)
  | effect (name : Effect)
  /-- What `Project.fromDirectory` does before its transaction. -/
  | discover (directory : String)
  | register (identity : DirectoryIdentity) (allocationID : String)
  | acquire (directory : String)
  | remove (directory : String)
  | change (change : Change)

/-- The replies. -/
def CreationCommand.Reply : CreationCommand → Type
  | .find _ => Except CreationError (Option GlobalCreationAllocation)
  | .reserve _ => Except CreationError GlobalCreationAllocation
  | .accept _ => Except CreationError Unit
  | .reject _ _ => Except CreationError RejectOutcome
  | .readBound _ => Except CreationError (Option CarryingProject)
  | .lock _ | .unlock _ | .mkdirs _ | .mkdir _ | .effect _ | .remove _ | .change _ => Except CreationError Unit
  | .isGitRepo _ => Bool
  | .discover _ => Except CreationError DirectoryIdentity
  | .register _ _ => Except CreationError ProjectRow
  | .acquire _ => Except CreationError Decision

/-- What the processes share. -/
structure CreationWorld (θ : Type) where
  db : CreationDatabase
  directories : List String
  locks : String → Option θ
  /-- The ids and generations of the Projects that were deleted. -/
  deletions : List (String × String)

structure CreationChoice where
  /-- The call fails for a reason of its own. -/
  failure : Option String := none
  /-- A random directory or generation. -/
  name : String := ""
  now : ℤ := 0
  holds : Bool := false
  identity : DirectoryIdentity := ⟨"", "", none⟩
  owner : Option String := none

section Perform

variable {θ : Type} [DecidableEq θ] (host : Host) (authority : TargetAuthority) (choice : CreationChoice)

/-- A transaction that may fail for a reason of its own, and that leaves the tables as they are when it fails. -/
def transact {θ β : Type} (s : CreationWorld θ) (result : Except CreationError (CreationDatabase × β)) :
    Except CreationError β × CreationWorld θ :=
  match choice.failure with
  | some reason => (.error (.error reason), s)
  | none =>
    match result with
    | .ok (db, value) => (.ok value, { s with db })
    | .error refused => (.error refused, s)

/-- A call that may fail for a reason of its own. -/
def attempt {θ β : Type} (s : CreationWorld θ) (value : β) (s' : CreationWorld θ) :
    Except CreationError β × CreationWorld θ :=
  match choice.failure with
  | some reason => (.error (.error reason), s)
  | none => (.ok value, s')

/-- `mkdir`: an entry must not be there yet. -/
def makeDirectory {θ : Type} (s : CreationWorld θ) (directory : String) :
    Except CreationError Unit × CreationWorld θ :=
  if directory ∈ s.directories then (.error (.error ("EEXIST: " ++ directory)), s)
  else attempt choice s () { s with directories := s.directories ++ [directory] }

/-- The decision of an admission, in its transaction: an owner that was found is read again. -/
def decision {θ : Type} (s : CreationWorld θ) : Decision :=
  match choice.owner.bind fun id => s.db.projects.find? fun row => row.id = id with
  | some owner => .owned owner choice.holds
  | none => .admitted

def applyChange (s : CreationWorld θ) : Change → Except CreationError Unit × CreationWorld θ
  | .insertProject row =>
    if ∃ present ∈ s.db.projects, present.id = row.id then
      (.error (.database "UNIQUE constraint failed: project.id"), s)
    else attempt choice s () { s with db := { s.db with projects := s.db.projects ++ [row] } }
  | .updateProject row =>
    if ∃ present ∈ s.db.projects, present.id = row.id ∧ present.generation ≠ row.generation then
      (.error (.database "project: generation is immutable"), s)
    else
      attempt choice s ()
        { s with db := { s.db with projects := s.db.projects.map fun present => if present.id = row.id then row else present } }
  | .deleteProject id =>
    match deleteProject s.db id with
    | .ok (db, generations) =>
      attempt choice s () { s with db, deletions := s.deletions ++ generations.map fun generation => (id, generation) }
    | .error refused => (.error refused, s)
  | .writeTargets targets => attempt choice s () { s with db := { s.db with targets } }
  | .makeDirectory directory => attempt choice s () { s with directories := s.directories ++ [directory] }
  | .removeDirectory directory => attempt choice s () { s with directories := s.directories.filter (· ≠ directory) }

/-- One call of a thread. -/
def performCreation (t : θ) (c : CreationCommand) (choice : CreationChoice) (s : CreationWorld θ) :
    Option (c.Reply × CreationWorld θ) :=
  match c with
  | .find input => some (transact choice s ((find s.db.allocations input).map fun row => (s.db, row)))
  | .reserve input =>
    some (transact choice s ((reserve s.db.allocations input choice.name choice.now).map fun (allocations, row) =>
      ({ s.db with allocations }, row)))
  | .accept input => some (transact choice s ((acceptInTransaction authority s.db input).map fun db => (db, ())))
  | .reject allocationID error =>
    some (transact choice s ((reject s.db.allocations allocationID error choice.now).map fun (allocations, outcome) =>
      ({ s.db with allocations }, outcome)))
  | .readBound allocation => some (transact choice s ((readBound s.db allocation).map fun bound => (s.db, bound)))
  | .lock directory =>
    match s.locks directory with
    | none => some (attempt choice s () { s with locks := Function.update s.locks directory (some t) })
    | some _ => none
  | .unlock directory =>
    let released := if s.locks directory = some t then { s with locks := Function.update s.locks directory none } else s
    some (attempt choice released () released)
  | .mkdirs directory =>
    some (attempt choice s () { s with directories := s.directories ++ [directory].filter (· ∉ s.directories) })
  | .mkdir directory =>
    some (makeDirectory choice s directory)
  | .isGitRepo _ => some (choice.holds, s)
  | .effect _ => some (attempt choice s () s)
  | .discover _ => some (attempt choice s choice.identity s)
  | .register identity allocationID =>
    some (transact choice s (registerProject host s.db identity allocationID choice.name choice.now))
  | .acquire _ =>
    some (attempt choice s (decision choice s) s)
  | .remove directory => some (attempt choice s () { s with directories := s.directories.filter (· ≠ directory) })
  | .change made => some (applyChange choice s made)

/-- A crash of the thread: the locks that it held become stale and can be taken. -/
def creationCrashed (t : θ) (s : CreationWorld θ) : CreationWorld θ :=
  { s with locks := fun directory => if s.locks directory = some t then none else s.locks directory }

end Perform

abbrev Creation (α : Type) := Prog CreationCommand CreationCommand.Reply CreationError α

namespace Creation

open Prog (raise rescue)

variable (host : Host)

def expect {α : Type} : Except CreationError α → Creation α
  | .ok value => .done (.ok value)
  | .error error => raise error

def effect (name : Effect) : Creation Unit := .call (.effect name) expect

/-- `mkdir` with `recursive`. -/
def mkdirs (directory : String) : Creation Unit := .call (.mkdirs directory) expect

def mkdir (directory : String) : Creation Unit := .call (.mkdir directory) expect

def readBound (allocation : AllocationInput) : Creation (Option CarryingProject) :=
  .call (.readBound allocation) expect

variable (directory allocationID : String)

/-- `Project.fromDirectory`. -/
def fromDirectory : Creation ProjectRow :=
  .call (.discover directory) fun found => do
    let identity ← expect found
    .call (.register identity allocationID) fun registered => do
      let project ← expect registered
      effect .afterCommit
      return project

def gitInit (isGitRepo : Bool) : Creation Unit := if isGitRepo then .done (.ok ()) else effect .gitInit

/-- `Project.initGit`. -/
def initGit : Creation ProjectRow :=
  .call (.isGitRepo directory) fun (holds : Bool) => do
    gitInit holds
    let project ← fromDirectory directory allocationID
    effect .afterCommit
    return project

def compensateCreation (directory : String) (cause : CreationError) : Creation (Option ProjectRow) := do
  effect .capture
  .call (.acquire directory) fun decided => do
    match ← expect decided with
    | .owned project exact =>
      rescue (effect .revalidatePhysical) fun _ => raise cause
      if exact = false then raise cause else return some project
    | .admitted =>
      rescue (effect .revalidatePhysical) fun refused => do
        effect .settle
        raise refused
      effect .assertOwnedNow
      .call (.remove directory) fun removed => do
        expect removed
        effect .assertOwnedNow
        effect .settle
        effect .rollback
        return none

/-- `ImplicitProject.create`. -/
def create : Creation CarryingProject := do
  if host.isAnonymousDirectory directory = false then
    raise (.error ("Implicit Project directory is outside the managed anonymous namespace: " ++ directory))
  else
    effect .begin
    rescue (do
        mkdirs (host.dirname directory)
        mkdir directory
        return (← initGit directory allocationID).carrying)
      fun cause => do
        let owner ← rescue (compensateCreation directory cause) fun _ => raise cause
        match owner with
        | some project => return project.carrying
        | none => raise cause

def withProcessLock {α : Type} (directory : String) (run : Creation α) : Creation α :=
  .call (.lock directory) fun locked => do
    expect locked
    run.handle fun result => .call (.unlock directory) fun released =>
      match result with
      | .ok value => do
        expect released
        return value
      | .error error => raise error

def materializeProject (allocation : AllocationInput) : Creation CarryingProject := do
  let directory := host.resolve allocation.directory
  match ← readBound allocation with
  | some existing => return existing
  | none =>
    mkdirs (host.dirname directory)
    let created ← withProcessLock directory (create host directory allocation.id)
    let bound ← readBound allocation
    if bound.any fun bound => bound.project.id = created.project.id then return created
    else
      raise (.error ("Global creation allocation " ++ allocation.id ++
        " did not bind its carrying Project atomically"))

end Creation

/-- What a caller may do, and what other code does. -/
inductive CreationOperation where
  | find (input : CreationRequest)
  | reserve (input : CreationRequest)
  | accept (input : AcceptInput)
  | reject (allocationID : String) (error : ThrownError)
  | materialize (allocation : AllocationInput)
  | change (change : Change)

inductive CreationAnswer where
  | found (row : Option GlobalCreationAllocation)
  | reserved (row : GlobalCreationAllocation)
  | accepted
  | rejection (outcome : RejectOutcome)
  | materialized (created : CarryingProject)
  | changed

def CreationOperation.code (host : Host) : CreationOperation → Creation CreationAnswer
  | .find input => .call (.find input) fun reply => return .found (← Creation.expect reply)
  | .reserve input => .call (.reserve input) fun reply => return .reserved (← Creation.expect reply)
  | .accept input => .call (.accept input) fun reply => do
    Creation.expect reply
    return .accepted
  | .reject allocationID error =>
    .call (.reject allocationID error) fun reply => return .rejection (← Creation.expect reply)
  | .materialize allocation => return .materialized (← Creation.materializeProject host allocation)
  | .change made => .call (.change made) fun reply => do
    Creation.expect reply
    return .changed

abbrev CreationCallers (θ : Type) :=
  Machine (CreationWorld θ) θ CreationCommand CreationCommand.Reply CreationError CreationAnswer CreationOperation

def creationStep {θ : Type} [DecidableEq θ] (host : Host) (authority : TargetAuthority) (m : CreationCallers θ)
    (event : Event θ CreationChoice CreationOperation) : Option (CreationCallers θ) :=
  m.next (performCreation host authority) (CreationOperation.code host) creationCrashed event

/-- The tables before the first request. -/
def CreationWorld.empty (θ : Type) : CreationWorld θ := ⟨⟨[], [], ⟨[], [], [], []⟩⟩, [], fun _ => none, []⟩

end OpenCorvus.Project
