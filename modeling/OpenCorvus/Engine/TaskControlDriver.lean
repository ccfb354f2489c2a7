import Mathlib.Algebra.Order.Group.Int
import OpenCorvus.Foundation.ExecutableSystem

/-!
# The Task control driver

The driver runs the scans of Tasks: at most one owner per Task, a bounded number of scans at a time, a bounded
queue behind them, and one timer per Task for the next instant at which a scan may find something to do.

An action of the model is one stretch of its code between two `await`s: a request up to the start of its scan, the
end of a scan up to the next one, the release of a slot, the resumption of a queued owner, a timer, and the re-entry
of the Project that follows a timer.  A hint of the heartbeat is a request.  The clock stands still within an action.

Callbacks keep references to entries, so there is a heap of entries, and the map of the driver refers into it.
-/

namespace OpenCorvus.Engine

/-- The options after their defaults; the constructor refuses any other. -/
structure TaskControlDriverOptions where
  maxPasses : ℕ
  minimumWakeDelay : ℤ
  maximumWakeDelay : ℤ
  initialBackoff : ℤ
  maximumBackoff : ℤ
  maximumConcurrentScans : ℕ
  maximumPendingScans : ℕ
  retireSettledEntries : Bool
  /-- The driver has an `inputRevision`. -/
  readsInputRevision : Bool
  maxPasses_pos : 0 < maxPasses
  minimumWakeDelay_pos : 0 < minimumWakeDelay
  maximumWakeDelay_ge : minimumWakeDelay ≤ maximumWakeDelay
  initialBackoff_pos : 0 < initialBackoff
  maximumBackoff_ge : initialBackoff ≤ maximumBackoff
  maximumConcurrentScans_pos : 0 < maximumConcurrentScans
  maximumPendingScans_pos : 0 < maximumPendingScans

/-- An armed timer, with the numbers that it was armed with. -/
structure WakeTimer where
  taskID : String
  timerAt : ℤ
  delay : ℤ
  /-- `entry.retryNotBefore ?? 0` -/
  notBefore : ℤ

/-- What the driver keeps for a Task. -/
structure Entry where
  revision : ℕ
  running : Bool
  timer : Option WakeTimer
  failures : ℕ
  lastFaultAt : Option ℤ
  retryNotBefore : Option ℤ
  inputRevision : Option String

/-- The entry of a Task that was never requested. -/
def Entry.created : Entry where
  revision := 0
  running := false
  timer := none
  failures := 0
  lastFaultAt := none
  retryNotBefore := none
  inputRevision := none

inductive InputRead where
  | unreadable
  | revision (text : String)

inductive ScanOutcome where
  | returned (activated : ℕ) (wakeAt : Option ℤ) (noProgress : Bool)
  | threw

/-- The variables of `own`. -/
structure OwnedScan where
  activated : ℕ
  wakeInstants : List ℤ
  failed : Bool

/-- Where a pass leaves `own`: in the next scan, or behind its loop. -/
inductive PassEnd where
  | scanning (pass observed : ℕ) (own : OwnedScan)
  | stopped (own : OwnedScan)

section Entries

variable (options : TaskControlDriverOptions) (now : ℤ) (entry : Entry)

def readInputRevision (read : InputRead) : Entry × Option (Option String) :=
  if options.readsInputRevision then
    match read with
    | .unreadable => ({ entry with inputRevision := none }, none)
    | .revision text => (entry, some (some text))
  else (entry, some none)

def inputChangedAfterScan (read : InputRead) : Entry × Bool :=
  if options.readsInputRevision = false ∨ entry.inputRevision = none then (entry, false)
  else
    match readInputRevision options entry read with
    | (entry, none) => (entry, false)
    | (entry, some revision) => (entry, revision ≠ entry.inputRevision)

/-- Count a fault, and pace the Task until the backoff is over or a later reported instant comes. -/
def penalize (semanticWakeInstants : List ℤ) : Entry × ℤ :=
  let failures := entry.failures + 1
  let exponent := min (failures - 1) 30
  let backoffWakeAt := now + min (options.initialBackoff * 2 ^ exponent) options.maximumBackoff
  let retryNotBefore := semanticWakeInstants.foldl
    (fun deadline instant => if instant > now then min deadline instant else deadline) backoffWakeAt
  ({ entry with
      failures := failures
      lastFaultAt := some now
      retryNotBefore := some retryNotBefore },
    retryNotBefore)

/-- Forgive the faults after a window without one. -/
def decayFailures : Entry :=
  if entry.failures = 0 then entry
  else if entry.lastFaultAt.any fun lastFaultAt => now - lastFaultAt < options.maximumBackoff then entry
  else { entry with failures := 0, lastFaultAt := none }

/-- Replace the timer by one for an instant, or by none. -/
def arm (disposed : Bool) (taskID : String) (wakeAt : Option ℤ) : Entry :=
  match disposed, wakeAt with
  | false, some wakeAt =>
    let notBefore := entry.retryNotBefore.getD 0
    let delay := max (min (max (wakeAt - now) options.minimumWakeDelay) options.maximumWakeDelay)
      (notBefore - now)
    { entry with
      timer := some { taskID := taskID, timerAt := now + delay, delay := delay, notBefore := notBefore } }
  | _, _ => { entry with timer := none }

/-- Leave the loop of `own` with the instant until which the Task is paced. -/
def pace (own : OwnedScan) : Entry × PassEnd :=
  ((penalize options now entry own.wakeInstants).1,
    .stopped { own with
      wakeInstants := own.wakeInstants ++ [(penalize options now entry own.wakeInstants).2] })

def beginPass (propagateFailure : Bool) (pass : ℕ) (own : OwnedScan) (read : InputRead) : Entry × PassEnd :=
  match readInputRevision options (decayFailures options now entry) read with
  | (current, some revision) =>
    ({ current with inputRevision := revision }, .scanning pass entry.revision own)
  | (current, none) =>
    pace options now current { own with failed := own.failed || (pass == 0 && propagateFailure) }

def settlePass (propagateFailure : Bool) (pass observed : ℕ) (own : OwnedScan) (outcome : ScanOutcome)
    (read nextRead : InputRead) : Entry × PassEnd :=
  match outcome with
  | .threw =>
    let own := { own with failed := own.failed || (pass == 0 && propagateFailure) }
    let (current, retryAt) := penalize options now entry own.wakeInstants
    let (current, changed) :=
      if pass + 1 < options.maxPasses then inputChangedAfterScan options current read
      else (current, false)
    if changed then
      beginPass options now { current with retryNotBefore := none } propagateFailure (pass + 1) own nextRead
    else (current, .stopped { own with wakeInstants := own.wakeInstants ++ [retryAt] })
  | .returned activated wakeAt noProgress =>
    let own := { own with
      activated := own.activated + activated
      wakeInstants := own.wakeInstants ++ wakeAt.toList }
    if noProgress then
      let (current, changed) :=
        if pass + 1 < options.maxPasses then inputChangedAfterScan options entry read
        else (entry, false)
      if changed then beginPass options now current propagateFailure (pass + 1) own nextRead
      else pace options now current own
    else if entry.revision = observed then (entry, .stopped own)
    else if pass + 1 = options.maxPasses then pace options now entry own
    else beginPass options now entry propagateFailure (pass + 1) own nextRead

/-- What a request finds, before it asks for a slot. -/
inductive RequestPacing where
  | unreadable
  | paced
  | clear

def paceRequest (taskID : String) : Entry × RequestPacing :=
  if entry.retryNotBefore.any fun retryNotBefore => now < retryNotBefore then
    (arm options now entry false taskID entry.retryNotBefore, .paced)
  else ({ entry with retryNotBefore := none }, .clear)

def admitRequest (taskID : String) (read : InputRead) : Entry × RequestPacing :=
  if options.readsInputRevision = true ∧ entry.inputRevision = none ∧
      (entry.retryNotBefore.any fun retryNotBefore => now < retryNotBefore) = true then
    paceRequest options now entry taskID
  else
    match readInputRevision options entry read with
    | (current, some revision) =>
      paceRequest options now
        (if revision ≠ current.inputRevision then { current with retryNotBefore := none } else current)
        taskID
    | (current, none) =>
      let (penalized, retryAt) := penalize options now current []
      (arm options now penalized false taskID (some retryAt), .unreadable)

end Entries

inductive OwnerPhase where
  /-- It waits for a slot. -/
  | queued
  /-- It was given a slot, and its scan has not begun. -/
  | granted
  /-- It was refused by the disposal, and has not resumed. -/
  | refused
  | scanning (pass observed : ℕ) (own : OwnedScan)
  /-- `own` has returned, and the slot is not released. -/
  | settled (own : OwnedScan)
  | ended

/-- An admitted request that drives the scan of its Task. -/
structure Owner where
  taskID : String
  /-- The reference of the entry. -/
  entry : ℕ
  propagateFailure : Bool
  phase : OwnerPhase

/-- The callback of a timer re-enters the Project of the driver to make its request. -/
structure Reentry where
  taskID : String
  entry : ℕ
  /-- The request was made. -/
  requested : Bool

/-- What happens to a Task, as far as its obligations are concerned. -/
inductive DriverEvent where
  /-- A request is answered `admitted` or `coalesced`; an owner is left with it, or a timer. -/
  | accepted (taskID : String) (owned : Bool)
  /-- The scan of a pass begins. -/
  | scanBegan (taskID : String)
  /-- The owner stops with the instants that its passes reported, and the timer is armed or not. -/
  | stopped (taskID : String) (wakeInstants : List ℤ) (armed : Bool)
  /-- A request is refused for capacity while no timer is armed. -/
  | unadmitted (taskID : String)
  /-- A re-entry ends without the request of its timer. -/
  | dropped (taskID : String)
deriving DecidableEq

structure TaskControlDriver where
  heap : List Entry
  entries : List (String × ℕ)
  owners : List Owner
  /-- The owners that wait for a slot, first in line first. -/
  scanWaiters : List ℕ
  activeScans : ℕ
  reentries : List Reentry
  disposed : Bool
  clock : ℤ
  events : List DriverEvent

def TaskControlDriver.initial (clock : ℤ) : TaskControlDriver where
  heap := []
  entries := []
  owners := []
  scanWaiters := []
  activeScans := 0
  reentries := []
  disposed := false
  clock := clock
  events := []

inductive RequestStatus where
  | admitted
  | coalesced
  | rejected

namespace TaskControlDriver

variable (options : TaskControlDriverOptions) (s : TaskControlDriver)

def store (entry : ℕ) (current : Entry) : TaskControlDriver :=
  { s with heap := s.heap.set entry current }

def record (event : DriverEvent) : TaskControlDriver :=
  { s with events := event :: s.events }

def move (i : ℕ) (owner : Owner) (phase : OwnerPhase) : TaskControlDriver :=
  { s with owners := s.owners.set i { owner with phase := phase } }

variable (taskID : String)

def retire (current : Entry) : TaskControlDriver :=
  if options.retireSettledEntries = true ∧ current.timer = none then
    { s with entries := s.entries.filter fun row => row.1 ≠ taskID }
  else s

def entryOf : ℕ × TaskControlDriver :=
  match s.entries.lookup taskID with
  | some entry => (entry, s)
  | none => (s.heap.length,
      { s with heap := s.heap ++ [.created], entries := s.entries ++ [(taskID, s.heap.length)] })

/-- Leave a pass of `own`: the next scan begins, or the owner stops and arms the timer. -/
def leavePass (i : ℕ) (owner : Owner) : Entry × PassEnd → TaskControlDriver
  | (current, .scanning pass observed own) =>
    ((s.store owner.entry current).move i owner (.scanning pass observed own)).record (.scanBegan owner.taskID)
  | (current, .stopped own) =>
    let stopped := arm options s.clock { current with running := false } s.disposed owner.taskID
      own.wakeInstants.min?
    (((s.store owner.entry stopped).retire options owner.taskID stopped).move i owner
      (.settled own)).record (.stopped owner.taskID own.wakeInstants stopped.timer.isSome)

/-- Begin `own` for an owner that holds a slot. -/
def beginOwn (i : ℕ) (owner : Owner) (current : Entry) (read : InputRead) : TaskControlDriver :=
  s.leavePass options i owner (beginPass options s.clock current owner.propagateFailure 0 ⟨0, [], false⟩ read)

variable (propagateFailure : Bool)

/-- Become the owner of a Task: take a free slot and begin, wait for one, or be rejected. -/
def startOwner (entry : ℕ) (current : Entry) (read : InputRead) : TaskControlDriver × RequestStatus :=
  if s.activeScans < options.maximumConcurrentScans then
    let owner : Owner := ⟨taskID, entry, propagateFailure, .granted⟩
    let started := { s.store entry { current with running := true } with
      activeScans := s.activeScans + 1
      owners := s.owners ++ [owner]
      events := .accepted taskID true :: s.events }
    (started.beginOwn options s.owners.length owner { current with running := true } read, .admitted)
  else if s.scanWaiters.length ≥ options.maximumPendingScans then
    let rejected := (s.store entry { current with running := false }).retire options taskID current
    (if current.timer = none then rejected.record (.unadmitted taskID) else rejected, .rejected)
  else
    ({ s.store entry { current with running := true } with
        scanWaiters := s.scanWaiters ++ [s.owners.length]
        owners := s.owners ++ [⟨taskID, entry, propagateFailure, .queued⟩]
        events := .accepted taskID true :: s.events },
      .admitted)

def requestEntry (entry : ℕ) (found : Entry) (read firstRead : InputRead) : TaskControlDriver × RequestStatus :=
  let current := { found with revision := found.revision + 1 }
  if current.running then
    ((s.store entry current).record (.accepted taskID true), .coalesced)
  else
    match admitRequest options s.clock current taskID read with
    | (current, .unreadable) => ((s.store entry current).record (.accepted taskID false), .admitted)
    | (current, .paced) => ((s.store entry current).record (.accepted taskID false), .coalesced)
    | (current, .clear) => s.startOwner options taskID propagateFailure entry current firstRead

def startRequest (read firstRead : InputRead) : TaskControlDriver × RequestStatus :=
  if s.disposed then (s, .rejected)
  else
    let (entry, located) := s.entryOf taskID
    match located.heap[entry]? with
    | some found => located.requestEntry options taskID propagateFailure entry found read firstRead
    | none => (located, .rejected)

def refuseAll (waiters : List ℕ) : TaskControlDriver :=
  { s with owners := s.owners.mapIdx fun i owner =>
      if i ∈ waiters then { owner with phase := .refused } else owner }

/-- Release a slot: it goes to the first owner in line; after the disposal all are refused. -/
def releaseScanSlot : TaskControlDriver :=
  if s.disposed then
    { s.refuseAll s.scanWaiters with activeScans := s.activeScans - 1, scanWaiters := [] }
  else
    match s.scanWaiters with
    | [] => { s with activeScans := s.activeScans - 1 }
    | first :: rest =>
      { s with
        scanWaiters := rest
        owners := s.owners.modify first fun owner => { owner with phase := .granted } }

def dispose : TaskControlDriver :=
  { s.refuseAll s.scanWaiters with
    disposed := true
    scanWaiters := []
    heap := s.heap.mapIdx fun entry current =>
      if s.entries.any fun row => row.2 = entry then { current with timer := none } else current
    entries := [] }

end TaskControlDriver

inductive DriverAction where
  /-- A request, or a hint of the heartbeat. -/
  | request (taskID : String) (propagateFailure : Bool) (read firstRead : InputRead)
  /-- The scan of an owner settles. -/
  | settle (owner : ℕ) (outcome : ScanOutcome) (read nextRead : InputRead)
  /-- An owner that stopped releases its slot. -/
  | release (owner : ℕ)
  /-- An owner resumes after its wait for a slot. -/
  | resume (owner : ℕ) (firstRead : InputRead)
  /-- The timer of an entry fires. -/
  | fire (entry : ℕ)
  /-- A re-entry makes the request of its timer. -/
  | reenter (reentry : ℕ) (read firstRead : InputRead)
  /-- A re-entry ends, before or after the request. -/
  | endReentry (reentry : ℕ)
  /-- A re-entry faults, before or after the request. -/
  | failReentry (reentry : ℕ)
  | dispose
  /-- The clock reads another instant. -/
  | tick (now : ℤ)

section System

variable (options : TaskControlDriverOptions) (s : TaskControlDriver)

def settleScan (i : ℕ) (owner : Owner) (current : Entry) (outcome : ScanOutcome)
    (read nextRead : InputRead) : Option TaskControlDriver :=
  match owner.phase with
  | .scanning pass observed own =>
    some (s.leavePass options i owner
      (settlePass options s.clock current owner.propagateFailure pass observed own outcome read nextRead))
  | _ => none

/-- The resumption of an owner after its wait for a slot. -/
def resumeOwner (i : ℕ) (owner : Owner) (current : Entry) (firstRead : InputRead) : Option TaskControlDriver :=
  match owner.phase with
  | .granted => some (s.beginOwn options i owner current firstRead)
  | .refused =>
    let stopped := { current with running := false }
    some (((s.store owner.entry stopped).retire options owner.taskID stopped).move i owner .ended)
  | _ => none

/-- A timer fires: it is consumed, and its callback re-enters the Project. -/
def fireTimer (entry : ℕ) (current : Entry) : Option TaskControlDriver :=
  current.timer.map fun timer =>
    { s.store entry { current with timer := none } with
      reentries := s.reentries ++ [⟨timer.taskID, entry, false⟩] }

/-- A re-entry that ends without its request leaves nothing behind. -/
def endReentry (k : ℕ) (reentry : Reentry) : TaskControlDriver :=
  let ended := { s with reentries := s.reentries.eraseIdx k }
  if reentry.requested then ended else ended.record (.dropped reentry.taskID)

/-- A re-entry that faults re-arms the timer under backoff, while its entry is in the map. -/
def failReentry (k : ℕ) (reentry : Reentry) : TaskControlDriver :=
  match s.disposed, s.entries.lookup reentry.taskID == some reentry.entry, s.heap[reentry.entry]? with
  | false, true, some current =>
    let (penalized, retryAt) := penalize options s.clock current []
    { s.store reentry.entry
        (arm options s.clock penalized s.disposed reentry.taskID (some retryAt)) with
      reentries := s.reentries.eraseIdx k }
  | _, _, _ => endReentry s k reentry

def driverStep : DriverAction → Option TaskControlDriver
  | .request taskID propagateFailure read firstRead =>
    some (s.startRequest options taskID propagateFailure read firstRead).1
  | .settle i outcome read nextRead => do
    let owner ← s.owners[i]?
    let current ← s.heap[owner.entry]?
    settleScan options s i owner current outcome read nextRead
  | .release i => do
    let owner ← s.owners[i]?
    match owner.phase with
    | .settled _ => some ((s.move i owner .ended).releaseScanSlot)
    | _ => none
  | .resume i firstRead => do
    let owner ← s.owners[i]?
    let current ← s.heap[owner.entry]?
    resumeOwner options s i owner current firstRead
  | .fire entry => do
    let current ← s.heap[entry]?
    fireTimer s entry current
  | .reenter k read firstRead => do
    let reentry ← s.reentries[k]?
    if reentry.requested then none
    else
      let requested := (s.startRequest options reentry.taskID false read firstRead).1
      some { requested with
        reentries := requested.reentries.set k { reentry with requested := true } }
  | .endReentry k => (s.reentries[k]?).map (endReentry s k)
  | .failReentry k => (s.reentries[k]?).map (failReentry options s k)
  | .dispose => some s.dispose
  | .tick now => some { s with clock := now }

end System

end OpenCorvus.Engine
