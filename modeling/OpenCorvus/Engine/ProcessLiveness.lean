import OpenCorvus.Engine.ControlLeaseFrames
import OpenCorvus.Foundation.ExecutableSystem
import OpenCorvus.Foundation.ListUpdate

/-!
# The liveness of runtime processes

Every runtime process has one control lease under its own occurrence, which all of its drivers join.
Peers ask the lease table whether the process of an occurrence still lives.
-/

namespace OpenCorvus.Engine

/-- How long a lease is granted. -/
def PROCESS_LIVENESS_LEASE_MS : ℤ := 90000

def PROCESS_LIVENESS_RENEWAL_MS : ℤ := 30000

structure ProcessLivenessOwner where
  occurrenceID : String
  /-- The exact lease; an owner is made with a fresh one. -/
  leaseID : String
  references : ℕ
  expiresAt : ℤ
  /-- The message of the first loss of the fence. -/
  fenceError : Option String
deriving DecidableEq

structure ProcessLivenessReference where
  occurrenceID : String
  /-- The lease of the owner that was joined. -/
  leaseID : String
  released : Bool
deriving DecidableEq

structure ProcessLivenessMemory where
  currentOwner : Option ProcessLivenessOwner
  /-- The message of the loss, by occurrence. -/
  lostFences : List (String × String)
  references : List ProcessLivenessReference
deriving DecidableEq

def ProcessLivenessMemory.empty : ProcessLivenessMemory := ⟨none, [], []⟩

/-- What an operation raises. -/
inductive ProcessLivenessError where
  | ownerUnavailable (message : String)
  | lease (error : ControlLeaseError)

def fenceLost (message : String) : ProcessLivenessError := .lease (.fenceLost message)

def ProcessLivenessOwner.claim (owner : ProcessLivenessOwner) (now : ℤ) : ControlLeaseClaim where
  target := .runtimeProcess
  targetID := owner.occurrenceID
  leaseID := owner.leaseID
  ownerOccurrenceID := owner.occurrenceID
  now := now

section Operations

variable (memory : ProcessLivenessMemory) (db : ControlLeaseTables) (owner : ProcessLivenessOwner)

def recordFenceLoss (message : String) : ProcessLivenessMemory :=
  let fenceError := owner.fenceError.getD message
  { memory with
    currentOwner := some { owner with fenceError := some fenceError }
    lostFences := (owner.occurrenceID, fenceError) ::
      memory.lostFences.filter fun row => row.1 ≠ owner.occurrenceID }

def assertOwnerInTransaction (leaseID ownerOccurrenceID expectedOccurrenceID : String) (now : ℤ) :
    Except ProcessLivenessError Unit × ProcessLivenessMemory :=
  match memory.currentOwner.filter fun owner => owner.leaseID = leaseID ∧ 0 < owner.references with
  | none =>
    (.error (fenceLost ("Runtime process liveness owner " ++ ownerOccurrenceID ++ " is no longer active")), memory)
  | some owner =>
    if owner.occurrenceID ≠ expectedOccurrenceID then
      (.error (fenceLost ("Runtime process liveness owner " ++ owner.occurrenceID ++
        " cannot authorize occurrence " ++ expectedOccurrenceID)), memory)
    else
      match owner.fenceError with
      | some message => (.error (fenceLost message), memory)
      | none =>
        match assertControlLeaseInTransaction db (owner.claim now) with
        | .ok _ => (.ok (), memory)
        | .error (.fenceLost message) =>
          (.error (fenceLost message), recordFenceLoss memory owner message)
        | .error error => (.error (.lease error), memory)

variable (occurrenceID : String) (now : ℤ)

def assertProcessLivenessOwnerInTransaction : Except ProcessLivenessError Unit × ProcessLivenessMemory :=
  match memory.currentOwner.filter fun owner => 0 < owner.references with
  | none =>
    (.error (.ownerUnavailable ("Runtime process occurrence " ++ occurrenceID ++
      " has no active liveness owner")), memory)
  | some owner =>
    assertOwnerInTransaction memory db owner.leaseID owner.occurrenceID occurrenceID now

/-- A renewal that the database may refuse. -/
def renewLeaseUnlessFault (fault : Option String) : Except ControlLeaseError ControlLeaseTables :=
  match fault with
  | none => renewControlLeaseInTransaction db (owner.claim now) (now + PROCESS_LIVENESS_LEASE_MS)
  | some message => .error (.database message)

def renewOwner (leaseID : String) (now : ℤ) (fault : Option String) : ProcessLivenessMemory × ControlLeaseTables :=
  match memory.currentOwner.filter fun owner =>
      owner.leaseID = leaseID ∧ 0 < owner.references ∧ owner.fenceError = none with
  | none => (memory, db)
  | some owner =>
    match renewLeaseUnlessFault db owner now fault with
    | .ok db' =>
      ({ memory with
        currentOwner := some { owner with expiresAt := now + PROCESS_LIVENESS_LEASE_MS } }, db')
    | .error (.fenceLost message) => (recordFenceLoss memory owner message, db)
    | .error _ =>
      if owner.expiresAt ≤ now + PROCESS_LIVENESS_RENEWAL_MS then
        (recordFenceLoss memory owner ("Runtime process liveness renewal expired for " ++ owner.occurrenceID), db)
      else (memory, db)

def processLivenessAcquisition (occurrenceID leaseID : String) (now : ℤ) :
    AcquireControlLeaseInput where
  target := .runtimeProcess
  targetID := occurrenceID
  ownerOccurrenceID := occurrenceID
  now := now
  leaseMilliseconds := PROCESS_LIVENESS_LEASE_MS
  leaseID := some leaseID
  supersedeLeaseID := none
  generatedID := leaseID

def ProcessLivenessMemory.refer : ProcessLivenessMemory :=
  { memory with
    currentOwner := some owner
    references := memory.references ++ [⟨owner.occurrenceID, owner.leaseID, false⟩] }

/-- Join the one owner of the process.  The caller names the instant of an acquisition; `clock` is the
present one, and `leaseID` the new identity of a lease. -/
def joinProcessLivenessLease (now clock : ℤ) (leaseID : String) :
    Except ProcessLivenessError ProcessLivenessReference × ProcessLivenessMemory ×
      ControlLeaseTables :=
  match memory.lostFences.lookup occurrenceID with
  | some message => (.error (fenceLost message), memory, db)
  | none =>
    match memory.currentOwner with
    | some owner =>
      match assertOwnerInTransaction memory db owner.leaseID owner.occurrenceID occurrenceID clock with
      | (.error error, asserted) => (.error error, asserted, db)
      | (.ok _, asserted) =>
        (.ok ⟨owner.occurrenceID, owner.leaseID, false⟩,
          asserted.refer { owner with references := owner.references + 1 }, db)
    | none =>
      match acquireControlLeaseInTransaction db
          (processLivenessAcquisition occurrenceID leaseID now) with
      | .error error => (.error (.lease error), memory, db)
      | .ok (acquired, db') =>
        if acquired.acquired then
          (.ok ⟨occurrenceID, acquired.lease.id, false⟩, memory.refer
              { occurrenceID := occurrenceID, leaseID := acquired.lease.id, references := 1
                expiresAt := acquired.lease.expiresAt, fenceError := none }, db')
        else
          (.error (fenceLost ("Runtime process occurrence " ++ occurrenceID ++
            " already has live lease " ++ acquired.lease.id)), memory, db')

/-- Hand the lease back; a release that raises leaves it to expire. -/
def releaseControlLeaseOnErrorPath (claim : ControlLeaseClaim) (fault : Option String) :
    Bool × ControlLeaseTables :=
  match fault with
  | none => releaseControlLeaseInTransaction db claim
  | some _ => (false, db)

def releaseLastReference (fault : Option String) : ProcessLivenessMemory × ControlLeaseTables :=
  let (released, db') := releaseControlLeaseOnErrorPath db (owner.claim now) fault
  if released ∨ owner.fenceError.isSome then ({ memory with currentOwner := none }, db')
  else
    ({ recordFenceLoss memory owner
        ("Runtime process liveness handback lost fence " ++ owner.leaseID) with
      currentOwner := none }, db')

def ProcessLivenessMemory.mark (index : ℕ) : ProcessLivenessMemory :=
  { memory with
    references := memory.references.modify index fun reference => { reference with released := true } }

def ProcessLivenessOwner.leave : ProcessLivenessOwner :=
  { owner with references := owner.references - 1 }

def releaseReference (index : ℕ) (now : ℤ) (fault : Option String) : ProcessLivenessMemory × ControlLeaseTables :=
  match memory.references[index]? with
  | none => (memory, db)
  | some reference =>
    if reference.released then (memory, db)
    else
      match memory.currentOwner.filter fun owner =>
          owner.leaseID = reference.leaseID ∧ 0 < owner.references with
      | none => (memory.mark index, db)
      | some owner =>
        if 0 < owner.leave.references then
          ({ memory.mark index with currentOwner := some owner.leave }, db)
        else releaseLastReference (memory.mark index) db owner.leave now fault

def isProcessOccurrenceLive : Bool :=
  (currentControlLeaseInTransaction db .runtimeProcess occurrenceID).any fun lease =>
    now < lease.expiresAt

end Operations

structure LivenessState where
  db : ControlLeaseTables
  clock : ℤ
  memories : List (String × ProcessLivenessMemory)
  crashed : List String
deriving DecidableEq

variable (s : LivenessState) (process : String)

def LivenessState.memory : ProcessLivenessMemory :=
  (s.memories.lookup process).getD .empty

def LivenessState.write (memory : ProcessLivenessMemory) (db : ControlLeaseTables) : LivenessState :=
  { s with
    db := db
    memories := (process, memory) :: s.memories.filter fun row => row.1 ≠ process }

def LivenessState.call (answer : ProcessLivenessMemory × ControlLeaseTables) : Option LivenessState :=
  if process ∈ s.crashed then none else some (s.write process answer.1 answer.2)

/-- The calls of processes, each under the occurrence that the process drew at random, and the rest of
the program.  A fault is the error of the database; an assertion or a join that meets one changes
nothing. -/
inductive LivenessAction where
  | join (process : String) (now : ℤ) (leaseID : String)
  | release (process : String) (index : ℕ) (fault : Option String)
  | renew (process leaseID : String) (fault : Option String)
  /-- A reference asserts its owner, at an instant of its caller's choice. -/
  | assertOwned (process : String) (reference : ProcessLivenessReference) (expectedOccurrenceID : String) (now : ℤ)
  | assertProcess (process occurrenceID : String) (now : ℤ)
  | crash (process : String)
  /-- Leases of all other targets change. -/
  | host (tables : ControlLeaseTables)

/-- The effect of an action at the present instant. -/
def LivenessAction.run : LivenessAction → Option LivenessState
  | join process now leaseID =>
    s.call process (joinProcessLivenessLease (s.memory process) s.db process now s.clock leaseID).2
  | release process index fault =>
    s.call process (releaseReference (s.memory process) s.db index s.clock fault)
  | renew process leaseID fault =>
    s.call process (renewOwner (s.memory process) s.db leaseID s.clock fault)
  | assertOwned process reference expectedOccurrenceID now =>
    s.call process ((assertOwnerInTransaction (s.memory process) s.db reference.leaseID reference.occurrenceID
        expectedOccurrenceID now).2, s.db)
  | assertProcess process occurrenceID now =>
    s.call process ((assertProcessLivenessOwnerInTransaction (s.memory process) s.db occurrenceID now).2, s.db)
  | crash process => some { s with crashed := process :: s.crashed }
  | host tables => some { s with db := s.db.withOtherLeases .runtimeProcess tables }

def livenessStep (call : ℤ × LivenessAction) : Option LivenessState :=
  if call.1 < s.clock then none else call.2.run { s with clock := call.1 }

def LivenessState.Live : Prop :=
  isProcessOccurrenceLive s.db process s.clock = true

instance decidableLive (s : LivenessState) (process : String) : Decidable (s.Live process) :=
  inferInstanceAs (Decidable (_ = true))

structure LivenessState.Initial (s : LivenessState) : Prop where
  leases : ∀ lease ∈ s.db.leases, lease.target ≠ .runtimeProcess
  memories : s.memories = []

instance decidableInitialLiveness (s : LivenessState) : Decidable s.Initial :=
  decidable_of_iff ((∀ lease ∈ s.db.leases, lease.target ≠ .runtimeProcess) ∧ s.memories = [])
    ⟨fun ⟨hleases, hmemories⟩ => ⟨hleases, hmemories⟩,
      fun ⟨hleases, hmemories⟩ => ⟨hleases, hmemories⟩⟩

end OpenCorvus.Engine
