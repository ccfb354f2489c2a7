import Mathlib.Data.Prod.Lex
import Mathlib.Data.String.Basic
import OpenCorvus.Foundation.EcmaScript
import OpenCorvus.Foundation.LatestRow

/-!
# Control leases

The table of physical ownership leases and the four operations on it: acquire, assert, release and
renew.  Every operation reads the current lease of its target from the table, and the current lease
is the row that comes last by activation instant and then by lease id.
-/

namespace OpenCorvus.Engine

inductive EngineControlActivationTarget where
  | taskRootIngress
  | lifecycle
  | interaction
  | effect
  | automation
  | eventFire
  | buildCleanup
  | protocolDelivery
  | busDelivery
  | sessionControl
  | sessionShell
  | sessionDeletion
  | dispatchAdmission
  | runtimeProcess
deriving DecidableEq

def EngineControlActivationTarget.text : EngineControlActivationTarget → String
  | taskRootIngress => "task_root_ingress"
  | lifecycle => "lifecycle"
  | interaction => "interaction"
  | effect => "effect"
  | automation => "automation"
  | eventFire => "event_fire"
  | buildCleanup => "build_cleanup"
  | protocolDelivery => "protocol_delivery"
  | busDelivery => "bus_delivery"
  | sessionControl => "session_control"
  | sessionShell => "session_shell"
  | sessionDeletion => "session_deletion"
  | dispatchAdmission => "dispatch_admission"
  | runtimeProcess => "runtime_process"

structure ControlLease where
  id : String
  target : EngineControlActivationTarget
  targetID : String
  ownerOccurrenceID : String
  /-- The instant of the acquisition. -/
  timeActivated : ℤ
  /-- The live fence; renewals and releases move it. -/
  expiresAt : ℤ
deriving DecidableEq

structure ControlLeaseGrant where
  leaseID : String
  ordinal : ℕ
  expiresAt : ℤ
  timeCreated : ℤ
deriving DecidableEq

structure ControlLeaseTables where
  /-- The leases, in order of insertion. -/
  leases : List ControlLease
  /-- The grant history, in order of insertion. -/
  grants : List ControlLeaseGrant
deriving DecidableEq

/-- What an operation raises. -/
inductive ControlLeaseError where
  /-- A plain error. -/
  | error (message : String)
  /-- The exact lease the caller held is no longer current. -/
  | fenceLost (message : String)
  /-- A constraint or a trigger of the database aborts the transaction. -/
  | database (message : String)
deriving DecidableEq

variable (db : ControlLeaseTables)

def ControlLeaseTables.ofTarget (target : EngineControlActivationTarget) (targetID : String) : List ControlLease :=
  db.leases.filter fun lease => lease.target = target ∧ lease.targetID = targetID

/-- The key of `ORDER BY time_activated DESC, id DESC`. -/
def ControlLease.orderKey (lease : ControlLease) : ℤ ×ₗ String :=
  toLex (lease.timeActivated, lease.id)

def currentControlLeaseInTransaction (target : EngineControlActivationTarget) (targetID : String) :
    Option ControlLease :=
  (db.ofTarget target targetID).argmax ControlLease.orderKey

def insertControlLease (lease : ControlLease) : Except ControlLeaseError ControlLeaseTables :=
  if db.leases.any fun row => row.id = lease.id then
    .error (.database "UNIQUE constraint failed: engine_control_activation_lease.id")
  else
    .ok { db with leases := db.leases ++ [lease] }

def latestGrantOrdinal (leaseID : String) : ℕ :=
  EcmaScript.maxOrZero ((db.grants.filter fun grant => grant.leaseID = leaseID).map ControlLeaseGrant.ordinal)

def insertControlLeaseGrant (grant : ControlLeaseGrant) : Except ControlLeaseError ControlLeaseTables :=
  if grant.ordinal = latestGrantOrdinal db grant.leaseID + 1 ∧
      (db.leases.any fun lease =>
        lease.id = grant.leaseID ∧ lease.expiresAt = grant.expiresAt ∧
          lease.timeActivated ≤ grant.timeCreated ∧ grant.timeCreated < grant.expiresAt) then
    .ok { db with grants := db.grants ++ [grant] }
  else
    .error (.database "engine_control_activation_lease_grant: invalid grant authority")

structure AcquireControlLeaseInput where
  target : EngineControlActivationTarget
  targetID : String
  ownerOccurrenceID : String
  now : ℤ
  leaseMilliseconds : ℤ
  /-- Domain occurrences may also be the physical lease identity. -/
  leaseID : Option String
  /-- An immutable receipt may consume a still unexpired physical lease. -/
  supersedeLeaseID : Option String
  /-- The id that `Identifier.ascending("call")` would generate. -/
  generatedID : String

variable (input : AcquireControlLeaseInput)

def AcquireControlLeaseInput.identity : String :=
  match input.leaseID with
  | none => input.generatedID
  | some leaseID => EcmaScript.trim leaseID

/-- The row that the acquisition inserts. -/
def AcquireControlLeaseInput.lease : ControlLease where
  id := input.identity
  target := input.target
  targetID := input.targetID
  ownerOccurrenceID := input.ownerOccurrenceID
  timeActivated := input.now
  expiresAt := input.now + input.leaseMilliseconds

structure ControlLeaseAcquisition where
  acquired : Bool
  lease : ControlLease

def AcquireControlLeaseInput.BlockedBy (current : ControlLease) : Prop :=
  input.now < current.expiresAt ∧ some current.id ≠ input.supersedeLeaseID

instance (input : AcquireControlLeaseInput) (current : ControlLease) : Decidable (input.BlockedBy current) :=
  inferInstanceAs (Decidable (_ ∧ _))

/-- The part of an acquisition that writes: the lease row and its first grant. -/
def insertAcquiredControlLease (input : AcquireControlLeaseInput) :
    Except ControlLeaseError (ControlLeaseAcquisition × ControlLeaseTables) :=
  if input.identity = "" then
    .error (.error "Control lease identity must be non-empty")
  else do
    let inserted ← insertControlLease db input.lease
    let granted ← insertControlLeaseGrant inserted
      { leaseID := input.lease.id, ordinal := 1, expiresAt := input.lease.expiresAt,
        timeCreated := input.now }
    return (⟨true, input.lease⟩, granted)

/-- Take the target unless another unexpired lease is current. -/
def acquireControlLeaseInTransaction (input : AcquireControlLeaseInput) :
    Except ControlLeaseError (ControlLeaseAcquisition × ControlLeaseTables) :=
  if input.leaseMilliseconds ≤ 0 then
    .error (.error "Control lease duration must be positive")
  else
    match currentControlLeaseInTransaction db input.target input.targetID with
    | none => insertAcquiredControlLease db input
    | some current =>
      if input.BlockedBy current then .ok (⟨false, current⟩, db)
      else insertAcquiredControlLease db input

structure ControlLeaseClaim where
  target : EngineControlActivationTarget
  targetID : String
  leaseID : String
  ownerOccurrenceID : String
  now : ℤ

variable (claim : ControlLeaseClaim)

def ControlLeaseClaim.Holds (current : ControlLease) : Prop :=
  current.id = claim.leaseID ∧ current.ownerOccurrenceID = claim.ownerOccurrenceID ∧ claim.now < current.expiresAt

instance (claim : ControlLeaseClaim) (current : ControlLease) : Decidable (claim.Holds current) :=
  inferInstanceAs (Decidable (_ ∧ _ ∧ _))

def assertControlLeaseInTransaction : Except ControlLeaseError ControlLease :=
  let rejected := ControlLeaseError.fenceLost
    ("Control lease fence rejected " ++ claim.target.text ++ "/" ++ claim.targetID ++ "/" ++ claim.leaseID)
  match currentControlLeaseInTransaction db claim.target claim.targetID with
  | none => .error rejected
  | some current => if claim.Holds current then .ok current else .error rejected

def releaseControlLeaseInTransaction : Bool × ControlLeaseTables :=
  match currentControlLeaseInTransaction db claim.target claim.targetID with
  | none => (false, db)
  | some current =>
    if claim.Holds current then
      (true, { db with leases := db.leases.map fun lease =>
        if lease.id = current.id then { lease with expiresAt := claim.now } else lease })
    else
      (false, db)

/-- The row that the update of a renewal matches. -/
def ControlLeaseClaim.matches (current lease : ControlLease) : Bool :=
  lease.id = claim.leaseID ∧ lease.expiresAt = current.expiresAt ∧ claim.now < lease.expiresAt

def ControlLeaseTables.renewed (current : ControlLease) (expiresAt : ℤ) : ControlLeaseTables :=
  { db with leases := db.leases.map fun lease =>
      if claim.matches current lease then { lease with expiresAt := expiresAt } else lease }

def renewControlLeaseInTransaction (expiresAt : ℤ) : Except ControlLeaseError ControlLeaseTables :=
  if expiresAt ≤ claim.now then
    .error (.error "Control lease renewal must extend into the future")
  else do
    let current ← assertControlLeaseInTransaction db claim
    if db.leases.any (claim.matches current) then
      insertControlLeaseGrant (db.renewed claim current expiresAt)
        { leaseID := claim.leaseID
          ordinal := latestGrantOrdinal (db.renewed claim current expiresAt) claim.leaseID + 1
          expiresAt := expiresAt
          timeCreated := claim.now }
    else
      .error (.fenceLost ("Control lease renewal lost fence " ++ claim.leaseID))

section Specification

variable {db db' : ControlLeaseTables}

structure ControlLease.SameIdentity (row lease : ControlLease) : Prop where
  id : row.id = lease.id
  target : row.target = lease.target
  targetID : row.targetID = lease.targetID
  ownerOccurrenceID : row.ownerOccurrenceID = lease.ownerOccurrenceID
  timeActivated : row.timeActivated = lease.timeActivated

lemma ControlLease.SameIdentity.orderKey_eq {row lease : ControlLease}
    (h : row.SameIdentity lease) : row.orderKey = lease.orderKey := by
  rw [orderKey, orderKey, h.id, h.timeActivated]

lemma ControlLease.sameIdentity_expiresAt (lease : ControlLease) (expiresAt : ℤ) :
    ({ lease with expiresAt := expiresAt } : ControlLease).SameIdentity lease :=
  ⟨rfl, rfl, rfl, rfl, rfl⟩

variable {target : EngineControlActivationTarget}

lemma ControlLeaseTables.mem_ofTarget {targetID : String} {row : ControlLease} :
    row ∈ db.ofTarget target targetID ↔
      row ∈ db.leases ∧ row.target = target ∧ row.targetID = targetID := by
  simp [ofTarget]

lemma mem_of_currentControlLease {targetID : String} {current : ControlLease}
    (h : currentControlLeaseInTransaction db target targetID = some current) :
    current ∈ db.leases ∧ current.target = target ∧ current.targetID = targetID :=
  ControlLeaseTables.mem_ofTarget.mp (List.argmax_mem h)

lemma insertControlLease_eq_ok {lease : ControlLease} : insertControlLease db lease = .ok db' ↔
      (∀ row ∈ db.leases, row.id ≠ lease.id) ∧
        db' = { db with leases := db.leases ++ [lease] } := by
  rw [insertControlLease]
  split_ifs with h
  · obtain ⟨row, hrow, hid⟩ : ∃ row ∈ db.leases, row.id = lease.id := by simpa using h
    constructor
    · rintro ⟨⟩
    · exact fun hfresh => absurd hid (hfresh.1 row hrow)
  · have hfresh : ∀ row ∈ db.leases, row.id ≠ lease.id := by simpa using h
    rw [Except.ok.injEq]
    exact ⟨fun hdb => ⟨hfresh, hdb.symm⟩, fun hdb => hdb.2.symm⟩

lemma insertControlLeaseGrant_eq_ok {grant : ControlLeaseGrant}
    (h : insertControlLeaseGrant db grant = .ok db') :
    db' = { db with grants := db.grants ++ [grant] } := by
  rw [insertControlLeaseGrant] at h
  split_ifs at h
  exact (Except.ok.inj h).symm

variable {result : ControlLeaseAcquisition}

lemma insertAcquiredControlLease_eq_ok {input : AcquireControlLeaseInput}
    (h : insertAcquiredControlLease db input = .ok (result, db')) :
    result = ⟨true, input.lease⟩ ∧ db'.leases = db.leases ++ [input.lease] ∧
      input.identity ≠ "" ∧ ∀ row ∈ db.leases, row.id ≠ input.identity := by
  rw [insertAcquiredControlLease] at h
  split_ifs at h with hid
  cases hlease : insertControlLease db input.lease with
  | error => simp [hlease, bind, Except.bind] at h
  | ok =>
    obtain ⟨hfresh, rfl⟩ := insertControlLease_eq_ok.mp hlease
    simp only [hlease, bind, Except.bind] at h
    split at h
    · cases h
    · rename_i granted hgrant
      cases h
      rw [insertControlLeaseGrant_eq_ok hgrant]
      exact ⟨rfl, rfl, hid, hfresh⟩

theorem acquireControlLease_eq_ok {input : AcquireControlLeaseInput}
    (h : acquireControlLeaseInTransaction db input = .ok (result, db')) :
    (∃ current, currentControlLeaseInTransaction db input.target input.targetID = some current ∧
        input.BlockedBy current ∧ result = ⟨false, current⟩ ∧ db' = db) ∨
      (result = ⟨true, input.lease⟩ ∧ db'.leases = db.leases ++ [input.lease] ∧
        0 < input.leaseMilliseconds ∧ input.identity ≠ "" ∧
        (∀ row ∈ db.leases, row.id ≠ input.identity) ∧
        ∀ current, currentControlLeaseInTransaction db input.target input.targetID = some current →
          ¬input.BlockedBy current) := by
  rw [acquireControlLeaseInTransaction] at h
  split_ifs at h with hms
  have hpos : 0 < input.leaseMilliseconds := not_le.mp hms
  cases hcurrent : currentControlLeaseInTransaction db input.target input.targetID with
  | none =>
    simp only [hcurrent] at h
    obtain ⟨hresult, hleases, hid, hfresh⟩ := insertAcquiredControlLease_eq_ok h
    exact Or.inr ⟨hresult, hleases, hpos, hid, hfresh, by simp⟩
  | some current =>
    simp only [hcurrent] at h
    split_ifs at h with hblocked
    · cases h
      exact Or.inl ⟨current, rfl, hblocked, rfl, rfl⟩
    · obtain ⟨hresult, hleases, hid, hfresh⟩ := insertAcquiredControlLease_eq_ok h
      refine Or.inr ⟨hresult, hleases, hpos, hid, hfresh, ?_⟩
      rintro _ ⟨⟩
      exact hblocked

variable {claim : ControlLeaseClaim}

theorem assertControlLease_eq_ok {current : ControlLease} :
    assertControlLeaseInTransaction db claim = .ok current ↔
      currentControlLeaseInTransaction db claim.target claim.targetID = some current ∧
        claim.Holds current := by
  rw [assertControlLeaseInTransaction]
  cases currentControlLeaseInTransaction db claim.target claim.targetID with
  | none => simp
  | some row =>
    by_cases hrow : claim.Holds row
    · simp only [hrow, if_true, Except.ok.injEq, Option.some.injEq]
      exact ⟨fun h => ⟨h, h ▸ hrow⟩, fun h => h.1⟩
    · simp only [hrow, if_false, reduceCtorEq, Option.some.injEq, false_iff, not_and]
      rintro rfl
      exact hrow

theorem releaseControlLease_fst : (releaseControlLeaseInTransaction db claim).1 = true ↔
      ∃ current, currentControlLeaseInTransaction db claim.target claim.targetID = some current ∧
        claim.Holds current := by
  rw [releaseControlLeaseInTransaction]
  cases currentControlLeaseInTransaction db claim.target claim.targetID with
  | none => simp
  | some row => by_cases hrow : claim.Holds row <;> simp [hrow]

theorem releaseControlLease_leases (db : ControlLeaseTables) (claim : ControlLeaseClaim) :
    (releaseControlLeaseInTransaction db claim).2.leases =
      if (releaseControlLeaseInTransaction db claim).1 then
        db.leases.map fun lease =>
          if lease.id = claim.leaseID then { lease with expiresAt := claim.now } else lease
      else db.leases := by
  rw [releaseControlLeaseInTransaction]
  cases currentControlLeaseInTransaction db claim.target claim.targetID with
  | none => rfl
  | some row =>
    by_cases hrow : claim.Holds row
    · simp [hrow, hrow.1]
    · simp [hrow]

/-- A renewal passes the fence and moves the expiry of the rows it matches. -/
theorem renewControlLease_eq_ok {expiresAt : ℤ} (h : renewControlLeaseInTransaction db claim expiresAt = .ok db') :
    claim.now < expiresAt ∧ ∃ current,
      currentControlLeaseInTransaction db claim.target claim.targetID = some current ∧
        claim.Holds current ∧ db'.leases = (db.renewed claim current expiresAt).leases := by
  rw [renewControlLeaseInTransaction] at h
  split_ifs at h with hnow
  refine ⟨not_le.mp hnow, ?_⟩
  cases hassert : assertControlLeaseInTransaction db claim with
  | error => simp [hassert, bind, Except.bind] at h
  | ok current =>
    simp only [hassert, bind, Except.bind] at h
    split_ifs at h with hany
    obtain ⟨hcurrent, hholds⟩ := assertControlLease_eq_ok.mp hassert
    refine ⟨current, hcurrent, hholds, ?_⟩
    rw [insertControlLeaseGrant_eq_ok h]

end Specification

end OpenCorvus.Engine
