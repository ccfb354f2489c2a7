import OpenCorvus.Engine.ControlLease
import OpenCorvus.Foundation.UniqueIndex

/-!
# What lease operations leave alone

A release or a renewal moves the expiry of one lease, and an acquisition appends one.  The current lease
of every other target stays, and the ids stay unique.
-/

namespace OpenCorvus.Engine

open UniqueIndex LatestRow List ControlLeaseTables AcquireControlLeaseInput

variable {db db' : ControlLeaseTables} {target : EngineControlActivationTarget} {targetID other : String}

def ControlLeaseTables.rowsOf (db : ControlLeaseTables) (target : EngineControlActivationTarget) :
    List ControlLease :=
  db.leases.filter fun lease => lease.target = target

def ControlLeaseTables.withOtherLeases (db : ControlLeaseTables)
    (target : EngineControlActivationTarget) (tables : ControlLeaseTables) : ControlLeaseTables where
  leases := (db.leases.filter fun lease => lease.target = target) ++
    tables.leases.filter fun lease => lease.target ≠ target
  grants := tables.grants

variable {claim : ControlLeaseClaim}

lemma releaseControlLease_of_false (h : releaseControlLeaseInTransaction db claim = (false, db')) : db' = db := by
  unfold releaseControlLeaseInTransaction at h
  split at h
  · exact (congrArg Prod.snd h).symm
  · split_ifs at h
    · cases h
    · exact (congrArg Prod.snd h).symm

def Moves (db db' : ControlLeaseTables) (leaseID : String) : Prop :=
  ∃ f : ControlLease → ControlLease, db'.leases = db.leases.map f ∧
    ∀ lease, (f lease).SameIdentity lease ∧ (lease.id ≠ leaseID → f lease = lease)

lemma release_moves (h : releaseControlLeaseInTransaction db claim = (true, db')) :
    Moves db db' claim.leaseID ∧ ∃ current,
      currentControlLeaseInTransaction db claim.target claim.targetID = some current ∧
        claim.Holds current := by
  have hleases := releaseControlLease_leases db claim
  rw [h, if_pos rfl] at hleases
  refine ⟨⟨_, hleases, fun lease => ?_⟩, releaseControlLease_fst.mp (by rw [h])⟩
  split_ifs with hid
  · exact ⟨lease.sameIdentity_expiresAt _, fun hne => absurd hid hne⟩
  · exact ⟨⟨rfl, rfl, rfl, rfl, rfl⟩, fun _ => rfl⟩

lemma renew_moves {expiresAt : ℤ} (h : renewControlLeaseInTransaction db claim expiresAt = .ok db') :
    Moves db db' claim.leaseID ∧ ∃ current,
      currentControlLeaseInTransaction db claim.target claim.targetID = some current ∧
        claim.Holds current := by
  obtain ⟨-, current, hcurrent, hholds, hleases⟩ := renewControlLease_eq_ok h
  refine ⟨⟨_, hleases, fun lease => ?_⟩, current, hcurrent, hholds⟩
  split_ifs with hmatches
  · unfold ControlLeaseClaim.matches at hmatches
    rw [decide_eq_true_eq] at hmatches
    exact ⟨lease.sameIdentity_expiresAt _, fun hne => absurd hmatches.1 hne⟩
  · exact ⟨⟨rfl, rfl, rfl, rfl, rfl⟩, fun _ => rfl⟩

variable {f : ControlLease → ControlLease}

lemma ofTarget_of_map (hleases : db'.leases = db.leases.map f) (hf : ∀ lease, (f lease).SameIdentity lease)
    (target : EngineControlActivationTarget) (targetID : String) :
    db'.ofTarget target targetID = (db.ofTarget target targetID).map f := by
  unfold ofTarget
  rw [hleases, List.filter_map]
  congr 1
  exact filter_congr fun lease _ => by simp [(hf lease).target, (hf lease).targetID]

lemma currentControlLease_of_map (hleases : db'.leases = db.leases.map f)
    (hf : ∀ lease, (f lease).SameIdentity lease) (target : EngineControlActivationTarget) (targetID : String) :
    currentControlLeaseInTransaction db' target targetID =
      (currentControlLeaseInTransaction db target targetID).map f := by
  unfold currentControlLeaseInTransaction
  rw [ofTarget_of_map hleases hf, argmax_map fun lease _ => (hf lease).orderKey_eq]

lemma currentControlLease_of_release (h : releaseControlLeaseInTransaction db claim = (true, db')) :
    ∃ current, currentControlLeaseInTransaction db claim.target claim.targetID = some current ∧
      claim.Holds current ∧ currentControlLeaseInTransaction db' claim.target claim.targetID =
        some { current with expiresAt := claim.now } := by
  obtain ⟨-, current, hcurrent, hholds⟩ := release_moves h
  have hleases := releaseControlLease_leases db claim
  rw [h, if_pos rfl] at hleases
  refine ⟨current, hcurrent, hholds, ?_⟩
  rw [currentControlLease_of_map hleases fun lease => ?_, hcurrent, Option.map_some, if_pos hholds.1]
  split_ifs
  · exact lease.sameIdentity_expiresAt _
  · exact ⟨rfl, rfl, rfl, rfl, rfl⟩

lemma currentControlLease_of_renew {expiresAt : ℤ}
    (h : renewControlLeaseInTransaction db claim expiresAt = .ok db') :
    ∃ current, currentControlLeaseInTransaction db claim.target claim.targetID = some current ∧
      claim.Holds current ∧ currentControlLeaseInTransaction db' claim.target claim.targetID =
        some { current with expiresAt := expiresAt } := by
  obtain ⟨-, current, hcurrent, hholds, hleases⟩ := renewControlLease_eq_ok h
  have hmatches : claim.matches current current = true := by
    unfold ControlLeaseClaim.matches
    rw [decide_eq_true_eq]
    exact ⟨hholds.1, rfl, hholds.2.2⟩
  refine ⟨current, hcurrent, hholds, ?_⟩
  rw [currentControlLease_of_map hleases fun lease => ?_, hcurrent, Option.map_some, if_pos hmatches]
  split_ifs
  · exact lease.sameIdentity_expiresAt _
  · exact ⟨rfl, rfl, rfl, rfl, rfl⟩

lemma Moves.primaryKey {leaseID : String} (h : Moves db db' leaseID)
    (hunique : PrimaryKey ControlLease.id (db.rowsOf target)) :
    PrimaryKey ControlLease.id (db'.rowsOf target) := by
  obtain ⟨f, hleases, hf⟩ := h
  have hrows : db'.rowsOf target = (db.rowsOf target).map f := by
    unfold rowsOf
    rw [hleases, List.filter_map]
    congr 1
    exact filter_congr fun lease _ => by simp [(hf lease).1.target]
  rw [hrows]
  exact hunique.map fun lease => (hf lease).1.id

lemma Moves.ofTarget_other {leaseID : String} (h : Moves db db' leaseID)
    (hunique : PrimaryKey ControlLease.id (db.rowsOf target)) {current : ControlLease}
    (hcurrent : currentControlLeaseInTransaction db target targetID = some current)
    (hid : current.id = leaseID) (hne : other ≠ targetID) :
    db'.ofTarget target other = db.ofTarget target other := by
  obtain ⟨f, hleases, hf⟩ := h
  obtain ⟨hmem, htarget, htargetID⟩ := mem_of_currentControlLease hcurrent
  have hkept : ∀ lease ∈ db.ofTarget target other, f lease = lease := by
    intro lease hlease
    rw [mem_ofTarget] at hlease
    refine (hf lease).2 fun hsame => hne ?_
    have heq : lease = current :=
      hunique.eq_of_id (mem_filter.mpr ⟨hlease.1, by simpa using hlease.2.1⟩)
        (mem_filter.mpr ⟨hmem, by simpa using htarget⟩) (hsame.trans hid.symm)
    rw [← hlease.2.2, heq, htargetID]
  rw [ofTarget_of_map hleases fun lease => (hf lease).1]
  exact (map_congr_left hkept).trans (List.map_id _)

variable {input : AcquireControlLeaseInput}

lemma acquire_effect {lease : ControlLease}
    (h : acquireControlLeaseInTransaction db input = .ok (⟨true, lease⟩, db'))
    (hunique : PrimaryKey ControlLease.id (db.rowsOf input.target)) :
    PrimaryKey ControlLease.id (db'.rowsOf input.target) ∧ ∀ other, other ≠ input.targetID →
      db'.ofTarget input.target other = db.ofTarget input.target other := by
  rcases acquireControlLease_eq_ok h with ⟨_, -, -, hresult, -⟩ | ⟨-, hleases, -, -, hfresh, -⟩
  · cases hresult
  · constructor
    · have hrows : db'.rowsOf input.target = db.rowsOf input.target ++ [input.lease] := by
        unfold rowsOf
        rw [hleases, filter_append]
        simp [AcquireControlLeaseInput.lease]
      rw [hrows]
      exact hunique.concat fun row hrow => hfresh row (mem_of_mem_filter hrow)
    · intro other hne
      unfold ofTarget
      rw [hleases, filter_append]
      simp [AcquireControlLeaseInput.lease, hne.symm]

lemma currentControlLease_of_acquire {lease : ControlLease}
    (h : acquireControlLeaseInTransaction db input = .ok (⟨true, lease⟩, db')) :
    currentControlLeaseInTransaction db' input.target input.targetID = some input.lease ∨
      ∃ current, currentControlLeaseInTransaction db input.target input.targetID = some current ∧
        currentControlLeaseInTransaction db' input.target input.targetID = some current := by
  rcases acquireControlLease_eq_ok h with ⟨current, -, -, hresult, -⟩ | ⟨-, hleases, -⟩
  · cases hresult
  · have hrows : db'.ofTarget input.target input.targetID =
        db.ofTarget input.target input.targetID ++ [input.lease] := by
      unfold ofTarget
      rw [hleases, filter_append]
      simp [AcquireControlLeaseInput.lease]
    unfold currentControlLeaseInTransaction
    rw [hrows, argmax_concat]
    cases hcurrent : (db.ofTarget input.target input.targetID).argmax ControlLease.orderKey with
    | none => exact .inl rfl
    | some current =>
      dsimp only
      split_ifs
      · exact .inl rfl
      · exact .inr ⟨current, rfl, rfl⟩

lemma withOtherLeases_ofTarget (tables : ControlLeaseTables) :
    (db.withOtherLeases target tables).ofTarget target targetID = db.ofTarget target targetID := by
  unfold withOtherLeases ofTarget
  rw [filter_append, List.filter_filter, List.filter_filter]
  have hnone : tables.leases.filter (fun lease => decide (lease.target = target ∧
      lease.targetID = targetID) && decide (lease.target ≠ target)) = [] := by
    rw [filter_eq_nil_iff]
    intro lease _
    by_cases htarget : lease.target = target <;> simp [htarget]
  rw [hnone, List.append_nil]
  refine filter_congr fun lease _ => ?_
  by_cases htarget : lease.target = target <;> simp [htarget]

lemma withOtherLeases_rowsOf (tables : ControlLeaseTables) :
    (db.withOtherLeases target tables).rowsOf target = db.rowsOf target := by
  unfold withOtherLeases rowsOf
  rw [filter_append, List.filter_filter, List.filter_filter]
  simp

end OpenCorvus.Engine
