import OpenCorvus.Engine.ProcessLiveness

/-!
# The death of a process occurrence

A process that crashed, or lost the fence of its lease, never lives again under its occurrence.  A
process whose last reference handed the lease back left without a loss; it may join again, under a
fresh lease, and its occurrence then lives again.
-/

namespace OpenCorvus.Engine

open ExecutableSystem ListUpdate UniqueIndex LivenessState

/-! ## What a call of a process can do -/

variable (memory : ProcessLivenessMemory)

def ProcessLivenessMemory.Outside (process : String) : Prop :=
  memory.currentOwner = none ∧ memory.lostFences.lookup process = none

instance (memory : ProcessLivenessMemory) (process : String) : Decidable (memory.Outside process) :=
  inferInstanceAs (Decidable (_ ∧ _))

def ProcessLivenessMemory.Sound (process : String) : Prop :=
  ∀ owner ∈ memory.currentOwner, owner.occurrenceID = process ∧
    (owner.fenceError.isSome → (memory.lostFences.lookup process).isSome)

def HandsBackReference (db : ControlLeaseTables) (index : ℕ) (now : ℤ) (fault : Option String) : Prop :=
  ∃ owner ∈ memory.currentOwner, owner.references = 1 ∧
    (∃ reference ∈ memory.references[index]?, reference.released = false ∧ reference.leaseID = owner.leaseID) ∧
    (releaseControlLeaseOnErrorPath db (owner.claim now) fault).1 = true

inductive ProcessStep (handsBack joins : Prop) (process : String) (now : ℤ)
    (memory : ProcessLivenessMemory) (db : ControlLeaseTables) :
    ProcessLivenessMemory → ControlLeaseTables → Prop
  /-- Nothing but references and the expiry that the owner remembers. -/
  | quiet {memory' : ProcessLivenessMemory} (sound : memory'.Sound process)
      (outside : memory'.Outside process ↔ memory.Outside process) :
      ProcessStep handsBack joins process now memory db memory' db
  | loses {memory' : ProcessLivenessMemory} (sound : memory'.Sound process)
      (lost : (memory'.lostFences.lookup process).isSome) :
      ProcessStep handsBack joins process now memory db memory' db
  | returns {memory' : ProcessLivenessMemory} {db' : ControlLeaseTables} {owner : ProcessLivenessOwner}
      (allowed : handsBack) (sound : memory'.Sound process) (owned : owner.occurrenceID = process)
      (released : releaseControlLeaseInTransaction db (owner.claim now) = (true, db')) :
      ProcessStep handsBack joins process now memory db memory' db'
  | renews {memory' : ProcessLivenessMemory} {db' : ControlLeaseTables} {owner : ProcessLivenessOwner}
      {expiresAt : ℤ} (sound : memory'.Sound process)
      (outside : ¬memory'.Outside process) (owned : owner.occurrenceID = process)
      (renewed : renewControlLeaseInTransaction db (owner.claim now) expiresAt = .ok db') :
      ProcessStep handsBack joins process now memory db memory' db'
  | takes {memory' : ProcessLivenessMemory} {db' : ControlLeaseTables} {lease : ControlLease}
      {input : AcquireControlLeaseInput} (allowed : joins) (sound : memory'.Sound process)
      (outside : memory.Outside process) (inside : ¬memory'.Outside process)
      (target : input.target = .runtimeProcess) (targetID : input.targetID = process)
      (acquired : acquireControlLeaseInTransaction db input = .ok (⟨true, lease⟩, db')) :
      ProcessStep handsBack joins process now memory db memory' db'

section Calls

variable {memory : ProcessLivenessMemory} {db : ControlLeaseTables} {process : String} {now : ℤ}
  {handsBack joins : Prop}

variable {owner : ProcessLivenessOwner}

lemma recordFenceLoss_step (h : memory.Sound process) (howner : owner ∈ memory.currentOwner) (message : String) :
    ProcessStep handsBack joins process now memory db (recordFenceLoss memory owner message) db := by
  obtain ⟨rfl, -⟩ := h owner howner
  have hlost : ((recordFenceLoss memory owner message).lostFences.lookup owner.occurrenceID).isSome := by
    simp [recordFenceLoss]
  refine .loses ?_ hlost
  rintro _ ⟨⟩
  exact ⟨rfl, fun _ => hlost⟩

lemma ProcessStep.same (h : memory.Sound process) : ProcessStep handsBack joins process now memory db memory db :=
  .quiet h Iff.rfl

lemma ProcessStep.mono {memory' : ProcessLivenessMemory} {db' : ControlLeaseTables} {handsBack' : Prop}
    (h : ProcessStep handsBack joins process now memory db memory' db')
    (himp : handsBack → handsBack') :
    ProcessStep handsBack' joins process now memory db memory' db' := by
  cases h with
  | quiet sound outside => exact .quiet sound outside
  | loses sound lost => exact .loses sound lost
  | returns allowed sound owned released => exact .returns (himp allowed) sound owned released
  | renews sound outside owned renewed => exact .renews sound outside owned renewed
  | takes allowed sound outside inside target targetID acquired =>
    exact .takes allowed sound outside inside target targetID acquired

/-- An assertion changes nothing, or loses the fence. -/
lemma assertOwnerInTransaction_step (h : memory.Sound process)
    (leaseID ownerOccurrenceID expectedOccurrenceID : String) (instant : ℤ) :
    ProcessStep handsBack joins process now memory db (assertOwnerInTransaction memory db leaseID
      ownerOccurrenceID expectedOccurrenceID instant).2 db := by
  unfold assertOwnerInTransaction
  split
  · exact .same h
  next owner hfound =>
    obtain ⟨howner, -⟩ := Option.filter_eq_some_iff.mp hfound
    split_ifs
    · exact .same h
    · split
      · exact .same h
      · split
        · exact .same h
        · exact recordFenceLoss_step h howner _
        · exact .same h

/-- An assertion that passes changes nothing. -/
lemma assertOwnerInTransaction_eq_ok {leaseID ownerOccurrenceID expectedOccurrenceID : String}
    {instant : ℤ} {asserted : ProcessLivenessMemory}
    (h : assertOwnerInTransaction memory db leaseID ownerOccurrenceID expectedOccurrenceID instant =
      (.ok (), asserted)) : asserted = memory := by
  unfold assertOwnerInTransaction at h
  split at h
  · cases h
  · split_ifs at h
    · cases h
    · split at h
      · cases h
      · split at h <;> cases h
        rfl

section

variable (h : memory.Sound process)

include h

lemma assertProcessLivenessOwner_step (occurrenceID : String) (instant : ℤ) :
    ProcessStep handsBack joins process now memory db
      (assertProcessLivenessOwnerInTransaction memory db occurrenceID instant).2 db := by
  unfold assertProcessLivenessOwnerInTransaction
  split
  · exact .same h
  · exact assertOwnerInTransaction_step h _ _ _ _

lemma renewOwner_step (leaseID : String) (fault : Option String) :
    ProcessStep handsBack joins process now memory db (renewOwner memory db leaseID now fault).1
      (renewOwner memory db leaseID now fault).2 := by
  unfold renewOwner
  split
  · exact .same h
  next owner hfound =>
    obtain ⟨howner, _⟩ := Option.filter_eq_some_iff.mp hfound
    obtain ⟨howned, hloss⟩ := h owner howner
    split
    next db' hrenewed =>
      have hdone : renewControlLeaseInTransaction db (owner.claim now)
          (now + PROCESS_LIVENESS_LEASE_MS) = .ok db' := by
        unfold renewLeaseUnlessFault at hrenewed
        split at hrenewed
        · exact hrenewed
        · cases hrenewed
      refine .renews ?_ ?_ howned hdone
      · rintro _ ⟨⟩
        exact ⟨howned, hloss⟩
      · rintro ⟨hnone, -⟩
        cases hnone
    · exact recordFenceLoss_step h howner _
    · split_ifs
      · exact recordFenceLoss_step h howner _
      · exact .same h

lemma joinProcessLivenessLease_step (hjoins : joins) (instant clock : ℤ) (leaseID : String) :
    ProcessStep handsBack joins process now memory db
      (joinProcessLivenessLease memory db process instant clock leaseID).2.1
      (joinProcessLivenessLease memory db process instant clock leaseID).2.2 := by
  unfold joinProcessLivenessLease
  split
  · exact .same h
  next hlost =>
    split
    next owner howner =>
      have hasserted : ProcessStep handsBack joins process now memory db (assertOwnerInTransaction memory
          db owner.leaseID owner.occurrenceID process clock).2 db :=
        assertOwnerInTransaction_step h _ _ _ _
      split
      next error asserted hassert =>
        rw [hassert] at hasserted
        exact hasserted
      next asserted hassert =>
        cases assertOwnerInTransaction_eq_ok hassert
        refine .quiet ?_ ?_
        · rintro _ ⟨⟩
          exact h owner howner
        · simp [ProcessLivenessMemory.Outside, ProcessLivenessMemory.refer, howner]
    next hnone =>
      split
      · exact .same h
      next acquired db' hacquire =>
        rcases acquireControlLease_eq_ok hacquire with ⟨_, -, -, rfl, rfl⟩ | ⟨rfl, -⟩
        · -- An acquisition that finds the occurrence leased writes nothing.
          exact .same h
        · refine .takes hjoins ?_ ⟨hnone, hlost⟩ ?_ rfl rfl hacquire
          · rintro _ ⟨⟩
            exact ⟨rfl, fun hloss => by cases hloss⟩
          · rintro ⟨howned, -⟩
            cases howned

lemma releaseLastReference_step (howner : owner ∈ memory.currentOwner) (index : ℕ) (fault : Option String)
    (hhands : (releaseControlLeaseOnErrorPath db (owner.claim now) fault).1 = true → handsBack) :
    ProcessStep handsBack joins process now memory db
      (releaseLastReference (memory.mark index) db owner.leave now fault).1
      (releaseLastReference (memory.mark index) db owner.leave now fault).2 := by
  obtain ⟨howned, hloss⟩ := h owner howner
  have hclaim : owner.leave.claim now = owner.claim now := rfl
  have hgone : ∀ lostFences references,
      (⟨none, lostFences, references⟩ : ProcessLivenessMemory).Sound process := by
    rintro _ _ _ ⟨⟩
  unfold releaseLastReference
  rw [hclaim]
  cases hrelease : releaseControlLeaseOnErrorPath db (owner.claim now) fault with
  | mk released db' =>
    rw [hrelease] at hhands
    cases released with
    | true =>
      have hreleased : releaseControlLeaseInTransaction db (owner.claim now) = (true, db') := by
        unfold releaseControlLeaseOnErrorPath at hrelease
        split at hrelease
        · exact hrelease
        · cases hrelease
      exact .returns (hhands rfl) (hgone _ _) howned hreleased
    | false =>
      have hsame : db' = db := by
        unfold releaseControlLeaseOnErrorPath at hrelease
        split at hrelease
        · exact releaseControlLease_of_false hrelease
        · exact (congrArg Prod.snd hrelease).symm
      rw [hsame]
      dsimp only
      by_cases hlost : owner.leave.fenceError.isSome
      · rw [if_pos (.inr hlost)]
        exact .loses (hgone _ _) (hloss hlost)
      · rw [if_neg (by simp [hlost])]
        refine .loses (hgone _ _) ?_
        rw [← howned]
        simp [recordFenceLoss, ProcessLivenessOwner.leave]

lemma releaseReference_step (index : ℕ) (fault : Option String) :
    ProcessStep (HandsBackReference memory db index now fault) joins process now memory db
      (releaseReference memory db index now fault).1 (releaseReference memory db index now fault).2 := by
  unfold releaseReference
  split
  · exact .same h
  next reference hreference =>
    split_ifs with hreleased
    · exact .same h
    · split
      · exact .quiet h Iff.rfl
      next owner hfound =>
        obtain ⟨howner, hactive⟩ := Option.filter_eq_some_iff.mp hfound
        rw [decide_eq_true_eq] at hactive
        split_ifs with hmore
        · refine .quiet ?_ ?_
          · rintro _ ⟨⟩
            exact h owner howner
          · simp [ProcessLivenessMemory.Outside, howner]
        · refine releaseLastReference_step h howner index fault fun hhands => ?_
          have hlast : owner.references = 1 := by
            simp only [ProcessLivenessOwner.leave] at hmore
            omega
          exact ⟨owner, howner, hlast, ⟨reference, hreference, by simpa using hreleased,
            hactive.1.symm⟩, hhands⟩

end

end Calls

/-! ## What a call does to the leases -/

section Leases

variable {db db' : ControlLeaseTables} {process : String} {now : ℤ}

lemma isProcessOccurrenceLive_congr
    (h : db'.ofTarget .runtimeProcess process = db.ofTarget .runtimeProcess process) :
    isProcessOccurrenceLive db' process now = isProcessOccurrenceLive db process now := by
  unfold isProcessOccurrenceLive currentControlLeaseInTransaction
  rw [h]

lemma not_live_mono {later : ℤ} (hle : now ≤ later) (h : ¬isProcessOccurrenceLive db process now = true) :
    ¬isProcessOccurrenceLive db process later = true := by
  unfold isProcessOccurrenceLive at h ⊢
  cases hcurrent : currentControlLeaseInTransaction db .runtimeProcess process with
  | none => simp
  | some lease =>
    rw [hcurrent] at h
    have hexpired : lease.expiresAt ≤ now := by simpa using h
    have hlater : lease.expiresAt ≤ later := hexpired.trans hle
    simpa using hlater

lemma not_live_of_release {claim : ControlLeaseClaim} (htarget : claim.target = .runtimeProcess)
    (h : releaseControlLeaseInTransaction db claim = (true, db')) :
    ¬isProcessOccurrenceLive db' claim.targetID claim.now = true := by
  obtain ⟨_, -, -, hreleased⟩ := currentControlLease_of_release h
  rw [htarget] at hreleased
  unfold isProcessOccurrenceLive
  rw [hreleased]
  simp

end Leases

/-! ## What a call does to the life of its process -/

section Life

variable {memory memory' : ProcessLivenessMemory} {db db' : ControlLeaseTables} {process : String}
  {now : ℤ} {handsBack joins : Prop}

lemma live_of_holds {claim : ControlLeaseClaim} {current : ControlLease}
    (htarget : claim.target = .runtimeProcess)
    (hcurrent : currentControlLeaseInTransaction db claim.target claim.targetID = some current)
    (hholds : claim.Holds current) : isProcessOccurrenceLive db claim.targetID claim.now = true := by
  unfold isProcessOccurrenceLive
  rw [← htarget, hcurrent]
  simpa using hholds.2.2

section

variable (h : ProcessStep handsBack joins process now memory db memory' db')

include h

lemma ProcessStep.sound : memory'.Sound process := by
  cases h <;> assumption

lemma ProcessStep.leases (hunique : PrimaryKey ControlLease.id (db.rowsOf .runtimeProcess)) :
    PrimaryKey ControlLease.id (db'.rowsOf .runtimeProcess) ∧ ∀ other, other ≠ process →
      db'.ofTarget .runtimeProcess other = db.ofTarget .runtimeProcess other := by
  cases h with
  | quiet | loses => exact ⟨hunique, fun _ _ => rfl⟩
  | returns _ _ owned released =>
    obtain ⟨hmoves, _, hcurrent, hholds⟩ := release_moves released
    refine ⟨hmoves.primaryKey hunique, fun other hne => ?_⟩
    exact hmoves.ofTarget_other hunique hcurrent hholds.1 fun hsame => hne (hsame.trans owned)
  | renews _ _ owned renewed =>
    obtain ⟨hmoves, _, hcurrent, hholds⟩ := renew_moves renewed
    refine ⟨hmoves.primaryKey hunique, fun other hne => ?_⟩
    exact hmoves.ofTarget_other hunique hcurrent hholds.1 fun hsame => hne (hsame.trans owned)
  | takes _ _ _ _ target targetID acquired =>
    rw [← target, ← targetID]
    rw [← target] at hunique
    exact acquire_effect acquired hunique

lemma ProcessStep.dead_of_outside (hdead : memory.Outside process → ¬isProcessOccurrenceLive db process now = true)
    (hout : memory'.Outside process) : ¬isProcessOccurrenceLive db' process now = true := by
  cases h with
  | quiet _ outside => exact hdead (outside.mp hout)
  | loses _ lost =>
    rw [hout.2] at lost
    cases lost
  | returns _ _ owned released =>
    rw [← owned]
    exact not_live_of_release rfl released
  | renews _ outside => exact absurd hout outside
  | takes _ _ _ inside => exact absurd hout inside

lemma ProcessStep.dead_of_inside (hin : ¬memory.Outside process)
    (hdead : ¬isProcessOccurrenceLive db process now = true) :
    ¬memory'.Outside process ∧ ¬isProcessOccurrenceLive db' process now = true := by
  cases h with
  | quiet _ outside => exact ⟨fun hout => hin (outside.mp hout), hdead⟩
  | loses _ lost =>
    refine ⟨fun hout => ?_, hdead⟩
    rw [hout.2] at lost
    cases lost
  | returns _ _ owned released =>
    obtain ⟨-, _, hcurrent, hholds⟩ := release_moves released
    exact absurd (owned ▸ live_of_holds rfl hcurrent hholds) hdead
  | renews _ _ owned renewed =>
    obtain ⟨-, _, hcurrent, hholds⟩ := renew_moves renewed
    exact absurd (owned ▸ live_of_holds rfl hcurrent hholds) hdead
  | takes _ _ outside => exact absurd outside hin

lemma ProcessStep.dead_of_not_joins (hjoins : ¬joins) (hdead : ¬isProcessOccurrenceLive db process now = true) :
    ¬isProcessOccurrenceLive db' process now = true := by
  cases h with
  | quiet | loses => exact hdead
  | returns _ _ owned released =>
    rw [← owned]
    exact not_live_of_release rfl released
  | renews _ _ owned renewed =>
    obtain ⟨-, _, hcurrent, hholds⟩ := renew_moves renewed
    exact absurd (owned ▸ live_of_holds rfl hcurrent hholds) hdead
  | takes allowed => exact absurd allowed hjoins

lemma ProcessStep.inside (hhands : ¬handsBack) (hin : ¬memory.Outside process) : ¬memory'.Outside process := by
  cases h with
  | quiet _ outside => exact fun hout => hin (outside.mp hout)
  | loses _ lost =>
    intro hout
    rw [hout.2] at lost
    cases lost
  | returns allowed => exact absurd allowed hhands
  | renews _ outside => exact outside
  | takes _ _ _ inside => exact inside

end

end Life

/-! ## Steps of the system -/

section Steps

variable {s s' : LivenessState} {call : ℤ × LivenessAction} {process : String}

/-- The process runs, and neither owns the lease nor lost its fence. -/
def LivenessState.MayJoin (s : LivenessState) (process : String) : Prop :=
  process ∉ s.crashed ∧ (s.memory process).Outside process

instance decidableMayJoin (s : LivenessState) (process : String) : Decidable (s.MayJoin process) :=
  inferInstanceAs (Decidable (_ ∧ _))

def HandsBack (s : LivenessState) (process : String) : ℤ × LivenessAction → Prop
  | (now, .release other index fault) =>
    other = process ∧ HandsBackReference (s.memory process) s.db index now fault
  | _ => False

def IsJoin (process : String) : ℤ × LivenessAction → Prop
  | (_, .join other _ _) => other = process
  | _ => False

/-- What the system guarantees in every reachable state. -/
structure LivenessInv (s : LivenessState) : Prop where
  leaseID : PrimaryKey ControlLease.id (s.db.rowsOf .runtimeProcess)
  sound : ∀ process, (s.memory process).Sound process
  /-- A process that neither owns nor lost its lease has none that is live. -/
  outside : ∀ process, (s.memory process).Outside process → ¬s.Live process

@[simp] lemma write_memory_self {memory : ProcessLivenessMemory} {db : ControlLeaseTables} :
    (s.write process memory db).memory process = memory := by
  simp [LivenessState.write, LivenessState.memory]

lemma write_memory_other {memory : ProcessLivenessMemory} {db : ControlLeaseTables} {other : String}
    (h : other ≠ process) : (s.write process memory db).memory other = s.memory other := by
  have hmiss : (other == process) = false := by simpa using h
  unfold LivenessState.write LivenessState.memory
  rw [List.lookup_cons, hmiss]
  rw [lookup_filter_ne h]

lemma call_eq_some {answer : ProcessLivenessMemory × ControlLeaseTables} : s.call process answer = some s' ↔
      process ∉ s.crashed ∧ s' = s.write process answer.1 answer.2 := by
  unfold call
  split_ifs with hcrashed
  · simp [hcrashed]
  · simp [hcrashed, eq_comm]

lemma livenessStep_cases (hsound : ∀ process, (s.memory process).Sound process)
    (h : livenessStep s call = some s') :
    s.clock ≤ call.1 ∧ ((∃ process memory db, process ∉ s.crashed ∧
          s' = ({ s with clock := call.1 }).write process memory db ∧
          ProcessStep (HandsBack s process call) (IsJoin process call) process call.1
            (s.memory process) s.db memory db) ∨
        (∃ process, s' = { s with clock := call.1, crashed := process :: s.crashed }) ∨
        ∃ tables, s' = { s with clock := call.1, db := s.db.withOtherLeases .runtimeProcess tables }) := by
  obtain ⟨now, action⟩ := call
  unfold livenessStep at h
  split_ifs at h with hclock
  refine ⟨not_lt.mp hclock, ?_⟩
  cases action with
  | join process =>
    obtain ⟨hcrashed, rfl⟩ := call_eq_some.mp h
    exact .inl ⟨process, _, _, hcrashed, rfl, joinProcessLivenessLease_step (hsound process) rfl _ _ _⟩
  | release process index fault =>
    obtain ⟨hcrashed, rfl⟩ := call_eq_some.mp h
    have hstep : ProcessStep (HandsBackReference (s.memory process) s.db index now fault)
        (IsJoin process (now, .release process index fault)) process now (s.memory process) s.db _ _ :=
      releaseReference_step (hsound process) index fault
    exact .inl ⟨process, _, _, hcrashed, rfl, hstep.mono fun hhands => ⟨rfl, hhands⟩⟩
  | renew process =>
    obtain ⟨hcrashed, rfl⟩ := call_eq_some.mp h
    exact .inl ⟨process, _, _, hcrashed, rfl, renewOwner_step (hsound process) _ _⟩
  | assertOwned process =>
    obtain ⟨hcrashed, rfl⟩ := call_eq_some.mp h
    exact .inl ⟨process, _, _, hcrashed, rfl, assertOwnerInTransaction_step (hsound process) _ _ _ _⟩
  | assertProcess process =>
    obtain ⟨hcrashed, rfl⟩ := call_eq_some.mp h
    exact .inl ⟨process, _, _, hcrashed, rfl, assertProcessLivenessOwner_step (hsound process) _ _⟩
  | crash process =>
    cases h
    exact .inr (.inl ⟨process, rfl⟩)
  | host tables =>
    cases h
    exact .inr (.inr ⟨tables, rfl⟩)

lemma LivenessInv.view (h : LivenessInv s) (hstep : livenessStep s call = some s') (process : String) :
    s.clock ≤ s'.clock ∧ ((process ∉ s.crashed ∧ s'.crashed = s.crashed ∧
          ProcessStep (HandsBack s process call) (IsJoin process call) process s'.clock
            (s.memory process) s.db (s'.memory process) s'.db) ∨
        (s.crashed ⊆ s'.crashed ∧ s'.memory process = s.memory process ∧
          s'.db.ofTarget .runtimeProcess process = s.db.ofTarget .runtimeProcess process)) := by
  obtain ⟨hclock, hcases⟩ := livenessStep_cases h.sound hstep
  rcases hcases with ⟨caller, _, _, hruns, rfl, hcall⟩ | ⟨_, rfl⟩ | ⟨tables, rfl⟩
  · refine ⟨hclock, ?_⟩
    by_cases hcaller : process = caller
    · rw [hcaller, write_memory_self]
      exact .inl ⟨hruns, rfl, hcall⟩
    · rw [write_memory_other hcaller]
      exact .inr ⟨List.Subset.refl _, rfl, (hcall.leases h.leaseID).2 process hcaller⟩
  · exact ⟨hclock, .inr ⟨List.subset_cons_self _ _, rfl, rfl⟩⟩
  · exact ⟨hclock, .inr ⟨List.Subset.refl _, rfl, withOtherLeases_ofTarget tables⟩⟩

theorem LivenessInv.step (h : LivenessInv s) (hstep : livenessStep s call = some s') : LivenessInv s' := by
  refine ⟨?_, fun process => ?_, fun process hout => ?_⟩
  · obtain ⟨-, hcases⟩ := livenessStep_cases h.sound hstep
    rcases hcases with ⟨_, _, _, -, rfl, hcall⟩ | ⟨_, rfl⟩ | ⟨_, rfl⟩
    · exact (hcall.leases h.leaseID).1
    · exact h.leaseID
    · rw [withOtherLeases_rowsOf]
      exact h.leaseID
  · rcases (h.view hstep process).2 with ⟨-, -, hcall⟩ | ⟨-, hmemory, -⟩
    · exact hcall.sound
    · rw [hmemory]
      exact h.sound process
  · obtain ⟨hclock, hcall | ⟨-, hmemory, hleases⟩⟩ := h.view hstep process
    · refine hcall.2.2.dead_of_outside (fun hbefore => ?_) hout
      exact not_live_mono hclock (h.outside process hbefore)
    · rw [hmemory] at hout
      unfold LivenessState.Live
      rw [isProcessOccurrenceLive_congr hleases]
      exact not_live_mono hclock (h.outside process hout)

lemma LivenessInv.dead_step (h : LivenessInv s) (hstep : livenessStep s call = some s')
    (hin : ¬s.MayJoin process) (hdead : ¬s.Live process) :
    ¬s'.MayJoin process ∧ ¬s'.Live process := by
  obtain ⟨hclock, ⟨hruns, hcrashed, hcall⟩ | ⟨hcrashed, hmemory, hleases⟩⟩ := h.view hstep process
  · have hinside : ¬(s.memory process).Outside process := fun hout => hin ⟨hruns, hout⟩
    obtain ⟨hstill, hdead'⟩ := hcall.dead_of_inside hinside (not_live_mono hclock hdead)
    exact ⟨fun hmay => hstill hmay.2, hdead'⟩
  · refine ⟨fun hmay => hin ⟨fun hmem => hmay.1 (hcrashed hmem), hmemory ▸ hmay.2⟩, ?_⟩
    unfold LivenessState.Live
    rw [isProcessOccurrenceLive_congr hleases]
    exact not_live_mono hclock hdead

lemma LivenessInv.dead_step_of_not_join (h : LivenessInv s) (hstep : livenessStep s call = some s')
    (hjoin : ¬IsJoin process call) (hdead : ¬s.Live process) : ¬s'.Live process := by
  obtain ⟨hclock, ⟨-, -, hcall⟩ | ⟨-, -, hleases⟩⟩ := h.view hstep process
  · exact hcall.dead_of_not_joins hjoin (not_live_mono hclock hdead)
  · unfold LivenessState.Live
    rw [isProcessOccurrenceLive_congr hleases]
    exact not_live_mono hclock hdead

lemma LivenessInv.not_mayJoin_step (h : LivenessInv s) (hstep : livenessStep s call = some s')
    (hhands : ¬HandsBack s process call) (hin : ¬s.MayJoin process) : ¬s'.MayJoin process := by
  obtain ⟨-, ⟨hruns, -, hcall⟩ | ⟨hcrashed, hmemory, -⟩⟩ := h.view hstep process
  · have hinside : ¬(s.memory process).Outside process := fun hout => hin ⟨hruns, hout⟩
    exact fun hmay => hcall.inside hhands hinside hmay.2
  · exact fun hmay => hin ⟨fun hmem => hmay.1 (hcrashed hmem), hmemory ▸ hmay.2⟩

end Steps

/-! ## Runs -/

section Runs

variable {s t : LivenessState} {calls : List (ℤ × LivenessAction)} {process : String}

/-- The invariant holds before anyone joins. -/
lemma livenessInv_of_initial (h : s.Initial) : LivenessInv s := by
  have hnone : ∀ process, s.memory process = .empty := by
    intro process
    unfold memory
    rw [h.memories]
    rfl
  refine ⟨?_, fun process => ?_, fun process _ => ?_⟩
  · have hempty : (s.db.rowsOf .runtimeProcess) = [] := by
      unfold ControlLeaseTables.rowsOf
      rw [List.filter_eq_nil_iff]
      simpa using h.leases
    rw [hempty]
    exact primaryKey_nil
  · rw [hnone]
    rintro _ ⟨⟩
  · have hempty : s.db.ofTarget .runtimeProcess process = [] := by
      unfold ControlLeaseTables.ofTarget
      rw [List.filter_eq_nil_iff]
      intro lease hlease
      simp [h.leases lease hlease]
    unfold LivenessState.Live isProcessOccurrenceLive currentControlLeaseInTransaction
    rw [hempty]
    simp

/-- Every run keeps the invariant. -/
lemma LivenessInv.exec (h : LivenessInv s) (hrun : exec livenessStep s calls = some t) : LivenessInv t :=
  Preserves.exec (fun _ _ _ hinv hstep => hinv.step hstep) h hrun

theorem LivenessInv.dead_exec (h : LivenessInv s) (hin : ¬s.MayJoin process) (hdead : ¬s.Live process)
    (hrun : ExecutableSystem.exec livenessStep s calls = some t) : ¬t.Live process := by
  have hpreserves : Preserves livenessStep fun s =>
      LivenessInv s ∧ ¬s.MayJoin process ∧ ¬s.Live process :=
    fun _ _ _ ⟨hinv, hout, hdies⟩ hstep => ⟨hinv.step hstep, hinv.dead_step hstep hout hdies⟩
  exact (hpreserves.exec ⟨h, hin, hdead⟩ hrun).2.2

lemma LivenessInv.exists_join (h : LivenessInv s) (hdead : ¬s.Live process)
    (hrun : ExecutableSystem.exec livenessStep s calls = some t) (hlive : t.Live process) :
    ∃ call ∈ calls, IsJoin process call := by
  by_contra hnone
  push Not at hnone
  have hwithin : Within livenessStep (fun _ call => ¬IsJoin process call) s calls := by
    by_contra hout
    obtain ⟨_, call, _, -, rfl, -, hjoin⟩ := exists_of_not_within hout
    exact hjoin (hnone call (by simp))
  have hstays : ∀ ⦃s call s'⦄, LivenessInv s ∧ ¬s.Live process → ¬IsJoin process call →
      livenessStep s call = some s' → LivenessInv s' ∧ ¬s'.Live process :=
    fun _ _ _ hinv hjoin hstep => ⟨hinv.1.step hstep, hinv.1.dead_step_of_not_join hstep hjoin hinv.2⟩
  exact (Within.exec hstays ⟨h, hdead⟩ hwithin hrun).2 hlive

lemma LivenessInv.exists_handsBack (h : LivenessInv s) (hlive : s.Live process)
    (hrun : ExecutableSystem.exec livenessStep s calls = some t) (hmay : t.MayJoin process) :
    ∃ before call after u, calls = before ++ call :: after ∧
      ExecutableSystem.exec livenessStep s before = some u ∧ HandsBack u process call := by
  by_contra hnone
  push Not at hnone
  have hwithin : Within livenessStep (fun s call => ¬HandsBack s process call) s calls := by
    by_contra hout
    obtain ⟨before, call, after, u, hcalls, hu, hhands⟩ := exists_of_not_within hout
    exact hhands (hnone before call after u hcalls hu)
  have hin : ¬s.MayJoin process := fun hmay => h.outside process hmay.2 hlive
  have hstays : ∀ ⦃s call s'⦄, LivenessInv s ∧ ¬s.MayJoin process → ¬HandsBack s process call →
      livenessStep s call = some s' → LivenessInv s' ∧ ¬s'.MayJoin process :=
    fun _ _ _ hinv hhands hstep => ⟨hinv.1.step hstep, hinv.1.not_mayJoin_step hstep hhands hinv.2⟩
  exact (Within.exec hstays ⟨h, hin⟩ hwithin hrun).2 hmay

/-- In every run from a state in which no process has joined, an occurrence that lived, died, and lives
again is that of a process that had left without a loss: it handed its lease back by its last release in
between, and joined again afterwards. -/
theorem handedBack_of_revived {s₀ s₁ s₂ s₃ : LivenessState}
    {before middle after : List (ℤ × LivenessAction)} (hinit : s₀.Initial)
    (hbefore : exec livenessStep s₀ before = some s₁) (hmiddle : exec livenessStep s₁ middle = some s₂)
    (hafter : exec livenessStep s₂ after = some s₃) (hlived : s₁.Live process)
    (hdied : ¬s₂.Live process) (hlives : s₃.Live process) :
    s₂.MayJoin process ∧ (∃ first call rest u, middle = first ++ call :: rest ∧
        exec livenessStep s₁ first = some u ∧ HandsBack u process call) ∧
      ∃ call ∈ after, IsJoin process call := by
  have hinv₁ : LivenessInv s₁ := (livenessInv_of_initial hinit).exec hbefore
  have hinv₂ : LivenessInv s₂ := hinv₁.exec hmiddle
  have hmay : s₂.MayJoin process := by
    by_contra hin
    exact hinv₂.dead_exec hin hdied hafter hlives
  exact ⟨hmay, hinv₁.exists_handsBack hlived hmiddle hmay, hinv₂.exists_join hdied hafter hlives⟩

end Runs

/-! ### Examples -/

/-- No process has joined. -/
def unjoinedState : LivenessState := ⟨⟨[], []⟩, 0, [], []⟩

def joinedState : LivenessState where
  db := ⟨[⟨"act_1", .runtimeProcess, "occ_1", "occ_1", 1, 90001⟩], [⟨"act_1", 1, 90001, 1⟩]⟩
  clock := 1
  memories := [("occ_1", ⟨some ⟨"occ_1", "act_1", 1, 90001, none⟩, [], [⟨"occ_1", "act_1", false⟩]⟩)]
  crashed := []

def leftState : LivenessState where
  db := ⟨[⟨"act_1", .runtimeProcess, "occ_1", "occ_1", 1, 2⟩], [⟨"act_1", 1, 90001, 1⟩]⟩
  clock := 2
  memories := [("occ_1", ⟨none, [], [⟨"occ_1", "act_1", true⟩]⟩)]
  crashed := []

def rejoinedState : LivenessState where
  db := ⟨[⟨"act_1", .runtimeProcess, "occ_1", "occ_1", 1, 2⟩,
    ⟨"act_2", .runtimeProcess, "occ_1", "occ_1", 3, 90003⟩], [⟨"act_1", 1, 90001, 1⟩, ⟨"act_2", 1, 90003, 3⟩]⟩
  clock := 3
  memories := [("occ_1", ⟨some ⟨"occ_1", "act_2", 1, 90003, none⟩, [],
    [⟨"occ_1", "act_1", true⟩, ⟨"occ_1", "act_2", false⟩]⟩)]
  crashed := []

lemma joins_run : exec livenessStep unjoinedState [(1, .join "occ_1" 1 "act_1")] = some joinedState := by
  decide

lemma leaves_run : exec livenessStep joinedState [(2, .release "occ_1" 0 none)] = some leftState := by
  decide

lemma rejoins_run : exec livenessStep leftState [(3, .join "occ_1" 3 "act_2")] = some rejoinedState := by
  decide

lemma lives_joined : joinedState.Live "occ_1" := by decide

lemma died_left : ¬leftState.Live "occ_1" := by decide

lemma lives_rejoined : rejoinedState.Live "occ_1" := by decide

/-- The process that joins again has handed its lease back. -/
theorem handedBack_of_rejoin : leftState.MayJoin "occ_1" ∧
      (∃ first call rest u, [((2 : ℤ), LivenessAction.release "occ_1" 0 none)] = first ++ call :: rest ∧
        exec livenessStep joinedState first = some u ∧ HandsBack u "occ_1" call) ∧
      ∃ call ∈ [((3 : ℤ), LivenessAction.join "occ_1" 3 "act_2")], IsJoin "occ_1" call := by
  exact handedBack_of_revived (by decide) joins_run leaves_run rejoins_run lives_joined died_left lives_rejoined

/-- An occurrence that died by the last release of its process lives again after a new join. -/
theorem rejoined_lives : ¬∀ (s₀ s₁ s₂ s₃ : LivenessState) (before middle after : List (ℤ × LivenessAction))
      (process : String), s₀.Initial → exec livenessStep s₀ before = some s₁ →
        exec livenessStep s₁ middle = some s₂ → exec livenessStep s₂ after = some s₃ →
          s₁.Live process → ¬s₂.Live process → ¬s₃.Live process := by
  intro h
  exact h _ _ _ _ _ _ _ "occ_1" (by decide) joins_run leaves_run rejoins_run lives_joined died_left lives_rejoined

end OpenCorvus.Engine
