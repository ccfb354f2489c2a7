import OpenCorvus.Engine.ControlLease
import OpenCorvus.Foundation.ExecutableSystem

/-!
# Fencing by control leases

Any owners call the four lease operations in any order under one clock that never runs backwards.
The lease table decides who is current by activation instant and lease id; the callers rely on the
order of commits.  This file compares the two.
-/

namespace OpenCorvus.Engine

open ExecutableSystem List ControlLeaseTables

structure ControlLeaseDatabase where
  tables : ControlLeaseTables
  clock : ℤ

def ControlLeaseDatabase.empty (clock : ℤ) : ControlLeaseDatabase := ⟨⟨[], []⟩, clock⟩

inductive ControlLeaseCall where
  | acquire (input : AcquireControlLeaseInput)
  | assert (claim : ControlLeaseClaim)
  | renew (claim : ControlLeaseClaim) (expiresAt : ℤ)
  | release (claim : ControlLeaseClaim)

open ControlLeaseCall

def ControlLeaseCall.now : ControlLeaseCall → ℤ
  | acquire input => input.now
  | assert claim => claim.now
  | renew claim _ => claim.now
  | release claim => claim.now

variable (db : ControlLeaseTables)

def ControlLeaseCall.write : ControlLeaseCall → ControlLeaseTables
  | acquire input =>
    match acquireControlLeaseInTransaction db input with
    | .ok (_, db') => db'
    | .error _ => db
  | assert _ => db
  | renew claim expiresAt =>
    match renewControlLeaseInTransaction db claim expiresAt with
    | .ok db' => db'
    | .error _ => db
  | release claim => (releaseControlLeaseInTransaction db claim).2

def controlLeaseStep (s : ControlLeaseDatabase) (call : ControlLeaseCall) : Option ControlLeaseDatabase :=
  if s.clock ≤ call.now then some ⟨call.write s.tables, call.now⟩ else none

def ControlLeaseCall.granted : ControlLeaseCall → Option ControlLease
  | acquire input =>
    match acquireControlLeaseInTransaction db input with
    | .ok (⟨true, lease⟩, _) => some lease
    | _ => none
  | _ => none

def ControlLeaseCall.expiry (lease : ControlLease) : ControlLeaseCall → ℤ
  | renew claim expiresAt =>
    match renewControlLeaseInTransaction db claim expiresAt with
    | .ok _ => if claim.leaseID = lease.id then expiresAt else lease.expiresAt
    | .error _ => lease.expiresAt
  | release claim =>
    if (releaseControlLeaseInTransaction db claim).1 ∧ claim.leaseID = lease.id then claim.now
    else lease.expiresAt
  | _ => lease.expiresAt

def ControlLease.after (lease : ControlLease) : ControlLeaseDatabase → List ControlLeaseCall → ControlLease
  | _, [] => lease
  | s, call :: calls =>
    match controlLeaseStep s call with
    | none => lease
    | some s' => after { lease with expiresAt := call.expiry s.tables lease } s' calls

structure ControlLeaseDatabase.Wellformed (s : ControlLeaseDatabase) : Prop where
  /-- The primary key of the table. -/
  id_injective : ∀ row ∈ s.tables.leases, ∀ row' ∈ s.tables.leases, row.id = row'.id → row = row'
  activated : ∀ row ∈ s.tables.leases, row.timeActivated ≤ s.clock

lemma ControlLeaseDatabase.wellformed_empty (clock : ℤ) : (ControlLeaseDatabase.empty clock).Wellformed :=
  ⟨by simp [empty], by simp [empty]⟩

variable {call : ControlLeaseCall} {lease row : ControlLease} {s s' : ControlLeaseDatabase}
  {calls : List ControlLeaseCall}

lemma granted_cases {db : ControlLeaseTables} (h : call.granted db = some lease) :
    ∃ input, call = .acquire input ∧ lease = input.lease ∧
      (call.write db).leases = db.leases ++ [lease] ∧ ∀ row ∈ db.leases, row.id ≠ lease.id := by
  cases call with
  | acquire input =>
    cases hacquire : acquireControlLeaseInTransaction db input with
    | error => simp [granted, hacquire] at h
    | ok answer =>
      obtain ⟨_, _⟩ := answer
      simp only [granted, hacquire] at h
      rcases acquireControlLease_eq_ok hacquire with ⟨_, -, -, rfl, -⟩ |
        ⟨rfl, hleases, -, -, hfresh, -⟩
      · simp at h
      · simp only [Option.some.injEq] at h
        subst h
        exact ⟨input, rfl, rfl, by simpa [write, hacquire] using hleases, hfresh⟩
  | assert | renew | release => simp [granted] at h

/-- A call that is granted no lease only moves the expiry of rows, as `expiry` says. -/
lemma write_leases_of_not_granted (hs : s.Wellformed) (h : call.granted s.tables = none) :
    (call.write s.tables).leases =
      s.tables.leases.map fun row => { row with expiresAt := call.expiry s.tables row } := by
  cases call with
  | acquire input =>
    cases hacquire : acquireControlLeaseInTransaction s.tables input with
    | error => simp [write, expiry, hacquire]
    | ok answer =>
      obtain ⟨_, _⟩ := answer
      rcases acquireControlLease_eq_ok hacquire with ⟨_, -, -, rfl, rfl⟩ | ⟨rfl, -⟩
      · simp [write, expiry, hacquire]
      · simp [granted, hacquire] at h
  | assert => simp [write, expiry]
  | renew claim expiresAt =>
    cases hrenew : renewControlLeaseInTransaction s.tables claim expiresAt with
    | error => simp [write, expiry, hrenew]
    | ok =>
      obtain ⟨-, current, hcurrent, hholds, hleases⟩ := renewControlLease_eq_ok hrenew
      simp only [write, expiry, hrenew, hleases, renewed]
      refine map_congr_left fun row hrow => ?_
      -- By uniqueness of ids, the update matches the current row and no other.
      by_cases hid : row.id = claim.leaseID
      · have hrowCurrent : row = current :=
          hs.id_injective row hrow current (mem_of_currentControlLease hcurrent).1 (hid.trans hholds.1.symm)
        have hmatches : claim.matches current row = true := by
          subst hrowCurrent
          simp [ControlLeaseClaim.matches, hid, hholds.2.2]
        simp [hmatches, hid]
      · have hmatches : claim.matches current row = false := by
          simp [ControlLeaseClaim.matches, hid]
        simp [hmatches, Ne.symm hid]
  | release claim =>
    rw [write, releaseControlLease_leases]
    by_cases hreleased : (releaseControlLeaseInTransaction s.tables claim).1 = true
    · simp only [hreleased, if_true, expiry, true_and]
      refine map_congr_left fun row _ => ?_
      by_cases hid : row.id = claim.leaseID
      · simp [hid]
      · simp [hid, Ne.symm hid]
    · simp [hreleased, expiry]

lemma controlLeaseStep_eq_some : controlLeaseStep s call = some s' ↔
      s.clock ≤ call.now ∧ s' = ⟨call.write s.tables, call.now⟩ := by
  rw [controlLeaseStep]
  split_ifs with h <;> simp [h, eq_comm]

lemma mem_write (hs : s.Wellformed) (hrow : row ∈ (call.write s.tables).leases) :
    (∃ old ∈ s.tables.leases, row.SameIdentity old) ∨ call.granted s.tables = some row := by
  cases hgranted : call.granted s.tables with
  | none =>
    rw [write_leases_of_not_granted hs hgranted, List.mem_map] at hrow
    obtain ⟨old, hold, rfl⟩ := hrow
    exact Or.inl ⟨old, hold, old.sameIdentity_expiresAt _⟩
  | some =>
    obtain ⟨_, -, -, hleases, -⟩ := granted_cases hgranted
    rw [hleases, mem_append, mem_singleton] at hrow
    rcases hrow with hrow | rfl
    · exact Or.inl ⟨row, hrow, rfl, rfl, rfl, rfl, rfl⟩
    · exact Or.inr rfl

lemma exists_mem_write (hs : s.Wellformed) (call : ControlLeaseCall) (hrow : row ∈ s.tables.leases) :
    ∃ row' ∈ (call.write s.tables).leases, row'.SameIdentity row := by
  cases hgranted : call.granted s.tables with
  | none =>
    rw [write_leases_of_not_granted hs hgranted]
    exact ⟨_, List.mem_map_of_mem hrow, row.sameIdentity_expiresAt _⟩
  | some =>
    obtain ⟨_, -, -, hleases, -⟩ := granted_cases hgranted
    exact ⟨row, by simp [hleases, hrow], rfl, rfl, rfl, rfl, rfl⟩

theorem wellformed_preserved : Preserves controlLeaseStep ControlLeaseDatabase.Wellformed := by
  intro s call s' hs hstep
  obtain ⟨hclock, rfl⟩ := controlLeaseStep_eq_some.mp hstep
  constructor
  · intro row hrow row' hrow' hid
    cases hgranted : call.granted s.tables with
    | none =>
      simp only [write_leases_of_not_granted hs hgranted, List.mem_map] at hrow hrow'
      obtain ⟨old, hold, rfl⟩ := hrow
      obtain ⟨old', hold', rfl⟩ := hrow'
      rw [hs.id_injective old hold old' hold' hid]
    | some =>
      obtain ⟨_, -, -, hleases, hfresh⟩ := granted_cases hgranted
      simp only [hleases, mem_append, mem_singleton] at hrow hrow'
      rcases hrow with hrow | rfl <;> rcases hrow' with hrow' | rfl
      · exact hs.id_injective row hrow row' hrow' hid
      · exact absurd hid (hfresh row hrow)
      · exact absurd hid.symm (hfresh row' hrow')
      · rfl
  · intro row hrow
    rcases mem_write hs hrow with ⟨old, hold, hsame⟩ | hgranted
    · exact hsame.timeActivated ▸ (hs.activated old hold).trans hclock
    · obtain ⟨_, rfl, rfl, -⟩ := granted_cases hgranted
      exact le_rfl

/-- The call is not granted a lease of the target of `lease`. -/
def LeavesTarget (lease : ControlLease) (s : ControlLeaseDatabase) (call : ControlLeaseCall) : Prop :=
  ∀ other, call.granted s.tables = some other → ¬(other.target = lease.target ∧ other.targetID = lease.targetID)

/-- No call of the sequence is granted a lease of the target of `lease`. -/
def Undisturbed (lease : ControlLease) : ControlLeaseDatabase → List ControlLeaseCall → Prop :=
  Within controlLeaseStep (LeavesTarget lease)

def ControlLease.Current (lease : ControlLease) (s : ControlLeaseDatabase) : Prop :=
  currentControlLeaseInTransaction s.tables lease.target lease.targetID = some lease

lemma current_of_leavesTarget (hs : s.Wellformed) (hcurrent : lease.Current s)
    (hleaves : LeavesTarget lease s call) (hstep : controlLeaseStep s call = some s') :
    ({ lease with expiresAt := call.expiry s.tables lease } : ControlLease).Current s' := by
  obtain ⟨-, rfl⟩ := controlLeaseStep_eq_some.mp hstep
  unfold ControlLease.Current currentControlLeaseInTransaction at hcurrent ⊢
  cases hgranted : call.granted s.tables with
  | none =>
    have hrows : (call.write s.tables).ofTarget lease.target lease.targetID =
        (s.tables.ofTarget lease.target lease.targetID).map fun row =>
          { row with expiresAt := call.expiry s.tables row } := by
      unfold ofTarget
      rw [write_leases_of_not_granted hs hgranted, List.filter_map]
      rfl
    have hkey : ∀ row ∈ s.tables.ofTarget lease.target lease.targetID,
        ({ row with expiresAt := call.expiry s.tables row } : ControlLease).orderKey =
          row.orderKey := fun row _ => rfl
    rw [hrows, LatestRow.argmax_map hkey, hcurrent]
    rfl
  | some =>
    obtain ⟨input, rfl, rfl, hleases, -⟩ := granted_cases hgranted
    have hrows : ((acquire input).write s.tables).ofTarget lease.target
        lease.targetID = s.tables.ofTarget lease.target lease.targetID := by
      unfold ofTarget
      rw [hleases, filter_append]
      have := hleaves input.lease hgranted
      simp [this]
    rw [hrows, hcurrent]
    rfl

theorem current_after (hs : s.Wellformed) (hcurrent : lease.Current s) (hcalls : Undisturbed lease s calls)
    (hrun : exec controlLeaseStep s calls = some s') :
    (lease.after s calls).Current s' := by
  induction calls generalizing s lease with
  | nil =>
    rw [exec_nil, Option.some.injEq] at hrun
    exact hrun ▸ hcurrent
  | cons _ _ ih =>
    obtain ⟨t, hstep, hrest⟩ := (exec_cons_eq_some _).mp hrun
    have hnext := current_of_leavesTarget hs hcurrent hcalls.1 hstep
    have := ih (wellformed_preserved hs hstep) hnext (hcalls.2 t hstep) hrest
    simpa only [ControlLease.after, hstep] using this

lemma after_sameIdentity (lease : ControlLease) (s : ControlLeaseDatabase)
    (calls : List ControlLeaseCall) : (lease.after s calls).SameIdentity lease := by
  induction calls generalizing s lease with
  | nil => exact ⟨rfl, rfl, rfl, rfl, rfl⟩
  | cons call _ ih =>
    unfold ControlLease.after
    cases controlLeaseStep s call with
    | none => exact ⟨rfl, rfl, rfl, rfl, rfl⟩
    | some s' =>
      have h := ih { lease with expiresAt := call.expiry s.tables lease } s'
      exact ⟨h.id, h.target, h.targetID, h.ownerOccurrenceID, h.timeActivated⟩

def ControlLease.claimAt (lease : ControlLease) (now : ℤ) : ControlLeaseClaim :=
  ⟨lease.target, lease.targetID, lease.id, lease.ownerOccurrenceID, now⟩

lemma assert_of_current (hsame : row.SameIdentity lease) (hcurrent : row.Current s) (now : ℤ) :
    assertControlLeaseInTransaction s.tables (lease.claimAt now) = .ok row ↔
      now < row.expiresAt := by
  have hrow : currentControlLeaseInTransaction s.tables lease.target lease.targetID = some row := by
    rw [← hsame.target, ← hsame.targetID]
    exact hcurrent
  rw [assertControlLease_eq_ok]
  exact ⟨fun h => h.2.2.2, fun h => ⟨hrow, hsame.id, hsame.ownerOccurrenceID, h⟩⟩

structure Overtaken (lease : ControlLease) (s : ControlLeaseDatabase) : Prop where
  /-- The row that carries the id of the lease. -/
  row : ∃ row ∈ s.tables.leases, row.SameIdentity lease
  above : ∃ row ∈ s.tables.ofTarget lease.target lease.targetID, lease.orderKey < row.orderKey

lemma overtaken_step (hs : s.Wellformed) (h : Overtaken lease s) (hstep : controlLeaseStep s call = some s') :
    Overtaken lease s' := by
  obtain ⟨-, rfl⟩ := controlLeaseStep_eq_some.mp hstep
  obtain ⟨⟨_, hrow, hsame⟩, ⟨_, htop, _⟩⟩ := h
  constructor
  · obtain ⟨row', hrow', hsame'⟩ := exists_mem_write hs call hrow
    exact ⟨row', hrow', hsame'.id.trans hsame.id, hsame'.target.trans hsame.target,
      hsame'.targetID.trans hsame.targetID,
      hsame'.ownerOccurrenceID.trans hsame.ownerOccurrenceID,
      hsame'.timeActivated.trans hsame.timeActivated⟩
  · obtain ⟨hmem, htarget, htargetID⟩ := mem_ofTarget.mp htop
    obtain ⟨top', htop', hsame'⟩ := exists_mem_write hs call hmem
    refine ⟨top', mem_ofTarget.mpr ⟨htop', ?_, ?_⟩, ?_⟩
    · exact hsame'.target.trans htarget
    · exact hsame'.targetID.trans htargetID
    · rwa [hsame'.orderKey_eq]

theorem overtaken_exec (hs : s.Wellformed) (h : Overtaken lease s)
    (hrun : exec controlLeaseStep s calls = some s') : Overtaken lease s' := by
  have hstep : Preserves controlLeaseStep fun s => s.Wellformed ∧ Overtaken lease s :=
    fun _ _ _ hs hstep => ⟨wellformed_preserved hs.1 hstep, overtaken_step hs.1 hs.2 hstep⟩
  exact (hstep.exec ⟨hs, h⟩ hrun).2

lemma Overtaken.ne_current (hs : s.Wellformed) (h : Overtaken lease s)
    {target : EngineControlActivationTarget} {targetID : String} {current : ControlLease}
    (hcurrent : currentControlLeaseInTransaction s.tables target targetID = some current) :
    current.id ≠ lease.id := by
  intro hid
  obtain ⟨⟨row, hrow, hsame⟩, ⟨top, htop, _⟩⟩ := h
  obtain ⟨hmem, htarget, htargetID⟩ := mem_of_currentControlLease hcurrent
  have heq : current = row := hs.id_injective current hmem row hrow (hid.trans hsame.id.symm)
  subst heq
  have hkey : current.orderKey < top.orderKey := by rwa [hsame.orderKey_eq]
  rw [← hsame.target, ← hsame.targetID, htarget, htargetID] at htop
  exact LatestRow.argmax_ne_of_lt htop hkey hcurrent

structure ShutOut (lease : ControlLease) (db : ControlLeaseTables) : Prop where
  assert : ∀ claim : ControlLeaseClaim, claim.leaseID = lease.id →
    ∀ current, assertControlLeaseInTransaction db claim ≠ .ok current
  renew : ∀ claim : ControlLeaseClaim, claim.leaseID = lease.id →
    ∀ expiresAt db', renewControlLeaseInTransaction db claim expiresAt ≠ .ok db'
  release : ∀ claim : ControlLeaseClaim, claim.leaseID = lease.id →
    (releaseControlLeaseInTransaction db claim).1 = false

lemma Overtaken.shutOut (hs : s.Wellformed) (h : Overtaken lease s) : ShutOut lease s.tables := by
  have hfail : ∀ claim : ControlLeaseClaim, claim.leaseID = lease.id → ∀ current,
      currentControlLeaseInTransaction s.tables claim.target claim.targetID = some current →
        ¬claim.Holds current :=
    fun claim hid current hcurrent hholds =>
      h.ne_current hs hcurrent (hholds.1.trans hid)
  constructor
  · intro claim hid current hassert
    obtain ⟨hcurrent, hholds⟩ := assertControlLease_eq_ok.mp hassert
    exact hfail claim hid current hcurrent hholds
  · intro claim hid expiresAt db' hrenew
    obtain ⟨-, current, hcurrent, hholds, -⟩ := renewControlLease_eq_ok hrenew
    exact hfail claim hid current hcurrent hholds
  · intro claim hid
    rw [← Bool.not_eq_true, releaseControlLease_fst]
    rintro ⟨current, hcurrent, hholds⟩
    exact hfail claim hid current hcurrent hholds

structure Fenced (lease : ControlLease) (s : ControlLeaseDatabase)
    (calls : List ControlLeaseCall) : Prop where
  /-- The grant makes exactly this lease the current one. -/
  current : lease.Current s
  /-- Until another lease of the target is granted, the owner passes the fence exactly as long as
  the expiry that renewals and releases leave it is not reached. -/
  passes : ∀ before rest s', calls = before ++ rest →
    exec controlLeaseStep s before = some s' → Undisturbed lease s before →
      ∀ now, assertControlLeaseInTransaction s'.tables (lease.claimAt now) =
        .ok (lease.after s before) ↔ now < (lease.after s before).expiresAt
  /-- Once another lease of the target has been granted, this one is shut out. -/
  shutOut : ∀ before rest s', calls = before ++ rest →
    exec controlLeaseStep s before = some s' → ¬Undisturbed lease s before → ShutOut lease s'.tables

def AscendingLeaseID (db : ControlLeaseTables) (input : AcquireControlLeaseInput) : Prop :=
  ∀ row ∈ db.ofTarget input.target input.targetID, row.timeActivated = input.now → row.id < input.identity

/-- A property of every granted acquisition in a sequence of calls from the empty database: of the
state before it, the acquisition, the state after it, and the calls that follow. -/
def ForEachGrant (clock : ℤ) (calls : List ControlLeaseCall)
    (P : ControlLeaseDatabase → AcquireControlLeaseInput → ControlLeaseDatabase →
      List ControlLeaseCall → Prop) : Prop :=
  ∀ before input rest s s', calls = before ++ .acquire input :: rest →
    exec controlLeaseStep (ControlLeaseDatabase.empty clock) before = some s →
      controlLeaseStep s (.acquire input) = some s' →
        (ControlLeaseCall.acquire input).granted s.tables = some input.lease → P s input s' rest

variable {input : AcquireControlLeaseInput}

lemma current_iff_ascendingLeaseID (hs : s.Wellformed) (hstep : controlLeaseStep s (.acquire input) = some s')
    (hgranted : (ControlLeaseCall.acquire input).granted s.tables = some input.lease) :
    input.lease.Current s' ↔ AscendingLeaseID s.tables input := by
  obtain ⟨hclock, rfl⟩ := controlLeaseStep_eq_some.mp hstep
  obtain ⟨-, -, -, hleases, hfresh⟩ := granted_cases hgranted
  have hrows : ((acquire input).write s.tables).ofTarget input.target
      input.targetID = s.tables.ofTarget input.target input.targetID ++ [input.lease] := by
    unfold ofTarget
    rw [hleases, filter_append]
    simp [AcquireControlLeaseInput.lease]
  unfold ControlLease.Current currentControlLeaseInTransaction
  change ((write s.tables (.acquire input)).ofTarget input.target
    input.targetID).argmax _ = some input.lease ↔ _
  rw [hrows]
  constructor
  · intro hcurrent row hrow htime
    have hle : row.orderKey ≤ input.lease.orderKey :=
      LatestRow.forall_le_of_argmax_concat hcurrent row hrow
    have hne : row.id ≠ input.identity := hfresh row (mem_of_mem_filter hrow)
    rcases Prod.Lex.toLex_le_toLex.mp hle with hlt | ⟨-, hid⟩
    · exact absurd htime hlt.ne
    · exact lt_of_le_of_ne hid hne
  · intro hascending
    refine LatestRow.argmax_concat_of_forall_lt fun row hrow => ?_
    have htime : row.timeActivated ≤ input.now :=
      (hs.activated row (mem_of_mem_filter hrow)).trans hclock
    apply Prod.Lex.toLex_lt_toLex.mpr
    rcases htime.lt_or_eq with hlt | heq
    · exact Or.inl hlt
    · exact Or.inr ⟨heq, hascending row hrow heq⟩

lemma exists_row_exec (hs : s.Wellformed) (hrow : ∃ row ∈ s.tables.leases, row.SameIdentity lease)
    (hrun : exec controlLeaseStep s calls = some s') :
    ∃ row ∈ s'.tables.leases, row.SameIdentity lease := by
  have hstep : Preserves controlLeaseStep fun s =>
      s.Wellformed ∧ ∃ row ∈ s.tables.leases, row.SameIdentity lease := by
    rintro _ call _ ⟨hs, _, hrow, hsame⟩ hstep
    refine ⟨wellformed_preserved hs hstep, ?_⟩
    obtain ⟨-, rfl⟩ := controlLeaseStep_eq_some.mp hstep
    obtain ⟨row', hrow', hsame'⟩ := exists_mem_write hs call hrow
    exact ⟨row', hrow', hsame'.id.trans hsame.id, hsame'.target.trans hsame.target,
      hsame'.targetID.trans hsame.targetID,
      hsame'.ownerOccurrenceID.trans hsame.ownerOccurrenceID,
      hsame'.timeActivated.trans hsame.timeActivated⟩
  exact (hstep.exec ⟨hs, hrow⟩ hrun).2

lemma overtaken_of_grant (hs : s.Wellformed) (hstep : controlLeaseStep s (.acquire input) = some s')
    (hgranted : (ControlLeaseCall.acquire input).granted s.tables = some input.lease)
    (hascending : AscendingLeaseID s.tables input) (htarget : input.target = lease.target)
    (htargetID : input.targetID = lease.targetID) (hrow : ∃ row ∈ s.tables.leases, row.SameIdentity lease) :
    Overtaken lease s' := by
  obtain ⟨row, hrow, hsame⟩ := hrow
  obtain ⟨hclock, rfl⟩ := controlLeaseStep_eq_some.mp hstep
  obtain ⟨-, -, -, hleases, -⟩ := granted_cases hgranted
  constructor
  · exact ⟨row, by simp [hleases, hrow], hsame⟩
  · refine ⟨input.lease, mem_ofTarget.mpr ⟨by simp [hleases], htarget,
      htargetID⟩, ?_⟩
    have hmem : row ∈ s.tables.ofTarget input.target input.targetID :=
      mem_ofTarget.mpr
        ⟨hrow, hsame.target.trans htarget.symm, hsame.targetID.trans htargetID.symm⟩
    rw [← hsame.orderKey_eq]
    apply Prod.Lex.toLex_lt_toLex.mpr
    rcases ((hs.activated row hrow).trans hclock).lt_or_eq with hlt | heq
    · exact Or.inl hlt
    · exact Or.inr ⟨heq, hascending row hmem heq⟩

/-- In every sequence of calls from the empty database, all granted leases are fenced exactly when
every granted acquisition asks for an ascending id. -/
theorem fenced_iff_ascendingLeaseID (clock : ℤ) (calls : List ControlLeaseCall) :
    ForEachGrant clock calls (fun _ input s' rest => Fenced input.lease s' rest) ↔
      ForEachGrant clock calls (fun s input _ _ => AscendingLeaseID s.tables input) := by
  have hempty := ControlLeaseDatabase.wellformed_empty clock
  constructor
  · intro hfenced before input rest s s' hcalls hbefore hstep hgranted
    have hs : s.Wellformed := wellformed_preserved.exec hempty hbefore
    exact (current_iff_ascendingLeaseID hs hstep hgranted).mp
      (hfenced before input rest s s' hcalls hbefore hstep hgranted).current
  · intro hascending before input rest s s' hcalls hbefore hstep hgranted
    have hs : s.Wellformed := wellformed_preserved.exec hempty hbefore
    have hs' : s'.Wellformed := wellformed_preserved hs hstep
    have hcurrent : input.lease.Current s' :=
      (current_iff_ascendingLeaseID hs hstep hgranted).mpr
        (hascending before input rest s s' hcalls hbefore hstep hgranted)
    refine ⟨hcurrent, ?_, ?_⟩
    · intro held _ t _ hheld hundisturbed now
      exact assert_of_current (after_sameIdentity _ _ _) (current_after hs' hcurrent hundisturbed hheld) now
    · intro lost after t hrest hlost hdisturbed
      obtain ⟨first, call, second, u, rfl, hfirst, hcall⟩ := exists_of_not_within hdisturbed
      obtain ⟨_, hu', hsecond⟩ := (exec_append_eq_some _).mp hlost
      rw [hfirst, Option.some.injEq] at hu'
      subst hu'
      obtain ⟨v, hv, htail⟩ := (exec_cons_eq_some _).mp hsecond
      -- The disturbing call is a granted acquisition of the same target, and its id ascends.
      obtain ⟨other, hother, htarget, htargetID⟩ : ∃ other, call.granted u.tables = some other ∧
          other.target = input.target ∧ other.targetID = input.targetID := by
        simpa [LeavesTarget, AcquireControlLeaseInput.lease] using hcall
      obtain ⟨input', rfl, rfl, -⟩ := granted_cases hother
      have hu : u.Wellformed := wellformed_preserved.exec hs' hfirst
      have hprefix : exec controlLeaseStep (ControlLeaseDatabase.empty clock)
          (before ++ .acquire input :: first) = some u := by
        rw [exec_append_eq_some]
        exact ⟨s, hbefore, by rw [exec_cons_eq_some]; exact ⟨s', hstep, hfirst⟩⟩
      have hid : AscendingLeaseID u.tables input' :=
        hascending (before ++ .acquire input :: first) input' (second ++ after) u v
          (by simp [hcalls, hrest]) hprefix hv hother
      have hrow : ∃ row ∈ u.tables.leases, row.SameIdentity input.lease := by
        refine exists_row_exec hs' ⟨input.lease, ?_, rfl, rfl, rfl, rfl, rfl⟩ hfirst
        exact (mem_of_currentControlLease hcurrent).1
      have hv' : v.Wellformed := wellformed_preserved hu hv
      have hovertaken : Overtaken input.lease v :=
        overtaken_of_grant hu hv hother hid htarget htargetID hrow
      exact (overtaken_exec hv' hovertaken htail).shutOut (wellformed_preserved.exec hv' htail)

/-- Owner `a` takes a target, and owner `b` supersedes the lease in the same millisecond under a
smaller id. -/
def descendingSupersession : List ControlLeaseCall :=
  let taken : AcquireControlLeaseInput :=
    { target := .automation, targetID := "atm_1", ownerOccurrenceID := "a", now := 5,
      leaseMilliseconds := 10, leaseID := some "cal_2", supersedeLeaseID := none,
      generatedID := "cal_0" }
  [.acquire taken,
    .acquire { taken with ownerOccurrenceID := "b", leaseID := some "cal_1",
                          supersedeLeaseID := some "cal_2" }]

/-- The superseding acquisition is granted, but its lease is not fenced: the superseded lease is
still the current one. -/
theorem not_fenced_descendingSupersession :
    ¬ForEachGrant 0 descendingSupersession (fun _ input s' rest => Fenced input.lease s' rest) := by
  intro h
  have hfenced := h [descendingSupersession.head (by decide)]
    { target := .automation, targetID := "atm_1", ownerOccurrenceID := "b", now := 5,
      leaseMilliseconds := 10, leaseID := some "cal_1", supersedeLeaseID := some "cal_2",
      generatedID := "cal_0" } [] _ _ rfl rfl rfl (by decide)
  have hcurrent := hfenced.current
  revert hcurrent
  unfold ControlLease.Current
  decide

end OpenCorvus.Engine
