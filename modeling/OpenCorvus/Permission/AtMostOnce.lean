import OpenCorvus.Foundation.ListUpdate
import OpenCorvus.Permission.LedgerGrowth

/-!
# At most one first execution

An attempt has at most one start in the ledger, and a call runs the guarded callback for the first time only after it
appended this start and saw the commit.  So the calls that are about to run the callback of an attempt for the first
time, and the callbacks that did, are never more than its starts; a crash loses a call and never a start.
-/

namespace OpenCorvus.Permission

open ExecutableSystem ListUpdate CallPhase PermissionState

variable [PermissionIdentity]

def CallPhase.claims (attempt : String) : CallPhase → Bool
  | .authorized request _ .acquireLease => attemptIdentity request.id = attempt
  | .authorized request _ (.owned _ false) => attemptIdentity request.id = attempt
  | _ => false

def ExecutionStart.isFirst (attempt : String) (start : ExecutionStart) : Bool :=
  start.attemptID = attempt ∧ start.recovering = false

def PermissionState.firstStarts (s : PermissionState) (attempt : String) : ℕ :=
  s.starts.countP (ExecutionStart.isFirst attempt)

/-- The calls that may start the callback of an attempt for the first time. -/
def PermissionState.claimants (s : PermissionState) (attempt : String) : ℕ :=
  s.callers.countP fun caller => caller.phase.claims attempt

def startRows (ledger : List LedgerRow) (attempt : String) : ℕ :=
  ledger.countP fun row => row.attemptStart = some attempt

section Ledger

variable {P : LedgerRow → Prop} {ledger ledger' : List LedgerRow} {attempt : String}

omit [PermissionIdentity] in
lemma startRows_le_one (h : LedgerIndexes ledger) : startRows ledger attempt ≤ 1 := by
  unfold startRows
  rw [List.countP_eq_length_filter]
  exact h.attemptStart.length_filter_le_one fun row _ hrow => by simpa using hrow

omit [PermissionIdentity] in
lemma startRows_mono (h : Appends P ledger ledger') : startRows ledger attempt ≤ startRows ledger' attempt := by
  obtain ⟨_, rfl, -⟩ := h.exists_append
  unfold startRows
  rw [List.countP_append]
  exact Nat.le_add_right _ _

omit [PermissionIdentity] in
lemma startRows_insert {row : LedgerRow} (h : insertLedgerRow ledger row = .ok ledger')
    (hrow : row.attemptStart = some attempt) :
    startRows ledger' attempt = startRows ledger attempt + 1 := by
  obtain ⟨rfl, -, -⟩ := insertLedgerRow_eq_ok h
  unfold startRows
  rw [List.countP_append, List.countP_singleton]
  simp [hrow]

end Ledger

section Calls

variable {db : PermissionDatabase} {request : PermissionRequest} {authority : LedgerRow}
  {input : AdvanceInput} {attempt : String}

lemma AuthorizePhase.advance_claims (phase : AuthorizePhase) :
    (phase.advance db request input).2.claims attempt = false := by
  cases phase with
  | appendRequested | fullAccessSettle | appendGrantUsed =>
    exact commit_phase (Q := fun phase => phase.claims attempt = false) rfl fun _ => rfl
  | _ =>
    simp only [AuthorizePhase.advance, decidedPhase]
    (repeat' split) <;> rfl

lemma advance_appendStart_claims :
    (ExecutePhase.appendStart.advance db request authority input).2.claims attempt = true →
      startRows (ExecutePhase.appendStart.advance db request authority input).1.ledger attempt =
        startRows db.ledger attempt + 1 := by
  simp only [ExecutePhase.advance]
  rcases commit_cases db input.fault _ _ _ with
    ⟨written, hwritten, hcommit⟩ | ⟨e, hcommit⟩
  · intro hclaims
    rw [hcommit] at hclaims ⊢
    have hattempt : attemptIdentity request.id = attempt := by
      simpa [claims] using hclaims
    refine startRows_insert (appendEvent_eq_ok hwritten).1 ?_
    simp [LedgerRow.attemptStart, PermissionRequest.startEvent, PermissionRequest.event, hattempt]
  · intro hclaims
    rw [hcommit] at hclaims
    simp [claims] at hclaims

lemma takeLease_claims (recovering : Bool) :
    (takeLease db request authority (attemptIdentity request.id) recovering input).2.claims attempt =
        true → recovering = false ∧ attemptIdentity request.id = attempt := by
  unfold takeLease
  split
  · simp [claims]
  next lease leased hacquired =>
    rcases commit_cases db input.fault _ _ _ with ⟨_, -, hcommit⟩ | ⟨_, hcommit⟩
    · rw [hcommit]
      cases lease <;> cases recovering <;> simp [leasePhase, claims]
    · rw [hcommit]
      simp [claims]

lemma ExecutePhase.claims_of_advance {phase : ExecutePhase}
    (h : (phase.advance db request authority input).2.claims attempt = true) :
    phase = .appendStart ∨ (phase = .acquireLease ∧ attemptIdentity request.id = attempt) := by
  cases phase with
  | appendStart => exact .inl rfl
  | acquireLease => exact .inr ⟨rfl, (takeLease_claims false h).2⟩
  | acquireRecoveryLease => exact absurd (takeLease_claims true h).1 (by decide)
  | abandonLease | appendFailed | complete =>
    revert h
    exact commit_phase (Q := fun phase => phase.claims attempt = true → _) nofun fun _ => nofun
  | _ =>
    exfalso
    revert h
    simp only [ExecutePhase.advance, outcomePhase]
    (repeat' split) <;> simp [claims]

lemma CallPhase.advance_claims (phase : CallPhase) (db : PermissionDatabase)
    (invocation : InvocationIdentity) (input : AdvanceInput) (attempt : String) :
    (if (phase.advance db invocation input).2.claims attempt then 1 else 0) +
        phase.starting.countP (ExecutionStart.isFirst attempt) + startRows db.ledger attempt ≤
      (if phase.claims attempt then 1 else 0) +
        startRows (phase.advance db invocation input).1.ledger attempt := by
  have hgrown : startRows db.ledger attempt ≤ startRows (phase.advance db invocation input).1.ledger attempt :=
    startRows_mono (phase.advance_appends invocation)
  by_cases hnext : (phase.advance db invocation input).2.claims attempt = true
  · rw [if_pos hnext]
    cases phase with
    | authorized request authority =>
      rcases ExecutePhase.claims_of_advance hnext with rfl | ⟨rfl, hattempt⟩
      · have hstart := advance_appendStart_claims hnext
        have hledger : startRows ((authorized request authority .appendStart).advance db
            invocation input).1.ledger attempt = startRows db.ledger attempt + 1 := hstart
        rw [hledger]
        simp [starting]
        omega
      · have hclaims : (authorized request authority .acquireLease).claims attempt = true := by
          simpa [claims] using hattempt
        rw [if_pos hclaims]
        simpa [starting] using hgrown
    | authorizing request phase =>
      rw [show ((authorizing request phase).advance db invocation input).2.claims attempt =
        false from phase.advance_claims] at hnext
      cases hnext
    | insertPolicy =>
      revert hnext
      exact commit_phase (Q := fun phase => phase.claims attempt = true → _) nofun fun _ => nofun
    | retireMismatch =>
      revert hnext
      exact commit_phase (Q := fun phase => phase.claims attempt = true → _) nofun fun _ => nofun
    | _ =>
      exfalso
      revert hnext
      simp only [advance, requestPhase]
      (repeat' split) <;> simp [claims, ContinuationMismatch.phase]
  · rw [if_neg hnext]
    have hstarting : phase.starting.countP (ExecutionStart.isFirst attempt) ≤
        if phase.claims attempt then 1 else 0 := by
      unfold starting
      split
      next request authority lease recovering =>
        cases recovering <;> simp [claims, ExecutionStart.isFirst]
      · simp
    omega

end Calls

structure PermissionState.ClaimsCovered (s : PermissionState) : Prop where
  indexes : LedgerIndexes s.db.ledger
  covered : ∀ attempt, s.firstStarts attempt + s.claimants attempt ≤ startRows s.db.ledger attempt

section Runs

variable {s t : PermissionState} {actions : List PermissionAction}

lemma PermissionState.Initial.claimsCovered (h : s.Initial) : s.ClaimsCovered where
  indexes := h.ledger ▸ LedgerIndexes.nil
  covered attempt := by simp [firstStarts, claimants, h.starts, h.callers]

lemma claimsCovered_preserved : Preserves permissionStep PermissionState.ClaimsCovered := by
  intro s action s' h hstep
  cases PermissionState.stepped_of_step hstep with
  | advance _ caller input _ called =>
    refine ⟨(caller.phase.advance_appends caller.invocation).indexes h.indexes, fun attempt => ?_⟩
    have hcovered := h.covered attempt
    have hcall := caller.phase.advance_claims s.db caller.invocation input attempt
    have hset := countP_set_add (p := fun caller : Caller => caller.phase.claims attempt) called
      (y := { caller with phase := (caller.phase.advance s.db caller.invocation input).2 })
    simp only [PermissionState.firstStarts, PermissionState.claimants, PermissionState.advance,
      List.countP_append] at hcovered hset ⊢
    omega
  | release _ caller _ phase called _ moved =>
    refine ⟨h.indexes, fun attempt => ?_⟩
    have hcovered := h.covered attempt
    have hphase : phase.claims attempt = false := by
      rcases moved with rfl | ⟨_, rfl⟩ <;> rfl
    have hset := countP_set_add (p := fun caller : Caller => caller.phase.claims attempt) called
      (y := { caller with phase := phase })
    simp only [PermissionState.firstStarts, PermissionState.claimants, PermissionState.move, hphase,
      Bool.false_eq_true, if_false] at hcovered hset ⊢
    omega
  | store _ appends =>
    refine ⟨appends.indexes h.indexes, fun attempt => ?_⟩
    exact (h.covered attempt).trans (startRows_mono appends)
  | call _ invocation =>
    refine ⟨h.indexes, fun attempt => ?_⟩
    have hcovered := h.covered attempt
    have hbegin : invocation.begin.claims attempt = false := by
      unfold InvocationIdentity.begin
      (repeat' split) <;> rfl
    simpa [PermissionState.firstStarts, PermissionState.claimants, hbegin] using hcovered
  | crash process =>
    refine ⟨h.indexes, fun attempt => ?_⟩
    have hcovered := h.covered attempt
    have hsublist : (s.callers.filter fun caller => decide (caller.process ≠ process)).countP
        (fun caller => caller.phase.claims attempt) ≤ s.claimants attempt :=
      List.filter_sublist.countP_le
    simp only [PermissionState.firstStarts, PermissionState.claimants] at hcovered hsublist ⊢
    omega

/-- In every run, whatever its calls, processes and crashes, the guarded callback of an attempt is
started for the first time at most once. -/
theorem firstStarts_le_one (hinitial : s.Initial) (hrun : exec permissionStep s actions = some t)
    (attempt : String) : t.firstStarts attempt ≤ 1 := by
  have hcovered := claimsCovered_preserved.exec hinitial.claimsCovered hrun
  calc t.firstStarts attempt
      ≤ t.firstStarts attempt + t.claimants attempt := Nat.le_add_right _ _
    _ ≤ startRows t.db.ledger attempt := hcovered.covered attempt
    _ ≤ 1 := startRows_le_one hcovered.indexes

end Runs

/-- Two processes make the same call.  The second loses the start to the first, which crashes while it
runs the callback; a replay finds the start as well. -/
def racingCalls : List PermissionAction :=
  [.call 0 toolInvocation, .call 1 toolInvocation] ++
    steps 0 .fullAccess ["", "", "", "", "", "", "", "requested", "", "allowed", ""] ++
    steps 1 .fullAccess ["", "", "", "", "", "", "requested again", "", ""] ++
    steps 0 .fullAccess ["started", "lease", ""] ++
    steps 1 .fullAccess ["started again", "", "", ""] ++
    [.crash 0, .call 0 toolInvocation] ++
    steps 1 .fullAccess ["", "", "", "", "", "", "requested for replay", "", "", "", ""]

omit [PermissionIdentity] in
/-- Two racing calls and a replay start the callback once. -/
theorem firstStarts_le_one_of_racingCalls :
    letI := joinedIdentity
    ∃ t, exec permissionStep emptyState racingCalls = some t ∧
      t.starts = [⟨"project/session/message/call/tool", "attempt/project/session/message/call/tool", false⟩] ∧
      t.firstStarts "attempt/project/session/message/call/tool" ≤ 1 := by
  let _ := joinedIdentity
  have hstarts : (exec permissionStep emptyState racingCalls).map starts =
      some [⟨"project/session/message/call/tool", "attempt/project/session/message/call/tool",
        false⟩] := by decide
  obtain ⟨t, ht, hone⟩ := Option.map_eq_some_iff.mp hstarts
  exact ⟨t, ht, hone, firstStarts_le_one (by decide) ht _⟩

end OpenCorvus.Permission
