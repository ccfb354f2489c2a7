import OpenCorvus.Permission.LedgerEvents

/-!
# The reconciliation of interrupted attempts

A process that opens a project calls `reconcileInterruptedAttempts`, which records the outcome `outcome_unknown` for
each started attempt of the ledger that has neither an outcome nor a protocol Task.  The outcomes of an execution are
appended under its effect lease; the reconciliation never reads the lease, so it writes off an effect that another
process is running.
-/

namespace OpenCorvus.Permission

open Engine Transaction UniqueIndex ExecutableSystem List

/-! ## Reconciliations -/

/-- Where a reconciliation stands; every phase is one transaction. -/
inductive ReconcilePhase where
  | starts
  | outcome (start : LedgerRow) (rest : List LedgerRow)
  | task (start : LedgerRow) (attempt : String) (rest : List LedgerRow)
  | append (start : LedgerRow) (attempt : String) (rest : List LedgerRow)
  | done

open ReconcilePhase

/-- A call of `reconcileInterruptedAttempts` in a process. -/
structure Reconciler where
  process : ℕ
  phase : ReconcilePhase
  reconciled : ℕ

def ReconcilePhase.next : List LedgerRow → ReconcilePhase
  | [] => .done
  | start :: rest => .outcome start rest

def PermissionRequest.unknownEvent (request : PermissionRequest) (start : LedgerRow) (attempt : String)
    (input : SettlementInput) : LedgerRow :=
  { request.event input.eventID input.now .outcomeUnknown with
    attemptID := some attempt, outcomeSlot := some attempt, sourceEventID := some start.id
    reason := some "Runtime restarted before a terminal Tool outcome was recorded" }

def appendUnknown (db : PermissionDatabase) (start : LedgerRow) (attempt : String)
    (input : SettlementInput) : Except PermissionError PermissionDatabase := do
  let request ← requestFromRow db start
  appendEvent db request (request.unknownEvent start attempt input)

def acknowledged (fault : Option WriteFault) (write : Except PermissionError PermissionDatabase) : Bool :=
  match fault, write with
  | none, .ok _ => true
  | _, _ => false

/-- One transaction of a reconciliation; an error of one attempt leaves the others alone. -/
def Reconciler.advance (db : PermissionDatabase) (reconciler : Reconciler) (input : SettlementInput) :
    PermissionDatabase × Reconciler :=
  match reconciler.phase with
  | .starts => (db, { reconciler with
      phase := .next (db.ledger.filter fun row => row.eventType = .executionStarted) })
  | .outcome start rest =>
    match start.attemptID.filter (· ≠ "") with
    | none => (db, { reconciler with phase := .next rest })
    | some attempt =>
      match executionOutcome db attempt with
      | some _ => (db, { reconciler with phase := .next rest })
      | none => (db, { reconciler with phase := .task start attempt rest })
  | .task start attempt rest =>
    match currentTaskForAttempt db attempt with
    | some _ => (db, { reconciler with phase := .next rest })
    | none => (db, { reconciler with phase := .append start attempt rest })
  | .append start attempt rest =>
    (persisted db input.fault (appendUnknown db start attempt input),
      { reconciler with
        phase := .next rest
        reconciled := reconciler.reconciled +
          if acknowledged input.fault (appendUnknown db start attempt input) then 1 else 0 })
  | .done => (db, reconciler)

open Reconciler

/-! ## The system -/

structure EffectOwner where
  ownerOccurrenceID : String
  attempt : String
  process : ℕ

structure RecoveryState where
  permission : PermissionState
  owners : List EffectOwner
  reconcilers : List Reconciler

inductive RecoveryAction where
  /-- A step of the authority. -/
  | permission (action : PermissionAction)
  /-- A process opens a project. -/
  | reconcileInterruptedAttempts (process : ℕ)
  /-- A reconciliation takes its next step. -/
  | reconcile (reconciler : ℕ) (input : SettlementInput)
deriving DecidableEq

section System

variable [PermissionIdentity]

def CallPhase.acquiring : CallPhase → Option String
  | .authorized request _ .acquireLease | .authorized request _ .acquireRecoveryLease =>
    some (attemptIdentity request.id)
  | _ => none

def RecoveryState.ownersAfter (s : RecoveryState) : PermissionAction → List EffectOwner
  | .advance i input =>
    match s.permission.callers[i]? with
    | none => s.owners
    | some caller =>
      match caller.phase.acquiring with
      | none => s.owners
      | some attempt => s.owners ++ [⟨input.ownerOccurrenceID, attempt, caller.process⟩]
  | .crash process => s.owners.filter fun owner => owner.process ≠ process
  | _ => s.owners

def RecoveryState.reconcilersAfter (s : RecoveryState) : PermissionAction → List Reconciler
  | .crash process => s.reconcilers.filter fun reconciler => reconciler.process ≠ process
  | _ => s.reconcilers

def recoveryStep (s : RecoveryState) : RecoveryAction → Option RecoveryState
  | .permission (.reconcileInterruptedAttempt _ _) => none
  | .permission action => do
    let permission ← permissionStep s.permission action
    return { permission := permission, owners := s.ownersAfter action,
             reconcilers := s.reconcilersAfter action }
  | .reconcileInterruptedAttempts process =>
    some { s with reconcilers := s.reconcilers ++ [⟨process, .starts, 0⟩] }
  | .reconcile k input => do
    let reconciler ← s.reconcilers[k]?
    return { s with
      permission := { s.permission with db := (reconciler.advance s.permission.db input).1 }
      reconcilers := s.reconcilers.set k (reconciler.advance s.permission.db input).2 }

/-- Nothing was recorded, called or reconciled yet. -/
structure RecoveryState.Initial (s : RecoveryState) : Prop where
  permission : s.permission.Initial
  owners : s.owners = []
  reconcilers : s.reconcilers = []

instance (s : RecoveryState) : Decidable s.Initial :=
  decidable_of_iff (s.permission.Initial ∧ s.owners = [] ∧ s.reconcilers = [])
    ⟨fun ⟨hpermission, howners, hreconcilers⟩ => ⟨hpermission, howners, hreconcilers⟩,
      fun ⟨hpermission, howners, hreconcilers⟩ => ⟨hpermission, howners, hreconcilers⟩⟩

end System

/-! ## Live effects -/

def LiveEffect (s : RecoveryState) (attempt : String) (now : ℤ) : Prop :=
  ∃ current ∈ currentControlLeaseInTransaction s.permission.db.leases .effect attempt, now < current.expiresAt ∧
      ∃ owner ∈ s.owners, owner.attempt = attempt ∧ owner.ownerOccurrenceID = current.ownerOccurrenceID

instance (s : RecoveryState) (attempt : String) (now : ℤ) : Decidable (LiveEffect s attempt now) :=
  inferInstanceAs (Decidable (∃ current ∈ currentControlLeaseInTransaction _ _ _, _))

def outcomes (db : PermissionDatabase) (attempt : String) : List LedgerRow :=
  db.ledger.filter fun row => row.outcomeSlot = some attempt

def SparesLive (s : RecoveryState) : RecoveryAction → Prop
  | .reconcile k input => ∀ reconciler ∈ s.reconcilers[k]?, ∀ attempt, LiveEffect s attempt input.now →
      outcomes (reconciler.advance s.permission.db input).1 attempt = outcomes s.permission.db attempt
  | _ => True

section Condition

variable [PermissionIdentity]

def ExecutePhase.pastStart : ExecutePhase → Bool
  | .acquireLease | .acquireRecoveryLease | .owned _ _ | .executing _ _ | .callbackThrew _ _
  | .abandonLease _ _ | .appendFailed _ _ | .complete _ => true
  | .existingStart | .appendStart | .startWinner _ | .awaitSettlement | .resolveOutcome | .resolveTask
  | .resolveResult => false

def CallPhase.admitted (attempt : String) : CallPhase → Bool
  | .authorized request _ phase => attemptIdentity request.id = attempt ∧ phase.pastStart
  | _ => false

/-- A living process has a call past the start of the attempt, or an owner of its effect lease. -/
def RecoveryState.Admits (s : RecoveryState) (attempt : String) : Prop :=
  (∃ caller ∈ s.permission.callers, caller.phase.admitted attempt = true) ∨
    ∃ owner ∈ s.owners, owner.attempt = attempt

instance (s : RecoveryState) (attempt : String) : Decidable (s.Admits attempt) :=
  inferInstanceAs (Decidable (_ ∨ _))

def FindsInterrupted (s : RecoveryState) : RecoveryAction → Prop
  | .reconcile k _ => ∀ reconciler ∈ s.reconcilers[k]?,
      match reconciler.phase with
      | .task _ attempt _ =>
        currentTaskForAttempt s.permission.db attempt = none → ¬s.Admits attempt
      | _ => True
  | _ => True

instance (s : RecoveryState) (action : RecoveryAction) : Decidable (FindsInterrupted s action) := by
  unfold FindsInterrupted
  split
  · refine @Option.decidableForallMem _ _ (fun reconciler => ?_) _
    split <;> infer_instance
  · infer_instance

end Condition

/-! ## Sealed attempts -/

section Sealed

variable [PermissionIdentity]

structure RecoveryState.Sealed (s : RecoveryState) (attempt : String) : Prop where
  started : ∃ start ∈ s.permission.db.ledger, start.attemptStart = some attempt
  taskless : currentTaskForAttempt s.permission.db attempt = none
  unadmitted : ∀ caller ∈ s.permission.callers, caller.phase.admitted attempt = false
  unowned : ∀ owner ∈ s.owners, owner.attempt ≠ attempt

def ReconcilePhase.Reads (ledger : List LedgerRow) : ReconcilePhase → Prop
  | .starts | .done => True
  | .outcome start rest => ∀ row ∈ start :: rest, row ∈ ledger ∧ row.eventType = .executionStarted
  | .task start attempt rest | .append start attempt rest =>
    start.attemptID = some attempt ∧ ∀ row ∈ start :: rest, row ∈ ledger ∧ row.eventType = .executionStarted

structure RecoveryState.Recovering (s : RecoveryState) : Prop where
  reads : ∀ reconciler ∈ s.reconcilers, reconciler.phase.Reads s.permission.db.ledger
  sealed : ∀ reconciler ∈ s.reconcilers, ∀ start attempt rest,
    reconciler.phase = .append start attempt rest → s.Sealed attempt

end Sealed

section Rows

variable {P : LedgerRow → Prop} {db db' : PermissionDatabase} {attempt : String}
  {ledger ledger' : List LedgerRow} {phase : ReconcilePhase}

lemma currentTaskForAttempt_of_appends (happends : Appends P db.ledger db'.ledger)
    (hP : ∀ row, P row → row.attemptID = some attempt → row.isTaskEvent = false) :
    currentTaskForAttempt db' attempt = currentTaskForAttempt db attempt := by
  obtain ⟨rows, hledger, hrows⟩ := happends.exists_append
  unfold currentTaskForAttempt mcpTaskEvent
  rw [hledger, filter_append]
  have hnone : rows.filter (fun row => row.attemptID = some attempt ∧
      (row.eventType = .mcpTaskCreated ∨ row.eventType = .mcpTaskStatus)) = [] := by
    rw [filter_eq_nil_iff]
    intro row hrow
    have htask := hP row (hrows row hrow)
    simp only [LedgerRow.isTaskEvent, decide_eq_false_iff_not] at htask
    simpa using fun hattempt => not_or.mp (htask hattempt)
  rw [hnone, List.append_nil]

lemma ReconcilePhase.Reads.mono (h : phase.Reads ledger) (happends : Appends P ledger ledger') :
    phase.Reads ledger' := by
  have hkept : ∀ {rows : List LedgerRow}, (∀ row ∈ rows, row ∈ ledger ∧ row.eventType = .executionStarted) →
        ∀ row ∈ rows, row ∈ ledger' ∧ row.eventType = .executionStarted :=
    fun hrows row hrow => (hrows row hrow).imp_left happends.mem
  cases phase with
  | outcome => exact hkept h
  | task | append => exact ⟨h.1, hkept h.2⟩
  | starts | done => trivial

lemma ReconcilePhase.next_reads {start : LedgerRow} {rest : List LedgerRow}
    (h : ∀ row ∈ start :: rest, row ∈ ledger ∧ row.eventType = .executionStarted) :
    (ReconcilePhase.next rest).Reads ledger := by
  cases rest with
  | nil => trivial
  | cons => exact fun row hrow => h row (mem_cons_of_mem _ hrow)

lemma ReconcilePhase.next_ne_append (rows : List LedgerRow) (start : LedgerRow) (attempt : String)
    (rest : List LedgerRow) : ReconcilePhase.next rows ≠ .append start attempt rest := by
  cases rows <;> nofun

end Rows

/-! ## The step of a reconciliation -/

section Reconcile

variable {db : PermissionDatabase} {reconciler : Reconciler} {input : SettlementInput}

lemma Reconciler.advance_appends (db : PermissionDatabase) (reconciler : Reconciler) (input : SettlementInput) :
    Appends (fun row => row.eventType = .outcomeUnknown ∧ ∃ start attempt rest,
      reconciler.phase = .append start attempt rest ∧ row.outcomeSlot = some attempt)
      db.ledger (reconciler.advance db input).1.ledger := by
  unfold advance
  split
  case h_4 start attempt rest hphase =>
    refine persisted_appends fun db' h => ?_
    unfold appendUnknown at h
    obtain ⟨_, hrow⟩ := of_bind h
    exact appendEvent_appends hrow ⟨rfl, start, attempt, rest, hphase, rfl⟩
  all_goals (repeat' split) <;> exact .refl

lemma Reconciler.advance_reads (h : reconciler.phase.Reads db.ledger) :
    (reconciler.advance db input).2.phase.Reads db.ledger := by
  unfold advance
  split
  next hphase =>
    have hstarts : ∀ row ∈ db.ledger.filter (fun row => row.eventType = .executionStarted),
        row ∈ db.ledger ∧ row.eventType = .executionStarted := by simp
    cases hrows : db.ledger.filter (fun row => row.eventType = .executionStarted) with
    | nil => trivial
    | cons => exact fun row hrow => hstarts row (hrows ▸ hrow)
  next start rest hphase =>
    rw [hphase] at h
    split
    · exact next_reads h
    next attempt hattempt =>
      split
      · exact next_reads h
      · exact ⟨(Option.filter_eq_some_iff.mp hattempt).1, h⟩
  next start attempt rest hphase =>
    rw [hphase] at h
    split
    · exact next_reads h.2
    · exact h
  next start attempt rest hphase =>
    rw [hphase] at h
    exact next_reads h.2
  next hphase =>
    rw [hphase]
    trivial

lemma Reconciler.advance_append {start : LedgerRow} {attempt : String} {rest : List LedgerRow}
    (h : (reconciler.advance db input).2.phase = .append start attempt rest) :
    reconciler.phase = .task start attempt rest ∧ currentTaskForAttempt db attempt = none := by
  unfold advance at h
  split at h
  case h_3 start' attempt' rest' hphase =>
    split at h
    · exact absurd h (next_ne_append _ _ _ _)
    next hnone =>
      cases h
      exact ⟨hphase, hnone⟩
  case h_1 => exact absurd h (next_ne_append _ _ _ _)
  case h_2 =>
    split at h
    · exact absurd h (next_ne_append _ _ _ _)
    · split at h
      · exact absurd h (next_ne_append _ _ _ _)
      · cases h
  case h_4 => exact absurd h (next_ne_append _ _ _ _)
  case h_5 hphase =>
    rw [hphase] at h
    cases h

end Reconcile

/-! ## The step of a call -/

section Calls

variable [PermissionIdentity] {db : PermissionDatabase} {request : PermissionRequest}
  {authority : LedgerRow} {input : AdvanceInput} {attempt : String}

lemma AuthorizePhase.advance_admitted (phase : AuthorizePhase) :
    (phase.advance db request input).2.admitted attempt = false := by
  have hphase : ∀ authority, (CallPhase.authorized request authority .existingStart).admitted attempt =
      false := by simp [CallPhase.admitted, ExecutePhase.pastStart]
  cases phase with
  | appendRequested => exact commit_phase (Q := fun phase => phase.admitted attempt = false) rfl fun _ => rfl
  | fullAccessSettle =>
    exact commit_phase (Q := fun phase => phase.admitted attempt = false) (hphase _) fun _ => rfl
  | appendGrantUsed =>
    exact commit_phase (Q := fun phase => phase.admitted attempt = false) (hphase _) fun _ => rfl
  | _ =>
    simp only [AuthorizePhase.advance, decidedPhase]
    (repeat' split) <;> first | rfl | exact hphase _

lemma ExecutePhase.admitted_of_advance {phase : ExecutePhase}
    (h : (phase.advance db request authority input).2.admitted attempt = true) :
    attemptIdentity request.id = attempt ∧ (phase.pastStart = true ∨
        (phase = .appendStart ∧ ¬Conflicts LedgerRow.attemptStart db.ledger
          (request.startEvent attempt authority input)) ∨
        (phase = .resolveTask ∧ currentTaskForAttempt db attempt ≠ none)) := by
  have hattempt : attemptIdentity request.id = attempt := by
    have hkeeps : (phase.advance db request authority input).2.Keeps request authority :=
      phase.advance_keeps
    generalize (phase.advance db request authority input).2 = next at h hkeeps
    cases next with
    | authorized =>
      obtain ⟨rfl, rfl⟩ := hkeeps
      exact (of_decide_eq_true h).1
    | _ => cases h
  subst hattempt
  refine ⟨rfl, ?_⟩
  cases phase with
  | appendStart =>
    refine .inr (.inl ⟨rfl, ?_⟩)
    simp only [ExecutePhase.advance] at h
    rcases commit_cases db input.fault (appendEvent db request _) _ _ with
      ⟨written, hwritten, hcommit⟩ | ⟨e, hcommit⟩
    · exact (insertLedgerRow_eq_ok (appendEvent_eq_ok hwritten).1).2.2
    · rw [hcommit] at h
      simp [CallPhase.admitted, ExecutePhase.pastStart] at h
  | resolveTask =>
    refine .inr (.inr ⟨rfl, fun hnone => ?_⟩)
    simp only [ExecutePhase.advance, hnone] at h
    cases h
  | existingStart | startWinner | awaitSettlement | resolveOutcome | resolveResult =>
    exfalso
    revert h
    simp only [ExecutePhase.advance, outcomePhase]
    (repeat' split) <;> simp [CallPhase.admitted, ExecutePhase.pastStart]
  | _ => exact .inl rfl

lemma CallPhase.advance_admitted {phase : CallPhase} {invocation : InvocationIdentity}
    (hunadmitted : phase.admitted attempt = false)
    (hstarted : ∃ start ∈ db.ledger, start.attemptStart = some attempt)
    (htaskless : currentTaskForAttempt db attempt = none) :
    (phase.advance db invocation input).2.admitted attempt = false := by
  cases phase with
  | authorizing _ phase => exact phase.advance_admitted
  | authorized =>
    rw [← Bool.not_eq_true]
    intro hadmitted
    obtain ⟨hattempt, hpast | ⟨rfl, hfree⟩ | ⟨rfl, htask⟩⟩ :=
      ExecutePhase.admitted_of_advance hadmitted
    · simp [CallPhase.admitted, hattempt, hpast] at hunadmitted
    · -- The start of a sealed attempt is taken.
      obtain ⟨start, hstart, hkey⟩ := hstarted
      exact hfree ⟨start, hstart, attempt, hkey, rfl⟩
    · exact htask htaskless
  | insertPolicy =>
    exact commit_phase (Q := fun phase => phase.admitted attempt = false) rfl fun _ => rfl
  | retireMismatch =>
    exact commit_phase (Q := fun phase => phase.admitted attempt = false) rfl fun _ => rfl
  | _ =>
    simp only [CallPhase.advance, requestPhase]
    (repeat' split) <;> rfl

end Calls

/-! ## Runs -/

section Runs

variable [PermissionIdentity] {s t : RecoveryState} {action : RecoveryAction}
  {actions : List RecoveryAction} {attempt : String}

lemma RecoveryState.Sealed.permission {action : PermissionAction} {permission : PermissionState}
    (h : s.Sealed attempt) (hstep : permissionStep s.permission action = some permission) :
    RecoveryState.Sealed { permission := permission, owners := s.ownersAfter action,
                           reconcilers := s.reconcilersAfter action } attempt := by
  have happends : Appends (action.Records s.permission) s.permission.db.ledger permission.db.ledger :=
    PermissionState.records_of_step hstep
  refine ⟨?_, ?_, ?_, ?_⟩
  · obtain ⟨start, hstart, hkey⟩ := h.started
    exact ⟨start, happends.mem hstart, hkey⟩
  · rw [currentTaskForAttempt_of_appends happends, h.taskless]
    intro row hrow hattempt
    cases action with
    | recordMcpTask =>
      -- The callback that records a protocol Task is past the start of its attempt.
      obtain ⟨-, caller, _, _, _, _, hcaller, hphase, hrow⟩ := hrow
      have hunadmitted := h.unadmitted caller (mem_of_getElem? hcaller)
      rw [hattempt, Option.some.injEq] at hrow
      simp [hphase, CallPhase.admitted, ExecutePhase.pastStart, hrow] at hunadmitted
    | advance =>
      obtain ⟨_, -, hrow⟩ := hrow
      unfold CallPhase.Records at hrow
      split at hrow <;> simp_all [LedgerRow.isTaskEvent]
      rcases hrow with hrow | hrow <;> simp [hrow]
    | reply _ decision =>
      cases decision <;> simp_all [PermissionAction.Records, PermissionDecision.eventType, LedgerRow.isTaskEvent]
    | _ => simp_all [PermissionAction.Records, LedgerRow.isTaskEvent]
  · cases PermissionState.stepped_of_step hstep with
    | advance _ caller _ _ called =>
      intro other hother
      rcases mem_or_eq_of_mem_set hother with hold | rfl
      · exact h.unadmitted other hold
      · exact CallPhase.advance_admitted (h.unadmitted caller (mem_of_getElem? called)) h.started h.taskless
    | release _ _ _ _ _ _ moved =>
      intro other hother
      rcases mem_or_eq_of_mem_set hother with hold | rfl
      · exact h.unadmitted other hold
      · rcases moved with rfl | ⟨_, rfl⟩ <;> rfl
    | store => exact h.unadmitted
    | call =>
      intro caller hcaller
      rcases mem_concat.mp hcaller with hold | hnew
      · exact h.unadmitted caller hold
      · rw [hnew]
        unfold InvocationIdentity.begin
        (repeat' split) <;> rfl
    | crash => exact fun caller hcaller => h.unadmitted caller (mem_of_mem_filter hcaller)
  · intro owner howner
    cases action with
    | advance =>
      simp only [RecoveryState.ownersAfter] at howner
      split at howner
      · exact h.unowned owner howner
      next caller hcaller =>
        split at howner
        · exact h.unowned owner howner
        next acquired hacquiring =>
          rcases mem_concat.mp howner with hold | hnew
          · exact h.unowned owner hold
          · rw [hnew]
            rintro rfl
            have hunadmitted := h.unadmitted caller (mem_of_getElem? hcaller)
            unfold CallPhase.acquiring at hacquiring
            split at hacquiring <;> simp_all [CallPhase.admitted, ExecutePhase.pastStart]
    | crash => exact h.unowned owner (mem_of_mem_filter howner)
    | _ => exact h.unowned owner howner

/-- Nothing is reconciled before the first step. -/
lemma RecoveryState.recovering_of_nil (h : s.reconcilers = []) : s.Recovering where
  reads reconciler hreconciler := by simp [h] at hreconciler
  sealed reconciler hreconciler := by simp [h] at hreconciler

lemma RecoveryState.Recovering.permission {action : PermissionAction} {permission : PermissionState}
    (h : s.Recovering) (hstep : permissionStep s.permission action = some permission) :
    RecoveryState.Recovering { permission := permission, owners := s.ownersAfter action,
                               reconcilers := s.reconcilersAfter action } := by
  have hsub : ∀ reconciler ∈ s.reconcilersAfter action, reconciler ∈ s.reconcilers := by
    intro reconciler hreconciler
    cases action with
    | crash => exact mem_of_mem_filter hreconciler
    | _ => exact hreconciler
  have happends := PermissionState.records_of_step hstep
  refine ⟨fun reconciler hreconciler => ?_, fun reconciler hreconciler start attempt rest hphase => ?_⟩
  · exact (h.reads reconciler (hsub reconciler hreconciler)).mono happends
  · exact (h.sealed reconciler (hsub reconciler hreconciler) start attempt rest hphase).permission hstep

lemma RecoveryState.Sealed.reconcile (h : s.Sealed attempt) {reconciler : Reconciler}
    {input : SettlementInput} {reconcilers : List Reconciler} :
    RecoveryState.Sealed { s with
      permission := { s.permission with db := (reconciler.advance s.permission.db input).1 }
      reconcilers := reconcilers } attempt := by
  have happends := advance_appends s.permission.db reconciler input
  refine ⟨?_, ?_, h.unadmitted, h.unowned⟩
  · obtain ⟨start, hstart, hkey⟩ := h.started
    exact ⟨start, happends.mem hstart, hkey⟩
  · rw [currentTaskForAttempt_of_appends happends, h.taskless]
    rintro _ ⟨htype, -⟩ -
    simp [LedgerRow.isTaskEvent, htype]

lemma RecoveryState.Recovering.sealed_of_found (h : s.Recovering) {reconciler : Reconciler}
    (hreconciler : reconciler ∈ s.reconcilers) {start : LedgerRow} {rest : List LedgerRow}
    (hphase : reconciler.phase = .task start attempt rest)
    (htaskless : currentTaskForAttempt s.permission.db attempt = none) (hadmits : ¬s.Admits attempt) :
    s.Sealed attempt := by
  have hreads := h.reads reconciler hreconciler
  rw [hphase] at hreads
  obtain ⟨hattempt, hrows⟩ := hreads
  obtain ⟨hmem, htype⟩ := hrows start mem_cons_self
  obtain ⟨hcallers, howners⟩ := not_or.mp hadmits
  refine ⟨⟨start, hmem, ?_⟩, htaskless, fun caller hcaller => ?_, fun owner howner hof => ?_⟩
  · simp [LedgerRow.attemptStart, htype, hattempt]
  · rw [← Bool.not_eq_true]
    exact fun hadmitted => hcallers ⟨caller, hcaller, hadmitted⟩
  · exact howners ⟨owner, howner, hof⟩

lemma recovering_of_step (h : s.Recovering) (hok : FindsInterrupted s action)
    (hstep : recoveryStep s action = some t) : t.Recovering := by
  unfold recoveryStep at hstep
  split at hstep
  · cases hstep
  next action _ =>
    obtain ⟨permission, hpermission, hrest⟩ := Option.bind_eq_some_iff.mp hstep
    cases hrest
    exact h.permission hpermission
  next process =>
    cases hstep
    refine ⟨fun reconciler hreconciler => ?_, fun reconciler hreconciler start attempt rest hphase => ?_⟩
    · rcases mem_concat.mp hreconciler with hold | hnew
      · exact h.reads reconciler hold
      · rw [hnew]
        trivial
    · rcases mem_concat.mp hreconciler with hold | hnew
      · have hsealed := h.sealed reconciler hold start attempt rest hphase
        exact ⟨hsealed.started, hsealed.taskless, hsealed.unadmitted, hsealed.unowned⟩
      · rw [hnew] at hphase
        cases hphase
  next k input =>
    obtain ⟨reconciler, hreconciler, hrest⟩ := Option.bind_eq_some_iff.mp hstep
    cases hrest
    have hmem : reconciler ∈ s.reconcilers := mem_of_getElem? hreconciler
    have happends := advance_appends s.permission.db reconciler input
    refine ⟨fun other hother => ?_, fun other hother start attempt rest hphase => ?_⟩
    · rcases mem_or_eq_of_mem_set hother with hold | rfl
      · exact (h.reads other hold).mono happends
      · exact (advance_reads (h.reads reconciler hmem)).mono happends
    · rcases mem_or_eq_of_mem_set hother with hold | rfl
      · exact (h.sealed other hold start attempt rest hphase).reconcile
      · obtain ⟨htask, htaskless⟩ := advance_append hphase
        have hadmits := hok reconciler hreconciler
        rw [htask] at hadmits
        exact (h.sealed_of_found hmem htask htaskless (hadmits htaskless)).reconcile

lemma RecoveryState.Recovering.sparesLive (h : s.Recovering) (action : RecoveryAction) : SparesLive s action := by
  cases action with
  | reconcile _ input =>
    intro reconciler hreconciler attempt hlive
    obtain ⟨rows, hledger, hrows⟩ :=
      (advance_appends s.permission.db reconciler input).exists_append
    have hnone : rows.filter (fun row => row.outcomeSlot = some attempt) = [] := by
      rw [filter_eq_nil_iff]
      intro row hrow hslot
      obtain ⟨-, start, written, rest, hphase, hwritten⟩ := hrows row hrow
      have hsame : written = attempt := by
        rw [of_decide_eq_true hslot, Option.some.injEq] at hwritten
        exact hwritten.symm
      subst hsame
      have hsealed := h.sealed reconciler (mem_of_getElem? hreconciler) start written rest hphase
      obtain ⟨_, -, -, owner, howner, hof, -⟩ := hlive
      exact hsealed.unowned owner howner hof
    unfold outcomes
    rw [hledger, filter_append, hnone, List.append_nil]
  | _ => trivial

/-- In every run whose reconciliations find interrupted attempts only, no live effect is written
off. -/
theorem sparesLive_of_findsInterrupted (hinitial : s.Initial)
    (hok : Within recoveryStep FindsInterrupted s actions) :
    Within recoveryStep SparesLive s actions :=
  hok.of_invariant (fun _ _ _ => recovering_of_step) (fun _ action h _ => h.sparesLive action)
    (RecoveryState.recovering_of_nil hinitial.reconcilers)

end Runs

/-- The state before the first call and the first reconciliation. -/
def emptyRecovery : RecoveryState where
  permission := emptyState
  owners := []
  reconcilers := []

/-- Process 0 runs a callback under its effect lease. -/
def runningCall : List RecoveryAction :=
  ([PermissionAction.call 0 toolInvocation] ++
    steps 0 .fullAccess ["", "", "", "", "", "", "", "requested", "", "allowed", "", "started", "lease",
      ""]).map .permission

def openedMeanwhile : List RecoveryAction :=
  runningCall ++ [.reconcileInterruptedAttempts 1] ++
    ["", "", "", "unknown"].map fun eventID => .reconcile 0 (faultlessSettlement eventID)

/-- The reconciliation writes off the running effect. -/
theorem writtenOff_whileRunning :
    letI := joinedIdentity
    emptyRecovery.Initial ∧ ¬Within recoveryStep SparesLive emptyRecovery openedMeanwhile ∧
      (exec recoveryStep emptyRecovery openedMeanwhile).any fun t =>
        LiveEffect t "attempt/project/session/message/call/tool" 0 ∧
          (executionOutcome t.permission.db "attempt/project/session/message/call/tool").map
            LedgerRow.eventType = some .outcomeUnknown := by
  let _ := joinedIdentity
  refine ⟨by decide, fun hspares => ?_, by decide⟩
  have hsplit : openedMeanwhile = openedMeanwhile.dropLast ++
      [.reconcile 0 (faultlessSettlement "unknown")] := by decide
  rw [hsplit, within_append] at hspares
  have hbefore : (exec recoveryStep emptyRecovery openedMeanwhile.dropLast).any (fun t =>
      t.reconcilers[0]?.any fun reconciler =>
        LiveEffect t "attempt/project/session/message/call/tool" 0 ∧
          outcomes (reconciler.advance t.permission.db (faultlessSettlement "unknown")).1
              "attempt/project/session/message/call/tool" ≠
            outcomes t.permission.db "attempt/project/session/message/call/tool") = true := by
    decide
  obtain ⟨t, hrun, hstate⟩ := (Option.any_eq_true _ _).mp hbefore
  obtain ⟨reconciler, hreconciler, hwritten⟩ := (Option.any_eq_true _ _).mp hstate
  obtain ⟨hlive, hchanged⟩ := of_decide_eq_true hwritten
  exact hchanged ((hspares.2 t hrun).1 reconciler hreconciler _ hlive)

/-- Process 1 opens a project after process 0 ended. -/
def openedAfterCrash : List RecoveryAction :=
  runningCall ++ [.permission (.crash 0), .reconcileInterruptedAttempts 1] ++
    ["", "", "", "unknown"].map fun eventID => .reconcile 0 (faultlessSettlement eventID)

/-- The reconciliation writes the interrupted attempt off, and no live effect. -/
theorem sparesLive_of_openedAfterCrash :
    letI := joinedIdentity
    Within recoveryStep SparesLive emptyRecovery openedAfterCrash ∧
      (exec recoveryStep emptyRecovery openedAfterCrash).any fun t =>
        (executionOutcome t.permission.db "attempt/project/session/message/call/tool").map
          LedgerRow.eventType = some .outcomeUnknown := by
  refine ⟨@sparesLive_of_findsInterrupted joinedIdentity _ _ (by decide) ?_, ?_⟩ <;> decide

end OpenCorvus.Permission
