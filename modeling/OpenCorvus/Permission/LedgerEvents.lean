import OpenCorvus.Permission.LedgerGrowth

/-!
# Which events the steps of the authority append

A step appends events of the kind that its transaction records.  The start of an execution is appended
by the call that stands before it, for its own request and attempt; an event of a protocol Task is
appended under a running callback, for the attempt of the callback.
-/

namespace OpenCorvus.Permission

open Transaction

variable [PermissionIdentity]

def LedgerRow.isTaskEvent (row : LedgerRow) : Bool :=
  row.eventType = .mcpTaskCreated ∨ row.eventType = .mcpTaskStatus

def CallPhase.Records : CallPhase → LedgerRow → Prop
  | .retireMismatch _ _, row => row.eventType = .stale
  | .authorizing _ .appendRequested, row => row.eventType = .requested
  | .authorizing _ .fullAccessSettle, row => row.eventType = .allowedOnce
  | .authorizing _ (.appendGrantUsed _), row => row.eventType = .grantUsed
  | .authorized request _ .appendStart, row =>
    row.eventType = .executionStarted ∧ row.requestID = request.id ∧
      row.attemptID = some (attemptIdentity request.id)
  | .authorized _ _ (.appendFailed _ _), row => row.eventType = .executionFailed
  | .authorized _ _ (.complete _), row =>
    row.eventType = .executionSucceeded ∨ row.eventType = .stale
  | _, _ => False

def PermissionAction.Records (s : PermissionState) : PermissionAction → LedgerRow → Prop
  | .advance i _, row => ∃ caller, s.callers[i]? = some caller ∧ caller.phase.Records row
  | .recordMcpTask i _ _ _, row => row.isTaskEvent ∧
      ∃ caller request authority lease recovering, s.callers[i]? = some caller ∧
        caller.phase = .authorized request authority (.executing lease recovering) ∧
        row.attemptID = some (attemptIdentity request.id)
  | .reply _ decision _, row => row.eventType = decision.eventType
  | .settleStale _ _, row | .retireContinuation _ _, row => row.eventType = .stale
  | .cancelPending _ _, row => row.eventType = .cancelled
  | .revoke _ _, row => row.eventType = .revoked
  | .expire _ _, row => row.eventType = .expired
  | .reconcileInterruptedAttempt _ _, row => row.eventType = .outcomeUnknown
  | .reconcileExecution _ _ _, row => row.eventType = .executionReconciled
  | _, _ => False

section Calls

variable {db db' : PermissionDatabase} {request : PermissionRequest} {authority : LedgerRow}
  {input : AdvanceInput}

/-- What `authorize` records. -/
lemma AuthorizePhase.advance_records (phase : AuthorizePhase) :
    Appends (CallPhase.authorizing request phase).Records db.ledger
      (phase.advance db request input).1.ledger := by
  cases phase with
  | appendRequested => exact persisted_appendEvent_appends rfl
  | fullAccessSettle => exact persisted_appendEvent_appends rfl
  | appendGrantUsed => exact persisted_appendEvent_appends rfl
  | _ =>
    simp only [AuthorizePhase.advance]
    (repeat' split) <;> exact .refl

lemma completeExecution_records {attempt : String} {lease : EffectLease}
    (h : completeExecution db request attempt lease input = .ok db') :
    Appends (CallPhase.authorized request authority (.complete lease)).Records
      db.ledger db'.ledger := by
  unfold completeExecution at h
  obtain ⟨-, -, hrest⟩ := bind_eq_ok.mp h
  obtain ⟨succeeded, hsucceeded, hrest⟩ := bind_eq_ok.mp hrest
  obtain ⟨ledger, hledger, hdb⟩ := bind_eq_ok.mp hrest
  cases pure_eq_ok.mp hdb
  have hfirst : Appends (CallPhase.authorized request authority (.complete lease)).Records
      db.ledger succeeded := .insert .refl hsucceeded (.inl rfl)
  unfold retireInlineExecution at hledger
  split at hledger
  · cases hledger
    exact hfirst
  · exact .insert hfirst hledger (.inr rfl)

lemma ExecutePhase.advance_records (phase : ExecutePhase) :
    Appends (CallPhase.authorized request authority phase).Records db.ledger
      (phase.advance db request authority input).1.ledger := by
  cases phase with
  | appendStart => exact persisted_appendEvent_appends ⟨rfl, rfl, rfl⟩
  | acquireLease =>
    simp only [ExecutePhase.advance, takeLease_ledger]
    exact .refl
  | acquireRecoveryLease =>
    simp only [ExecutePhase.advance, takeLease_ledger]
    exact .refl
  | abandonLease =>
    refine persisted_appends fun db' h => ?_
    cases h
    exact .refl
  | appendFailed =>
    exact persisted_appends fun db' h => appendEffectOutcome_appends h rfl
  | complete => exact persisted_appends fun db' h => completeExecution_records h
  | _ =>
    simp only [ExecutePhase.advance]
    (repeat' split) <;> exact .refl

theorem CallPhase.advance_records (phase : CallPhase) (invocation : InvocationIdentity) :
    Appends phase.Records db.ledger (phase.advance db invocation input).1.ledger := by
  cases phase with
  | authorizing _ phase => exact phase.advance_records
  | authorized _ _ phase => exact phase.advance_records
  | insertPolicy =>
    refine persisted_appends fun db' h => ?_
    cases h
    unfold insertPolicyRow
    split <;> exact .refl
  | retireMismatch => exact persisted_appendEvent_appends rfl
  | _ =>
    simp only [CallPhase.advance]
    (repeat' split) <;> exact .refl

def CallPhase.Keeps (request : PermissionRequest) (authority : LedgerRow) : CallPhase → Prop
  | .authorized request' authority' _ => request' = request ∧ authority' = authority
  | _ => True

lemma ExecutePhase.advance_keeps (phase : ExecutePhase) :
    (phase.advance db request authority input).2.Keeps request authority := by
  have hlease : ∀ recovering, (takeLease db request authority (attemptIdentity request.id) recovering
      input).2.Keeps request authority := by
    intro recovering
    unfold takeLease
    split
    · trivial
    next lease leased hacquired =>
      refine commit_phase ?_ fun _ => trivial
      cases lease <;> exact ⟨rfl, rfl⟩
  cases phase with
  | acquireLease => exact hlease false
  | acquireRecoveryLease => exact hlease true
  | appendStart => exact commit_phase ⟨rfl, rfl⟩ fun _ => ⟨rfl, rfl⟩
  | abandonLease => exact commit_phase trivial fun _ => trivial
  | appendFailed => exact commit_phase trivial fun _ => trivial
  | complete => exact commit_phase trivial fun _ => trivial
  | _ =>
    simp only [ExecutePhase.advance, outcomePhase]
    (repeat' split) <;> simp [CallPhase.Keeps]

end Calls

section Facts

variable {P : LedgerRow → Prop} {db db' : PermissionDatabase} {requestID : String}
  {input : SettlementInput}

omit [PermissionIdentity] in
lemma appendFact_records {source : Option LedgerRow} {missing : PermissionError}
    {fault : Option WriteFault} {fact : PermissionRequest → LedgerRow → LedgerRow}
    (h : appendFact db source missing fault fact = .ok db')
    (hfact : ∀ request row, P (fact request row)) : Appends P db.ledger db'.ledger := by
  unfold appendFact at h
  obtain ⟨row, -, hrest⟩ := bind_eq_ok.mp h
  obtain ⟨request, -, hdb⟩ := bind_eq_ok.mp hrest
  cases pure_eq_ok.mp hdb
  exact persisted_appendEvent_appends (hfact request row)

omit [PermissionIdentity] in
lemma settlement_records {eventType : PermissionEventType} {scope : DecisionScope}
    (h : (do
      let request ← requestedRequest db requestID
      return settleDecision db request eventType scope input : Except _ _) = .ok db') :
    Appends (fun row => row.eventType = eventType) db.ledger db'.ledger := by
  obtain ⟨_, hdb⟩ := of_bind h
  cases pure_eq_ok.mp hdb
  exact persisted_appendEvent_appends rfl

omit [PermissionIdentity] in
lemma replyValidated_records {decision : PermissionDecision}
    (h : replyValidated db requestID decision input = .ok db') :
    Appends (fun row => row.eventType = decision.eventType) db.ledger db'.ledger := by
  unfold replyValidated at h
  obtain ⟨_, hrest⟩ := of_bind h
  have hdb := of_throwWhen hrest
  cases pure_eq_ok.mp hdb
  exact persisted_appendEvent_appends rfl

lemma recordMcpTask_records {phase : CallPhase} {existing : Option McpTask} {task : McpTask}
    (h : recordMcpTask db phase existing task input = .ok db') :
    Appends (fun row => row.isTaskEvent ∧ ∃ request authority lease recovering,
      phase = .authorized request authority (.executing lease recovering) ∧
        row.attemptID = some (attemptIdentity request.id)) db.ledger db'.ledger := by
  unfold recordMcpTask at h
  split at h
  next request authority lease recovering =>
    have hdb := of_throwWhen h
    cases pure_eq_ok.mp hdb
    refine persisted_appendEvent_appends ⟨?_, request, authority, lease, recovering, rfl, rfl⟩
    cases existing <;> rfl
  · cases h

end Facts

section Steps

variable {s s' : PermissionState} {action : PermissionAction}

omit [PermissionIdentity] in
lemma PermissionState.store_records {write : Except PermissionError PermissionDatabase}
    {P : LedgerRow → Prop} (h : s.store write = some s')
    (hrecords : ∀ db, write = .ok db → Appends P s.db.ledger db.ledger) :
    Appends P s.db.ledger s'.db.ledger := by
  unfold PermissionState.store at h
  split at h
  · cases h
    exact hrecords _ rfl
  · cases h

theorem PermissionState.records_of_step (h : permissionStep s action = some s') :
    Appends (action.Records s) s.db.ledger s'.db.ledger := by
  cases action with
  | advance =>
    obtain ⟨caller, hcaller, hstep⟩ := Option.bind_eq_some_iff.mp h
    split at hstep
    · cases hstep
    · cases hstep
      exact (caller.phase.advance_records caller.invocation).mono fun row hrow =>
        ⟨caller, hcaller, hrow⟩
  | recordMcpTask =>
    obtain ⟨caller, hcaller, hstep⟩ := Option.bind_eq_some_iff.mp h
    refine store_records hstep fun db hdb => (recordMcpTask_records hdb).mono fun row hrow => ?_
    obtain ⟨htask, request, authority, lease, recovering, hphase, hattempt⟩ := hrow
    exact ⟨htask, caller, request, authority, lease, recovering, hcaller, hphase, hattempt⟩
  | renewLease =>
    obtain ⟨_, -, hstep⟩ := Option.bind_eq_some_iff.mp h
    refine store_records hstep fun db hdb => ?_
    rw [renewEffectLease_ledger hdb]
    exact .refl
  | releaseWaiter =>
    obtain ⟨_, -, hstep⟩ := Option.bind_eq_some_iff.mp h
    split at hstep
    · obtain ⟨_, -, hmoved⟩ := Option.bind_eq_some_iff.mp hstep
      cases hmoved
      exact .refl
    · cases hstep
  | pauseWaiter =>
    obtain ⟨_, -, hstep⟩ := Option.bind_eq_some_iff.mp h
    split at hstep
    · cases hstep
      exact .refl
    · cases hstep
  | reply => exact store_records h fun _ => replyValidated_records
  | settleStale | cancelPending => exact store_records h fun _ => settlement_records
  | revoke | expire => exact store_records h fun _ hdb => appendFact_records hdb fun _ _ => rfl
  | retireContinuation | reconcileInterruptedAttempt | reconcileExecution =>
    exact store_records h fun _ hdb => appendFact_records hdb fun _ _ => rfl
  | call | beginSessionDeletion | deletePolicies | crash =>
    cases h
    exact .refl

end Steps

end OpenCorvus.Permission
