import OpenCorvus.Permission.Interleaving

/-!
# What the steps of the authority append

The ledger grows by insertions only.  Every step of the interleaved authority appends rows under the
unique indexes; a row that takes the slot of a request settles this request, and a row that starts an
attempt is appended by a call that found the attempt not started.
-/

namespace OpenCorvus.Permission

open Transaction Option

/-- The second ledger is the first one after insertions of rows that meet `P`. -/
inductive Appends (P : LedgerRow → Prop) (ledger : List LedgerRow) : List LedgerRow → Prop where
  | refl : Appends P ledger ledger
  | insert {ledger' ledger'' : List LedgerRow} {row : LedgerRow} (before : Appends P ledger ledger')
      (inserted : insertLedgerRow ledger' row = .ok ledger'') (meets : P row) :
      Appends P ledger ledger''

namespace Appends

variable {P Q : LedgerRow → Prop} {ledger ledger' : List LedgerRow} {row : LedgerRow}

section

variable (h : Appends P ledger ledger')

include h

lemma mono (himp : ∀ row, P row → Q row) : Appends Q ledger ledger' := by
  induction h with
  | refl => exact .refl
  | insert _ inserted meets ih => exact .insert ih inserted (himp _ meets)

lemma exists_append : ∃ rows, ledger' = ledger ++ rows ∧ ∀ row ∈ rows, P row := by
  induction h with
  | refl => exact ⟨[], by simp, by simp⟩
  | @insert _ _ row _ inserted meets ih =>
    obtain ⟨rows, rfl, hrows⟩ := ih
    obtain ⟨rfl, -, -⟩ := insertLedgerRow_eq_ok inserted
    refine ⟨rows ++ [row], by simp, fun r hr => ?_⟩
    rcases List.mem_append.mp hr with hold | hnew
    · exact hrows r hold
    · exact List.mem_singleton.mp hnew ▸ meets

lemma mem (hrow : row ∈ ledger) : row ∈ ledger' := by
  obtain ⟨rows, rfl, -⟩ := h.exists_append
  exact List.mem_append_left rows hrow

lemma mem_or (hrow : row ∈ ledger') : row ∈ ledger ∨ P row := by
  obtain ⟨_, rfl, hrows⟩ := h.exists_append
  exact (List.mem_append.mp hrow).imp_right (hrows row)

lemma indexes (hindexes : LedgerIndexes ledger) : LedgerIndexes ledger' := by
  induction h with
  | refl => exact hindexes
  | insert _ inserted _ ih => exact ih.insert inserted

end

end Appends

section Writes

variable {P : LedgerRow → Prop} {db db' : PermissionDatabase} {request : PermissionRequest}
  {row : LedgerRow} {fault : Option WriteFault}

lemma persisted_cases (db : PermissionDatabase) (fault : Option WriteFault)
    (write : Except PermissionError PermissionDatabase) :
    persisted db fault write = db ∨ write = .ok (persisted db fault write) := by
  unfold persisted
  split
  · exact .inl rfl
  · exact .inr rfl
  · exact .inl rfl

lemma commit_cases (db : PermissionDatabase) (fault : Option WriteFault)
    (write : Except PermissionError PermissionDatabase) (committed : CallPhase)
    (failed : PermissionError → CallPhase) :
    (∃ written, write = .ok written ∧ commit db fault write committed failed = (written, committed)) ∨
      ∃ e, (commit db fault write committed failed).2 = failed e := by
  unfold commit
  split
  · exact .inr ⟨_, rfl⟩
  · exact .inr ⟨_, rfl⟩
  · exact .inl ⟨_, rfl, rfl⟩
  · exact .inr ⟨_, rfl⟩

variable {write : Except PermissionError PermissionDatabase}

lemma commit_phase {Q : CallPhase → Prop} {committed : CallPhase} {failed : PermissionError → CallPhase}
    (hcommitted : Q committed) (hfailed : ∀ e, Q (failed e)) : Q (commit db fault write committed failed).2 := by
  rcases commit_cases db fault write committed failed with ⟨_, -, h⟩ | ⟨e, h⟩
  · exact h ▸ hcommitted
  · exact h ▸ hfailed e

lemma persisted_appends (h : ∀ db', write = .ok db' → Appends P db.ledger db'.ledger) :
    Appends P db.ledger (persisted db fault write).ledger := by
  rcases persisted_cases db fault write with hkept | hwritten
  · rw [hkept]
    exact .refl
  · exact h _ hwritten

lemma appendEvent_appends (h : appendEvent db request row = .ok db') (hrow : P row) :
    Appends P db.ledger db'.ledger :=
  .insert .refl (appendEvent_eq_ok h).1 hrow

lemma persisted_appendEvent_appends (hrow : P row) :
    Appends P db.ledger (persisted db fault (appendEvent db request row)).ledger :=
  persisted_appends fun _ h => appendEvent_appends h hrow

end Writes

/-- The row gives the right to go on with its request. -/
def LedgerRow.allows (row : LedgerRow) : Bool :=
  row.eventType = .allowedOnce ∨ row.eventType = .grantCreated

structure LedgerRow.Plain (row : LedgerRow) : Prop where
  decisionSlot : row.decisionSlot = none
  attemptStart : row.attemptStart = none

structure CallPhase.Appended [PermissionIdentity] (phase : CallPhase) (row : LedgerRow) : Prop where
  slot : ∀ requestID, row.decisionSlot = some requestID → row.requestID = requestID ∧ row.allows = true
  start : ∀ attempt, row.attemptStart = some attempt →
    ∃ request authority, phase = .authorized request authority .appendStart

section Calls

variable [PermissionIdentity] {db db' : PermissionDatabase} {request : PermissionRequest}
  {authority : LedgerRow} {attempt : String} {lease : EffectLease} {input : AdvanceInput}

lemma LedgerRow.Plain.appended {row : LedgerRow} (h : row.Plain) (phase : CallPhase) :
    phase.Appended row where
  slot requestID hslot := by simp [h.decisionSlot] at hslot
  start attempt hstart := by simp [h.attemptStart] at hstart

omit [PermissionIdentity] in
lemma appendEffectOutcome_appends {P : LedgerRow → Prop} {row : LedgerRow} {now : ℤ}
    (h : appendEffectOutcome db row lease attempt now = .ok db') (hrow : P row) :
    Appends P db.ledger db'.ledger := by
  unfold appendEffectOutcome at h
  obtain ⟨-, -, hrest⟩ := bind_eq_ok.mp h
  obtain ⟨_, hledger, hdb⟩ := bind_eq_ok.mp hrest
  cases pure_eq_ok.mp hdb
  exact .insert .refl hledger hrow

omit [PermissionIdentity] in
lemma completeExecution_appends (h : completeExecution db request attempt lease input = .ok db') :
    Appends LedgerRow.Plain db.ledger db'.ledger := by
  unfold completeExecution at h
  obtain ⟨-, -, hrest⟩ := bind_eq_ok.mp h
  obtain ⟨succeeded, hsucceeded, hrest⟩ := bind_eq_ok.mp hrest
  obtain ⟨ledger, hledger, hdb⟩ := bind_eq_ok.mp hrest
  cases pure_eq_ok.mp hdb
  have hfirst : Appends LedgerRow.Plain db.ledger succeeded :=
    .insert .refl hsucceeded ⟨rfl, rfl⟩
  unfold retireInlineExecution at hledger
  split at hledger
  · cases hledger
    exact hfirst
  · exact .insert hfirst hledger ⟨rfl, rfl⟩

omit [PermissionIdentity] in
lemma takeLease_ledger (recovering : Bool) :
    (takeLease db request authority attempt recovering input).1.ledger = db.ledger := by
  unfold takeLease
  split
  · rfl
  next lease leased hacquired =>
    have hleased : leased.ledger = db.ledger := by
      unfold acquireEffectLease at hacquired
      obtain ⟨⟨_, _⟩, -, hdb⟩ := bind_eq_ok.mp hacquired
      cases pure_eq_ok.mp hdb
      rfl
    rcases persisted_cases db input.fault (.ok leased) with hkept | hwritten
    · exact congrArg PermissionDatabase.ledger hkept
    · exact (congrArg PermissionDatabase.ledger (Except.ok.inj hwritten)).symm.trans hleased

/-- What `authorize` appends. -/
lemma AuthorizePhase.advance_appends (phase : AuthorizePhase) :
    Appends (CallPhase.authorizing request phase).Appended db.ledger
      (phase.advance db request input).1.ledger := by
  cases phase with
  | appendRequested =>
    exact persisted_appendEvent_appends (LedgerRow.Plain.appended ⟨rfl, rfl⟩ _)
  | fullAccessSettle =>
    refine persisted_appendEvent_appends ⟨fun requestID hslot => ⟨?_, rfl⟩, fun attempt hstart => ?_⟩
    · exact some.inj hslot
    · cases hstart
  | appendGrantUsed =>
    exact persisted_appendEvent_appends (LedgerRow.Plain.appended ⟨rfl, rfl⟩ _)
  | _ =>
    -- The other phases only read.
    simp only [AuthorizePhase.advance]
    (repeat' split) <;> exact .refl

lemma ExecutePhase.advance_appends (phase : ExecutePhase) :
    Appends (CallPhase.authorized request authority phase).Appended db.ledger
      (phase.advance db request authority input).1.ledger := by
  cases phase with
  | appendStart =>
    refine persisted_appendEvent_appends ⟨fun requestID hslot => ?_, fun attempt _ => ?_⟩
    · cases hslot
    · exact ⟨request, authority, rfl⟩
  | acquireLease =>
    simp only [ExecutePhase.advance, takeLease_ledger]
    exact .refl
  | acquireRecoveryLease =>
    simp only [ExecutePhase.advance, takeLease_ledger]
    exact .refl
  | abandonLease =>
    refine persisted_appends fun db' h => ?_
    cases h
    exact .refl
  | appendFailed =>
    exact persisted_appends fun db' h =>
      appendEffectOutcome_appends h (LedgerRow.Plain.appended ⟨rfl, rfl⟩ _)
  | complete =>
    exact persisted_appends fun db' h =>
      (completeExecution_appends h).mono fun row hrow => hrow.appended _
  | _ =>
    simp only [ExecutePhase.advance]
    (repeat' split) <;> exact .refl

theorem CallPhase.advance_appends (phase : CallPhase) (invocation : InvocationIdentity) :
    Appends phase.Appended db.ledger (phase.advance db invocation input).1.ledger := by
  cases phase with
  | authorizing _ phase => exact phase.advance_appends
  | authorized _ _ phase => exact phase.advance_appends
  | insertPolicy =>
    refine persisted_appends fun db' h => ?_
    cases h
    unfold insertPolicyRow
    split <;> exact .refl
  | retireMismatch =>
    exact persisted_appendEvent_appends (LedgerRow.Plain.appended ⟨rfl, rfl⟩ _)
  | _ =>
    simp only [CallPhase.advance]
    (repeat' split) <;> exact .refl

end Calls

def PermissionAction.denial : PermissionAction → Option String
  | .reply requestID .deny _ => some requestID
  | .settleStale requestID _ => some requestID
  | .cancelPending requestID _ => some requestID
  | _ => none

structure PermissionAction.Appended (action : PermissionAction) (row : LedgerRow) : Prop where
  slot : ∀ requestID, row.decisionSlot = some requestID → row.requestID = requestID ∧
    (row.allows = true ∨ row.eventType.denies = true ∧ action.denial = some requestID)
  start : row.attemptStart = none

section Facts

variable {db db' : PermissionDatabase} {requestID : String} {request : PermissionRequest}
  {action : PermissionAction} {input : SettlementInput}

lemma LedgerRow.Plain.appendedBy {row : LedgerRow} (h : row.Plain) (action : PermissionAction) :
    action.Appended row where
  slot requestID hslot := by simp [h.decisionSlot] at hslot
  start := h.attemptStart

lemma requestedRequest_eq_ok (h : requestedRequest db requestID = .ok request) : request.id = requestID := by
  unfold requestedRequest at h
  obtain ⟨row, hrow, hrequest⟩ := bind_eq_ok.mp h
  rw [getOrThrow_eq_ok] at hrow
  have hfound : row.requestID = requestID ∧ row.eventType = .requested := by
    unfold requestedRow at hrow
    simpa using List.find?_some hrow
  unfold requestFromRow at hrequest
  obtain ⟨_, hauthority, hrest⟩ := bind_eq_ok.mp hrequest
  obtain ⟨_, hrequest⟩ := of_bind hrest
  rw [getOrThrow_eq_ok, if_pos hfound.2, some.injEq] at hauthority
  rw [pure_eq_ok] at hrequest
  rw [← hrequest, ← hauthority]
  exact hfound.1

lemma settleDecision_appends {eventType : PermissionEventType} {scope : DecisionScope}
    (htype : (request.settledEvent eventType scope input).allows = true ∨
      eventType.denies = true ∧ action.denial = some request.id)
    (hstart : eventType ≠ .executionStarted) :
    Appends action.Appended db.ledger
      (settleDecision db request eventType scope input).ledger := by
  refine persisted_appendEvent_appends ⟨fun requestID hslot => ?_, ?_⟩
  · have hid : request.id = requestID := some.inj hslot
    exact ⟨hid, hid ▸ htype⟩
  · exact if_neg hstart

lemma appendFact_appends {source : Option LedgerRow} {missing : PermissionError}
    {fault : Option WriteFault} {fact : PermissionRequest → LedgerRow → LedgerRow}
    (h : appendFact db source missing fault fact = .ok db')
    (hfact : ∀ request row, (fact request row).Plain) :
    Appends action.Appended db.ledger db'.ledger := by
  unfold appendFact at h
  obtain ⟨row, -, hrest⟩ := bind_eq_ok.mp h
  obtain ⟨request, -, hdb⟩ := bind_eq_ok.mp hrest
  cases pure_eq_ok.mp hdb
  exact persisted_appendEvent_appends ((hfact request row).appendedBy action)

lemma replyValidated_appends {decision : PermissionDecision}
    (h : replyValidated db requestID decision input = .ok db') :
    Appends (PermissionAction.reply requestID decision input).Appended db.ledger db'.ledger := by
  unfold replyValidated at h
  obtain ⟨request, hrequest, hrest⟩ := bind_eq_ok.mp h
  have hdb := of_throwWhen hrest
  cases pure_eq_ok.mp hdb
  have hid : request.id = requestID := requestedRequest_eq_ok hrequest
  cases decision with
  | deny => exact settleDecision_appends (.inr ⟨rfl, congrArg some hid.symm⟩) (by decide)
  | allowOnce | allowTask | allowProject => exact settleDecision_appends (.inl rfl) (by decide)

lemma settleStale_appends (h : settleStale db requestID input = .ok db') :
    Appends (PermissionAction.settleStale requestID input).Appended db.ledger db'.ledger := by
  unfold settleStale at h
  obtain ⟨request, hrequest, hdb⟩ := bind_eq_ok.mp h
  cases pure_eq_ok.mp hdb
  have hid : request.id = requestID := requestedRequest_eq_ok hrequest
  exact settleDecision_appends (.inr ⟨rfl, congrArg some hid.symm⟩) (by decide)

lemma cancelPending_appends (h : cancelPending db requestID input = .ok db') :
    Appends (PermissionAction.cancelPending requestID input).Appended db.ledger db'.ledger := by
  unfold cancelPending at h
  obtain ⟨request, hrequest, hdb⟩ := bind_eq_ok.mp h
  cases pure_eq_ok.mp hdb
  have hid : request.id = requestID := requestedRequest_eq_ok hrequest
  exact settleDecision_appends (.inr ⟨rfl, congrArg some hid.symm⟩) (by decide)

lemma recordMcpTask_appends [PermissionIdentity] {phase : CallPhase} {existing : Option McpTask}
    {task : McpTask} (h : recordMcpTask db phase existing task input = .ok db') :
    Appends action.Appended db.ledger db'.ledger := by
  unfold recordMcpTask at h
  split at h
  next request authority lease recovering =>
    have hdb := of_throwWhen h
    cases pure_eq_ok.mp hdb
    refine persisted_appendEvent_appends (LedgerRow.Plain.appendedBy ⟨rfl, ?_⟩ action)
    cases existing <;> rfl
  · cases h

lemma renewEffectLease_ledger [PermissionIdentity] {phase : CallPhase} {now : ℤ}
    (h : renewEffectLease db phase now = .ok db') : db'.ledger = db.ledger := by
  unfold renewEffectLease at h
  split at h
  · obtain ⟨_, hdb⟩ := of_bind h
    cases pure_eq_ok.mp hdb
    rfl
  · cases h

end Facts

section Steps

variable [PermissionIdentity]

inductive PermissionState.Stepped (s : PermissionState) (action : PermissionAction) :
    PermissionState → Prop where
  /-- A call takes its next step. -/
  | advance (i : ℕ) (caller : Caller) (input : AdvanceInput) (named : action = .advance i input)
      (called : s.callers[i]? = some caller) : s.Stepped action (s.advance i caller input)
  /-- A waiting call is released. -/
  | release (i : ℕ) (caller : Caller) (request : PermissionRequest) (phase : CallPhase)
      (called : s.callers[i]? = some caller) (waiting : caller.phase = .authorizing request .waiting)
      (moved : phase = .authorizing request .settledDecision ∨ ∃ e, phase = .threw e) :
      s.Stepped action (s.move i caller phase)
  /-- The database alone changes, and its ledger grows. -/
  | store (db : PermissionDatabase) (appends : Appends action.Appended s.db.ledger db.ledger) :
      s.Stepped action { s with db := db }
  /-- A call begins. -/
  | call (process : ℕ) (invocation : InvocationIdentity) :
      s.Stepped action { s with callers := s.callers ++ [⟨process, invocation, invocation.begin⟩] }
  /-- Calls end. -/
  | crash (process : ℕ) :
      s.Stepped action { s with callers := s.callers.filter fun caller => caller.process ≠ process }

variable {s s' : PermissionState} {action : PermissionAction}

lemma PermissionState.stepped_of_store {write : Except PermissionError PermissionDatabase}
    (h : s.store write = some s')
    (happends : ∀ db, write = .ok db → Appends action.Appended s.db.ledger db.ledger) :
    s.Stepped action s' := by
  unfold PermissionState.store at h
  split at h
  · cases h
    exact .store _ (happends _ rfl)
  · cases h

theorem PermissionState.stepped_of_step (h : permissionStep s action = some s') : s.Stepped action s' := by
  cases action with
  | call process invocation =>
    cases h
    exact .call process invocation
  | advance i input =>
    obtain ⟨caller, hcaller, hstep⟩ := bind_eq_some_iff.mp h
    split at hstep
    · cases hstep
    · cases hstep
      exact .advance i caller input rfl hcaller
  | recordMcpTask =>
    obtain ⟨_, -, hstep⟩ := bind_eq_some_iff.mp h
    exact stepped_of_store hstep fun _ => recordMcpTask_appends
  | renewLease =>
    obtain ⟨_, -, hstep⟩ := bind_eq_some_iff.mp h
    refine stepped_of_store hstep fun db hdb => ?_
    rw [renewEffectLease_ledger hdb]
    exact .refl
  | releaseWaiter i =>
    obtain ⟨caller, hcaller, hstep⟩ := bind_eq_some_iff.mp h
    split at hstep
    next request hwaiting =>
      obtain ⟨_, -, hmoved⟩ := bind_eq_some_iff.mp hstep
      cases hmoved
      refine .release i caller request _ hcaller hwaiting ?_
      split
      · exact .inr ⟨_, rfl⟩
      · exact .inl rfl
    · cases hstep
  | pauseWaiter i =>
    obtain ⟨caller, hcaller, hstep⟩ := bind_eq_some_iff.mp h
    split at hstep
    next request hwaiting =>
      cases hstep
      exact .release i caller request _ hcaller hwaiting (.inr ⟨_, rfl⟩)
    · cases hstep
  | reply => exact stepped_of_store h fun _ => replyValidated_appends
  | settleStale => exact stepped_of_store h fun _ => settleStale_appends
  | cancelPending => exact stepped_of_store h fun _ => cancelPending_appends
  | revoke | expire | retireContinuation | reconcileInterruptedAttempt | reconcileExecution =>
    exact stepped_of_store h fun _ hdb => appendFact_appends hdb fun _ _ => ⟨rfl, rfl⟩
  | beginSessionDeletion | deletePolicies =>
    cases h
    exact .store _ .refl
  | crash process =>
    cases h
    exact .crash process

end Steps

end OpenCorvus.Permission
