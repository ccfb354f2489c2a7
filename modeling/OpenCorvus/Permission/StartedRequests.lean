import OpenCorvus.Permission.AllowedStarts
import OpenCorvus.Permission.LedgerEvents

/-!
# Started requests are settled for decisions

A request is pending while its decision slot is free.  A decision takes the slot, and so does the
admission under full access; the use of a remembered grant does not.  A request that is started on a
remembered grant therefore stays in the list of pending requests, and can be decided or cancelled
afterwards.
-/

namespace OpenCorvus.Permission

open Transaction ExecutableSystem List Option CallPhase PermissionState AuthorizePhase

section Pending

variable (db : PermissionDatabase)

def pendingRows : List LedgerRow :=
  db.ledger.filter fun row => row.eventType = .requested ∧ decisionFor db row.requestID = none

def list : Except PermissionError (List PermissionRequest) :=
  (pendingRows db).mapM (requestFromRow db)

def ExecutionStarted (requestID : String) : Prop :=
  ∃ row ∈ db.ledger, row.requestID = requestID ∧ row.eventType = .executionStarted

instance (requestID : String) : Decidable (ExecutionStarted db requestID) :=
  inferInstanceAs (Decidable (∃ row ∈ db.ledger, _))

end Pending

section Settled

variable [PermissionIdentity]

structure SettledForDecisions (s : PermissionState) (requestID : String) : Prop where
  notListed : ∀ requests, list s.db = .ok requests → ∀ request ∈ requests, request.id ≠ requestID
  final : ∀ later t, exec permissionStep s later = some t → decisionFor t.db requestID = decisionFor s.db requestID

end Settled

def StartsDecided (s : PermissionState) : PermissionAction → Prop
  | .advance i input => ∀ caller ∈ s.callers[i]?,
      match caller.phase with
      | .authorized request authority .appendStart =>
        authority.eventType = .grantUsed → input.fault ≠ some .aborted → decisionFor s.db request.id ≠ none
      | _ => True
  | _ => True

/-- The call that takes its next step, with what the step takes from outside. -/
def PermissionAction.advance? : PermissionAction → Option (ℕ × AdvanceInput)
  | .advance i input => some (i, input)
  | _ => none

def CallPhase.appendStart? : CallPhase → Option (PermissionRequest × LedgerRow)
  | .authorized request authority .appendStart => some (request, authority)
  | _ => none

lemma startsDecided_iff {s : PermissionState} {action : PermissionAction} :
    (∀ step ∈ action.advance?, ∀ caller ∈ s.callers[step.1]?, ∀ start ∈ caller.phase.appendStart?,
      start.2.eventType = .grantUsed → step.2.fault ≠ some .aborted → decisionFor s.db start.1.id ≠ none) ↔
      StartsDecided s action := by
  cases action with
  | advance =>
    simp only [PermissionAction.advance?, mem_some_iff, forall_eq', StartsDecided]
    refine forall₂_congr fun caller _ => ?_
    obtain ⟨_, _, phase⟩ := caller
    cases phase with
    | authorized _ _ stage => cases stage <;> simp [appendStart?]
    | _ => simp [appendStart?]
  | _ => simp [PermissionAction.advance?, StartsDecided]

instance (s : PermissionState) (action : PermissionAction) : Decidable (StartsDecided s action) :=
  decidable_of_iff _ startsDecided_iff

section Decisions

variable {P : LedgerRow → Prop} {db db' : PermissionDatabase} {requestID : String}

lemma decisionFor_of_appends (happends : Appends P db.ledger db'.ledger)
    (hindexes : LedgerIndexes db.ledger) {decision : LedgerRow}
    (hdecision : decisionFor db requestID = some decision) :
    decisionFor db' requestID = some decision := by
  obtain ⟨hmem, hslot⟩ := mem_of_decisionFor hdecision
  exact decisionFor_eq_some (happends.indexes hindexes) (happends.mem hmem) hslot

lemma decided_of_appends (happends : Appends P db.ledger db'.ledger)
    (hindexes : LedgerIndexes db.ledger) (hdecided : decisionFor db requestID ≠ none) :
    decisionFor db' requestID ≠ none := by
  obtain ⟨decision, hdecision⟩ := ne_none_iff_exists'.mp hdecided
  rw [decisionFor_of_appends happends hindexes hdecision]
  exact some_ne_none decision

variable {request : PermissionRequest}

lemma requestFromRow_id {row : LedgerRow} (hrow : row.eventType = .requested)
    (h : requestFromRow db row = .ok request) : request.id = row.requestID := by
  unfold requestFromRow at h
  obtain ⟨_, hauthority, hrest⟩ := bind_eq_ok.mp h
  obtain ⟨_, hrequest⟩ := of_bind hrest
  rw [getOrThrow_eq_ok, if_pos hrow, some.injEq] at hauthority
  rw [pure_eq_ok] at hrequest
  rw [← hrequest, ← hauthority]

lemma undecided_of_list {requests : List PermissionRequest} (h : list db = .ok requests)
    (hrequest : request ∈ requests) : decisionFor db request.id = none := by
  obtain ⟨row, hrow, hread⟩ := mem_of_mapM_eq_ok h hrequest
  have hpending : row ∈ db.ledger ∧ row.eventType = .requested ∧
      decisionFor db row.requestID = none := by simpa [pendingRows] using hrow
  rw [requestFromRow_id hpending.2.1 hread]
  exact hpending.2.2

variable [PermissionIdentity]

theorem decisionFor_final {s t : PermissionState} {later : List PermissionAction}
    (hindexes : LedgerIndexes s.db.ledger) {decision : LedgerRow}
    (hdecision : decisionFor s.db requestID = some decision)
    (hrun : exec permissionStep s later = some t) : decisionFor t.db requestID = some decision := by
  have hkept : Preserves permissionStep fun s : PermissionState =>
      LedgerIndexes s.db.ledger ∧ decisionFor s.db requestID = some decision := by
    intro s action s' h hstep
    have happends := records_of_step hstep
    exact ⟨happends.indexes h.1, decisionFor_of_appends happends h.1 h.2⟩
  exact (hkept.exec ⟨hindexes, hdecision⟩ hrun).2

lemma settledForDecisions_of_decided {s : PermissionState} (hindexes : LedgerIndexes s.db.ledger)
    (hdecided : decisionFor s.db requestID ≠ none) : SettledForDecisions s requestID := by
  obtain ⟨_, hdecision⟩ := ne_none_iff_exists'.mp hdecided
  refine ⟨fun requests hlist request hrequest hid => ?_, fun later t hrun => ?_⟩
  · have hundecided : decisionFor s.db request.id = none := undecided_of_list hlist hrequest
    exact hdecided (hid ▸ hundecided)
  · rw [hdecision]
    exact decisionFor_final hindexes hdecision hrun

end Decisions

def CallPhase.Authorized (db : PermissionDatabase) : CallPhase → Prop
  | .authorized request authority _ =>
    decisionFor db request.id ≠ none ∨ authority.eventType = .grantUsed
  | _ => True

structure PermissionState.StartsSettled (s : PermissionState) : Prop where
  indexes : LedgerIndexes s.db.ledger
  authorized : ∀ caller ∈ s.callers, caller.phase.Authorized s.db
  decided : ∀ requestID, ExecutionStarted s.db requestID → decisionFor s.db requestID ≠ none

section Calls

variable [PermissionIdentity] {db db' : PermissionDatabase} {request : PermissionRequest}
  {authority : LedgerRow} {input : AdvanceInput}

omit [PermissionIdentity] in
lemma CallPhase.Authorized.mono {P : LedgerRow → Prop} {phase : CallPhase}
    (h : phase.Authorized db) (happends : Appends P db.ledger db'.ledger)
    (hindexes : LedgerIndexes db.ledger) : phase.Authorized db' := by
  cases phase with
  | authorized => exact h.imp_left (decided_of_appends happends hindexes)
  | _ => trivial

omit [PermissionIdentity] in
lemma decidedPhase_authorized (hdecision : decisionFor db request.id = some authority) :
    (decidedPhase request authority).Authorized db := by
  unfold decidedPhase
  split
  · trivial
  · exact .inl (by simp [hdecision])

lemma AuthorizePhase.advance_authorized (phase : AuthorizePhase) (hindexes : LedgerIndexes db.ledger) :
    (phase.advance db request input).2.Authorized (phase.advance db request input).1 := by
  cases phase with
  | fullAccessDecision =>
    simp only [advance]
    split
    next existing hexisting => exact .inl (by simp [hexisting])
    · trivial
  | fullAccessWinner =>
    simp only [advance]
    split
    · trivial
    next winner hwinner => exact .inl (by simp [hwinner])
  | fullAccessSettle =>
    simp only [advance]
    rcases commit_cases db input.fault _ _ _ with ⟨written, hwritten, hcommit⟩ | ⟨_, hcommit⟩
    · rw [hcommit]
      have hinserted := (appendEvent_eq_ok hwritten).1
      obtain ⟨hledger, -, -⟩ := insertLedgerRow_eq_ok hinserted
      have hmem : request.fullAccessEvent input ∈ written.ledger := by
        rw [hledger]
        exact mem_append_right _ (mem_singleton_self _)
      have hdecision : decisionFor written request.id = some (request.fullAccessEvent input) :=
        decisionFor_eq_some (hindexes.insert hinserted) hmem rfl
      exact .inl (by simp [hdecision])
    · rw [hcommit]
      trivial
  | appendGrantUsed =>
    refine commit_phase (Q := fun phase => ∀ db, phase.Authorized db) (fun _ => ?_) (fun _ _ => ?_) _
    · exact Or.inr rfl
    · trivial
  | exactDecision =>
    simp only [advance]
    split
    next decision hdecision => exact decidedPhase_authorized hdecision
    · trivial
  | settledDecision =>
    simp only [advance]
    split
    · trivial
    next settled hsettled => exact decidedPhase_authorized hsettled
  | appendRequested =>
    refine commit_phase (Q := fun phase => ∀ db, phase.Authorized db) (fun _ => ?_) (fun _ _ => ?_) _
    all_goals trivial
  | _ =>
    simp only [advance]
    (repeat' split) <;> trivial

lemma CallPhase.advance_authorized {phase : CallPhase} {invocation : InvocationIdentity}
    (h : phase.Authorized db) (hindexes : LedgerIndexes db.ledger) :
    (phase.advance db invocation input).2.Authorized (phase.advance db invocation input).1 := by
  cases phase with
  | authorizing _ phase => exact phase.advance_authorized hindexes
  | authorized request authority phase =>
    have hkeeps : (phase.advance db request authority input).2.Keeps request authority :=
      phase.advance_keeps
    have happends : Appends (authorized request authority phase).Records db.ledger
        (phase.advance db request authority input).1.ledger := phase.advance_records
    simp only [advance]
    generalize phase.advance db request authority input = next at hkeeps happends
    obtain ⟨_, phase'⟩ := next
    cases phase' with
    | authorized =>
      obtain ⟨rfl, rfl⟩ := hkeeps
      exact h.mono happends hindexes
    | _ => trivial
  | insertPolicy =>
    refine commit_phase (Q := fun phase => ∀ db, phase.Authorized db) (fun _ => ?_) (fun _ _ => ?_) _
    all_goals trivial
  | retireMismatch =>
    refine commit_phase (Q := fun phase => ∀ db, phase.Authorized db) (fun _ => ?_) (fun _ _ => ?_) _
    all_goals trivial
  | _ =>
    simp only [advance, requestPhase]
    (repeat' split) <;> trivial

end Calls

section Runs

variable [PermissionIdentity] {s t : PermissionState} {action : PermissionAction}
  {actions : List PermissionAction}

omit [PermissionIdentity] in
/-- Nothing is recorded and nobody calls. -/
lemma PermissionState.Initial.startsSettled (h : s.Initial) : s.StartsSettled where
  indexes := h.ledger ▸ LedgerIndexes.nil
  authorized caller hcaller := by simp [h.callers] at hcaller
  decided requestID hstarted := by
    obtain ⟨_, hrow, -⟩ := hstarted
    simp [h.ledger] at hrow

lemma starting_of_records {row : LedgerRow} (h : action.Records s row)
    (htype : row.eventType = .executionStarted) :
    ∃ i input caller request authority, action = .advance i input ∧ s.callers[i]? = some caller ∧
      caller.phase = .authorized request authority .appendStart ∧ row.requestID = request.id ∧
      row.attemptID = some (attemptIdentity request.id) := by
  cases action with
  | advance i input =>
    obtain ⟨caller, hcaller, hrow⟩ := h
    unfold CallPhase.Records at hrow
    split at hrow
    case h_5 request authority hphase =>
      exact ⟨i, input, caller, request, authority, rfl, hcaller, hphase, hrow.2⟩
    all_goals simp [htype] at hrow
  | recordMcpTask => simp [PermissionAction.Records, LedgerRow.isTaskEvent, htype] at h
  | reply _ decision =>
    cases decision <;> simp [PermissionAction.Records, PermissionDecision.eventType, htype] at h
  | _ => simp [PermissionAction.Records, htype] at h

lemma advance_aborted {i : ℕ} {caller : Caller} {input : AdvanceInput} {request : PermissionRequest}
    {authority : LedgerRow} (hphase : caller.phase = .authorized request authority .appendStart)
    (hfault : input.fault = some .aborted) :
    (s.advance i caller input).db = s.db := by
  simp [PermissionState.advance, hphase, CallPhase.advance, ExecutePhase.advance, commit, persisted, hfault]

lemma startsSettled_of_step (h : s.StartsSettled) (hok : StartsDecided s action)
    (hstep : permissionStep s action = some t) : t.StartsSettled := by
  have happends : Appends (action.Records s) s.db.ledger t.db.ledger :=
    records_of_step hstep
  refine ⟨happends.indexes h.indexes, ?_, fun requestID hstarted => ?_⟩
  · cases stepped_of_step hstep with
    | advance _ caller _ _ called =>
      intro other hother
      rcases mem_or_eq_of_mem_set hother with hold | rfl
      · exact (h.authorized other hold).mono happends h.indexes
      · exact advance_authorized (h.authorized caller (mem_of_getElem? called)) h.indexes
    | release _ _ _ _ _ _ moved =>
      intro other hother
      rcases mem_or_eq_of_mem_set hother with hold | rfl
      · exact h.authorized other hold
      · rcases moved with rfl | ⟨_, rfl⟩ <;> trivial
    | store _ appends => exact fun caller hcaller => (h.authorized caller hcaller).mono appends h.indexes
    | call =>
      intro caller hcaller
      rcases mem_append.mp hcaller with hold | hnew
      · exact h.authorized caller hold
      · rw [mem_singleton.mp hnew]
        unfold InvocationIdentity.begin
        (repeat' split) <;> trivial
    | crash => exact fun caller hcaller => h.authorized caller (mem_of_mem_filter hcaller)
  · obtain ⟨row, hrow, rfl, htype⟩ := hstarted
    refine decided_of_appends happends h.indexes ?_
    rcases happends.mem_or hrow with hold | hnew
    · exact h.decided _ ⟨row, hold, rfl, htype⟩
    · obtain ⟨_, input, caller, _, _, rfl, hcaller, hphase, hid, -⟩ :=
        starting_of_records hnew htype
      rw [hid]
      have hauthorized := h.authorized caller (mem_of_getElem? hcaller)
      rw [hphase] at hauthorized
      rcases hauthorized with hdecided | hgrant
      · exact hdecided
      · by_cases hfault : input.fault = some .aborted
        · -- Nothing was written, so the row was there before.
          obtain ⟨_, hother, hadvance⟩ := bind_eq_some_iff.mp hstep
          rw [hcaller, some.injEq] at hother
          subst hother
          split at hadvance
          · cases hadvance
          · cases hadvance
            rw [advance_aborted hphase hfault] at hrow
            rw [← hid]
            exact h.decided _ ⟨row, hrow, rfl, htype⟩
        · have hcondition := hok caller hcaller
          rw [hphase] at hcondition
          exact hcondition hgrant hfault

/-- In every run whose starts on remembered grants are decided, every started request is settled for
decisions. -/
theorem settledForDecisions_of_startsDecided (hinitial : s.Initial)
    (hok : Within permissionStep StartsDecided s actions)
    (hrun : exec permissionStep s actions = some t) (requestID : String)
    (hstarted : ExecutionStarted t.db requestID) : SettledForDecisions t requestID := by
  have hsettled : t.StartsSettled :=
    hok.exec (fun _ _ _ => startsSettled_of_step) hinitial.startsSettled hrun
  exact settledForDecisions_of_decided hsettled.indexes (hsettled.decided requestID hstarted)

end Runs

/-- The second call of `grantedCalls` starts on the remembered grant. -/
def startedOnGrant : List PermissionAction :=
  grantedCalls ++ steps 1 .ask ["second started", "second lease", ""]

/-- The request that is started on the grant is still listed as pending, and a cancellation decides
it. -/
theorem startedOnGrant_isPending :
    letI := joinedIdentity
    emptyState.Initial ∧ ∃ t, exec permissionStep emptyState startedOnGrant = some t ∧
      ExecutionStarted t.db "project/session/message/second/tool" ∧
      (list t.db).toOption.map (List.map PermissionRequest.id) = some ["project/session/message/second/tool"] ∧
      ¬SettledForDecisions t "project/session/message/second/tool" := by
  let _ := joinedIdentity
  have hstarted : (exec permissionStep emptyState startedOnGrant).any (fun t =>
      ExecutionStarted t.db "project/session/message/second/tool" ∧
        (list t.db).toOption.map (List.map PermissionRequest.id) = some ["project/session/message/second/tool"] ∧
        decisionFor t.db "project/session/message/second/tool" = none) = true := by decide +kernel
  have hcancelled : (exec permissionStep emptyState (startedOnGrant ++
      [.cancelPending "project/session/message/second/tool"
        (faultlessSettlement "cancelled")])).any (fun t =>
          decisionFor t.db "project/session/message/second/tool" ≠ none) = true := by decide +kernel
  obtain ⟨t, hrun, hstate⟩ := (Option.any_eq_true _ _).mp hstarted
  obtain ⟨t', hrun', hdecided⟩ := (Option.any_eq_true _ _).mp hcancelled
  obtain ⟨hstart, hlist, hnone⟩ := of_decide_eq_true hstate
  obtain ⟨_, hu, hlater⟩ := (exec_append_eq_some _).mp hrun'
  rw [hrun, some.injEq] at hu
  subst hu
  refine ⟨by decide, t, hrun, hstart, hlist, fun hsettled => of_decide_eq_true hdecided ?_⟩
  rw [hsettled.final _ t' hlater, hnone]

/-- A request that the operator allowed is started, and is settled. -/
theorem settledForDecisions_of_allowedCall :
    letI := joinedIdentity
    ∃ t, exec permissionStep emptyState (grantedCalls.take 20) = some t ∧
      SettledForDecisions t "project/session/message/call/tool" := by
  let _ := joinedIdentity
  have hstarted : (exec permissionStep emptyState (grantedCalls.take 20)).any (fun t =>
      ExecutionStarted t.db "project/session/message/call/tool") = true := by decide +kernel
  obtain ⟨t, hrun, hstate⟩ := (Option.any_eq_true _ _).mp hstarted
  have hok : Within permissionStep StartsDecided emptyState (grantedCalls.take 20) := by decide +kernel
  exact ⟨t, hrun, settledForDecisions_of_startsDecided (by decide) hok hrun _ (of_decide_eq_true hstate)⟩

end OpenCorvus.Permission
