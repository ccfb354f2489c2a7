import OpenCorvus.Permission.LedgerGrowth

/-!
# Callbacks start under an allowing decision

A call reaches its callback with the decision of its request, or the use of a remembered grant.  The paths of `ask`
look at the kind of a decision before they go on with it; the paths of `full_access` do not, and a call that uses a
grant does not look again after it read that the request is undecided.
-/

namespace OpenCorvus.Permission

open ExecutableSystem List AuthorizePhase CallPhase

section Decisions

variable (db : PermissionDatabase) (requestID : String)

def Denied : Bool :=
  (decisionFor db requestID).any fun decision => decision.eventType.denies

def Allowed : Bool :=
  match decisionFor db requestID with
  | some decision => decision.allows
  | none => db.ledger.any fun row => row.requestID = requestID ∧ row.eventType = .grantUsed

end Decisions

def ExecutePhase.mayStart : ExecutePhase → Bool
  | .existingStart | .appendStart | .startWinner _ | .acquireLease | .awaitSettlement
  | .resolveOutcome | .resolveTask | .acquireRecoveryLease | .owned _ _ => true
  | .resolveResult | .executing _ _ | .callbackThrew _ _ | .abandonLease _ _ | .appendFailed _ _
  | .complete _ => false

def CallPhase.usesGrant (requestID : String) : CallPhase → Bool
  | .authorized request authority phase =>
    request.id = requestID ∧ authority.eventType = .grantUsed ∧ phase.mayStart
  | _ => false

/-- The request for which the next step takes an authority without looking whether it is denied. -/
def CallPhase.unchecked : CallPhase → Option String
  | .authorizing request .fullAccessDecision => some request.id
  | .authorizing request (.fullAccessWinner _) => some request.id
  | .authorizing request (.appendGrantUsed _) => some request.id
  | _ => none

/-- No authority is taken for a denied request without a look, and no undecided request is denied
while a call that used a grant for it may still start the callback. -/
def Guarded (s : PermissionState) : PermissionAction → Prop
  | .advance i _ => ∀ caller ∈ s.callers[i]?, ∀ requestID ∈ caller.phase.unchecked, Denied s.db requestID = false
  | action => ∀ requestID ∈ action.denial, decisionFor s.db requestID = none →
      ∀ caller ∈ s.callers, caller.phase.usesGrant requestID = false

instance (s : PermissionState) (action : PermissionAction) : Decidable (Guarded s action) := by
  unfold Guarded
  split <;> infer_instance

section Starts

variable [PermissionIdentity]

def StartsAllowed (s : PermissionState) : PermissionAction → Prop
  | .advance i _ => ∀ caller ∈ s.callers[i]?, ∀ start ∈ caller.phase.starting, Allowed s.db start.requestID = true
  | _ => True

instance (s : PermissionState) (action : PermissionAction) : Decidable (StartsAllowed s action) := by
  unfold StartsAllowed
  split <;> infer_instance

end Starts

def Entitles (db : PermissionDatabase) (request : PermissionRequest) (authority : LedgerRow) : Prop :=
  authority ∈ db.ledger ∧ ((authority.decisionSlot = some request.id ∧ authority.allows = true) ∨
      (authority.requestID = request.id ∧ authority.eventType = .grantUsed ∧ Denied db request.id = false))

def CallPhase.Entitled (db : PermissionDatabase) : CallPhase → Prop
  | .authorized request authority phase => phase.mayStart = true → Entitles db request authority
  | _ => True

def SlotsSettled (ledger : List LedgerRow) : Prop :=
  ∀ row ∈ ledger, row.decisionSlot.isSome → row.allows = true ∨ row.eventType.denies = true

structure PermissionState.AllEntitled (s : PermissionState) : Prop where
  indexes : LedgerIndexes s.db.ledger
  slots : SlotsSettled s.db.ledger
  entitled : ∀ caller ∈ s.callers, caller.phase.Entitled s.db

section Rows

variable {db db' : PermissionDatabase} {request : PermissionRequest} {authority row : LedgerRow}
  {requestID : String} {P : LedgerRow → Prop}

lemma denied_iff (hindexes : LedgerIndexes db.ledger) : Denied db requestID = true ↔
    ∃ row ∈ db.ledger, row.decisionSlot = some requestID ∧ row.eventType.denies = true := by
  unfold Denied
  rw [Option.any_eq_true]
  constructor
  · rintro ⟨row, hrow, hdenies⟩
    obtain ⟨hmem, hslot⟩ := mem_of_decisionFor hrow
    exact ⟨row, hmem, hslot, hdenies⟩
  · rintro ⟨row, hmem, hslot, hdenies⟩
    exact ⟨row, decisionFor_eq_some hindexes hmem hslot, hdenies⟩

lemma LedgerRow.not_denies_of_allows (h : row.allows = true) : row.eventType.denies = false := by
  unfold LedgerRow.allows at h
  rcases (by simpa using h : row.eventType = .allowedOnce ∨ row.eventType = .grantCreated) with
    htype | htype <;> rw [htype] <;> rfl

lemma not_denied_of_appends (happends : Appends P db.ledger db'.ledger)
    (hindexes : LedgerIndexes db.ledger) (hdenied : Denied db requestID = false)
    (hP : ∀ row, P row → row.decisionSlot = some requestID → row.eventType.denies = false) :
    Denied db' requestID = false := by
  rw [← Bool.not_eq_true, denied_iff (happends.indexes hindexes)]
  rintro ⟨row, hrow, hslot, hdenies⟩
  rcases happends.mem_or hrow with hold | hnew
  · have hbefore : Denied db requestID = true := (denied_iff hindexes).mpr ⟨row, hold, hslot, hdenies⟩
    exact absurd (hdenied.symm.trans hbefore) (by decide)
  · exact absurd ((hP row hnew hslot).symm.trans hdenies) (by decide)

lemma Entitles.mono (h : Entitles db request authority) (happends : Appends P db.ledger db'.ledger)
    (hkept : authority.eventType = .grantUsed → Denied db request.id = false →
      Denied db' request.id = false) : Entitles db' request authority := by
  obtain ⟨hmem, hslot | ⟨hid, htype, hdenied⟩⟩ := h
  · exact ⟨happends.mem hmem, .inl hslot⟩
  · exact ⟨happends.mem hmem, .inr ⟨hid, htype, hkept htype hdenied⟩⟩

lemma entitles_of_decision (hslots : SlotsSettled db.ledger)
    (hdecision : decisionFor db request.id = some authority)
    (hdenies : authority.eventType.denies = false) : Entitles db request authority := by
  obtain ⟨hmem, hslot⟩ := mem_of_decisionFor hdecision
  refine ⟨hmem, .inl ⟨hslot, ?_⟩⟩
  rcases hslots authority hmem (by simp [hslot]) with hallows | hdenied
  · exact hallows
  · exact absurd (hdenies.symm.trans hdenied) (by decide)

lemma Entitles.allowed (h : Entitles db request authority) (hindexes : LedgerIndexes db.ledger)
    (hslots : SlotsSettled db.ledger) : Allowed db request.id = true := by
  obtain ⟨hmem, ⟨hslot, hallows⟩ | ⟨hid, htype, hdenied⟩⟩ := h
  · unfold Allowed
    rw [decisionFor_eq_some hindexes hmem hslot]
    exact hallows
  · unfold Allowed
    split
    next decision hdecision =>
      obtain ⟨hdecided, hslot⟩ := mem_of_decisionFor hdecision
      rcases hslots decision hdecided (by simp [hslot]) with hallows | hdenies
      · exact hallows
      · have hdenied' : Denied db request.id = true :=
          (denied_iff hindexes).mpr ⟨decision, hdecided, hslot, hdenies⟩
        exact absurd (hdenied.symm.trans hdenied') (by decide)
    · exact List.any_eq_true.mpr ⟨authority, hmem, by simp [hid, htype]⟩

end Rows

section Calls

variable [PermissionIdentity] {db : PermissionDatabase} {request : PermissionRequest}
  {authority : LedgerRow} {input : AdvanceInput}

omit [PermissionIdentity] in
lemma decidedPhase_entitled (hslots : SlotsSettled db.ledger)
    (hdecision : decisionFor db request.id = some authority) :
    (decidedPhase request authority).Entitled db := by
  unfold decidedPhase
  split
  · trivial
  next hdenies => exact fun _ => entitles_of_decision hslots hdecision (by simpa using hdenies)

omit [PermissionIdentity] in
lemma entitles_of_not_denied (hslots : SlotsSettled db.ledger)
    (hdecision : decisionFor db request.id = some authority) (hdenied : Denied db request.id = false) :
    Entitles db request authority :=
  entitles_of_decision hslots hdecision (by simpa [Denied, hdecision] using hdenied)

lemma AuthorizePhase.advance_entitled (phase : AuthorizePhase) (hindexes : LedgerIndexes db.ledger)
    (hslots : SlotsSettled db.ledger)
    (hchecked : ∀ requestID ∈ (CallPhase.authorizing request phase).unchecked, Denied db requestID = false) :
    (phase.advance db request input).2.Entitled (phase.advance db request input).1 := by
  cases phase with
  | fullAccessDecision =>
    have hdenied : Denied db request.id = false := hchecked request.id rfl
    simp only [advance]
    split
    next existing hexisting => exact fun _ => entitles_of_not_denied hslots hexisting hdenied
    · trivial
  | fullAccessWinner =>
    have hdenied : Denied db request.id = false := hchecked request.id rfl
    simp only [advance]
    split
    · trivial
    next winner hwinner => exact fun _ => entitles_of_not_denied hslots hwinner hdenied
  | fullAccessSettle =>
    simp only [advance]
    rcases commit_cases db input.fault _ _ _ with ⟨_, hwritten, hcommit⟩ | ⟨_, hcommit⟩
    · rw [hcommit]
      obtain ⟨hledger, -, -⟩ := insertLedgerRow_eq_ok (appendEvent_eq_ok hwritten).1
      refine fun _ => ⟨?_, .inl ⟨rfl, rfl⟩⟩
      rw [hledger]
      exact mem_append_right _ (mem_singleton_self _)
    · rw [hcommit]
      trivial
  | appendGrantUsed =>
    have hdenied : Denied db request.id = false := hchecked request.id rfl
    simp only [advance]
    rcases commit_cases db input.fault _ _ _ with ⟨written, hwritten, hcommit⟩ | ⟨_, hcommit⟩
    · rw [hcommit]
      obtain ⟨hledger, -, -⟩ := insertLedgerRow_eq_ok (appendEvent_eq_ok hwritten).1
      have happends : Appends (fun row => row.decisionSlot = none) db.ledger written.ledger :=
        appendEvent_appends hwritten rfl
      refine fun _ => ⟨?_, .inr ⟨rfl, rfl, ?_⟩⟩
      · rw [hledger]
        exact mem_append_right _ (mem_singleton_self _)
      · refine not_denied_of_appends happends hindexes hdenied fun row hrow hslot => ?_
        rw [hrow] at hslot
        cases hslot
    · rw [hcommit]
      trivial
  | exactDecision =>
    simp only [advance]
    split
    next decision hdecision => exact decidedPhase_entitled hslots hdecision
    · trivial
  | settledDecision =>
    simp only [advance]
    split
    · trivial
    next settled hsettled => exact decidedPhase_entitled hslots hsettled
  | appendRequested =>
    refine commit_phase (Q := fun phase => ∀ db, phase.Entitled db) (fun _ => ?_) (fun _ _ => ?_) _
    all_goals trivial
  | _ =>
    simp only [advance]
    (repeat' split) <;> trivial

def CallPhase.ContinuesWith (request : PermissionRequest) (authority : LedgerRow)
    (phase : ExecutePhase) : CallPhase → Prop
  | .authorized request' authority' phase' => phase'.mayStart = true →
      request' = request ∧ authority' = authority ∧ phase.mayStart = true
  | _ => True

lemma ExecutePhase.advance_continuesWith (phase : ExecutePhase) :
    (phase.advance db request authority input).2.ContinuesWith request authority phase := by
  have hlease : ∀ recovering phase, ExecutePhase.mayStart phase = true →
      (takeLease db request authority (attemptIdentity request.id) recovering
        input).2.ContinuesWith request authority phase := by
    intro recovering phase hphase
    unfold takeLease
    split
    · trivial
    next lease leased hacquired =>
      refine commit_phase ?_ fun _ => trivial
      cases lease <;> exact fun _ => ⟨rfl, rfl, hphase⟩
  cases phase with
  | acquireLease => exact hlease false _ rfl
  | acquireRecoveryLease => exact hlease true _ rfl
  | appendStart => exact commit_phase (fun _ => ⟨rfl, rfl, rfl⟩) fun _ _ => ⟨rfl, rfl, rfl⟩
  | abandonLease => exact commit_phase trivial fun _ => trivial
  | appendFailed => exact commit_phase trivial fun _ => trivial
  | complete => exact commit_phase trivial fun _ => trivial
  | _ =>
    simp only [ExecutePhase.advance, outcomePhase]
    (repeat' split) <;> simp [CallPhase.ContinuesWith, ExecutePhase.mayStart]

lemma CallPhase.advance_entitled {phase : CallPhase} {invocation : InvocationIdentity}
    (h : phase.Entitled db) (hindexes : LedgerIndexes db.ledger) (hslots : SlotsSettled db.ledger)
    (hchecked : ∀ requestID ∈ phase.unchecked, Denied db requestID = false) :
    (phase.advance db invocation input).2.Entitled (phase.advance db invocation input).1 := by
  cases phase with
  | authorizing _ phase => exact phase.advance_entitled hindexes hslots hchecked
  | authorized request authority phase =>
    have hcontinues : (phase.advance db request authority input).2.ContinuesWith request authority phase :=
      phase.advance_continuesWith
    have happends : Appends (authorized request authority phase).Appended db.ledger
        (phase.advance db request authority input).1.ledger := phase.advance_appends
    simp only [advance]
    generalize phase.advance db request authority input = next at hcontinues happends
    obtain ⟨_, phase'⟩ := next
    cases phase' with
    | authorized =>
      intro hstart
      obtain ⟨rfl, rfl, hmay⟩ := hcontinues hstart
      refine (h hmay).mono happends fun _ hdenied => ?_
      exact not_denied_of_appends happends hindexes hdenied fun row hrow hslot =>
        LedgerRow.not_denies_of_allows (hrow.slot _ hslot).2
    | _ => trivial
  | insertPolicy =>
    refine commit_phase (Q := fun phase => ∀ db, phase.Entitled db) (fun _ => ?_) (fun _ _ => ?_) _
    all_goals trivial
  | retireMismatch =>
    refine commit_phase (Q := fun phase => ∀ db, phase.Entitled db) (fun _ => ?_) (fun _ _ => ?_) _
    all_goals trivial
  | _ =>
    simp only [advance, requestPhase]
    (repeat' split) <;> trivial

end Calls

section Runs

variable [PermissionIdentity] {s t : PermissionState} {action : PermissionAction}
  {actions : List PermissionAction}

omit [PermissionIdentity] in
/-- Nothing is recorded and nobody calls. -/
lemma PermissionState.Initial.allEntitled (h : s.Initial) : s.AllEntitled where
  indexes := h.ledger ▸ LedgerIndexes.nil
  slots row hrow := by simp [h.ledger] at hrow
  entitled caller hcaller := by simp [h.callers] at hcaller

omit [PermissionIdentity] in
lemma SlotsSettled.appends {P : LedgerRow → Prop} {ledger ledger' : List LedgerRow}
    (h : SlotsSettled ledger) (happends : Appends P ledger ledger')
    (hP : ∀ row, P row → row.decisionSlot.isSome → row.allows = true ∨ row.eventType.denies = true) :
    SlotsSettled ledger' := fun row hrow hslot =>
  (happends.mem_or hrow).elim (fun hold => h row hold hslot) fun hnew => hP row hnew hslot

variable {db db' : PermissionDatabase}

omit [PermissionIdentity] in
lemma CallPhase.Entitled.mono {phase : CallPhase} {P : LedgerRow → Prop} (h : phase.Entitled db)
    (happends : Appends P db.ledger db'.ledger)
    (hkept : ∀ requestID, phase.usesGrant requestID = true → Denied db requestID = false →
      Denied db' requestID = false) : phase.Entitled db' := by
  cases phase with
  | authorized request =>
    refine fun hstart => (h hstart).mono happends fun htype => hkept request.id ?_
    simp [usesGrant, htype, hstart]
  | _ => trivial

omit [PermissionIdentity] in
lemma not_denied_of_appended {requestID : String} (happends : Appends action.Appended db.ledger db'.ledger)
    (hindexes : LedgerIndexes db.ledger) (hdenied : Denied db requestID = false)
    (hopen : action.denial = some requestID → decisionFor db requestID ≠ none) : Denied db' requestID = false := by
  rw [← Bool.not_eq_true, denied_iff (happends.indexes hindexes)]
  rintro ⟨row, hrow, hslot, hdenies⟩
  have hold : row ∈ db.ledger := by
    rcases happends.mem_or hrow with hold | hnew
    · exact hold
    · rcases (hnew.slot requestID hslot).2 with hallows | ⟨-, hdenial⟩
      · exact absurd ((LedgerRow.not_denies_of_allows hallows).symm.trans hdenies) (by decide)
      · obtain ⟨decision, hdecision⟩ := Option.ne_none_iff_exists'.mp (hopen hdenial)
        obtain ⟨hmem, hdecided⟩ := mem_of_decisionFor hdecision
        -- The slot holds one row, and it holds the earlier decision.
        have hrows : decision = row := (happends.indexes hindexes).decisionSlot.eq_of_key
          (happends.mem hmem) hrow hdecided hslot
        exact hrows ▸ hmem
  have hbefore : Denied db requestID = true := (denied_iff hindexes).mpr ⟨row, hold, hslot, hdenies⟩
  exact absurd (hdenied.symm.trans hbefore) (by decide)

omit [PermissionIdentity] in
lemma Guarded.usesGrant_eq_false (h : Guarded s action) {requestID : String}
    (hdenial : action.denial = some requestID) (hopen : decisionFor s.db requestID = none) :
    ∀ caller ∈ s.callers, caller.phase.usesGrant requestID = false := by
  cases action with
  | advance => cases hdenial
  | _ => exact h requestID hdenial hopen

lemma allEntitled_of_step (h : s.AllEntitled) (hguarded : Guarded s action)
    (hstep : permissionStep s action = some t) : t.AllEntitled := by
  cases PermissionState.stepped_of_step hstep with
  | advance _ caller input named called =>
    subst named
    have happends : Appends caller.phase.Appended s.db.ledger
        (caller.phase.advance s.db caller.invocation input).1.ledger :=
      caller.phase.advance_appends caller.invocation
    have hmem : caller ∈ s.callers := mem_of_getElem? called
    refine ⟨happends.indexes h.indexes, ?_, fun other hother => ?_⟩
    · refine h.slots.appends happends fun row hrow hslot => ?_
      obtain ⟨requestID, hrequestID⟩ := Option.isSome_iff_exists.mp hslot
      exact .inl (hrow.slot requestID hrequestID).2
    · rcases mem_or_eq_of_mem_set hother with hold | rfl
      · refine (h.entitled other hold).mono happends fun requestID _ hdenied => ?_
        exact not_denied_of_appends happends h.indexes hdenied fun row hrow hslot =>
          LedgerRow.not_denies_of_allows (hrow.slot _ hslot).2
      · exact advance_entitled (h.entitled caller hmem) h.indexes h.slots (hguarded caller called)
  | release _ _ _ _ _ _ moved =>
    refine ⟨h.indexes, h.slots, fun other hother => ?_⟩
    rcases mem_or_eq_of_mem_set hother with hold | rfl
    · exact h.entitled other hold
    · rcases moved with rfl | ⟨_, rfl⟩ <;> trivial
  | store _ appends =>
    refine ⟨appends.indexes h.indexes, ?_, fun caller hcaller => ?_⟩
    · refine h.slots.appends appends fun row hrow hslot => ?_
      obtain ⟨requestID, hrequestID⟩ := Option.isSome_iff_exists.mp hslot
      exact (hrow.slot requestID hrequestID).2.imp_right And.left
    · refine (h.entitled caller hcaller).mono appends fun requestID huses hdenied => ?_
      refine not_denied_of_appended appends h.indexes hdenied fun hdenial hopen => ?_
      have hnone := hguarded.usesGrant_eq_false hdenial hopen caller hcaller
      exact absurd (hnone.symm.trans huses) (by decide)
  | call =>
    refine ⟨h.indexes, h.slots, fun caller hcaller => ?_⟩
    rcases mem_concat.mp hcaller with hold | hnew
    · exact h.entitled caller hold
    · rw [hnew]
      unfold InvocationIdentity.begin
      (repeat' split) <;> trivial
  | crash =>
    exact ⟨h.indexes, h.slots, fun caller hcaller => h.entitled caller (mem_of_mem_filter hcaller)⟩

lemma PermissionState.AllEntitled.startsAllowed (h : s.AllEntitled) (action : PermissionAction) :
    StartsAllowed s action := by
  cases action with
  | advance =>
    intro caller hcaller start hstart
    have hentitled := h.entitled caller (mem_of_getElem? hcaller)
    unfold starting at hstart
    split at hstart
    next request authority lease recovering hphase =>
      rw [mem_singleton.mp hstart]
      rw [hphase] at hentitled
      exact (hentitled rfl).allowed h.indexes h.slots
    · cases hstart
  | _ => trivial

/-- In every run whose steps are guarded, every callback starts under an allowing decision. -/
theorem startsAllowed_of_guarded (hinitial : s.Initial) (hguarded : Within permissionStep Guarded s actions) :
    Within permissionStep StartsAllowed s actions :=
  hguarded.of_invariant (fun _ _ _ => allEntitled_of_step)
    (fun _ action h _ => h.startsAllowed action) hinitial.allEntitled

end Runs

def cancelledUnderFullAccess : List PermissionAction :=
  [.call 0 toolInvocation] ++ steps 0 .fullAccess ["", "", "", "", "", "", "", "requested", ""] ++
    [.cancelPending "project/session/message/call/tool" (faultlessSettlement "cancelled")] ++
    steps 0 .fullAccess ["allowed", "", "", "started", "lease", ""]

/-- The cancelled request is executed. -/
theorem startsCancelled_underFullAccess :
    letI := joinedIdentity
    emptyState.Initial ∧ ¬Within permissionStep StartsAllowed emptyState cancelledUnderFullAccess ∧
      (exec permissionStep emptyState cancelledUnderFullAccess).any fun t =>
        Denied t.db "project/session/message/call/tool" ∧ t.starts =
          [⟨"project/session/message/call/tool", "attempt/project/session/message/call/tool", false⟩] := by
  refine ⟨by decide, ?_, ?_⟩ <;> decide

/-- A call asks, is allowed for the project, and starts; a second call of the same tool uses the
grant. -/
def grantedCalls : List PermissionAction :=
  [.call 0 toolInvocation] ++ steps 0 .ask ["", "", "", "", "", "", "", "requested", "", "", "", ""] ++
    [.reply "project/session/message/call/tool" .allowProject (faultlessSettlement "granted"), .releaseWaiter 0] ++
    steps 0 .ask ["", "", "started", "lease", ""] ++
    [.call 1 { toolInvocation with toolCallID := "second" }] ++
    steps 1 .ask ["", "", "", "", "", "second requested", "", "", "", "", "used", ""]

def grantedRun : List PermissionAction :=
  grantedCalls ++ steps 1 .ask ["second started", "second lease", ""] ++
    [.cancelPending "project/session/message/second/tool" (faultlessSettlement "cancelled")]

/-- Both callbacks start under allowing decisions. -/
theorem startsAllowed_of_grantedRun :
    letI := joinedIdentity
    (exec permissionStep emptyState grantedRun).map (fun t => t.starts.length) = some 2 ∧
      Within permissionStep StartsAllowed emptyState grantedRun := by
  let _ := joinedIdentity
  exact ⟨by decide, startsAllowed_of_guarded (by decide) (by decide)⟩

end OpenCorvus.Permission
