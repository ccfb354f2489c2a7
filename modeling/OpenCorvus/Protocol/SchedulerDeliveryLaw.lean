import OpenCorvus.Protocol.SchedulerDelivery

/-!
# The law of the scheduler deliveries

A row of the inbox has at most one terminal receipt, a claim hands out an unresolved row whose earlier
ones are all resolved, and an owner without the current and unexpired lease of a row can neither settle it
nor put it off.
-/

namespace OpenCorvus.Protocol

open EcmaScript Transaction Engine UniqueIndex ExecutableSystem List Option

/-! ## The law -/

def EarlierResolved (db : DeliveryDatabase) (row : ProtocolInboxRow) : Prop :=
  ∀ event ∈ db.eventOf row, ∀ earlier ∈ db.inbox, IsEarlier db earlier row event → Resolved db earlier.id

def LeasedAt (db : DeliveryDatabase) (inboxID : String) (instant : ℤ) : Prop :=
  ∃ lease ∈ deliveryLease db inboxID, instant < lease.expiresAt

instance (db : DeliveryDatabase) (inboxID : String) (instant : ℤ) : Decidable (LeasedAt db inboxID instant) :=
  inferInstanceAs (Decidable (∃ lease ∈ deliveryLease db inboxID, _))

structure DeliveryLaw (s : DeliveryState) : Prop where
  /-- A row has at most one terminal receipt. -/
  once : ∀ inboxID, (s.db.receipts.filter fun row =>
    row.inboxID = inboxID ∧ row.receipt.isTerminal = true).length ≤ 1
  /-- A claim that takes its lease answers with an unresolved row whose earlier ones are resolved. -/
  claimed : ∀ claim ∈ s.claims, ∀ leaseID delivery db',
    leaseSchedulerDelivery s.db claim leaseID = .ok (some delivery, db') →
      ¬Resolved db' delivery.row.id ∧ EarlierResolved db' delivery.row
  /-- Without the current and unexpired lease, a settlement writes nothing and a delay is refused. -/
  fenced : ∀ inboxID ownerID now, ¬HoldsLease s.db inboxID ownerID now →
    (∀ input answer, input.inboxID = inboxID → input.ownerID = ownerID →
      settleSchedulerDeliveryInTransaction s.db input now = .ok answer → answer.2 = s.db) ∧
    ∀ input answer, input.inboxID = inboxID → input.ownerID = ownerID →
      rescheduleSchedulerDelivery s.db input now ≠ .ok answer

def Undisturbed (s : DeliveryState) : ℤ × DeliveryAction → Prop
  | (now, .reschedule input) => ∀ claim ∈ s.claims, claim.inboxID = input.inboxID →
    claim.now = now → ¬Resolved s.db input.inboxID
  | (now, .deadLetters scope _ _ _) => ∀ claim ∈ s.claims,
    claim.inboxID ∈ (unresolvedDeliveries s.db (scope.rows s.db) now).map (·.id) →
      LeasedAt s.db claim.inboxID claim.now
  | _ => True

instance (s : DeliveryState) (action : ℤ × DeliveryAction) : Decidable (Undisturbed s action) := by
  unfold Undisturbed
  split <;> infer_instance

/-! ## What the operations do -/

section Operations

variable {db db' : DeliveryDatabase} {inboxID ownerID : String} {now : ℤ}

lemma insertDeliveryReceipt_eq_ok {row : ProtocolDeliveryReceiptRow}
    (h : insertDeliveryReceipt db row = .ok db') :
    (row.receipt.isTerminal = true → ¬Resolved db row.inboxID) ∧
      db' = { db with receipts := db.receipts ++ [row] } := by
  unfold insertDeliveryReceipt at h
  replace h := of_check h
  obtain ⟨hterminal, h⟩ := throwWhen_bind_eq_ok.mp h
  exact ⟨fun hrow hresolved => hterminal ⟨hrow, hresolved⟩, (pure_eq_ok.mp h).symm⟩

lemma liftLease_eq_ok {α : Type} {x : Except ControlLeaseError α} {a : α} : liftLease x = .ok a ↔ x = .ok a := by
  cases x <;> simp [liftLease]

variable {delivery : ProtocolDelivery}

lemma settleSchedulerDelivery_eq_ok {input : SettleSchedulerDeliveryInput}
    (h : settleSchedulerDeliveryInTransaction db input now = .ok (delivery, db')) :
    db' = db ∨ HoldsLease db input.inboxID input.ownerID now ∧ ¬Resolved db input.inboxID ∧
      ∃ row : ProtocolDeliveryReceiptRow, row.inboxID = input.inboxID ∧
        db' = { db with receipts := db.receipts ++ [row] } := by
  unfold settleSchedulerDeliveryInTransaction at h
  obtain ⟨hterminal, h⟩ := throwWhen_bind_eq_ok.mp h
  obtain ⟨_, h⟩ := of_bind h
  split at h
  · cases h
  · split at h
    · replace h := of_check h
      cases pure_eq_ok.mp h
      exact .inl rfl
    · obtain ⟨hholds, h⟩ := throwWhen_bind_eq_ok.mp h
      obtain ⟨_, hsettled, h⟩ := bind_eq_ok.mp h
      cases pure_eq_ok.mp h
      obtain ⟨hfree, rfl⟩ := insertDeliveryReceipt_eq_ok hsettled
      have hresult : input.result.isTerminal = true := by simpa using hterminal
      exact .inr ⟨not_not.mp hholds, hfree hresult, _, rfl, rfl⟩

lemma rescheduleSchedulerDelivery_eq_ok {input : RescheduleSchedulerDeliveryInput}
    (h : rescheduleSchedulerDelivery db input now = .ok (delivery, db')) :
    HoldsLease db input.inboxID input.ownerID now ∧
      ∃ row : ProtocolDeliveryReceiptRow, row.receipt.isTerminal = false ∧ ∃ leases claim,
        claim.target = .protocolDelivery ∧ claim.targetID = input.inboxID ∧ claim.now = now ∧
          releaseControlLeaseInTransaction db.leases claim = (true, leases) ∧
            db' = { db with receipts := db.receipts ++ [row], leases := leases } := by
  unfold rescheduleSchedulerDelivery at h
  obtain ⟨_, h⟩ := of_bind h
  obtain ⟨lease, hlease, h⟩ := bind_eq_ok.mp h
  obtain ⟨hholds, h⟩ := throwWhen_bind_eq_ok.mp h
  obtain ⟨_, hdelayed, h⟩ := bind_eq_ok.mp h
  cases pure_eq_ok.mp h
  obtain ⟨-, rfl⟩ := insertDeliveryReceipt_eq_ok hdelayed
  rw [not_not] at hholds
  rw [getOrThrow_eq_ok] at hlease
  refine ⟨hholds, _, rfl, _, deliveryLeaseClaim input.inboxID input.ownerID lease.id now, rfl, rfl, rfl, ?_, rfl⟩
  obtain ⟨_, hheld, howner, hexpiry⟩ := hholds
  rw [mem_def, hlease, some.injEq] at hheld
  subst hheld
  refine Prod.ext (releaseControlLease_fst.mpr ⟨lease, hlease, rfl, howner, hexpiry⟩) rfl

lemma fenced_of_not_holdsLease (h : ¬HoldsLease db inboxID ownerID now) :
    (∀ input answer, input.inboxID = inboxID → input.ownerID = ownerID →
      settleSchedulerDeliveryInTransaction db input now = .ok answer → answer.2 = db) ∧
    ∀ input answer, input.inboxID = inboxID → input.ownerID = ownerID →
      rescheduleSchedulerDelivery db input now ≠ .ok answer := by
  constructor
  · rintro _ ⟨_, _⟩ rfl rfl hsettle
    rcases settleSchedulerDelivery_eq_ok hsettle with hsame | ⟨hholds, -⟩
    · exact hsame
    · exact absurd hholds h
  · rintro _ ⟨_, _⟩ rfl rfl hreschedule
    exact h (rescheduleSchedulerDelivery_eq_ok hreschedule).1

end Operations

/-! ## Leases -/

section Leases

variable {db : DeliveryDatabase} {leases : ControlLeaseTables} {inboxID other : String} {instant : ℤ}

def DeliveryDatabase.withLeases (db : DeliveryDatabase) (leases : ControlLeaseTables) : DeliveryDatabase :=
  { db with leases := leases }

lemma leasedAt_congr (h : leases.ofTarget .protocolDelivery inboxID =
    db.leases.ofTarget .protocolDelivery inboxID) :
    LeasedAt (db.withLeases leases) inboxID instant ↔ LeasedAt db inboxID instant := by
  unfold LeasedAt deliveryLease currentControlLeaseInTransaction DeliveryDatabase.withLeases
  rw [h]

section

variable (hunique : PrimaryKey ControlLease.id (db.leases.rowsOf .protocolDelivery))

include hunique

lemma release_keeps {claim : ControlLeaseClaim} (htarget : claim.target = .protocolDelivery)
    (h : releaseControlLeaseInTransaction db.leases claim = (true, leases)) :
    PrimaryKey ControlLease.id (leases.rowsOf .protocolDelivery) ∧
      ∀ other instant, LeasedAt db other instant → (other = claim.targetID → instant < claim.now) →
        LeasedAt (db.withLeases leases) other instant := by
  obtain ⟨hmoves, _, hcurrent, hholds⟩ := release_moves h
  refine ⟨hmoves.primaryKey hunique, fun other instant hleased hearly => ?_⟩
  by_cases hother : other = claim.targetID
  · obtain ⟨_, -, -, hreleased⟩ := currentControlLease_of_release h
    rw [htarget, ← hother] at hreleased
    exact ⟨_, hreleased, hearly hother⟩
  · rw [htarget] at hcurrent
    exact (leasedAt_congr (hmoves.ofTarget_other hunique hcurrent hholds.1 hother)).mpr hleased

lemma renew_keeps {claim : ControlLeaseClaim} {expiresAt : ℤ} (htarget : claim.target = .protocolDelivery)
    (h : renewControlLeaseInTransaction db.leases claim expiresAt = .ok leases) :
    PrimaryKey ControlLease.id (leases.rowsOf .protocolDelivery) ∧
      ∀ other instant, LeasedAt db other instant → instant ≤ claim.now →
        LeasedAt (db.withLeases leases) other instant := by
  obtain ⟨hlater, -⟩ := renewControlLease_eq_ok h
  obtain ⟨hmoves, _, hcurrent, hholds⟩ := renew_moves h
  refine ⟨hmoves.primaryKey hunique, fun other instant hleased hearly => ?_⟩
  by_cases hother : other = claim.targetID
  · obtain ⟨_, -, -, hrenewed⟩ := currentControlLease_of_renew h
    rw [htarget, ← hother] at hrenewed
    exact ⟨_, hrenewed, hearly.trans_lt hlater⟩
  · rw [htarget] at hcurrent
    exact (leasedAt_congr (hmoves.ofTarget_other hunique hcurrent hholds.1 hother)).mpr hleased

lemma acquire_keeps {input : AcquireControlLeaseInput} {lease : ControlLease}
    (htarget : input.target = .protocolDelivery) (hsupersedes : input.supersedeLeaseID = none)
    (h : acquireControlLeaseInTransaction db.leases input = .ok (⟨true, lease⟩, leases)) :
    PrimaryKey ControlLease.id (leases.rowsOf .protocolDelivery) ∧
      ∀ other instant, LeasedAt db other instant → LeasedAt (db.withLeases leases) other instant := by
  rw [← htarget] at hunique ⊢
  obtain ⟨hunique', hothers⟩ := acquire_effect h hunique
  refine ⟨hunique', fun other instant hleased => ?_⟩
  by_cases hother : other = input.targetID
  · obtain ⟨held, hheld, hexpiry⟩ := hleased
    rw [mem_def, deliveryLease, hother, ← htarget] at hheld
    rcases currentControlLease_of_acquire h with hgranted | ⟨current, hcurrent, hstays⟩
    · -- The earlier lease had expired, and the granted one expires later.
      have hlater : held.expiresAt < input.lease.expiresAt := by
        rcases acquireControlLease_eq_ok h with ⟨_, -, -, hresult, -⟩ |
          ⟨-, -, hpositive, -, -, hfree⟩
        · cases hresult
        · have hexpired : ¬input.BlockedBy held := hfree held hheld
          have hdone : held.expiresAt ≤ input.now := by
            by_contra hlate
            exact hexpired ⟨not_le.mp hlate, by simp [hsupersedes]⟩
          simp only [AcquireControlLeaseInput.lease]
          omega
      rw [htarget, ← hother] at hgranted
      exact ⟨_, hgranted, hexpiry.trans hlater⟩
    · rw [hcurrent, some.injEq] at hheld
      rw [htarget, ← hother] at hstays
      exact ⟨current, hstays, hheld ▸ hexpiry⟩
  · rw [htarget] at hothers
    exact (leasedAt_congr (hothers other hother)).mpr hleased

end

end Leases

/-! ## The order of the rows -/

section Order

variable {db db' : DeliveryDatabase} {inboxID : String}

def Enveloped (db : DeliveryDatabase) (row : ProtocolInboxRow) : Prop :=
  ∃ event ∈ db.eventOf row, event.aggregateType = row.actor ∧ event.aggregateID = row.actorID

structure Grows (db db' : DeliveryDatabase) : Prop where
  found : ∀ inboxID row, db.findInbox inboxID = some row → db'.findInbox inboxID = some row
  enveloped : ∀ row ∈ db'.inbox, Enveloped db' row
  earlier : ∀ row ∈ db.inbox, EarlierResolved db row → EarlierResolved db' row

lemma mem_of_findInbox {row : ProtocolInboxRow} (h : db.findInbox inboxID = some row) :
    row ∈ db.inbox ∧ row.id = inboxID :=
  ⟨mem_of_find?_eq_some h, by simpa using find?_some h⟩

lemma Grows.of_receipts (henveloped : ∀ row ∈ db.inbox, Enveloped db row)
    (receipts : List ProtocolDeliveryReceiptRow) (leases : ControlLeaseTables) :
    Grows db { db with receipts := db.receipts ++ receipts, leases := leases } where
  found _ _ h := h
  enveloped := henveloped
  earlier row _ h event hevent earlier hearlier hbefore := by
    obtain ⟨receipt, hreceipt, hof⟩ := h event hevent earlier hearlier hbefore
    exact ⟨receipt, mem_append_left _ hreceipt, hof⟩

lemma Grows.of_append {events : List SchedulerEventRow} {inbox : List ProtocolInboxRow}
    (henveloped : ∀ row ∈ db.inbox, Enveloped db row)
    (hnew : ∀ row ∈ inbox, Enveloped { db with
      events := db.events ++ events, inbox := db.inbox ++ inbox } row)
    (hlater : ∀ row ∈ db.inbox, ∀ event ∈ db.eventOf row, ∀ other ∈ inbox, ¬IsEarlier { db with
      events := db.events ++ events, inbox := db.inbox ++ inbox } other row event) :
    Grows db { db with events := db.events ++ events, inbox := db.inbox ++ inbox } := by
  have hevent : ∀ row ∈ db.inbox, ({ db with
      events := db.events ++ events, inbox := db.inbox ++ inbox } : DeliveryDatabase).eventOf row =
        db.eventOf row := by
    intro row hrow
    obtain ⟨_, hevent, -⟩ := henveloped row hrow
    unfold DeliveryDatabase.eventOf at hevent ⊢
    rw [find?_append, hevent]
    rfl
  refine ⟨fun inboxID row h => ?_, fun row hrow => ?_, fun row hrow h event hof other hother hbefore => ?_⟩
  · unfold DeliveryDatabase.findInbox at h ⊢
    rw [find?_append, h]
    rfl
  · rcases mem_append.mp hrow with hold | hadded
    · obtain ⟨event, hfound, hof⟩ := henveloped row hold
      exact ⟨event, (hevent row hold).symm ▸ hfound, hof⟩
    · exact hnew row hadded
  · rw [hevent row hrow] at hof
    rcases mem_append.mp hother with hold | hadded
    · refine h event hof other hold ⟨hbefore.1, hbefore.2.1, ?_⟩
      rw [← hevent other hold]
      exact hbefore.2.2
    · exact absurd hbefore (hlater row hrow event hof other hadded)

lemma seq_lt_nextAggregateSequence {actor : SchedulerActor} {actorID : String}
    {event : SchedulerEventRow} (hmem : event ∈ db.events) (hactor : event.aggregateType = actor)
    (hactorID : event.aggregateID = actorID) : event.seq < nextAggregateSequence db actor actorID := by
  have hle : event.seq ≤ maxOrZero ((db.events.filter fun event =>
      event.aggregateType = actor ∧ event.aggregateID = actorID).map (·.seq)) := by
    refine maxOrZero_le_iff.mp le_rfl _ (List.mem_map_of_mem (mem_filter.mpr ⟨hmem, ?_⟩))
    simp [hactor, hactorID]
  unfold nextAggregateSequence
  omega

lemma enqueueSchedulerMessage_grows (henveloped : ∀ row ∈ db.inbox, Enveloped db row)
    {input : EnqueueSchedulerMessageInput} {now : ℤ} {receipt : SchedulerDeliveryReceipt}
    (h : enqueueSchedulerMessageInTransaction db input now = .ok (receipt, db')) :
    Grows db db' ∧ db'.receipts = db.receipts ∧ db'.leases = db.leases ∧
      (PrimaryKey ProtocolInboxRow.id db.inbox → PrimaryKey ProtocolInboxRow.id db'.inbox) := by
  unfold enqueueSchedulerMessageInTransaction at h
  split at h
  · cases h
  · dsimp only at h
    split_ifs at h with hexisting
    · obtain ⟨_, h⟩ := of_bind h
      cases pure_eq_ok.mp h
      exact ⟨⟨fun _ _ h => h, henveloped, fun _ _ h => h⟩, rfl, rfl, id⟩
    · cases pure_eq_ok.mp h
      rw [not_or, not_isSome_iff_eq_none, not_isSome_iff_eq_none] at hexisting
      obtain ⟨hinbox, hevent⟩ := hexisting
      have hfound : ∀ new : SchedulerEventRow, new.id = input.eventID →
          (db.events ++ [new]).find? (fun event => event.id = input.eventID) = some new := by
        intro new hid
        rw [find?_append, hevent]
        simp [hid]
      refine ⟨Grows.of_append henveloped ?_ ?_, rfl, rfl, fun hunique => ?_⟩
      · intro row hrow
        rw [mem_singleton.mp hrow]
        exact ⟨_, hfound _ rfl, rfl, rfl⟩
      · intro row hrow event hof other hother hearlier
        rw [mem_singleton.mp hother] at hearlier
        obtain ⟨hactor, hactorID, _, hnew, -, hprecedes⟩ := hearlier
        obtain ⟨_, hof', haggregate, haggregateID⟩ := henveloped row hrow
        rw [mem_def, mem_def.mp hof, some.injEq] at hof'
        subst hof'
        cases (hfound _ rfl).symm.trans hnew
        have hlast := seq_lt_nextAggregateSequence (mem_of_find?_eq_some hof)
          (haggregate.trans hactor.symm) (haggregateID.trans hactorID.symm)
        rcases hprecedes with _ | ⟨_, -⟩ <;> dsimp only at * <;> omega
      · refine hunique.concat fun row hrow hid => ?_
        have hmiss := find?_eq_none.mp hinbox row hrow
        simp [hid] at hmiss

end Order

/-! ## The choice of a head -/

lemma chooseSchedulerDelivery_eq_some {db : DeliveryDatabase} {actor : SchedulerActor}
    {actorID ownerID : String} {leaseMilliseconds now : ℤ} {claim : SchedulerDeliveryClaim}
    (hunique : PrimaryKey ProtocolInboxRow.id db.inbox)
    (h : chooseSchedulerDelivery db actor actorID ownerID leaseMilliseconds now = some claim) :
    claim.now = now ∧ ∃ row, db.findInbox claim.inboxID = some row ∧ EarlierResolved db row ∧
      ¬Resolved db claim.inboxID := by
  unfold chooseSchedulerDelivery at h
  obtain ⟨⟨_, event⟩, hhead, rfl⟩ := map_eq_some_iff.mp h
  have hmem := mem_toSorted.mp (mem_of_mem_head? hhead)
  unfold schedulerDeliveryHeads at hmem
  rw [mem_filter, decide_eq_true_eq, mem_filterMap] at hmem
  obtain ⟨⟨row', hrow, hevent⟩, -, -, -, ⟨hunresolved, hearlier⟩, -⟩ := hmem
  obtain ⟨_, hof, heq⟩ := map_eq_some_iff.mp hevent
  rw [Prod.mk.injEq] at heq
  obtain ⟨rfl, rfl⟩ := heq
  refine ⟨rfl, row', hunique.find?_eq_some hrow, ?_, hunresolved⟩
  rintro _ hevent earlier hmem hbefore
  rw [mem_def, hof, some.injEq] at hevent
  exact hearlier earlier hmem (hevent ▸ hbefore)

/-! ## Terminal receipts -/

def terminalKey (row : ProtocolDeliveryReceiptRow) : Option String :=
  if row.receipt.isTerminal then some row.inboxID else none

section Terminal

variable {db db' : DeliveryDatabase} {row : ProtocolDeliveryReceiptRow}

lemma terminalKey_eq_some {inboxID : String} :
    terminalKey row = some inboxID ↔ row.inboxID = inboxID ∧ row.receipt.isTerminal = true := by
  unfold terminalKey
  split_ifs with hterminal <;> simp [hterminal]

lemma unique_concat (hunique : Unique terminalKey db.receipts)
    (hrow : row.receipt.isTerminal = true → ¬Resolved db row.inboxID) :
    Unique terminalKey (db.receipts ++ [row]) := by
  refine hunique.concat ?_
  rintro ⟨other, hother, _, hkey, hrowKey⟩
  obtain ⟨rfl, hterminal⟩ := terminalKey_eq_some.mp hrowKey
  exact hrow hterminal ⟨other, hother, terminalKey_eq_some.mp hkey⟩

lemma foldlM_insertDeliveryReceipt_eq_ok {β : Type} {entries : List β}
    {receiptOf : β → ProtocolDeliveryReceiptRow}
    (h : entries.foldlM (fun db entry => insertDeliveryReceipt db (receiptOf entry)) db = .ok db') :
    db' = { db with receipts := db.receipts ++ entries.map receiptOf } ∧
      (Unique terminalKey db.receipts → Unique terminalKey db'.receipts) := by
  induction entries generalizing db with
  | nil =>
    cases pure_eq_ok.mp h
    exact ⟨by rw [map_nil, List.append_nil], id⟩
  | cons _ _ ih =>
    rw [foldlM_cons] at h
    obtain ⟨_, hnext, hrest⟩ := bind_eq_ok.mp h
    obtain ⟨hfree, rfl⟩ := insertDeliveryReceipt_eq_ok hnext
    obtain ⟨hdb, hkeeps⟩ := ih hrest
    refine ⟨?_, fun hunique => hkeeps (unique_concat hunique hfree)⟩
    rw [hdb]
    simp only [append_assoc, singleton_append, map_cons]

lemma appendDeadLetterReceipts_eq_ok {rows : List ProtocolInboxRow} {errorName message : String}
    {receiptIDs : List String} {now : ℤ}
    (h : appendDeadLetterReceipts db rows errorName message receiptIDs now = .ok db') :
    ∃ receipts : List ProtocolDeliveryReceiptRow,
      db' = { db with receipts := db.receipts ++ receipts } ∧
      (Unique terminalKey db.receipts → Unique terminalKey db'.receipts) ∧
      ∀ receipt ∈ receipts, receipt.inboxID ∈ (unresolvedDeliveries db rows now).map (·.id) := by
  obtain ⟨hdb, hkeeps⟩ := foldlM_insertDeliveryReceipt_eq_ok h
  refine ⟨_, hdb, hkeeps, fun receipt hreceipt => ?_⟩
  obtain ⟨_, hentry, rfl⟩ := List.mem_map.mp hreceipt
  exact List.mem_map_of_mem (of_mem_zip hentry).1

end Terminal

/-! ## The invariant -/

structure WellFormed (db : DeliveryDatabase) : Prop where
  terminal : Unique terminalKey db.receipts
  inboxIDs : PrimaryKey ProtocolInboxRow.id db.inbox
  enveloped : ∀ row ∈ db.inbox, Enveloped db row
  leaseIDs : PrimaryKey ControlLease.id (db.leases.rowsOf .protocolDelivery)

def KeptOut (db : DeliveryDatabase) (claim : SchedulerDeliveryClaim) : Prop :=
  Resolved db claim.inboxID → LeasedAt db claim.inboxID claim.now

/-- The invariant of the runs. -/
structure DeliveryInv (s : DeliveryState) : Prop where
  wellFormed : WellFormed s.db
  /-- A claim is not ahead of the clock, its row is in the inbox behind resolved ones only, and if the row
  was resolved, then the claim will be refused. -/
  claims : ∀ claim ∈ s.claims, claim.now ≤ s.clock ∧
    (∃ row, s.db.findInbox claim.inboxID = some row ∧ EarlierResolved s.db row) ∧ KeptOut s.db claim

/-- What a transaction does to the tables, and to the claims that wait. -/
structure Advances (db db' : DeliveryDatabase) (claims : List SchedulerDeliveryClaim) : Prop where
  wellFormed : WellFormed db'
  grows : Grows db db'
  keptOut : ∀ claim ∈ claims, KeptOut db claim → KeptOut db' claim

section Advances

variable {db db' : DeliveryDatabase} {claims : List SchedulerDeliveryClaim} {now : ℤ}

/-- Nothing changes. -/
lemma Advances.refl (hdb : WellFormed db) : Advances db db claims where
  wellFormed := hdb
  grows := ⟨fun _ _ h => h, hdb.enveloped, fun _ _ h => h⟩
  keptOut _ _ h := h

lemma Advances.of_leases (hdb : WellFormed db) {leases : ControlLeaseTables}
    (hids : PrimaryKey ControlLease.id (leases.rowsOf .protocolDelivery))
    (hleased : ∀ claim ∈ claims, LeasedAt db claim.inboxID claim.now →
      LeasedAt (db.withLeases leases) claim.inboxID claim.now) :
    Advances db (db.withLeases leases) claims where
  wellFormed := ⟨hdb.terminal, hdb.inboxIDs, hdb.enveloped, hids⟩
  grows := ⟨fun _ _ h => h, hdb.enveloped, fun _ _ h => h⟩
  keptOut claim hclaim hkept hresolved := hleased claim hclaim (hkept hresolved)

lemma Advances.of_grows (hgrows : Grows db db') (hdb : WellFormed db)
    (hreceipts : db'.receipts = db.receipts) (hleases : db'.leases = db.leases)
    (hinbox : PrimaryKey ProtocolInboxRow.id db'.inbox) : Advances db db' claims where
  wellFormed := ⟨hreceipts ▸ hdb.terminal, hinbox, hgrows.enveloped, hleases ▸ hdb.leaseIDs⟩
  grows := hgrows
  keptOut claim _ hkept := by
    unfold KeptOut Resolved LeasedAt deliveryLease at hkept ⊢
    rw [hreceipts, hleases]
    exact hkept

lemma Advances.of_receipts (hdb : WellFormed db) {receipts : List ProtocolDeliveryReceiptRow}
    (hunique : Unique terminalKey (db.receipts ++ receipts))
    (hleased : ∀ claim ∈ claims, ∀ receipt ∈ receipts, receipt.inboxID = claim.inboxID →
      receipt.receipt.isTerminal = true → LeasedAt db claim.inboxID claim.now) :
    Advances db { db with receipts := db.receipts ++ receipts } claims where
  wellFormed := ⟨hunique, hdb.inboxIDs, hdb.enveloped, hdb.leaseIDs⟩
  grows := Grows.of_receipts hdb.enveloped receipts db.leases
  keptOut := by
    rintro claim hclaim hkept ⟨receipt, hreceipt, hof, hterminal⟩
    rcases mem_append.mp hreceipt with hold | hadded
    · exact hkept ⟨receipt, hold, hof, hterminal⟩
    · exact hleased claim hclaim receipt hadded hof hterminal

lemma leasedAt_of_holdsLease {inboxID ownerID : String} {instant : ℤ}
    (h : HoldsLease db inboxID ownerID now) (hearly : instant ≤ now) : LeasedAt db inboxID instant := by
  obtain ⟨lease, hlease, -, hexpiry⟩ := h
  exact ⟨lease, hlease, hearly.trans_lt hexpiry⟩

variable {delivery : ProtocolDelivery}

section

variable (hdb : WellFormed db)

include hdb

lemma settle_advances (hclock : ∀ claim ∈ claims, claim.now ≤ now) {input : SettleSchedulerDeliveryInput}
    (h : settleSchedulerDeliveryInTransaction db input now = .ok (delivery, db')) : Advances db db' claims := by
  rcases settleSchedulerDelivery_eq_ok h with rfl | ⟨hholds, hfree, _, hrow, rfl⟩
  · exact .refl hdb
  · refine .of_receipts hdb (unique_concat hdb.terminal fun _ => hrow ▸ hfree) ?_
    intro claim hclaim receipt hreceipt hof _
    rw [mem_singleton.mp hreceipt, hrow] at hof
    exact leasedAt_of_holdsLease (hof ▸ hholds) (hclock claim hclaim)

lemma renew_advances (hclock : ∀ claim ∈ claims, claim.now ≤ now) {inboxID ownerID : String}
    {leaseMilliseconds : ℤ} (h : renewSchedulerDeliveryLease db inboxID ownerID leaseMilliseconds now = .ok db') :
    Advances db db' claims := by
  unfold renewSchedulerDeliveryLease at h
  obtain ⟨_, h⟩ := of_bind h
  replace h := of_throwWhen h
  obtain ⟨_, hleases, h⟩ := bind_eq_ok.mp h
  cases pure_eq_ok.mp h
  obtain ⟨hids, hkeeps⟩ := renew_keeps hdb.leaseIDs rfl (liftLease_eq_ok.mp hleases)
  exact .of_leases hdb hids fun claim hclaim hleased => hkeeps _ _ hleased (hclock claim hclaim)

lemma reschedule_advances (hclock : ∀ claim ∈ claims, claim.now ≤ now) {input : RescheduleSchedulerDeliveryInput}
    (hundisturbed : ∀ claim ∈ claims, claim.inboxID = input.inboxID → claim.now = now → ¬Resolved db input.inboxID)
    (h : rescheduleSchedulerDelivery db input now = .ok (delivery, db')) : Advances db db' claims := by
  obtain ⟨-, row, hterminal, leases, _, htarget, htargetID, _, hrelease, rfl⟩ :=
    rescheduleSchedulerDelivery_eq_ok h
  obtain ⟨hids, hkeeps⟩ := release_keeps hdb.leaseIDs htarget hrelease
  have hresolved : ∀ inboxID, Resolved { db with receipts := db.receipts ++ [row] } inboxID →
      Resolved db inboxID := by
    rintro _ ⟨receipt, hreceipt, hof, hreceiptTerminal⟩
    rcases mem_concat.mp hreceipt with hold | hadded
    · exact ⟨receipt, hold, hof, hreceiptTerminal⟩
    · rw [hadded, hterminal] at hreceiptTerminal
      cases hreceiptTerminal
  refine ⟨⟨unique_concat hdb.terminal fun hrow => ?_, hdb.inboxIDs, hdb.enveloped, hids⟩,
    Grows.of_receipts hdb.enveloped [row] leases, fun claim hclaim hkept hafter => ?_⟩
  · rw [hterminal] at hrow
    cases hrow
  · have hbefore : Resolved db claim.inboxID := hresolved claim.inboxID hafter
    refine hkeeps claim.inboxID claim.now (hkept hbefore) fun hsame => ?_
    have hinput : claim.inboxID = input.inboxID := hsame.trans htargetID
    have hne : claim.now ≠ now := fun heq => hundisturbed claim hclaim hinput heq (hinput ▸ hbefore)
    have hle : claim.now ≤ now := hclock claim hclaim
    omega

lemma lease_advances {claim : SchedulerDeliveryClaim} {leaseID : String} {delivery : Option ProtocolDelivery}
    (h : leaseSchedulerDelivery db claim leaseID = .ok (delivery, db')) : Advances db db' claims := by
  unfold leaseSchedulerDelivery at h
  obtain ⟨⟨⟨_, _⟩, _⟩, hacquired, h⟩ := bind_eq_ok.mp h
  rw [liftLease_eq_ok] at hacquired
  dsimp only at h
  split_ifs at h with hgranted
  · obtain ⟨_, h⟩ := of_bind h
    cases pure_eq_ok.mp h
    subst hgranted
    obtain ⟨hids, hkeeps⟩ := acquire_keeps hdb.leaseIDs rfl rfl hacquired
    exact .of_leases hdb hids fun claim _ => hkeeps claim.inboxID claim.now
  · cases pure_eq_ok.mp h
    exact .refl hdb

lemma deadLetters_advances {rows : List ProtocolInboxRow} {errorName message : String} {receiptIDs : List String}
    (hleased : ∀ claim ∈ claims, claim.inboxID ∈ (unresolvedDeliveries db rows now).map (·.id) →
        LeasedAt db claim.inboxID claim.now)
    (h : appendDeadLetterReceipts db rows errorName message receiptIDs now = .ok db') :
    Advances db db' claims := by
  obtain ⟨_, rfl, hunique, hids⟩ := appendDeadLetterReceipts_eq_ok h
  refine .of_receipts hdb (hunique hdb.terminal) fun claim hclaim receipt hreceipt hof _ => ?_
  exact hleased claim hclaim (hof ▸ hids receipt hreceipt)

lemma appendEvent_advances (event : SchedulerEventRow) :
    Advances db { db with events := db.events ++ [event] } claims := by
  have hgrows : Grows db { db with events := db.events ++ [event], inbox := db.inbox ++ [] } :=
    Grows.of_append hdb.enveloped (by simp) (by simp)
  rw [List.append_nil] at hgrows
  exact .of_grows hgrows hdb rfl rfl hdb.inboxIDs

lemma host_advances (leases : ControlLeaseTables) :
    Advances db (db.withLeases (db.leases.withOtherLeases .protocolDelivery leases)) claims := by
  refine .of_leases hdb ?_ fun claim _ hleased => ?_
  · rw [withOtherLeases_rowsOf]
    exact hdb.leaseIDs
  · exact (leasedAt_congr (withOtherLeases_ofTarget leases)).mpr hleased

end

end Advances

/-! ## Steps -/

section Steps

variable {s s' : DeliveryState}

lemma DeliveryInv.advance (hs : DeliveryInv s) (hadvances : Advances s.db s'.db s.claims)
    (hclock : s.clock ≤ s'.clock) (hclaims : ∀ claim ∈ s'.claims, claim ∈ s.claims) :
    DeliveryInv s' where
  wellFormed := hadvances.wellFormed
  claims := by
    intro claim hclaim
    obtain ⟨hnow, ⟨row, hrow, hearlier⟩, hkept⟩ := hs.claims claim (hclaims claim hclaim)
    have hmem : row ∈ s.db.inbox := (mem_of_findInbox hrow).1
    exact ⟨hnow.trans hclock, ⟨row, hadvances.grows.found _ _ hrow,
      hadvances.grows.earlier row hmem hearlier⟩, hadvances.keptOut claim (hclaims claim hclaim) hkept⟩

/-- Every transaction keeps the invariant, if it does not disturb a claim. -/
lemma run_deliveryInv (hs : DeliveryInv s) {action : DeliveryAction}
    (hundisturbed : Undisturbed s (s.clock, action)) (h : action.run s = some s') : DeliveryInv s' := by
  have hclock : ∀ claim ∈ s.claims, claim.now ≤ s.clock := fun claim hclaim => (hs.claims claim hclaim).1
  cases action with
  | enqueue =>
    obtain ⟨⟨_, _⟩, hanswer, rfl⟩ := map_eq_some_iff.mp h
    obtain ⟨hgrows, hreceipts, hleases, hinbox⟩ :=
      enqueueSchedulerMessage_grows hs.wellFormed.enveloped (toOption_eq_some.mp hanswer)
    exact hs.advance (.of_grows hgrows hs.wellFormed hreceipts hleases (hinbox hs.wellFormed.inboxIDs))
      le_rfl fun _ => id
  | choose =>
    obtain ⟨_, hclaim, rfl⟩ := map_eq_some_iff.mp h
    obtain ⟨hnow, row, hrow, hearlier, hunresolved⟩ :=
      chooseSchedulerDelivery_eq_some hs.wellFormed.inboxIDs hclaim
    refine ⟨hs.wellFormed, fun other hother => ?_⟩
    rcases mem_concat.mp hother with hold | hadded
    · exact hs.claims other hold
    · rw [hadded]
      exact ⟨hnow.le, ⟨row, hrow, hearlier⟩, fun hresolved => absurd hresolved hunresolved⟩
  | lease =>
    obtain ⟨_, _, h⟩ := bind_eq_some_iff.mp h
    obtain ⟨⟨_, _⟩, hanswer, h⟩ := bind_eq_some_iff.mp h
    cases h
    exact hs.advance (lease_advances hs.wellFormed (toOption_eq_some.mp hanswer)) le_rfl
      fun _ => mem_of_mem_eraseIdx
  | settle | deadLetter =>
    obtain ⟨⟨_, _⟩, hanswer, rfl⟩ := map_eq_some_iff.mp h
    exact hs.advance (settle_advances hs.wellFormed hclock (toOption_eq_some.mp hanswer)) le_rfl
      fun _ => id
  | renew =>
    obtain ⟨_, hanswer, rfl⟩ := map_eq_some_iff.mp h
    exact hs.advance (renew_advances hs.wellFormed hclock (toOption_eq_some.mp hanswer)) le_rfl
      fun _ => id
  | reschedule =>
    obtain ⟨⟨_, _⟩, hanswer, rfl⟩ := map_eq_some_iff.mp h
    exact hs.advance (reschedule_advances hs.wellFormed hclock hundisturbed
      (toOption_eq_some.mp hanswer)) le_rfl fun _ => id
  | deadLetters =>
    unfold DeliveryAction.run at h
    dsimp only at h
    split_ifs at h with hlength
    obtain ⟨_, hanswer, rfl⟩ := map_eq_some_iff.mp h
    exact hs.advance (deadLetters_advances hs.wellFormed hundisturbed (toOption_eq_some.mp hanswer))
      le_rfl fun _ => id
  | appendEvent event =>
    unfold DeliveryAction.run at h
    dsimp only at h
    split_ifs at h with htype
    cases h
    exact hs.advance (appendEvent_advances hs.wellFormed event) le_rfl fun _ => id
  | host leases =>
    cases h
    exact hs.advance (host_advances hs.wellFormed leases) le_rfl fun _ => id

lemma deliveryStep_deliveryInv (hs : DeliveryInv s) {action : ℤ × DeliveryAction}
    (hundisturbed : Undisturbed s action) (h : deliveryStep s action = some s') : DeliveryInv s' := by
  obtain ⟨now, action⟩ := action
  unfold deliveryStep at h
  split_ifs at h with hclock
  have hnow : DeliveryInv { s with clock := now } :=
    hs.advance (.refl hs.wellFormed) (not_lt.mp hclock) fun _ => id
  exact run_deliveryInv hnow hundisturbed h

/-- Before the first message there is nothing to keep. -/
lemma deliveryInv_of_initial (hs : s.Initial) : DeliveryInv s where
  wellFormed :=
    { terminal := by
        rw [hs.receipts]
        exact unique_nil
      inboxIDs := by
        rw [hs.inbox]
        exact primaryKey_nil
      enveloped := by
        rw [hs.inbox]
        simp
      leaseIDs := by
        have hnone : s.db.leases.rowsOf .protocolDelivery = [] :=
          filter_eq_nil_iff.mpr fun lease hlease => by simpa using hs.leases lease hlease
        rw [hnone]
        exact primaryKey_nil }
  claims := by
    rw [hs.claims]
    simp

lemma claimed_of_deliveryInv (hs : DeliveryInv s) {claim : SchedulerDeliveryClaim}
    (hclaim : claim ∈ s.claims) {leaseID : String} {delivery : ProtocolDelivery} {db' : DeliveryDatabase}
    (h : leaseSchedulerDelivery s.db claim leaseID = .ok (some delivery, db')) :
    ¬Resolved db' delivery.row.id ∧ EarlierResolved db' delivery.row := by
  obtain ⟨-, ⟨row, hrow, hearlier⟩, hkept⟩ := hs.claims claim hclaim
  unfold leaseSchedulerDelivery at h
  obtain ⟨⟨⟨_, lease⟩, _⟩, hacquired, h⟩ := bind_eq_ok.mp h
  rw [liftLease_eq_ok] at hacquired
  dsimp only at h
  split_ifs at h with hgranted
  · obtain ⟨_, hrow', h⟩ := bind_eq_ok.mp h
    cases pure_eq_ok.mp h
    rw [getOrThrow_eq_ok] at hrow'
    cases hrow.symm.trans hrow'
    refine ⟨fun hresolved => ?_, hearlier⟩
    -- A resolved row is leased, and its lease would have refused the claim.
    have hid : row.id = claim.inboxID := (mem_of_findInbox hrow).2
    obtain ⟨current, hcurrent, hexpiry⟩ := hkept (hid ▸ hresolved)
    rcases acquireControlLease_eq_ok hacquired with ⟨_, -, -, hresult, -⟩ | ⟨-, -, -, -, -, hfree⟩
    · subst hgranted
      cases hresult
    · exact hfree current hcurrent ⟨hexpiry, by simp⟩
  · cases pure_eq_ok.mp h

theorem DeliveryInv.deliveryLaw (hs : DeliveryInv s) : DeliveryLaw s where
  once inboxID := by
    refine hs.wellFormed.terminal.length_filter_le_one (k := inboxID) fun row _ hrow => ?_
    rw [decide_eq_true_eq] at hrow
    exact terminalKey_eq_some.mpr hrow
  claimed _ hclaim _ _ _ h := claimed_of_deliveryInv hs hclaim h
  fenced _ _ _ h := fenced_of_not_holdsLease h

end Steps

/-! ## Runs -/

/-- In every run whose steps do not disturb a claim, the law of the deliveries holds. -/
theorem deliveryLaw_of_undisturbed {s t : DeliveryState} {run : List (ℤ × DeliveryAction)}
    (hs : s.Initial) (hwithin : Within deliveryStep Undisturbed s run)
    (hrun : exec deliveryStep s run = some t) : DeliveryLaw t :=
  (Within.exec (fun _ _ _ hinv hok hstep => deliveryStep_deliveryInv hinv hok hstep)
    (deliveryInv_of_initial hs) hwithin hrun).deliveryLaw

/-! ### Examples -/

/-- No message was enqueued. -/
def undeliveredState : DeliveryState := ⟨⟨[], [], [], ⟨[], []⟩⟩, 0, []⟩

/-- A message to the Session `ses_1`. -/
def sessionMessage : EnqueueSchedulerMessageInput where
  eventID := "evt_1"
  inboxID := "inb_1"
  actor := .session
  actorID := "ses_1"
  threadID := "thr_1"
  sourceMessageID := some "msg_1"
  rest := "go"
  refusal := none

/-- The message is enqueued at 1 and chosen by the owner `own_1` at 2. -/
def chosenActions : List (ℤ × DeliveryAction) :=
  [(1, .enqueue sessionMessage), (2, .choose .session "ses_1" "own_1" 100)]

def settledActions : List (ℤ × DeliveryAction) :=
  chosenActions ++ [(3, .lease 0 "cal_1"), (4, .settle ⟨"inb_1", "own_1", .sessionWake "msg_2", none, "rec_1"⟩)]

def chosenState (clock : ℤ) (receipts : List ProtocolDeliveryReceiptRow) : DeliveryState where
  db :=
    { events := [⟨"evt_1", SCHEDULER_MESSAGE_EVENT_TYPE, .session, "ses_1", 1, "thr_1", some "msg_1", "go"⟩]
      inbox := [⟨"inb_1", "evt_1", .session, "ses_1", 1, 1⟩]
      receipts := receipts
      leases := ⟨[], []⟩ }
  clock := clock
  claims := [⟨"inb_1", "own_1", 100, 2⟩]

/-- The owner settles the row under its lease. -/
theorem deliveryLaw_of_settled :
    ∃ t, exec deliveryStep undeliveredState settledActions = some t ∧ Resolved t.db "inb_1" ∧
      DeliveryLaw t := by
  have hinit : undeliveredState.Initial := by decide
  have hwithin : Within deliveryStep Undisturbed undeliveredState settledActions := by decide
  exact ⟨_, rfl, by decide, deliveryLaw_of_undisturbed hinit hwithin rfl⟩

/-- The Session is deleted between the choice and the lease, and the claim takes a resolved row. -/
theorem claimed_deadLetter : ¬∀ (s t : DeliveryState) (run : List (ℤ × DeliveryAction)), s.Initial →
      exec deliveryStep s run = some t → DeliveryLaw t := by
  intro h
  have hrun : exec deliveryStep undeliveredState (chosenActions ++
      [(3, .deadLetters (.sessions ["ses_1"]) "SessionDeleted" "deleted" ["rec_1"])]) =
        some (chosenState 3 [⟨"rec_1", "inb_1", .deadLetter "SessionDeleted" "deleted", 3⟩]) := by
    decide
  have hlaw := h _ _ _ (by decide) hrun
  have hclaim : ∃ delivery db', leaseSchedulerDelivery
      (chosenState 3 [⟨"rec_1", "inb_1", .deadLetter "SessionDeleted" "deleted", 3⟩]).db
        ⟨"inb_1", "own_1", 100, 2⟩ "cal_1" = .ok (some delivery, db') ∧
          Resolved db' delivery.row.id := ⟨_, _, rfl, by decide⟩
  obtain ⟨_, _, hlease, hresolved⟩ := hclaim
  exact (hlaw.claimed _ (mem_singleton_self _) _ _ _ hlease).1 hresolved

end OpenCorvus.Protocol
