import OpenCorvus.Protocol.SchedulerMessage

/-!
# When an enqueue may be repeated

A scheduler message that was enqueued stays stored under the identity of its delivery, so that a repeated
enqueue finds it and compares.  The comparison comes last: the authority of the endpoints, the source and
the reply are checked as for a first send.
-/

namespace OpenCorvus.Protocol.SchedulerMessage

open Transaction Engine ExecutableSystem List Option SchedulerMessagePayload MessageDatabase

/-! ## What is claimed -/

/-- Two inputs say the same, up to the blanks around correlation and thread and their defaults. -/
structure EnqueueInput.SameContent (input other : EnqueueInput) : Prop where
  invocationID : input.invocationID = other.invocationID
  kind : input.kind = other.kind
  source : input.source = other.source
  target : input.target = other.target
  subject : input.subject = other.subject
  sourceMessageID : input.sourceMessageID = other.sourceMessageID
  sourcePartID : input.sourcePartID = other.sourcePartID
  sourceTerminalEventID : input.sourceTerminalEventID = other.sourceTerminalEventID
  correlation : input.correlation = other.correlation
  thread : input.thread = other.thread
  replyTo : input.replyTo = other.replyTo

/-- At any instant, the input is answered as it was at first and nothing changes, and under the identity
of its delivery no other content is accepted. -/
structure Idempotent (host : MessageHost) (db : MessageDatabase) (input : EnqueueInput)
    (receipt : SchedulerDeliveryReceipt) : Prop where
  replay : ∀ now, ∃ status, enqueueSchedulerMessageInTransaction host db input now =
    .ok ({ receipt with status := status, replayed := true }, db)
  conflict : ∀ other now answer, schedulerDeliveryIdentity host other = schedulerDeliveryIdentity host input →
      enqueueSchedulerMessageInTransaction host db other now = .ok answer → other.SameContent input

def SameEpoch (before later : MessageDatabase) (taskID : String) (active : Prop) : Prop :=
  ∃ lifecycle lifecycle', taskLifecycleProjectionInTransaction before.taskEvents taskID = .ok lifecycle ∧
    taskLifecycleProjectionInTransaction later.taskEvents taskID = .ok lifecycle' ∧
      lifecycle'.epoch = lifecycle.epoch ∧ (active → isTaskActive lifecycle' = true)

structure SameOccurrences (before later : MessageDatabase) (input : EnqueueInput) : Prop where
  source : ∀ source, input.source = .task source →
    SameEpoch before later source.taskID (truthy input.sourceMessageID ≠ none)
  target : ∀ target, input.target = .task target → SameEpoch before later target.taskID True

structure SourceStands (host : MessageHost) (before later : MessageDatabase) (input : EnqueueInput) :
    Prop where
  authority : requireEndpointAuthority later input.source input.target = .ok ()
  body : ∃ body body', schedulerSourceBodyInTransaction before input = .ok body ∧
    schedulerSourceBodyInTransaction later input = .ok body' ∧ host.sha256 body' = host.sha256 body
  occurrence : ∀ source messageID, input.source = .task source → truthy input.sourceMessageID = some messageID →
      requireTaskSourceMessageOccurrence later source messageID =
        requireTaskSourceMessageOccurrence before source messageID

/-! ## The checks of an enqueue -/

variable {host : MessageHost} {db db' : MessageDatabase} {input other : EnqueueInput}

/-- An enqueue passes its checks, and would write this payload. -/
structure Admits (host : MessageHost) (db : MessageDatabase) (input : EnqueueInput) (body : String)
    (sourceEpoch targetEpoch : Option ℕ) : Prop where
  parses : input.source.parses = true ∧ input.target.parses = true
  authority : requireEndpointAuthority db input.source input.target = .ok ()
  body : schedulerSourceBodyInTransaction db input = .ok body
  sourceOccurrence : sourceTaskExecutionEpoch db input = .ok sourceEpoch
  targetOccurrence : targetTaskExecutionEpoch db input.target = .ok targetEpoch
  reply : requireReplyAuthority db input sourceEpoch targetEpoch = .ok ()

variable {now : ℤ} {payload : SchedulerMessagePayload} {sourceEpoch targetEpoch : Option ℕ}
  {before later : MessageDatabase}

variable {answer : SchedulerDeliveryReceipt × MessageDatabase}

theorem enqueue_eq_ok : enqueueSchedulerMessageInTransaction host db input now = .ok answer ↔
      ∃ body sourceEpoch targetEpoch, Admits host db input body sourceEpoch targetEpoch ∧
        let payload := input.payload sourceEpoch targetEpoch (host.sha256 body)
        let identity := schedulerDeliveryIdentity host input
        if (db.findInbox identity.2).isSome ∨ (db.findEvent identity.1).isSome then
          ∃ receipt, replaySchedulerMessage host db input (db.findInbox identity.2)
            (db.findEvent identity.1) payload now = .ok receipt ∧ (receipt, db) = answer
        else
          payload.parses = true ∧ ∃ appended inserted,
            appendSchedulerEvent db (input.envelope host db payload now) = .ok appended ∧
            insertInboxRow appended (input.inboxRow host now) = .ok inserted ∧
            ({ eventID := identity.1, inboxID := identity.2, threadID := input.thread
               status := .pending, replayed := false }, inserted) = answer := by
  unfold enqueueSchedulerMessageInTransaction
  rw [throwWhen_bind_eq_ok, check_bind_eq_ok, not_not, bind_eq_ok]
  constructor
  · rintro ⟨hparses, hauthority, body, hbody, h⟩
    obtain ⟨sourceEpoch, hsource, h⟩ := bind_eq_ok.mp h
    obtain ⟨targetEpoch, htarget, h⟩ := bind_eq_ok.mp h
    obtain ⟨hreply, h⟩ := check_bind_eq_ok.mp h
    refine ⟨body, sourceEpoch, targetEpoch, ⟨hparses, hauthority, hbody, hsource, htarget, hreply⟩, ?_⟩
    dsimp only at h ⊢
    split_ifs at h ⊢ with hexisting
    · obtain ⟨receipt, hreplay, h⟩ := bind_eq_ok.mp h
      exact ⟨receipt, hreplay, pure_eq_ok.mp h⟩
    · obtain ⟨hpayload, h⟩ := throwWhen_bind_eq_ok.mp h
      obtain ⟨appended, happend, h⟩ := bind_eq_ok.mp h
      obtain ⟨inserted, hinsert, h⟩ := bind_eq_ok.mp h
      exact ⟨not_not.mp hpayload, appended, inserted, happend, hinsert, pure_eq_ok.mp h⟩
  · rintro ⟨body, sourceEpoch, targetEpoch, hadmits, h⟩
    refine ⟨hadmits.parses, hadmits.authority, body, hadmits.body, ?_⟩
    refine bind_eq_ok.mpr ⟨sourceEpoch, hadmits.sourceOccurrence, ?_⟩
    refine bind_eq_ok.mpr ⟨targetEpoch, hadmits.targetOccurrence, ?_⟩
    refine check_bind_eq_ok.mpr ⟨hadmits.reply, ?_⟩
    dsimp only at h ⊢
    split_ifs at h ⊢ with hexisting
    · obtain ⟨receipt, hreplay, h⟩ := h
      exact bind_eq_ok.mpr ⟨receipt, hreplay, pure_eq_ok.mpr h⟩
    · obtain ⟨hpayload, appended, inserted, happend, hinsert, h⟩ := h
      refine throwWhen_bind_eq_ok.mpr ⟨not_not.mpr hpayload, ?_⟩
      refine bind_eq_ok.mpr ⟨appended, happend, bind_eq_ok.mpr ⟨inserted, hinsert, ?_⟩⟩
      exact pure_eq_ok.mpr h

variable {receipt : SchedulerDeliveryReceipt}

lemma replaySchedulerMessage_eq_ok {existingInbox : Option ProtocolInboxRow}
    {existingEvent : Option ProtocolEventRow} :
    replaySchedulerMessage host db input existingInbox existingEvent payload now = .ok receipt ↔
      ∃ inbox envelope, existingInbox = some inbox ∧
        existingEvent.bind ProtocolEventRow.envelope? = some envelope ∧
        inbox.envelopeID = (schedulerDeliveryIdentity host input).1 ∧
        (inbox.actor, inbox.actorID) = endpointRecipient input.target ∧ input.Matches envelope ∧
        envelope.payload.parses = true ∧ envelope.payload = payload ∧
        receipt =
          { eventID := (schedulerDeliveryIdentity host input).1
            inboxID := (schedulerDeliveryIdentity host input).2, threadID := envelope.payload.threadID
            status := (projectProtocolDeliveryInTransaction db.deliveries inbox now).status
            replayed := true } := by
  unfold replaySchedulerMessage
  constructor
  · intro h
    obtain ⟨inbox, hinbox, h⟩ := bind_eq_ok.mp h
    obtain ⟨envelope, henvelope, h⟩ := bind_eq_ok.mp h
    obtain ⟨hconflict, h⟩ := throwWhen_bind_eq_ok.mp h
    obtain ⟨hpayload, h⟩ := throwWhen_bind_eq_ok.mp h
    simp only [not_or, not_not] at hconflict hpayload
    obtain ⟨hid, hactor, hmatches, hparses⟩ := hconflict
    exact ⟨inbox, envelope, getOrThrow_eq_ok.mp hinbox, getOrThrow_eq_ok.mp henvelope, hid, hactor,
      hmatches, hparses, hpayload, (pure_eq_ok.mp h).symm⟩
  · rintro ⟨inbox, envelope, hinbox, henvelope, hid, hactor, hmatches, hparses, hpayload, rfl⟩
    refine bind_eq_ok.mpr ⟨inbox, getOrThrow_eq_ok.mpr hinbox, ?_⟩
    refine bind_eq_ok.mpr ⟨envelope, getOrThrow_eq_ok.mpr henvelope, ?_⟩
    refine throwWhen_bind_eq_ok.mpr ⟨?_, throwWhen_bind_eq_ok.mpr ⟨not_not.mpr hpayload, rfl⟩⟩
    simp only [not_or, not_not]
    exact ⟨hid, hactor, hmatches, hparses⟩

/-! ## What an enqueue leaves behind -/

structure Recorded (host : MessageHost) (input : EnqueueInput) (payload : SchedulerMessagePayload)
    (db : MessageDatabase) : Prop where
  inbox : ∃ row, db.findInbox (schedulerDeliveryIdentity host input).2 = some row ∧
    row.envelopeID = (schedulerDeliveryIdentity host input).1 ∧
    (row.actor, row.actorID) = endpointRecipient input.target
  event : ∃ envelope, db.findEvent (schedulerDeliveryIdentity host input).1 = some (.schedulerMessage envelope) ∧
    input.Matches envelope ∧ envelope.payload = payload ∧ payload.parses = true

variable {envelope : SchedulerEnvelope}

lemma envelope?_eq_some {row : ProtocolEventRow} :
    row.envelope? = some envelope ↔ row = .schedulerMessage envelope := by
  cases row <;> simp [ProtocolEventRow.envelope?]

lemma findEvent_append {id : String} {row : ProtocolEventRow} {events : List ProtocolEventRow}
    (h : db.findEvent id = some row) (hevents : db'.events = db.events ++ events) :
    db'.findEvent id = some row := by
  unfold findEvent at h ⊢
  rw [hevents, find?_append, h, some_or]

lemma findInbox_append {id : String} {row : ProtocolInboxRow} {rows : List ProtocolInboxRow}
    (h : db.findInbox id = some row) (hinbox : db'.inbox = db.inbox ++ rows) :
    db'.findInbox id = some row := by
  unfold findInbox at h ⊢
  rw [hinbox, find?_append, h, some_or]

lemma Recorded.append (h : Recorded host input payload db) (events : List ProtocolEventRow)
    (rows : List ProtocolInboxRow) (hevents : db'.events = db.events ++ events)
    (hinbox : db'.inbox = db.inbox ++ rows) :
    Recorded host input payload db' := by
  obtain ⟨⟨row, hrow, hidentity⟩, envelope, henvelope, hmatches⟩ := h
  exact ⟨⟨row, findInbox_append hrow hinbox, hidentity⟩, envelope, findEvent_append henvelope hevents, hmatches⟩

lemma appendSchedulerEvent_eq_ok (h : appendSchedulerEvent db envelope = .ok db') :
    db' = { db with events := db.events ++ [.schedulerMessage envelope] } := by
  unfold appendSchedulerEvent at h
  replace h := of_throwWhen h
  replace h := of_throwWhen h
  replace h := of_throwWhen h
  replace h := of_throwWhen h
  exact (pure_eq_ok.mp h).symm

lemma insertInboxRow_eq_ok {row : ProtocolInboxRow} (h : insertInboxRow db row = .ok db') :
    db' = { db with inbox := db.inbox ++ [row] } := by
  unfold insertInboxRow at h
  replace h := of_throwWhen h
  replace h := of_throwWhen h
  exact (pure_eq_ok.mp h).symm

theorem enqueue_recorded (h : enqueueSchedulerMessageInTransaction host db input now = .ok (receipt, db')) :
    (∃ events rows, db'.events = db.events ++ events ∧ db'.inbox = db.inbox ++ rows) ∧
      receipt.eventID = (schedulerDeliveryIdentity host input).1 ∧
      receipt.inboxID = (schedulerDeliveryIdentity host input).2 ∧ receipt.threadID = input.thread ∧
      ∃ body sourceEpoch targetEpoch, Admits host db input body sourceEpoch targetEpoch ∧
        Recorded host input (input.payload sourceEpoch targetEpoch (host.sha256 body)) db' := by
  obtain ⟨body, sourceEpoch, targetEpoch, hadmits, h⟩ := enqueue_eq_ok.mp h
  dsimp only at h
  split_ifs at h with hexisting
  · obtain ⟨_, hreplay, hanswer⟩ := h
    obtain ⟨rfl, rfl⟩ := Prod.mk.inj hanswer
    obtain ⟨inbox, envelope, hinbox, henvelope, hid, hactor, hmatches, hparses, hpayload, rfl⟩ :=
      replaySchedulerMessage_eq_ok.mp hreplay
    obtain ⟨_, hrow, henvelope⟩ := bind_eq_some_iff.mp henvelope
    rw [envelope?_eq_some] at henvelope
    have hthread : envelope.payload.threadID = input.thread := by
      rw [hpayload]
      rfl
    refine ⟨⟨[], [], by simp, by simp⟩, rfl, rfl, hthread, body, sourceEpoch, targetEpoch, hadmits, ?_⟩
    exact ⟨⟨inbox, hinbox, hid, hactor⟩, envelope, hrow.trans (congrArg some henvelope), hmatches,
      hpayload, hpayload ▸ hparses⟩
  · obtain ⟨hparses, _, _, happend, hinsert, hanswer⟩ := h
    obtain ⟨rfl, rfl⟩ := Prod.mk.inj hanswer
    rw [not_or, not_isSome_iff_eq_none, not_isSome_iff_eq_none] at hexisting
    obtain ⟨hnoInbox, hnoEvent⟩ := hexisting
    rw [insertInboxRow_eq_ok hinsert, appendSchedulerEvent_eq_ok happend]
    refine ⟨⟨_, _, rfl, rfl⟩, rfl, rfl, rfl, body, sourceEpoch, targetEpoch, hadmits, ?_, ?_⟩
    · refine ⟨input.inboxRow host now, ?_, rfl, rfl⟩
      unfold findInbox at hnoInbox ⊢
      rw [find?_append, hnoInbox]
      simp [EnqueueInput.inboxRow]
    · refine ⟨input.envelope host db (input.payload sourceEpoch targetEpoch (host.sha256 body)) now, ?_,
        ⟨rfl, rfl, rfl, rfl, rfl, rfl, rfl, rfl, rfl⟩, rfl, hparses⟩
      unfold findEvent at hnoEvent ⊢
      rw [find?_append, hnoEvent]
      simp [EnqueueInput.envelope, ProtocolEventRow.id]

theorem recorded_preserved (payload : SchedulerMessagePayload) :
    Preserves (messageStep host) (Recorded host input payload) := by
  intro db action db' hrecorded hstep
  cases action with simp only [messageStep] at hstep
  | enqueue other now =>
    obtain ⟨⟨_, _⟩, henqueue, rfl⟩ := map_eq_some_iff.mp hstep
    obtain ⟨⟨events, rows, hevents, hrows⟩, -⟩ := enqueue_recorded (toOption_eq_some.mp henqueue)
    exact hrecorded.append events rows hevents hrows
  | appendEvent row =>
    split_ifs at hstep
    cases hstep
    exact hrecorded.append [row] [] rfl (List.append_nil _).symm
  | change surroundings =>
    cases hstep
    exact hrecorded.append [] [] (List.append_nil _).symm (List.append_nil _).symm

/-! ## What a repeated enqueue compares -/

theorem Recorded.conflict (h : Recorded host input payload db)
    (hpayload : ∃ sourceEpoch targetEpoch digest, payload = input.payload sourceEpoch targetEpoch digest)
    (hidentity : schedulerDeliveryIdentity host other = schedulerDeliveryIdentity host input)
    (henqueue : enqueueSchedulerMessageInTransaction host db other now = .ok answer) :
    ∃ body sourceEpoch targetEpoch, Admits host db other body sourceEpoch targetEpoch ∧
      payload = other.payload sourceEpoch targetEpoch (host.sha256 body) ∧ other.SameContent input := by
  obtain ⟨body, sourceEpoch, targetEpoch, hadmits, hanswer⟩ := enqueue_eq_ok.mp henqueue
  obtain ⟨⟨_, hinbox, -⟩, envelope, hevent, hmatches, henvelope, -⟩ := h
  dsimp only at hanswer
  rw [hidentity, hinbox, hevent, if_pos (.inl rfl)] at hanswer
  obtain ⟨_, hreplay, -⟩ := hanswer
  obtain ⟨_, envelope', -, henvelope', -, -, hmatches', -, hsame, -⟩ :=
    replaySchedulerMessage_eq_ok.mp hreplay
  obtain rfl : envelope = envelope' := by
    rw [bind_some, envelope?_eq_some, ProtocolEventRow.schedulerMessage.injEq] at henvelope'
    exact henvelope'
  have hother : payload = other.payload sourceEpoch targetEpoch (host.sha256 body) :=
    henvelope.symm.trans hsame
  refine ⟨body, sourceEpoch, targetEpoch, hadmits, hother, ?_⟩
  obtain ⟨_, _, _, hinput⟩ := hpayload
  have heq := hother.symm.trans hinput
  obtain ⟨-, -, -, -, hsource, htarget, hcorrelation, -, hreplyTo⟩ := hmatches
  obtain ⟨-, -, -, -, hsource', htarget', hcorrelation', -, hreplyTo'⟩ := hmatches'
  exact
    { invocationID := congrArg invocationID heq
      kind := congrArg messageKind heq
      source := hsource'.symm.trans hsource
      target := htarget'.symm.trans htarget
      subject := congrArg subject heq
      sourceMessageID := congrArg sourceMessageID heq
      sourcePartID := congrArg sourcePartID heq
      sourceTerminalEventID := congrArg sourceTerminalEventID heq
      correlation := hcorrelation'.symm.trans hcorrelation
      thread := congrArg threadID heq
      replyTo := hreplyTo'.symm.trans hreplyTo }

theorem Recorded.replay {body : String}
    (h : Recorded host input (input.payload sourceEpoch targetEpoch (host.sha256 body)) db) {body' : String}
    (hadmits : Admits host db input body' sourceEpoch targetEpoch)
    (hdigest : host.sha256 body' = host.sha256 body) (now : ℤ) :
    ∃ status, enqueueSchedulerMessageInTransaction host db input now =
      .ok ({ eventID := (schedulerDeliveryIdentity host input).1
             inboxID := (schedulerDeliveryIdentity host input).2, threadID := input.thread
             status := status, replayed := true }, db) := by
  obtain ⟨⟨inbox, hinbox, hid, hactor⟩, envelope, hevent, hmatches, hpayload, hparses⟩ := h
  refine ⟨(projectProtocolDeliveryInTransaction db.deliveries inbox now).status,
    enqueue_eq_ok.mpr ⟨body', sourceEpoch, targetEpoch, hadmits, ?_⟩⟩
  dsimp only
  rw [hinbox, hevent, hdigest, if_pos (.inl rfl)]
  refine ⟨_, replaySchedulerMessage_eq_ok.mpr ⟨inbox, envelope, rfl, rfl, hid, hactor, hmatches,
    hpayload ▸ hparses, hpayload, rfl⟩, ?_⟩
  rw [hpayload]
  rfl

theorem Recorded.reply_refused (h : Recorded host input payload db) (hkind : input.kind = .reply) :
    requireReplyAuthority db input sourceEpoch targetEpoch ≠ .ok () := by
  intro hreply
  unfold requireReplyAuthority at hreply
  rw [if_neg (not_not.mpr hkind)] at hreply
  obtain ⟨replyTo, hreplyTo, hreply⟩ := bind_eq_ok.mp hreply
  obtain ⟨request, hrequest, hreply⟩ := bind_eq_ok.mp hreply
  replace hreply := of_throwWhen hreply
  replace hreply := of_throwWhen hreply
  replace hreply := of_throwWhen hreply
  replace hreply := of_check hreply
  replace hreply := of_check hreply
  -- the request is the event that the stored reply names
  obtain ⟨_, hrow, hrequest⟩ := bind_eq_some_iff.mp (getOrThrow_eq_ok.mp hrequest)
  rw [envelope?_eq_some] at hrequest
  have hid : request.id = replyTo := by
    have hfound := find?_some hrow
    rw [decide_eq_true_eq, hrequest] at hfound
    exact hfound
  have hnamed : input.replyTo = some request.id := by
    rw [hid]
    have htruthy := getOrThrow_eq_ok.mp hreplyTo
    unfold truthy at htruthy
    split at htruthy
    · cases htruthy
    next value hvalue =>
      split_ifs at htruthy
      exact hvalue.trans htruthy
  obtain ⟨-, envelope, hevent, hmatches, -⟩ := h
  have hstored : envelope ∈ db.events.filterMap ProtocolEventRow.envelope? :=
    mem_filterMap.mpr ⟨_, mem_of_find?_eq_some hevent, rfl⟩
  have hkind' : envelope.kind = .reply := by
    rw [hmatches.1, hkind]
    rfl
  obtain ⟨-, -, -, -, -, -, -, -, hreplies⟩ := hmatches
  split at hreply
  next hnone =>
    have hno := find?_eq_none.mp hnone envelope hstored
    exact hno (by simp [hkind', hreplies, hnamed])
  · cases hreply

/-! ## The checks of a repeated enqueue -/

lemma requireTaskEndpoint_eq_ok {endpoint : TaskScheduler} {task : TaskRow}
    {lifecycle : TaskLifecycleProjection}
    (h : requireTaskEndpoint db endpoint = .ok (task, lifecycle)) :
    taskLifecycleProjectionInTransaction db.taskEvents endpoint.taskID = .ok lifecycle := by
  unfold requireTaskEndpoint at h
  obtain ⟨row, hrow, h⟩ := bind_eq_ok.mp h
  replace h := of_throwWhen h
  replace h := of_throwWhen h
  obtain ⟨_, hprojection, h⟩ := bind_eq_ok.mp h
  obtain ⟨rfl, rfl⟩ := Prod.mk.inj (pure_eq_ok.mp h)
  have hid : row.id = endpoint.taskID := by
    simpa using find?_some (getOrThrow_eq_ok.mp hrow)
  rw [hid] at hprojection
  cases hlifecycle : taskLifecycleProjectionInTransaction db.taskEvents endpoint.taskID with
  | ok =>
    rw [hlifecycle, liftEngine] at hprojection
    cases hprojection
    rfl
  | error =>
    rw [hlifecycle, liftEngine] at hprojection
    cases hprojection

lemma requireEndpointAuthority_bound {source target : SchedulerEndpoint}
    (h : requireEndpointAuthority db source target = .ok ()) :
    (∀ endpoint, source = .task endpoint → ∃ bound, requireTaskEndpoint db endpoint = .ok bound) ∧
      ∀ endpoint, target = .task endpoint → ∃ bound, requireTaskEndpoint db endpoint = .ok bound := by
  unfold requireEndpointAuthority at h
  replace h := of_throwWhen h
  match source, target with
  | .mission source, .task target =>
    replace h := of_check h
    obtain ⟨bound, hbound, -⟩ := bind_eq_ok.mp h
    refine ⟨(fun _ hsource => nomatch hsource), ?_⟩
    rintro _ ⟨⟩
    exact ⟨bound, hbound⟩
  | .task source, .mission target =>
    obtain ⟨bound, hbound, -⟩ := bind_eq_ok.mp h
    refine ⟨?_, (fun _ htarget => nomatch htarget)⟩
    rintro _ ⟨⟩
    exact ⟨bound, hbound⟩
  | .task source, .task target =>
    obtain ⟨bound, hbound, h⟩ := bind_eq_ok.mp h
    obtain ⟨bound', hbound', -⟩ := bind_eq_ok.mp h
    constructor
    · rintro _ ⟨⟩
      exact ⟨bound, hbound⟩
    · rintro _ ⟨⟩
      exact ⟨bound', hbound'⟩
  | .mission _, .mission _ => cases h

lemma sourceTaskExecutionEpoch_stands {epoch : Option ℕ}
    (hepoch : sourceTaskExecutionEpoch before input = .ok epoch) (hsame : SameOccurrences before later input)
    (hstands : SourceStands host before later input) :
    sourceTaskExecutionEpoch later input = .ok epoch := by
  unfold sourceTaskExecutionEpoch at hepoch ⊢
  split at hepoch
  next =>
    exact hepoch
  next endpoint hsource =>
    obtain ⟨⟨_, _⟩, hbound, hepoch⟩ := bind_eq_ok.mp hepoch
    obtain ⟨⟨_, lifecycle'⟩, hbound'⟩ :=
      (requireEndpointAuthority_bound hstands.authority).1 endpoint hsource
    obtain ⟨_, _, hl, hl', heq, hactive⟩ := hsame.source endpoint hsource
    cases (requireTaskEndpoint_eq_ok hbound).symm.trans hl
    cases (requireTaskEndpoint_eq_ok hbound').symm.trans hl'
    refine bind_eq_ok.mpr ⟨_, hbound', ?_⟩
    dsimp only at hepoch ⊢
    split at hepoch
    next hmessage =>
      rw [heq]
      exact hepoch
    next messageID hmessage =>
      replace hepoch := of_throwWhen hepoch
      obtain ⟨occurrence, hoccurrence, hepoch⟩ := bind_eq_ok.mp hepoch
      obtain ⟨hcurrent, hepoch⟩ := throwWhen_bind_eq_ok.mp hepoch
      have hruns : isTaskActive lifecycle' = true := hactive (by simp [hmessage])
      refine throwWhen_bind_eq_ok.mpr ⟨not_not.mpr hruns, bind_eq_ok.mpr ⟨occurrence, ?_, ?_⟩⟩
      · rw [hstands.occurrence endpoint messageID hsource hmessage]
        exact hoccurrence
      · exact throwWhen_bind_eq_ok.mpr ⟨heq ▸ hcurrent, hepoch⟩

lemma targetTaskExecutionEpoch_stands {epoch : Option ℕ}
    (hepoch : targetTaskExecutionEpoch before input.target = .ok epoch)
    (hsame : SameOccurrences before later input) (hstands : SourceStands host before later input) :
    targetTaskExecutionEpoch later input.target = .ok epoch := by
  unfold targetTaskExecutionEpoch at hepoch ⊢
  split at hepoch
  next =>
    exact hepoch
  next endpoint htarget =>
    obtain ⟨⟨_, _⟩, hbound, hepoch⟩ := bind_eq_ok.mp hepoch
    obtain ⟨⟨_, _⟩, hbound'⟩ :=
      (requireEndpointAuthority_bound hstands.authority).2 endpoint htarget
    obtain ⟨_, _, hl, hl', heq, hactive⟩ := hsame.target endpoint htarget
    cases (requireTaskEndpoint_eq_ok hbound).symm.trans hl
    cases (requireTaskEndpoint_eq_ok hbound').symm.trans hl'
    refine bind_eq_ok.mpr ⟨_, hbound', throwWhen_bind_eq_ok.mpr ⟨not_not.mpr (hactive trivial), ?_⟩⟩
    replace hepoch := of_throwWhen hepoch
    rw [heq]
    exact hepoch

lemma requireReplyAuthority_of_ne_reply (hkind : input.kind ≠ .reply)
    (h : requireReplyAuthority before input sourceEpoch targetEpoch = .ok ()) :
    requireReplyAuthority later input sourceEpoch targetEpoch = .ok () := by
  unfold requireReplyAuthority at h ⊢
  rw [if_pos hkind] at h ⊢
  exact h

lemma SourceStands.of_admits {body body' : String}
    (hbefore : Admits host before input body sourceEpoch targetEpoch)
    (hlater : Admits host later input body' sourceEpoch targetEpoch)
    (hdigest : host.sha256 body' = host.sha256 body) : SourceStands host before later input := by
  refine ⟨hlater.authority, ⟨body, body', hbefore.body, hlater.body, hdigest⟩, ?_⟩
  intro endpoint messageID hsource hmessage
  have hoccurrence : ∀ db, sourceTaskExecutionEpoch db input = .ok sourceEpoch →
      ∃ epoch, sourceEpoch = some epoch ∧
        requireTaskSourceMessageOccurrence db endpoint messageID = .ok epoch := by
    intro db h
    unfold sourceTaskExecutionEpoch at h
    rw [hsource] at h
    obtain ⟨_, h⟩ := of_bind h
    rw [hmessage] at h
    replace h := of_throwWhen h
    obtain ⟨epoch, hepoch, h⟩ := bind_eq_ok.mp h
    replace h := of_throwWhen h
    exact ⟨epoch, (pure_eq_ok.mp h).symm, hepoch⟩
  obtain ⟨_, rfl, hepoch⟩ := hoccurrence before hbefore.sourceOccurrence
  obtain ⟨_, heq, hepoch'⟩ := hoccurrence later hlater.sourceOccurrence
  rw [hepoch, hepoch', some.inj heq]

/-! ## The main result -/

/-- A message was enqueued, and any transactions followed after which its source and target are in the
same epochs.  Its enqueue may be repeated, and no other content is accepted under its identity, exactly
when it is no reply and what it rests on still stands. -/
theorem enqueue_idempotent_iff {before first later : MessageDatabase} {now : ℤ}
    {receipt : SchedulerDeliveryReceipt} {actions : List MessageAction}
    (hfirst : enqueueSchedulerMessageInTransaction host before input now = .ok (receipt, first))
    (hlater : exec (messageStep host) first actions = some later)
    (hsame : SameOccurrences before later input) :
    Idempotent host later input receipt ↔
      input.kind ≠ .reply ∧ SourceStands host before later input := by
  obtain ⟨-, heventID, hinboxID, hthreadID, body, sourceEpoch, targetEpoch, hadmits, hrecorded⟩ :=
    enqueue_recorded hfirst
  have hstored := (recorded_preserved _).exec hrecorded hlater
  constructor
  · intro hidempotent
    obtain ⟨_, hreplay⟩ := hidempotent.replay now
    obtain ⟨_, sourceEpoch', targetEpoch', hadmits', hpayload, -⟩ :=
      hstored.conflict ⟨_, _, _, rfl⟩ rfl hreplay
    refine ⟨fun hkind => hstored.reply_refused hkind hadmits'.reply, ?_⟩
    obtain rfl : sourceEpoch = sourceEpoch' :=
      congrArg SchedulerMessagePayload.sourceTaskExecutionEpoch hpayload
    obtain rfl : targetEpoch = targetEpoch' :=
      congrArg SchedulerMessagePayload.targetTaskExecutionEpoch hpayload
    exact .of_admits hadmits hadmits' (congrArg SchedulerMessagePayload.sourceBodySHA256 hpayload).symm
  · rintro ⟨hkind, hstands⟩
    obtain ⟨_, body', hbody, hbody', hdigest⟩ := hstands.body
    cases hadmits.body.symm.trans hbody
    have hadmits' : Admits host later input body' sourceEpoch targetEpoch :=
      { parses := hadmits.parses
        authority := hstands.authority
        body := hbody'
        sourceOccurrence := sourceTaskExecutionEpoch_stands hadmits.sourceOccurrence hsame hstands
        targetOccurrence := targetTaskExecutionEpoch_stands hadmits.targetOccurrence hsame hstands
        reply := requireReplyAuthority_of_ne_reply hkind hadmits.reply }
    refine ⟨fun now' => ?_, ?_⟩
    · obtain ⟨status, hreplay⟩ := hstored.replay hadmits' hdigest now'
      refine ⟨status, hreplay.trans ?_⟩
      rw [heventID, hinboxID, hthreadID]
    · intro other now' answer hidentity henqueue
      obtain ⟨_, _, _, -, -, hcontent⟩ := hstored.conflict ⟨_, _, _, rfl⟩ hidentity henqueue
      exact hcontent

/-! ## A request that is repeated, and its reply -/

/-- A host that writes out what the code hashes. -/
def plainHost : MessageHost where
  deterministic := fun kind material => kind ++ ":" ++ material
  identityMaterial := fun source target invocationID kind =>
    let name := fun endpoint : SchedulerEndpoint => (endpointRecipient endpoint).2
    name source ++ ">" ++ name target ++ ":" ++ invocationID ++
      match kind with
      | .request => "?"
      | .reply => "!"
      | .notification => "."
  sha256 := fun body => body

/-- A Mission that owns a running Task, each with a Tool call of `scheduler_message`. -/
def pairedSurroundings : Surroundings where
  tasks := [{ id := "tsk_1", projectID := "p", sessionID := some "ses_1", creator := .mission "m" "ses_0" }]
  sessions :=
    [{ id := "ses_0", projectID := "p", kind := .mission, parentID := none, missionID := some "m" },
     { id := "ses_1", projectID := "p", kind := .orchestrator, parentID := none, missionID := none }]
  messages :=
    [{ id := "msg_0", sessionID := "ses_0", data := .assistant none },
     { id := "msg_1", sessionID := "ses_1", data := .assistant (some "lse_1") }]
  parts := []
  toolRequests := [{ id := "prt_0", messageID := "msg_0", body := some "how far?" },
    { id := "prt_1", messageID := "msg_1", body := some "half way" }]
  ingresses := [{ id := "art_1", taskID := "tsk_1", executionEpoch := 1 }]
  receipts := []
  leases :=
    { leases := [{ id := "lse_1", target := .taskRootIngress, targetID := "art_1",
                   ownerOccurrenceID := "own_1", timeActivated := 0, expiresAt := 9 }]
      grants := [] }

def pairedDatabase : MessageDatabase where
  surroundings := pairedSurroundings
  events := [.task { id := "pev_1", type := .opened, aggregateID := "tsk_1", seq := 1, emittedAt := 0,
                     epoch := 1 } "{}"]
  inbox := []

def pairedMission : SchedulerEndpoint :=
  .mission { projectID := "p", missionID := "m", sessionID := "ses_0" }

def pairedTask : SchedulerEndpoint := .task { projectID := "p", taskID := "tsk_1", rootSessionID := "ses_1" }

def pairedRequest : EnqueueInput where
  invocationID := "call_0"
  kind := .request
  source := pairedMission
  target := pairedTask
  subject := "progress"
  sourceMessageID := some "msg_0"
  sourcePartID := some "prt_0"
  sourceTerminalEventID := none
  correlationID := none
  threadID := none
  replyTo := none

def pairedReply : EnqueueInput where
  invocationID := "call_1"
  kind := .reply
  source := pairedTask
  target := pairedMission
  subject := "progress"
  sourceMessageID := some "msg_1"
  sourcePartID := some "prt_1"
  sourceTerminalEventID := none
  correlationID := some "call_0"
  threadID := none
  replyTo := some (schedulerDeliveryIdentity plainHost pairedRequest).1

def enqueued (db : MessageDatabase) (input : EnqueueInput) (now : ℤ) : MessageDatabase :=
  ((enqueueSchedulerMessageInTransaction plainHost db input now).toOption.map Prod.snd).getD db

def askedDatabase : MessageDatabase := enqueued pairedDatabase pairedRequest 1

def answeredDatabase : MessageDatabase := enqueued askedDatabase pairedReply 2

lemma sameEpoch_of_taskEvents {taskID : String} {active : Prop}
    (hevents : later.taskEvents = before.taskEvents)
    (hactive : ((taskLifecycleProjectionInTransaction before.taskEvents taskID).toOption.any
      isTaskActive) = true) : SameEpoch before later taskID active := by
  obtain ⟨lifecycle, hlifecycle, hruns⟩ := (Option.any_eq_true _ _).mp hactive
  rw [toOption_eq_some] at hlifecycle
  exact ⟨lifecycle, lifecycle, hlifecycle, hevents ▸ hlifecycle, rfl, fun _ => hruns⟩

/-- The request may be repeated after the reply to it. -/
theorem enqueue_idempotent_iff_of_request :
    ∃ receipt, Idempotent plainHost answeredDatabase pairedRequest receipt := by
  refine ⟨{ eventID := (schedulerDeliveryIdentity plainHost pairedRequest).1
            inboxID := (schedulerDeliveryIdentity plainHost pairedRequest).2, threadID := "call_0"
            status := .pending, replayed := false }, ?_⟩
  have hfirst : enqueueSchedulerMessageInTransaction plainHost pairedDatabase pairedRequest 1 = .ok
      ({ eventID := (schedulerDeliveryIdentity plainHost pairedRequest).1
         inboxID := (schedulerDeliveryIdentity plainHost pairedRequest).2, threadID := "call_0"
         status := .pending, replayed := false }, askedDatabase) := by
    decide
  have hlater : exec (messageStep plainHost) askedDatabase [.enqueue pairedReply 2] = some answeredDatabase := by
    decide
  have hevents : answeredDatabase.taskEvents = pairedDatabase.taskEvents := by decide
  have hsame : SameOccurrences pairedDatabase answeredDatabase pairedRequest := by
    refine ⟨(fun _ hsource => nomatch hsource), ?_⟩
    rintro _ ⟨⟩
    exact sameEpoch_of_taskEvents hevents (by decide)
  refine (enqueue_idempotent_iff hfirst hlater hsame).mpr ⟨by decide, ?_, ?_, ?_⟩
  · decide
  · exact ⟨"how far?", "how far?", by decide, by decide, rfl⟩
  · exact fun _ _ hsource => nomatch hsource

/-- The reply was accepted, its Task is active in the same epoch and nothing else changed, but it may not
be repeated. -/
theorem not_idempotent_of_reply :
    ∃ receipt, enqueueSchedulerMessageInTransaction plainHost askedDatabase pairedReply 2 =
        .ok (receipt, answeredDatabase) ∧
      SameOccurrences askedDatabase answeredDatabase pairedReply ∧
      ¬Idempotent plainHost answeredDatabase pairedReply receipt := by
  refine ⟨{ eventID := (schedulerDeliveryIdentity plainHost pairedReply).1
            inboxID := (schedulerDeliveryIdentity plainHost pairedReply).2, threadID := "call_0"
            status := .pending, replayed := false }, by decide, ?_, fun hidempotent => ?_⟩
  · refine ⟨?_, (fun _ htarget => nomatch htarget)⟩
    rintro _ ⟨⟩
    exact sameEpoch_of_taskEvents (by decide) (by decide)
  · obtain ⟨_, hreplay⟩ := hidempotent.replay 3
    have hrefused : (enqueueSchedulerMessageInTransaction plainHost answeredDatabase pairedReply
        3).toOption = none := by
      decide
    rw [hreplay] at hrefused
    cases hrefused

end OpenCorvus.Protocol.SchedulerMessage
