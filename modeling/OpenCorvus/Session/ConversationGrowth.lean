import OpenCorvus.Session.ConversationWriters

/-!
# What the writers of a conversation leave alone

Every write of a conversation keeps the facts of the messages that name an activation: the message
and its activation, the data of a completed message with its requests and decision gaps, and the
outcomes.  A consumed activation stays consumed, since no write adds a request to it.
-/

namespace OpenCorvus.Session

open Engine Transaction UniqueIndex List

/-! ## Soundness of a conversation -/

structure ConversationSound (db : TaskRootDatabase) : Prop where
  messageIDs : PrimaryKey MessageRow.id db.messages
  partIDs : PrimaryKey PartRow.id db.parts
  /-- An activation has at most one message. -/
  oneMessage : ∀ row ∈ db.messages, ∀ other ∈ db.messages, ∀ activationID,
    activationID ≠ "" → row.activationID = some activationID →
      other.activationID = some activationID → row.id = other.id
  toolRequestIDs : ∀ request ∈ db.toolRequests, ∃ body, request.id = partID body
  providerRequestIDs : ∀ request ∈ db.providerRequests, ∃ body, request.id = activityID body

lemma ConversationSound.tool_ne_provider {db : TaskRootDatabase} (hsound : ConversationSound db)
    {tool : ToolPartRequestRow} {provider : ProviderActivityRequestRow}
    (htool : tool ∈ db.toolRequests) (hprovider : provider ∈ db.providerRequests) :
    tool.id ≠ provider.id := by
  obtain ⟨part, hpart⟩ := hsound.toolRequestIDs tool htool
  obtain ⟨activity, hactivity⟩ := hsound.providerRequestIDs provider hprovider
  rw [hpart, hactivity]
  exact partID_ne_activityID part activity

/-! ## Growth -/

structure ConversationGrows (db db' : TaskRootDatabase) : Prop where
  messages : ∀ row ∈ db.messages, ∀ activationID, activationID ≠ "" →
    row.activationID = some activationID → ∃ row' ∈ db'.messages, row'.id = row.id ∧
      row'.activationID = some activationID ∧ (completedAssistant row.data = true → row' = row)
  toolRequests : db.toolRequests ⊆ db'.toolRequests
  newToolRequests : ∀ request ∈ db'.toolRequests, request ∈ db.toolRequests ∨
    ∀ row ∈ db.messages, row.id = request.messageID → completedAssistant row.data = false
  toolOutcomes : ∀ id outcome, toolOutcomeOf db id = some outcome → toolOutcomeOf db' id = some outcome
  gaps : ∀ part ∈ db.parts, part.data.isDecisionGap = true → part ∈ db'.parts
  newGaps : ∀ part ∈ db'.parts, part.data.isDecisionGap = true → part ∈ db.parts ∨
    ∀ row ∈ db.messages, row.id = part.messageID → completedAssistant row.data = false
  newProviderRequests : ∀ request ∈ db'.providerRequests, request ∈ db.providerRequests ∨
    ∀ row ∈ db.messages, row.id = request.assistantMessageID → ∀ activationID,
      row.activationID = some activationID → activationConsumedInTransaction db activationID = false
  providerOutcomes : ∀ id outcome, providerOutcomeOf db id = some outcome → providerOutcomeOf db' id = some outcome

lemma ConversationGrows.of_eq {db db' : TaskRootDatabase} (hmessages : db'.messages = db.messages)
    (htoolRequests : db'.toolRequests = db.toolRequests)
    (htoolOutcomes : db'.toolOutcomes = db.toolOutcomes) (hparts : db'.parts = db.parts)
    (hproviderRequests : db'.providerRequests = db.providerRequests)
    (hproviderOutcomes : db'.providerOutcomes = db.providerOutcomes) : ConversationGrows db db' := by
  constructor
  · intro row hrow activationID hne hactivation
    exact ⟨row, hmessages ▸ hrow, rfl, hactivation, fun _ => rfl⟩
  · rw [htoolRequests]
    exact Subset.refl _
  · intro request hrequest
    exact Or.inl (htoolRequests ▸ hrequest)
  · intro id outcome houtcome
    unfold toolOutcomeOf at houtcome ⊢
    rwa [htoolOutcomes]
  · intro part hpart _
    exact hparts ▸ hpart
  · intro part hpart _
    exact Or.inl (hparts ▸ hpart)
  · intro request hrequest
    exact Or.inl (hproviderRequests ▸ hrequest)
  · intro id outcome houtcome
    unfold providerOutcomeOf at houtcome ⊢
    rwa [hproviderOutcomes]

structure SameBeyondConversation (db db' : TaskRootDatabase) : Prop where
  events : db'.events = db.events
  interactions : db'.interactions = db.interactions
  artifacts : db'.artifacts = db.artifacts
  policies : db'.policies = db.policies
  ingresses : db'.ingresses = db.ingresses
  activations : db'.activations = db.activations

structure ConversationWrite (db db' : TaskRootDatabase) : Prop where
  same : SameBeyondConversation db db'
  sound : ConversationSound db'
  grows : ConversationGrows db db'

lemma ConversationWrite.refl {db : TaskRootDatabase} (h : ConversationSound db) : ConversationWrite db db :=
  ⟨⟨rfl, rfl, rfl, rfl, rfl, rfl⟩, h, ConversationGrows.of_eq rfl rfl rfl rfl rfl rfl⟩

open ConversationWrite

/-! ## Messages -/

section Writers

variable {db db' : TaskRootDatabase}

lemma findMessage_eq_some (h : ConversationSound db) {row : MessageRow} (hrow : row ∈ db.messages) :
    db.findMessage row.id = some row :=
  h.messageIDs.find?_eq_some hrow

variable {messageID requestID : String} {msg : MessageRow} {now requestedTime : ℤ} {part : ToolPart}

lemma mem_of_findMessage {row : MessageRow} (h : db.findMessage messageID = some row) :
    row ∈ db.messages ∧ row.id = messageID := by
  unfold TaskRootDatabase.findMessage at h
  exact ⟨mem_of_find?_eq_some h, by simpa using find?_some h⟩

lemma not_mem_of_findMessage (h : db.findMessage messageID = none) : ∀ row ∈ db.messages, row.id ≠ messageID := by
  unfold TaskRootDatabase.findMessage at h
  simpa using h

def AloneInActivation (db : TaskRootDatabase) (msg : MessageRow) : Prop :=
  ∀ activationID, activationID ≠ "" → msg.activationID = some activationID →
    ∀ peer ∈ db.messages, peer.activationID = some activationID → peer.id = msg.id

lemma aloneInActivation_of_fence {settlement : Bool} {u : Unit}
    (h : assertMessageFence db msg now settlement = .ok u) : AloneInActivation db msg := by
  intro activationID hne hactivation
  unfold assertMessageFence at h
  unfold MessageRow.activationID at hactivation
  cases hdata : msg.data with
  | user =>
    rw [hdata] at hactivation
    cases hactivation
  | assistant message =>
    rw [hdata] at h hactivation
    have hnamed : message.identity.activationID = some activationID := hactivation
    have hfilter : message.identity.activationID.filter (· ≠ "") = some activationID := by
      rw [hnamed]
      simp [hne]
    simp only [hfilter] at h
    rcases assertTaskRootAssistantActivationFence_eq_ok h with hnone | ⟨named, hsome, -, -, halone⟩
    · cases hnone
    · cases hsome
      exact halone

lemma upsertMessageRow_eq_ok (h : upsertMessageRow db msg now = .ok db') : db' = db ∨
      (db.findMessage msg.id = none ∧ AloneInActivation db msg ∧
        ∃ timeCreated, db' = { db with messages := db.messages ++
          [{ msg with timeCreated := timeCreated }] }) ∨
      ∃ existing, db.findMessage msg.id = some existing ∧
        completedAssistant existing.data = false ∧ AloneInActivation db msg ∧
        (∀ activationID, existing.activationID = some activationID → msg.activationID = some activationID) ∧
        db' = { db with messages := db.messages.map fun row =>
          if row.id = msg.id then { row with data := msg.data } else row } := by
  unfold upsertMessageRow at h
  replace h := of_check h
  extract_lets persistedMessage at h
  have halone : ∀ {settlement : Bool} {u : Unit},
      assertMessageFence db persistedMessage now settlement = .ok u → AloneInActivation db msg :=
    fun hfence => aloneInActivation_of_fence hfence
  cases hexisting : db.findMessage msg.id with
  | none =>
    simp only [hexisting] at h
    obtain ⟨hfence, hstore⟩ := check_bind_eq_ok.mp h
    have hfound : db.findMessage persistedMessage.id = none := hexisting
    unfold storeMessage at hstore
    rw [hfound] at hstore
    exact Or.inr (Or.inl ⟨rfl, halone hfence, _, (Except.ok.inj hstore).symm⟩)
  | some existing =>
    simp only [hexisting] at h
    split_ifs at h with hcompleted
    · replace h := of_throwWhen h
      exact Or.inl (pure_eq_ok.mp h).symm
    · obtain ⟨settlement, -, h⟩ := bind_eq_ok.mp h
      obtain ⟨hfence, hstore⟩ := check_bind_eq_ok.mp h
      have hfound : db.findMessage persistedMessage.id = some existing := hexisting
      unfold storeMessage at hstore
      rw [hfound] at hstore
      obtain ⟨hidentity, hstore⟩ := throwWhen_bind_eq_ok.mp hstore
      replace hstore := of_throwWhen hstore
      refine Or.inr (Or.inr ⟨existing, rfl, by simpa using hcompleted, halone hfence, ?_,
        (pure_eq_ok.mp hstore).symm⟩)
      -- The update trigger keeps the activation of an assistant message that names one.
      intro activationID hactivation
      unfold MessageRow.activationID at hactivation ⊢
      cases hdata : existing.data with
      | user =>
        rw [hdata] at hactivation
        cases hactivation
      | assistant message =>
        have hsame : triggerIdentity existing.data = triggerIdentity msg.data := by
          by_contra hdiffers
          refine hidentity ⟨by simp [triggerIdentity, hdata, MessageData.assistant?], Or.inl ?_,
            hdiffers⟩
          unfold MessageRow.activationID
          rw [hactivation]
          rfl
        rw [hdata] at hactivation hsame
        cases hnext : msg.data with
        | user =>
          rw [hnext] at hsame
          cases hsame
        | assistant next =>
          rw [hnext] at hsame
          have hidentities : message.identity.activationID = next.identity.activationID := by
            simp only [triggerIdentity, MessageData.assistant?, Option.map_some,
              Option.some.injEq, AssistantIdentity.mk.injEq] at hsame
            exact hsame.2.2.2.1
          change next.identity.activationID = some activationID
          rw [← hidentities]
          exact hactivation

theorem conversationWrite_of_upsertMessageRow (hsound : ConversationSound db)
    (h : upsertMessageRow db msg now = .ok db') : ConversationWrite db db' := by
  rcases upsertMessageRow_eq_ok h with rfl | ⟨hnone, halone, timeCreated, rfl⟩ |
    ⟨existing, hexisting, hincomplete, halone, hkeeps, rfl⟩
  · exact refl hsound
  · have hfresh := not_mem_of_findMessage hnone
    refine ⟨⟨rfl, rfl, rfl, rfl, rfl, rfl⟩, { hsound with messageIDs := ?_, oneMessage := ?_ }, ?_⟩
    · exact hsound.messageIDs.concat hfresh
    · intro row hrow other hother activationID hne hrowActivation hotherActivation
      rcases mem_append.mp hrow with hrow | hrow <;>
        rcases mem_append.mp hother with hother | hother
      · exact hsound.oneMessage row hrow other hother activationID hne hrowActivation hotherActivation
      · rw [mem_singleton.mp hother] at hotherActivation ⊢
        exact halone activationID hne hotherActivation row hrow hrowActivation
      · rw [mem_singleton.mp hrow] at hrowActivation ⊢
        exact (halone activationID hne hrowActivation other hother hotherActivation).symm
      · rw [mem_singleton.mp hrow, mem_singleton.mp hother]
    · refine { (refl hsound).grows with messages := ?_ }
      intro row hrow activationID hne hactivation
      exact ⟨row, mem_append_left _ hrow, rfl, hactivation, fun _ => rfl⟩
  · obtain ⟨hmem, hid⟩ := mem_of_findMessage hexisting
    have hstored : ∀ row ∈ db.messages, row.id = msg.id → row = existing :=
      fun row hrow hrowID => hsound.messageIDs.eq_of_id hrow hmem (hrowID.trans hid.symm)
    have hupdate : ∀ row : MessageRow,
        (if row.id = msg.id then { row with data := msg.data } else row).id = row.id := by
      intro row
      split_ifs <;> rfl
    have hactivation : ∀ row : MessageRow, row.id = msg.id →
        ({ row with data := msg.data } : MessageRow).activationID = msg.activationID :=
      fun _ _ => rfl
    refine ⟨⟨rfl, rfl, rfl, rfl, rfl, rfl⟩, { hsound with messageIDs := ?_, oneMessage := ?_ }, ?_⟩
    · exact hsound.messageIDs.map hupdate
    · intro row hrow other hother activationID hne hrowActivation hotherActivation
      obtain ⟨row, hrowOld, rfl⟩ := List.mem_map.mp hrow
      obtain ⟨other, hotherOld, rfl⟩ := List.mem_map.mp hother
      rw [hupdate, hupdate]
      by_cases hrowID : row.id = msg.id <;> by_cases hotherID : other.id = msg.id
      · exact hrowID.trans hotherID.symm
      · rw [if_pos hrowID] at hrowActivation
        rw [if_neg hotherID] at hotherActivation
        exact absurd (halone activationID hne hrowActivation other hotherOld hotherActivation) hotherID
      · rw [if_neg hrowID] at hrowActivation
        rw [if_pos hotherID] at hotherActivation
        exact absurd (halone activationID hne hotherActivation row hrowOld hrowActivation) hrowID
      · rw [if_neg hrowID] at hrowActivation
        rw [if_neg hotherID] at hotherActivation
        exact hsound.oneMessage row hrowOld other hotherOld activationID hne hrowActivation hotherActivation
    · refine { (refl hsound).grows with messages := ?_ }
      intro row hrow activationID hne hrowActivation
      refine ⟨_, List.mem_map_of_mem hrow, hupdate row, ?_, ?_⟩
      · split_ifs with hrowID
        · have := hstored row hrow hrowID
          subst this
          exact hkeeps activationID hrowActivation
        · exact hrowActivation
      · intro hcompleted
        split_ifs with hrowID
        · rw [hstored row hrow hrowID, hincomplete] at hcompleted
          cases hcompleted
        · rfl

/-! ## Parts -/

lemma assertPartMessage_eq_ok (hsound : ConversationSound db) {id sessionID : String} {message : MessageRow}
    (h : assertPartMessage db id messageID sessionID = .ok message) :
    db.findMessage messageID = some message ∧
      ∀ row ∈ db.messages, row.id = messageID → row = message := by
  unfold assertPartMessage at h
  replace h := of_check h
  obtain ⟨found, hfound, h⟩ := bind_eq_ok.mp h
  replace h := of_throwWhen h
  replace h := of_throwWhen h
  cases pure_eq_ok.mp h
  rw [getOrThrow_eq_ok] at hfound
  have hmem := mem_of_find?_eq_some hfound
  have hid : message.id = messageID := by
    have := find?_some hfound
    simp only [Bool.decide_and, Bool.and_eq_true, decide_eq_true_eq] at this
    exact this.1
  refine ⟨hid ▸ findMessage_eq_some hsound hmem, fun row hrow hrowID => ?_⟩
  exact hsound.messageIDs.eq_of_id hrow hmem (hrowID.trans hid.symm)

lemma storeToolRequest_eq_ok {time : ℤ} (h : storeToolRequest db part time = .ok db') :
    db' = db ∨ (findToolRequest db part.id = none ∧ ∃ request : ToolPartRequestRow,
      request.id = part.id ∧ request.messageID = part.messageID ∧
        db' = { db with toolRequests := db.toolRequests ++ [request] }) := by
  unfold storeToolRequest at h
  split at h
  · rename_i hnone
    replace h := of_check h
    replace h := of_throwWhen h
    exact Or.inr ⟨hnone, _, rfl, rfl, (pure_eq_ok.mp h).symm⟩
  · replace h := of_throwWhen h
    exact Or.inl (pure_eq_ok.mp h).symm

lemma storeToolOutcome_eq_ok [TaskRootIdentity] {outcome : Bool × String}
    (h : storeToolOutcome db requestID outcome = .ok db') :
    ∃ outcomes, db' = { db with toolOutcomes := db.toolOutcomes ++ outcomes } := by
  unfold storeToolOutcome at h
  extract_lets row at h
  split at h
  · replace h := of_throwWhen h
    exact ⟨[], by simpa using (pure_eq_ok.mp h).symm⟩
  · replace h := of_throwWhen h
    exact ⟨[row], (pure_eq_ok.mp h).symm⟩

lemma updateToolPart_eq_ok [TaskRootIdentity] (hsound : ConversationSound db)
    (h : updateToolPart db part requestedTime = .ok db') :
    ∃ requests outcomes, db' = { db with
        toolRequests := db.toolRequests ++ requests, toolOutcomes := db.toolOutcomes ++ outcomes } ∧
      ∀ request ∈ requests, request.id = part.id ∧
        ∀ row ∈ db.messages, row.id = request.messageID → completedAssistant row.data = false := by
  unfold updateToolPart at h
  obtain ⟨message, hmessage, h⟩ := bind_eq_ok.mp h
  obtain ⟨-, hstored⟩ := assertPartMessage_eq_ok hsound hmessage
  split_ifs at h with hpending
  · cases pure_eq_ok.mp h
    exact ⟨[], [], by simp, by simp⟩
  obtain ⟨hincomplete, h⟩ := throwWhen_bind_eq_ok.mp h
  replace h := of_throwWhen h
  obtain ⟨requested, hrequested, h⟩ := bind_eq_ok.mp h
  have houtcomes : ∃ outcomes, db' = { requested with toolOutcomes := requested.toolOutcomes ++ outcomes } := by
    split at h
    · exact ⟨[], by simpa using (pure_eq_ok.mp h).symm⟩
    · exact storeToolOutcome_eq_ok h
  obtain ⟨outcomes, rfl⟩ := houtcomes
  rcases storeToolRequest_eq_ok hrequested with rfl | ⟨hnone, request, hid, hmessageID, rfl⟩
  · exact ⟨[], outcomes, by simp, by simp⟩
  · refine ⟨[request], outcomes, rfl, fun new hnew => ?_⟩
    rw [mem_singleton.mp hnew]
    refine ⟨hid, fun row hrow hrowID => ?_⟩
    rw [hstored row hrow (hrowID.trans hmessageID)]
    by_contra hcompleted
    rw [Bool.not_eq_false] at hcompleted
    exact hincomplete ⟨by rw [hnone]; rfl, hcompleted⟩

theorem conversationWrite_of_updateToolPart [TaskRootIdentity] (hsound : ConversationSound db)
    (hid : ∃ body, part.id = partID body) (h : updateToolPart db part requestedTime = .ok db') :
    ConversationWrite db db' := by
  obtain ⟨requests, outcomes, rfl, hnew⟩ := updateToolPart_eq_ok hsound h
  refine ⟨⟨rfl, rfl, rfl, rfl, rfl, rfl⟩, { hsound with toolRequestIDs := ?_ }, ?_⟩
  · intro request hrequest
    rcases mem_append.mp hrequest with hold | hnewRequest
    · exact hsound.toolRequestIDs request hold
    · rw [(hnew request hnewRequest).1]
      exact hid
  · refine { (refl hsound).grows with
      toolRequests := subset_append_left _ _, newToolRequests := ?_, toolOutcomes := ?_ }
    · intro request hrequest
      rcases mem_append.mp hrequest with hold | hnewRequest
      · exact Or.inl hold
      · exact Or.inr (hnew request hnewRequest).2
    · intro id outcome houtcome
      unfold toolOutcomeOf at houtcome ⊢
      rw [find?_append, houtcome]
      rfl

lemma not_mem_of_findPart {id : String} (h : findPart db id = none) : ∀ row ∈ db.parts, row.id ≠ id := by
  unfold findPart at h
  simpa using h

lemma isDecisionGap_of_streams {current data : PartData} (h : PartData.streams current data = true) :
    current.isDecisionGap = false ∧ data.isDecisionGap = false := by
  simp only [PartData.streams, Bool.decide_and, Bool.decide_or, Bool.and_eq_true, Bool.or_eq_true,
    decide_eq_true_eq] at h
  have hcurrent : current.type ≠ "step-finish" := by
    rcases h.1 with htype | htype <;> rw [htype] <;> decide
  have hdata : data.type ≠ "step-finish" := h.2 ▸ hcurrent
  exact ⟨by simp [PartData.isDecisionGap, hcurrent], by simp [PartData.isDecisionGap, hdata]⟩

lemma updateContentPart_eq_ok (hsound : ConversationSound db) {part : ContentPart} {checkpoint : Bool}
    (h : updateContentPart db part requestedTime checkpoint = .ok db') :
    db' = db ∨ (∃ row : PartRow, (∀ other ∈ db.parts, other.id ≠ row.id) ∧
        (row.data.isDecisionGap = true → ∀ message ∈ db.messages, message.id = row.messageID →
          completedAssistant message.data = false) ∧
        db' = { db with parts := db.parts ++ [row] }) ∨
      ∃ existing, findPart db part.id = some existing ∧
        PartData.streams existing.data part.data = true ∧
        db' = { db with parts := db.parts.map fun row =>
          if row.id = part.id then { row with data := part.data } else row } := by
  unfold updateContentPart at h
  obtain ⟨message, hmessage, h⟩ := bind_eq_ok.mp h
  obtain ⟨-, hstored⟩ := assertPartMessage_eq_ok hsound hmessage
  extract_lets time at h
  replace h := of_throwWhen h
  replace h := of_check h
  split_ifs at h with hsame
  · exact Or.inl (pure_eq_ok.mp h).symm
  obtain ⟨hcompleted, h⟩ := throwWhen_bind_eq_ok.mp h
  obtain ⟨hstreams, h⟩ := throwWhen_bind_eq_ok.mp h
  replace h := of_check h
  have hdb := pure_eq_ok.mp h
  unfold storePart at hdb
  split at hdb
  · rename_i hnone
    refine Or.inr (Or.inl ⟨_, not_mem_of_findPart hnone, ?_, hdb.symm⟩)
    intro hgap other hother hotherID
    rw [hstored other hother hotherID]
    by_contra hcomplete
    rw [Bool.not_eq_false] at hcomplete
    have hcompaction : part.data.type = "compaction" := by
      by_contra hne
      exact hcompleted ⟨hcomplete, fun hcheckpoint => hne hcheckpoint.2.1⟩
    have hfinish : part.data.type = "step-finish" := by
      have : part.data.isDecisionGap = true := hgap
      simp only [PartData.isDecisionGap, Bool.decide_and, Bool.and_eq_true, decide_eq_true_eq] at this
      exact this.1
    rw [hcompaction] at hfinish
    revert hfinish
    decide
  · rename_i existing hexisting
    refine Or.inr (Or.inr ⟨existing, hexisting, ?_, hdb.symm⟩)
    have hpart : findPart db part.id = some existing := hexisting
    rw [hpart] at hstreams
    simpa using hstreams

theorem conversationWrite_of_updateContentPart (hsound : ConversationSound db) {part : ContentPart}
    {checkpoint : Bool} (h : updateContentPart db part requestedTime checkpoint = .ok db') :
    ConversationWrite db db' := by
  rcases updateContentPart_eq_ok hsound h with rfl | ⟨row, hfresh, hincomplete, rfl⟩ |
    ⟨existing, hexisting, hstreams, rfl⟩
  · exact refl hsound
  · refine ⟨⟨rfl, rfl, rfl, rfl, rfl, rfl⟩,
      { hsound with partIDs := hsound.partIDs.concat hfresh }, ?_⟩
    refine { (refl hsound).grows with gaps := ?_, newGaps := ?_ }
    · exact fun part hpart _ => mem_append_left _ hpart
    · intro part hpart hgap
      rcases mem_concat.mp hpart with hold | hnew
      · exact Or.inl hold
      · rw [hnew] at hgap ⊢
        exact Or.inr (hincomplete hgap)
  · unfold findPart at hexisting
    have hmem := mem_of_find?_eq_some hexisting
    have hid : existing.id = part.id := by simpa using find?_some hexisting
    obtain ⟨hcurrent, hnext⟩ := isDecisionGap_of_streams hstreams
    have hstored : ∀ row ∈ db.parts, row.id = part.id → row = existing :=
      fun row hrow hrowID => hsound.partIDs.eq_of_id hrow hmem (hrowID.trans hid.symm)
    have hupdate : ∀ row : PartRow,
        (if row.id = part.id then { row with data := part.data } else row).id = row.id := by
      intro row
      split_ifs <;> rfl
    refine ⟨⟨rfl, rfl, rfl, rfl, rfl, rfl⟩,
      { hsound with partIDs := hsound.partIDs.map hupdate }, ?_⟩
    refine { (refl hsound).grows with gaps := ?_, newGaps := ?_ }
    · intro row hrow hgap
      refine List.mem_map.mpr ⟨row, hrow, if_neg fun hrowID => ?_⟩
      rw [hstored row hrow hrowID, hcurrent] at hgap
      cases hgap
    · intro row hrow hgap
      obtain ⟨old, hold, rfl⟩ := List.mem_map.mp hrow
      split_ifs at hgap ⊢ with holdID
      · have : part.data.isDecisionGap = true := hgap
        rw [hnext] at this
        cases this
      · exact Or.inl hold

/-! ## Provider calls -/

lemma recordProviderActivityEvent_eq_ok [TaskRootIdentity] (hsound : ConversationSound db)
    {assistantMessageID : String} {event : LLMActivityEvent} {ts : ℤ}
    (h : recordProviderActivityEvent db assistantMessageID event ts = .ok db') :
    db' = db ∨ (∃ id sessionID, event = .started id sessionID ∧
        (∀ row ∈ db.messages, row.id = assistantMessageID → ∀ activationID, row.activationID = some activationID →
            activationConsumedInTransaction db activationID = false) ∧
        db' = { db with providerRequests := db.providerRequests ++ [⟨id, assistantMessageID⟩] }) ∨
      ∃ row, db' = { db with providerOutcomes := db.providerOutcomes ++ [row] } := by
  cases event with
  | started id sessionID =>
    unfold recordProviderActivityEvent at h
    obtain ⟨hfence, h⟩ := check_bind_eq_ok.mp h
    replace h := of_throwWhen h
    split at h
    · replace h := of_throwWhen h
      exact Or.inl (pure_eq_ok.mp h).symm
    · refine Or.inr (Or.inl ⟨id, sessionID, rfl, ?_, (pure_eq_ok.mp h).symm⟩)
      intro row hrow hrowID activationID hactivation
      have hnamed : namedActivation db assistantMessageID none = some activationID := by
        unfold namedActivation
        rw [← hrowID, findMessage_eq_some hsound hrow]
        exact hactivation
      rcases assertTaskRootAssistantActivationFence_eq_ok hfence with
        hnone | ⟨named, hsome, -, ⟨strict, lease, ingress, lifecycle, policy, hpasses, -⟩, -⟩
      · rw [hnamed] at hnone
        cases hnone
      · rw [hnamed] at hsome
        cases hsome
        exact hpasses.notConsumed
  | terminal =>
    unfold recordProviderActivityEvent at h
    replace h := of_throwWhen h
    extract_lets row at h
    split at h
    · replace h := of_throwWhen h
      exact Or.inl (pure_eq_ok.mp h).symm
    · replace h := of_throwWhen h
      exact Or.inr (Or.inr ⟨row, (pure_eq_ok.mp h).symm⟩)

def LLMActivityEvent.HasActivityID : LLMActivityEvent → Prop
  | .started id _ => ∃ body, id = activityID body
  | .terminal _ _ _ _ => True

theorem conversationWrite_of_recordProviderActivityEvent [TaskRootIdentity]
    (hsound : ConversationSound db) {assistantMessageID : String} {event : LLMActivityEvent} {ts : ℤ}
    (hid : event.HasActivityID)
    (h : recordProviderActivityEvent db assistantMessageID event ts = .ok db') :
    ConversationWrite db db' := by
  rcases recordProviderActivityEvent_eq_ok hsound h with rfl |
    ⟨id, sessionID, rfl, hunconsumed, rfl⟩ | ⟨row, rfl⟩
  · exact refl hsound
  · refine ⟨⟨rfl, rfl, rfl, rfl, rfl, rfl⟩, { hsound with providerRequestIDs := ?_ }, ?_⟩
    · intro request hrequest
      rcases mem_concat.mp hrequest with hold | hnew
      · exact hsound.providerRequestIDs request hold
      · rw [hnew]
        exact hid
    · refine { (refl hsound).grows with newProviderRequests := ?_ }
      intro request hrequest
      rcases mem_concat.mp hrequest with hold | hnew
      · exact Or.inl hold
      · rw [hnew]
        exact Or.inr hunconsumed
  · refine ⟨⟨rfl, rfl, rfl, rfl, rfl, rfl⟩, { hsound with }, ?_⟩
    refine { (refl hsound).grows with providerOutcomes := ?_ }
    intro id outcome houtcome
    unfold providerOutcomeOf at houtcome ⊢
    rw [find?_append, houtcome]
    rfl

/-! ## Consumed activations -/

lemma toolOutcomes_any : (db.toolOutcomes.any fun outcome => outcome.requestPartID = requestID) = true ↔
      ∃ outcome, toolOutcomeOf db requestID = some outcome := by
  unfold toolOutcomeOf
  rw [← Option.isSome_iff_exists, find?_isSome]
  simp

lemma providerOutcomes_any : (db.providerOutcomes.any fun outcome => outcome.requestID = requestID) = true ↔
      ∃ outcome, providerOutcomeOf db requestID = some outcome := by
  unfold providerOutcomeOf
  rw [← Option.isSome_iff_exists, find?_isSome]
  simp

structure EndsActivation (db : TaskRootDatabase) (activationID : String) (row : MessageRow)
    (message : AssistantMessage) : Prop where
  mem : row ∈ db.messages
  data : row.data = .assistant message
  activation : message.identity.activationID = some activationID
  completed : ∃ timeCompleted ∈ message.timeCompleted, timeCompleted ≠ 0
  tools : ∀ request ∈ db.toolRequests, request.messageID = row.id →
    ∃ outcome, toolOutcomeOf db request.id = some outcome
  providers : ∀ request ∈ db.providerRequests, request.assistantMessageID = row.id →
    ∃ outcome, providerOutcomeOf db request.id = some outcome
  ended : message.hasError = true ∨ ¬message.finish.any includesTool = true

lemma activationConsumedInTransaction_iff {activationID : String} :
    activationConsumedInTransaction db activationID = true ↔
      ∃ row message, EndsActivation db activationID row message := by
  unfold activationConsumedInTransaction
  rw [List.any_eq_true]
  constructor
  · rintro ⟨row, hrow, hconsumes⟩
    obtain ⟨hmem, hactivation⟩ := mem_filter.mp hrow
    have hactivation := of_decide_eq_true hactivation
    unfold messageConsumesActivation at hconsumes
    unfold MessageRow.activationID at hactivation
    cases hdata : row.data with
    | user => simp [hdata] at hconsumes
    | assistant message =>
      rw [hdata] at hconsumes hactivation
      simp only [Bool.decide_and, Bool.and_eq_true, decide_eq_true_eq] at hconsumes
      obtain ⟨hcompleted, htools, hproviders, hended⟩ := hconsumes
      refine ⟨row, message, hmem, hdata, hactivation, ?_, ?_, ?_, hended⟩
      · simpa [Option.any_eq_true] using hcompleted
      · intro request hrequest hmessage
        rw [← toolOutcomes_any]
        by_contra hnone
        exact htools (List.any_eq_true.mpr ⟨request,
          mem_filter.mpr ⟨hrequest, decide_eq_true hmessage⟩, decide_eq_true hnone⟩)
      · intro request hrequest hmessage
        rw [← providerOutcomes_any]
        by_contra hnone
        exact hproviders (List.any_eq_true.mpr ⟨request,
          mem_filter.mpr ⟨hrequest, decide_eq_true hmessage⟩, decide_eq_true hnone⟩)
  · rintro ⟨row, message, h⟩
    refine ⟨row, mem_filter.mpr ⟨h.mem, ?_⟩, ?_⟩
    · unfold MessageRow.activationID
      rw [h.data]
      exact decide_eq_true h.activation
    · unfold messageConsumesActivation
      rw [h.data]
      simp only [Bool.decide_and, Bool.and_eq_true, decide_eq_true_eq]
      refine ⟨?_, ?_, ?_, h.ended⟩
      · simpa [Option.any_eq_true] using h.completed
      · intro hany
        obtain ⟨request, hrequest, hnone⟩ := List.any_eq_true.mp hany
        obtain ⟨hmem, hmessage⟩ := mem_filter.mp hrequest
        exact of_decide_eq_true hnone (toolOutcomes_any.mpr (h.tools request hmem (of_decide_eq_true hmessage)))
      · intro hany
        obtain ⟨request, hrequest, hnone⟩ := List.any_eq_true.mp hany
        obtain ⟨hmem, hmessage⟩ := mem_filter.mp hrequest
        exact of_decide_eq_true hnone
          (providerOutcomes_any.mpr (h.providers request hmem (of_decide_eq_true hmessage)))

theorem ConversationGrows.activationConsumed (h : ConversationGrows db db') {activationID : String}
    (hne : activationID ≠ "") (hconsumed : activationConsumedInTransaction db activationID = true) :
    activationConsumedInTransaction db' activationID = true := by
  rw [activationConsumedInTransaction_iff] at hconsumed ⊢
  obtain ⟨row, message, hends⟩ := hconsumed
  have hactivation : row.activationID = some activationID := by
    unfold MessageRow.activationID
    rw [hends.data]
    exact hends.activation
  have hcompleted : completedAssistant row.data = true := by
    obtain ⟨timeCompleted, hmem, -⟩ := hends.completed
    unfold completedAssistant
    rw [hends.data]
    change message.timeCompleted.isSome = true
    rw [Option.mem_def.mp hmem]
    rfl
  obtain ⟨row', hrow', -, -, hkept⟩ := h.messages row hends.mem activationID hne hactivation
  rw [hkept hcompleted] at hrow'
  refine ⟨row, message, hrow', hends.data, hends.activation, hends.completed, ?_, ?_, hends.ended⟩
  · intro request hrequest hmessage
    rcases h.newToolRequests request hrequest with hold | hincomplete
    · obtain ⟨outcome, houtcome⟩ := hends.tools request hold hmessage
      exact ⟨outcome, h.toolOutcomes _ _ houtcome⟩
    · rw [hincomplete row hends.mem hmessage.symm] at hcompleted
      cases hcompleted
  · intro request hrequest hmessage
    rcases h.newProviderRequests request hrequest with hold | hunconsumed
    · obtain ⟨outcome, houtcome⟩ := hends.providers request hold hmessage
      exact ⟨outcome, h.providerOutcomes _ _ houtcome⟩
    · have hfalse := hunconsumed row hends.mem hmessage.symm activationID hactivation
      rw [activationConsumedInTransaction_iff.mpr ⟨row, message, hends⟩] at hfalse
      cases hfalse

end Writers

end OpenCorvus.Session
