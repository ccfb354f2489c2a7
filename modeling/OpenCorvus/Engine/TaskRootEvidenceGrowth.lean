import OpenCorvus.Engine.TaskRootIngressHeadOfLine
import OpenCorvus.Session.ConversationGrowth

/-!
# The evidence of an ingress grows

What the reduction of an ingress reads from its conversation only grows with the conversation: a
decision of a completed turn stays one, semantic attempts are not taken back, and an activation that
is consumed for the reduction is the one that is consumed for the fence.
-/

namespace OpenCorvus.Engine

open EcmaScript UniqueIndex Session List Option

section Reading

variable {db : TaskRootDatabase} {ingress : TaskRootIngressRow}

def conversationFacts (db : TaskRootDatabase) (ingress : TaskRootIngressRow)
    (policy : TaskRootIngressPolicyRow) (lifecycle : List TaskLifecycleFact) :
    TaskRootIngressFacts :=
  assembleFacts db ingress policy none (collectEvidence db ingress) lifecycle

structure SpeaksFor (db : TaskRootDatabase) (ingressID activationID : String) (row : MessageRow)
    (message : AssistantMessage) : Prop where
  mem : row ∈ db.messages
  data : row.data = .assistant message
  activation : message.identity.activationID = some activationID
  nonempty : activationID ≠ ""
  leased : activationID ∈ activationIDs db ingressID

lemma SpeaksFor.activationID {ingressID activationID : String} {row : MessageRow}
    {message : AssistantMessage} (h : SpeaksFor db ingressID activationID row message) :
    row.activationID = some activationID := by
  unfold MessageRow.activationID
  rw [h.data]
  exact h.activation

lemma mem_activationMessages {ingressID : String} {row : MessageRow} :
    row ∈ activationMessages db ingressID ↔ row ∈ db.messages ∧
      ∃ activationID ∈ activationIDs db ingressID, row.activationID = some activationID := by
  unfold activationMessages
  rw [mem_toSorted, mem_filter, Option.any_eq_true]
  simp only [decide_eq_true_eq]
  refine and_congr_right fun _ => ?_
  constructor
  · rintro ⟨activationID, hactivation, hleased⟩
    exact ⟨activationID, hleased, hactivation⟩
  · rintro ⟨activationID, hleased, hactivation⟩
    exact ⟨activationID, hactivation, hleased⟩

lemma mem_activationAssistants {ingressID activationID : String} {row : MessageRow}
    {message : AssistantMessage} :
    (activationID, row, message) ∈ activationAssistants db ingressID ↔
      SpeaksFor db ingressID activationID row message := by
  unfold activationAssistants
  rw [mem_filterMap]
  constructor
  · rintro ⟨_, hfound, hsome⟩
    obtain ⟨hmem, named, hleased, hnamed⟩ := mem_activationMessages.mp hfound
    obtain ⟨assistant, hassistant, hsome⟩ := bind_eq_some_iff.mp hsome
    obtain ⟨_, hkept, heq⟩ := map_eq_some_iff.mp hsome
    cases heq
    obtain ⟨hactivation, hne⟩ := filter_eq_some_iff.mp hkept
    unfold MessageRow.activationID at hnamed
    cases hdata : row.data with
    | user =>
      rw [hdata] at hassistant
      cases hassistant
    | assistant =>
      rw [hdata] at hassistant hnamed
      cases hassistant
      have hother : message.identity.activationID = some named := hnamed
      have hsame : named = activationID := some.inj (hother.symm.trans hactivation)
      exact ⟨hmem, hdata, hactivation, by simpa using hne, hsame ▸ hleased⟩
  · intro h
    refine ⟨row, mem_activationMessages.mpr ⟨h.mem, activationID, h.leased, h.activationID⟩, ?_⟩
    rw [h.data]
    have hfilter : message.identity.activationID.filter (· ≠ "") = some activationID := by
      rw [h.activation]
      simp [h.nonempty]
    change (message.identity.activationID.filter (· ≠ "")).map _ = _
    rw [hfilter]
    rfl

lemma turnOf_eq_some {activationID messageID : String} {message : AssistantMessage}
    {turn : AssistantTurnFact} :
    turnOf db activationID messageID message = some turn ↔
      ∃ timeCompleted, message.timeCompleted = some timeCompleted ∧ timeCompleted ≠ 0 ∧
        turn = { id := messageID, activationID := activationID,
                 predecessorID := predecessorOf db message.identity.parentID,
                 timeCompleted := timeCompleted, boundary := boundaryOf db messageID message } := by
  unfold turnOf
  rw [map_eq_some_iff]
  constructor
  · rintro ⟨timeCompleted, hcompleted, rfl⟩
    obtain ⟨hsome, hne⟩ := filter_eq_some_iff.mp hcompleted
    exact ⟨timeCompleted, hsome, by simpa using hne, rfl⟩
  · rintro ⟨timeCompleted, hsome, hne, rfl⟩
    exact ⟨timeCompleted, filter_eq_some_iff.mpr ⟨hsome, by simpa using hne⟩, rfl⟩

lemma mem_turns {turn : AssistantTurnFact} :
    turn ∈ (collectEvidence db ingress).turns ↔ ∃ activationID row message,
      SpeaksFor db ingress.id activationID row message ∧
        turnOf db activationID row.id message = some turn := by
  unfold collectEvidence
  simp only [mem_filterMap, Prod.exists, mem_activationAssistants]

lemma mem_toolRequestsOf {messageID : String} {request : ToolPartRequestRow} :
    request ∈ toolRequestsOf db messageID ↔
      request ∈ db.toolRequests ∧ request.messageID = messageID := by
  simp [toolRequestsOf]

lemma mem_decisions {decision : DecisionFact} :
    decision ∈ (collectEvidence db ingress).decisions ↔ ∃ activationID row message,
      SpeaksFor db ingress.id activationID row message ∧ ∃ request ∈ db.toolRequests,
        request.messageID = row.id ∧ decided db request = true ∧
          decision = { id := request.id, assistantMessageID := row.id, command := request.tool } := by
  unfold collectEvidence decisionsOf
  simp only [mem_flatMap, Prod.exists, mem_activationAssistants, List.mem_map, mem_filter,
    mem_toolRequestsOf, and_assoc, @eq_comm _ decision]

lemma mem_decisionGaps {gap : DecisionGapFact} :
    gap ∈ (collectEvidence db ingress).decisionGaps ↔ ∃ activationID row message,
      SpeaksFor db ingress.id activationID row message ∧ ∃ part ∈ db.parts,
        part.messageID = row.id ∧ part.data.isDecisionGap = true ∧
          gap = { id := part.id, activationID := activationID, assistantMessageID := row.id } := by
  unfold collectEvidence decisionGapsOf
  simp only [mem_flatMap, Prod.exists, mem_activationAssistants, List.mem_map, mem_filter,
    mem_toSorted, decide_eq_true_eq, and_assoc, @eq_comm _ gap]

lemma interactions_eq_nil (h : db.interactions = []) : (collectEvidence db ingress).interactions = [] := by
  unfold collectEvidence interactionFacts
  simp [h]

lemma map_filterMap_sublist {β γ δ : Type*} {select : β → Option γ} {origin : γ → δ} {key : β → δ}
    (h : ∀ x y, select x = some y → origin y = key x) (values : List β) :
    ((values.filterMap select).map origin).Sublist (values.map key) := by
  induction values with
  | nil => exact Sublist.refl _
  | cons x _ ih =>
    cases hx : select x with
    | none =>
      rw [filterMap_cons_none hx, map_cons]
      exact ih.cons _
    | some y =>
      rw [filterMap_cons_some hx, map_cons, map_cons, h x y hx]
      exact ih.cons_cons _

lemma nodup_assistantIDs (hsound : ConversationSound db) (ingressID : String) :
    ((activationAssistants db ingressID).map (·.2.1.id)).Nodup := by
  have hmessages : ((activationMessages db ingressID).map MessageRow.id).Nodup := by
    unfold activationMessages
    refine (((toSorted_perm _ _).map _).nodup_iff).mpr ?_
    exact Nodup.sublist (filter_sublist.map _) hsound.messageIDs
  refine Nodup.sublist (map_filterMap_sublist ?_ _) hmessages
  intro row assistant hselect
  obtain ⟨_, -, hselect⟩ := bind_eq_some_iff.mp hselect
  obtain ⟨_, -, rfl⟩ := map_eq_some_iff.mp hselect
  rfl

lemma nodup_turnIDs (hsound : ConversationSound db) : ((collectEvidence db ingress).turns.map (·.id)).Nodup := by
  refine Nodup.sublist (map_filterMap_sublist ?_ _) (nodup_assistantIDs hsound ingress.id)
  rintro ⟨_, _, _⟩ _ hturn
  obtain ⟨_, -, -, rfl⟩ := turnOf_eq_some.mp hturn
  rfl

lemma nodup_decisionGaps (hsound : ConversationSound db) : (collectEvidence db ingress).decisionGaps.Nodup := by
  change ((activationAssistants db ingress.id).flatMap fun assistant =>
    decisionGapsOf db assistant.1 assistant.2.1.id).Nodup
  rw [nodup_flatMap]
  constructor
  · -- The gaps of one message come from different parts.
    intro assistant _
    refine Nodup.of_map DecisionGapFact.id ?_
    unfold decisionGapsOf
    rw [List.map_map]
    refine Nodup.sublist (filter_sublist.map _) ?_
    refine (((toSorted_perm _ _).map _).nodup_iff).mpr ?_
    exact Nodup.sublist (filter_sublist.map _) hsound.partIDs
  · -- The gaps of different messages name different messages.
    have hids := nodup_assistantIDs hsound ingress.id
    rw [List.Nodup, pairwise_map] at hids
    refine hids.imp fun {left right} hne gap hleft hright => hne ?_
    obtain ⟨_, -, rfl⟩ := List.mem_map.mp hleft
    obtain ⟨_, -, heq⟩ := List.mem_map.mp hright
    exact (congrArg DecisionGapFact.assistantMessageID heq).symm

end Reading

section Growth

variable {db db' : TaskRootDatabase} {ingress : TaskRootIngressRow}

structure EvidenceGrows (db db' : TaskRootDatabase) (ingress : TaskRootIngressRow) : Prop where
  conversation : ConversationGrows db db'
  leases : activationIDs db ingress.id ⊆ activationIDs db' ingress.id

variable {activationID : String} {message : AssistantMessage} {row : MessageRow}

lemma EvidenceGrows.completed (h : EvidenceGrows db db' ingress)
    (hspeaks : SpeaksFor db ingress.id activationID row message) (hcompleted : message.timeCompleted.isSome = true) :
    SpeaksFor db' ingress.id activationID row message := by
  obtain ⟨_, hrow', -, -, hkept⟩ := h.conversation.messages row hspeaks.mem activationID
    hspeaks.nonempty hspeaks.activationID
  have hdata : completedAssistant row.data = true := by
    unfold completedAssistant
    rw [hspeaks.data]
    exact hcompleted
  rw [hkept hdata] at hrow'
  exact ⟨hrow', hspeaks.data, hspeaks.activation, hspeaks.nonempty, h.leases hspeaks.leased⟩

lemma EvidenceGrows.speaksFor (h : EvidenceGrows db db' ingress)
    (hspeaks : SpeaksFor db ingress.id activationID row message) :
    ∃ row' message', row'.id = row.id ∧ SpeaksFor db' ingress.id activationID row' message' := by
  obtain ⟨row', hrow', hid, hactivation, -⟩ := h.conversation.messages row hspeaks.mem activationID
    hspeaks.nonempty hspeaks.activationID
  unfold MessageRow.activationID at hactivation
  cases hdata : row'.data with
  | user =>
    rw [hdata] at hactivation
    cases hactivation
  | assistant message' =>
    rw [hdata] at hactivation
    exact ⟨row', message', hid, hrow', hdata, hactivation, hspeaks.nonempty, h.leases hspeaks.leased⟩

def Decided (db : TaskRootDatabase) (ingress : TaskRootIngressRow) : Prop :=
  ∃ activationID row message, SpeaksFor db ingress.id activationID row message ∧
    (∃ timeCompleted, message.timeCompleted = some timeCompleted ∧ timeCompleted ≠ 0) ∧
      ∃ request ∈ db.toolRequests, request.messageID = row.id ∧ decided db request = true

lemma completedTurnDecisions_ne_nil_iff {policy : TaskRootIngressPolicyRow} {lifecycle : List TaskLifecycleFact} :
    completedTurnDecisions (conversationFacts db ingress policy lifecycle) ≠ [] ↔
      Decided db ingress := by
  rw [Ne, eq_nil_iff_forall_not_mem, not_forall]
  simp only [not_not]
  unfold completedTurnDecisions
  constructor
  · rintro ⟨_, hdecision⟩
    obtain ⟨hmem, hturn⟩ := mem_filter.mp hdecision
    obtain ⟨_, hturnMem, hturnID⟩ := List.mem_map.mp (of_decide_eq_true hturn)
    obtain ⟨-, row, -, _, request, hrequest, hmessage, hdecided, rfl⟩ :=
      mem_decisions.mp hmem
    obtain ⟨activationID, row', message', hspeaks', hturnOf⟩ := mem_turns.mp hturnMem
    obtain ⟨timeCompleted, hcompleted, hne, rfl⟩ := turnOf_eq_some.mp hturnOf
    have hsame : row'.id = row.id := hturnID
    exact ⟨activationID, row', message', hspeaks', ⟨timeCompleted, hcompleted, hne⟩, request,
      hrequest, hmessage.trans hsame.symm, hdecided⟩
  · rintro ⟨activationID, row, message, hspeaks, ⟨timeCompleted, hcompleted, hne⟩, request, hrequest,
      hmessage, hdecided⟩
    refine ⟨_, mem_filter.mpr ⟨mem_decisions.mpr ⟨activationID, row, message, hspeaks, request,
      hrequest, hmessage, hdecided, rfl⟩, decide_eq_true ?_⟩⟩
    exact List.mem_map.mpr ⟨_, mem_turns.mpr ⟨activationID, row, message, hspeaks,
      turnOf_eq_some.mpr ⟨timeCompleted, hcompleted, hne, rfl⟩⟩, rfl⟩

/-- The outcome of a decision is kept. -/
lemma ConversationGrows_decided (h : ConversationGrows db db') {request : ToolPartRequestRow}
    (hdecided : decided db request = true) : decided db' request = true := by
  unfold decided at hdecided ⊢
  simp only [Bool.decide_and, Bool.and_eq_true, decide_eq_true_eq] at hdecided ⊢
  obtain ⟨hcompleted, hdecision⟩ := hdecided
  obtain ⟨outcome, houtcome, hdone⟩ := (Option.any_eq_true _ _).mp hcompleted
  exact ⟨(Option.any_eq_true _ _).mpr ⟨outcome, h.toolOutcomes _ _ houtcome, hdone⟩, hdecision⟩

theorem EvidenceGrows.decided (h : EvidenceGrows db db' ingress) (hdecided : Decided db ingress) :
    Decided db' ingress := by
  obtain ⟨activationID, row, message, hspeaks, ⟨timeCompleted, hcompleted, hne⟩, request, hrequest,
    hmessage, hdecision⟩ := hdecided
  have hspeaks' := h.completed hspeaks (by rw [hcompleted]; rfl)
  exact ⟨activationID, row, message, hspeaks', ⟨timeCompleted, hcompleted, hne⟩, request,
    h.conversation.toolRequests hrequest, hmessage, ConversationGrows_decided h.conversation hdecision⟩

lemma EvidenceGrows.decisionGaps_subset (h : EvidenceGrows db db' ingress) :
    (collectEvidence db ingress).decisionGaps ⊆ (collectEvidence db' ingress).decisionGaps := by
  intro gap hgap
  obtain ⟨activationID, _, _, hspeaks, part, hpart, hmessage, hisGap, rfl⟩ :=
    mem_decisionGaps.mp hgap
  obtain ⟨row', message', hid, hspeaks'⟩ := h.speaksFor hspeaks
  exact mem_decisionGaps.mpr ⟨activationID, row', message', hspeaks', part,
    h.conversation.gaps part hpart hisGap, hmessage.trans hid.symm, hisGap, by rw [hid]⟩

lemma boundaryOf_final (h : ConversationGrows db db') (hmem : row ∈ db.messages)
    (hcompleted : completedAssistant row.data = true) (hfinal : boundaryOf db row.id message = .final) :
    boundaryOf db' row.id message = .final := by
  unfold boundaryOf at hfinal ⊢
  split_ifs at hfinal with herror hcalls
  rw [if_neg herror, if_neg]
  rintro (hfinish | hopen)
  · exact hcalls (Or.inl hfinish)
  · obtain ⟨request, hrequest, hnone⟩ := List.any_eq_true.mp hopen
    obtain ⟨hrequestMem, hmessage⟩ := mem_toolRequestsOf.mp hrequest
    rcases h.newToolRequests request hrequestMem with hold | hincomplete
    · refine hcalls (Or.inr (List.any_eq_true.mpr ⟨request, mem_toolRequestsOf.mpr ⟨hold, hmessage⟩, ?_⟩))
      cases houtcome : toolOutcomeOf db request.id with
      | none => rfl
      | some =>
        rw [h.toolOutcomes _ _ houtcome] at hnone
        cases hnone
    · rw [hincomplete row hmem hmessage.symm] at hcompleted
      cases hcompleted

lemma EvidenceGrows.semanticTurnIDs_subset (h : EvidenceGrows db db' ingress)
    (hinteractions' : db'.interactions = []) (hundecided : ¬Decided db' ingress)
    {policy policy' : TaskRootIngressPolicyRow} {lifecycle lifecycle' : List TaskLifecycleFact} :
    taskRootIngressSemanticTurnIDs (conversationFacts db ingress policy lifecycle) ⊆
      taskRootIngressSemanticTurnIDs (conversationFacts db' ingress policy' lifecycle') := by
  intro id hid
  unfold taskRootIngressSemanticTurnIDs at hid ⊢
  obtain ⟨_, hturn, rfl⟩ := List.mem_map.mp hid
  obtain ⟨hmem, hsemantic⟩ := mem_filter.mp hturn
  simp only [Bool.decide_and, Bool.and_eq_true, decide_eq_true_eq] at hsemantic
  obtain ⟨activationID, row, message, hspeaks, hturnOf⟩ := mem_turns.mp hmem
  obtain ⟨timeCompleted, hcompleted, hne, rfl⟩ := turnOf_eq_some.mp hturnOf
  have hspeaks' := h.completed hspeaks (by rw [hcompleted]; rfl)
  have hdata : completedAssistant row.data = true := by
    unfold completedAssistant
    rw [hspeaks.data]
    change message.timeCompleted.isSome = true
    rw [hcompleted]
    rfl
  refine List.mem_map.mpr ⟨_, mem_filter.mpr ⟨mem_turns.mpr ⟨activationID, row, message, hspeaks',
    turnOf_eq_some.mpr ⟨timeCompleted, hcompleted, hne, rfl⟩⟩, ?_⟩, rfl⟩
  simp only [Bool.decide_and, Bool.and_eq_true, decide_eq_true_eq]
  refine ⟨boundaryOf_final h.conversation hspeaks.mem hdata hsemantic.1, ?_, ?_⟩
  · intro hany
    obtain ⟨_, hdecision, hmessageID⟩ := List.any_eq_true.mp hany
    obtain ⟨-, row', -, -, request, hrequest, hmessage, hdecided, rfl⟩ := mem_decisions.mp hdecision
    have hsame : row'.id = row.id := of_decide_eq_true hmessageID
    exact hundecided ⟨activationID, row, message, hspeaks', ⟨timeCompleted, hcompleted, hne⟩, request,
      hrequest, hmessage.trans hsame, hdecided⟩
  · intro hany
    obtain ⟨_, hinteraction, -⟩ := List.any_eq_true.mp hany
    have hnil : (conversationFacts db' ingress policy' lifecycle').interactions = [] :=
      interactions_eq_nil hinteractions'
    rw [hnil] at hinteraction
    cases hinteraction

theorem EvidenceGrows.semanticAttempts_le (h : EvidenceGrows db db' ingress)
    (hsound : ConversationSound db) (hinteractions' : db'.interactions = [])
    (hundecided : ¬Decided db' ingress) {policy policy' : TaskRootIngressPolicyRow}
    {lifecycle lifecycle' : List TaskLifecycleFact} :
    (taskRootIngressSemanticAttemptIDs (conversationFacts db ingress policy lifecycle)).length ≤
      (taskRootIngressSemanticAttemptIDs
        (conversationFacts db' ingress policy' lifecycle')).length := by
  have hnodup : (taskRootIngressSemanticTurnIDs (conversationFacts db ingress policy lifecycle)).Nodup := by
    unfold taskRootIngressSemanticTurnIDs
    exact (nodup_turnIDs hsound).sublist (filter_sublist.map _)
  have hgaps : (collectEvidence db ingress).decisionGaps.Subperm (collectEvidence db' ingress).decisionGaps :=
    (nodup_decisionGaps hsound).subperm h.decisionGaps_subset
  unfold taskRootIngressSemanticAttemptIDs
  rw [length_append, length_append, length_map, length_map]
  exact length_add_length_unmarked_le hgaps (h.semanticTurnIDs_subset hinteractions' hundecided) hnodup

variable {request : ActivityRequestFact}

lemma mem_activityRequests : request ∈ (collectEvidence db ingress).activityRequests ↔
      (∃ activationID row message, SpeaksFor db ingress.id activationID row message ∧
        ∃ tool ∈ db.toolRequests, tool.messageID = row.id ∧
          request = { id := tool.id, activationID := activationID, assistantMessageID := row.id,
                      idempotency := .queryRequired }) ∨
      ∃ provider ∈ db.providerRequests,
        (∃ row ∈ activationMessages db ingress.id, row.id = provider.assistantMessageID) ∧ request =
            { id := provider.id
              activationID := (((activationMessages db ingress.id).find? fun row =>
                row.id = provider.assistantMessageID).bind (·.activationID)).getD ""
              assistantMessageID := provider.assistantMessageID, idempotency := .queryRequired } := by
  unfold collectEvidence toolActivityRequestsOf
  simp only [mem_append, mem_flatMap, Prod.exists, mem_activationAssistants, List.mem_map,
    mem_filter, mem_toolRequestsOf, decide_eq_true_eq, and_assoc, @eq_comm _ request]

lemma find?_activationMessages (hmessages : PrimaryKey MessageRow.id db.messages) {ingressID : String}
    (hrow : row ∈ activationMessages db ingressID) :
    (activationMessages db ingressID).find? (fun other => other.id = row.id) = some row := by
  have hkey : PrimaryKey MessageRow.id (activationMessages db ingressID) := by
    unfold activationMessages PrimaryKey
    refine (((toSorted_perm _ _).map _).nodup_iff).mpr ?_
    exact Nodup.sublist (filter_sublist.map _) hmessages
  exact hkey.find?_eq_some hrow

lemma settled_of_mem_activityOutcomes (hinteractions : db.interactions = [])
    {outcome : ActivityOutcomeFact} (h : outcome ∈ (collectEvidence db ingress).activityOutcomes) :
    (∃ tool ∈ db.toolRequests, tool.id = outcome.requestID ∧ ∃ row, toolOutcomeOf db tool.id = some row) ∨
      ∃ provider ∈ db.providerRequests, provider.id = outcome.requestID ∧
        ∃ row, providerOutcomeOf db provider.id = some row := by
  have hnone : (collectEvidence db ingress).interactions = [] := interactions_eq_nil hinteractions
  change interactionFacts db ingress ((activationMessages db ingress.id).map (·.id)) = [] at hnone
  unfold collectEvidence toolActivityOutcomesOf at h
  simp only [hnone, filter_nil, filterMap_nil, List.append_nil, mem_append,
    mem_flatMap, mem_filterMap, map_eq_some_iff] at h
  rcases h with ⟨_, -, tool, htool, row, hrow, rfl⟩ | ⟨provider, hprovider, row, hrow, rfl⟩
  · exact Or.inl ⟨tool, (mem_toolRequestsOf.mp htool).1, rfl, row, hrow⟩
  · exact Or.inr ⟨provider, (mem_filter.mp hprovider).1, rfl, row, hrow⟩

lemma exists_activityOutcome_tool (hspeaks : SpeaksFor db ingress.id activationID row message)
    {tool : ToolPartRequestRow} (htool : tool ∈ db.toolRequests) (hmessage : tool.messageID = row.id)
    {outcome : ToolPartOutcomeRow} (houtcome : toolOutcomeOf db tool.id = some outcome) :
    ∃ fact ∈ (collectEvidence db ingress).activityOutcomes, fact.requestID = tool.id := by
  let fact : ActivityOutcomeFact :=
    { id := outcome.id, requestID := tool.id,
      outcome := if outcome.completed then .completed else .failed }
  have hfact : fact ∈ toolActivityOutcomesOf db row.id :=
    mem_filterMap.mpr ⟨tool, mem_toolRequestsOf.mpr ⟨htool, hmessage⟩, by rw [houtcome]; rfl⟩
  have hmem : fact ∈ (activationAssistants db ingress.id).flatMap fun assistant =>
      toolActivityOutcomesOf db assistant.2.1.id :=
    mem_flatMap.mpr ⟨(activationID, row, message), mem_activationAssistants.mpr hspeaks, hfact⟩
  exact ⟨fact, mem_append_left _ (mem_append_left _ hmem), rfl⟩

lemma exists_activityOutcome_provider {provider : ProviderActivityRequestRow}
    (hprovider : provider ∈ db.providerRequests)
    (hmessage : ∃ row ∈ activationMessages db ingress.id, row.id = provider.assistantMessageID)
    {outcome : ProviderActivityOutcomeRow}
    (houtcome : providerOutcomeOf db provider.id = some outcome) :
    ∃ fact ∈ (collectEvidence db ingress).activityOutcomes, fact.requestID = provider.id := by
  let fact : ActivityOutcomeFact :=
    { id := outcome.id, requestID := provider.id,
      outcome := if outcome.outcome = .done then .completed else .failed }
  have hrequest : provider ∈ db.providerRequests.filter fun request =>
      request.assistantMessageID ∈ (activationMessages db ingress.id).map (·.id) :=
    mem_filter.mpr ⟨hprovider, decide_eq_true (List.mem_map.mpr hmessage)⟩
  refine ⟨fact, mem_append_left _ (mem_append_right _ ?_), rfl⟩
  exact mem_filterMap.mpr ⟨provider, hrequest, map_eq_some_iff.mpr ⟨outcome, houtcome, rfl⟩⟩

variable (policy : TaskRootIngressPolicyRow) (lifecycle : List TaskLifecycleFact)

lemma not_requestOutstanding_iff :
    ¬requestOutstanding (conversationFacts db ingress policy lifecycle) request = true ↔
      ∃ fact ∈ (collectEvidence db ingress).activityOutcomes, fact.requestID = request.id := by
  unfold requestOutstanding activityOutcomeByRequest
  rw [decide_eq_true_iff, length_eq_zero_iff, filter_eq_nil_iff]
  simp only [not_forall, not_not, decide_eq_true_eq, exists_prop]
  exact Iff.rfl

variable {policy lifecycle}

lemma endsActivation_of_activationConsumed (hsound : ConversationSound db) (hinteractions : db.interactions = [])
    (h : activationConsumed (conversationFacts db ingress policy lifecycle) activationID = true) :
    ∃ row message, EndsActivation db activationID row message := by
  unfold activationConsumed at h
  split_ifs at h with hopen
  obtain ⟨_, hturn, hends⟩ := List.any_eq_true.mp h
  obtain ⟨hactivation, hboundary⟩ := of_decide_eq_true hends
  obtain ⟨named, row, message, hspeaks, hturnOf⟩ := mem_turns.mp hturn
  obtain ⟨timeCompleted, hcompleted, hne, rfl⟩ := turnOf_eq_some.mp hturnOf
  have hnamed : named = activationID := hactivation
  subst hnamed
  -- No request of the activation is outstanding.
  have hsettled : ∀ request ∈ (collectEvidence db ingress).activityRequests, request.activationID = named →
        ∃ fact ∈ (collectEvidence db ingress).activityOutcomes, fact.requestID = request.id := by
    intro request hrequest hrequestActivation
    refine (not_requestOutstanding_iff policy lifecycle).mp fun houtstanding => ?_
    exact hopen (List.any_eq_true.mpr ⟨request, hrequest, decide_eq_true ⟨hrequestActivation, houtstanding⟩⟩)
  refine ⟨row, message, hspeaks.mem, hspeaks.data, hspeaks.activation, ⟨timeCompleted, hcompleted,
    hne⟩, ?_, ?_, ?_⟩
  · intro tool htool hmessage
    obtain ⟨_, hfact, hid⟩ := hsettled _ (mem_activityRequests.mpr (Or.inl ⟨named, row, message,
      hspeaks, tool, htool, hmessage, rfl⟩)) rfl
    rcases settled_of_mem_activityOutcomes hinteractions hfact with
      ⟨other, -, hother, outcome, houtcome⟩ | ⟨provider, hprovider, hother, -⟩
    · rw [hother.trans hid] at houtcome
      exact ⟨outcome, houtcome⟩
    · exact absurd (hother.trans hid).symm (hsound.tool_ne_provider htool hprovider)
  · intro provider hprovider hmessage
    have hrow : row ∈ activationMessages db ingress.id :=
      mem_activationMessages.mpr ⟨hspeaks.mem, named, hspeaks.leased, hspeaks.activationID⟩
    obtain ⟨_, hfact, hid⟩ := hsettled _ (mem_activityRequests.mpr (Or.inr ⟨provider, hprovider,
      ⟨row, hrow, hmessage.symm⟩, rfl⟩)) (by
        rw [hmessage, find?_activationMessages hsound.messageIDs hrow]
        change row.activationID.getD "" = named
        rw [hspeaks.activationID]
        rfl)
    rcases settled_of_mem_activityOutcomes hinteractions hfact with
      ⟨tool, htool, hother, -⟩ | ⟨other, -, hother, outcome, houtcome⟩
    · exact absurd (hother.trans hid) (hsound.tool_ne_provider htool hprovider)
    · rw [hother.trans hid] at houtcome
      exact ⟨outcome, houtcome⟩
  · unfold boundaryOf at hboundary
    split_ifs at hboundary with herror hcalls
    · exact Or.inl herror
    · simp at hboundary
    · exact Or.inr fun hfinish => hcalls (Or.inl hfinish)

lemma activationConsumed_of_endsActivation (hsound : ConversationSound db)
    (hspeaks : SpeaksFor db ingress.id activationID row message)
    (hends : EndsActivation db activationID row message) :
    activationConsumed (conversationFacts db ingress policy lifecycle) activationID = true := by
  have hone : ∀ other ∈ db.messages, other.activationID = some activationID → other.id = row.id :=
    fun other hother hactivation => hsound.oneMessage other hother row hspeaks.mem activationID
      hspeaks.nonempty hactivation hspeaks.activationID
  unfold activationConsumed
  rw [if_neg]
  · obtain ⟨timeCompleted, hcompleted, hne⟩ := hends.completed
    refine List.any_eq_true.mpr ⟨_, mem_turns.mpr ⟨activationID, row, message, hspeaks,
      turnOf_eq_some.mpr ⟨timeCompleted, hcompleted, hne, rfl⟩⟩, decide_eq_true ⟨rfl, ?_⟩⟩
    change boundaryOf db row.id message = .final ∨ boundaryOf db row.id message = .providerError ∨
      boundaryOf db row.id message = .wait
    unfold boundaryOf
    by_cases herror : message.hasError = true
    · rw [if_pos herror]
      exact Or.inr (Or.inl rfl)
    · rw [if_neg herror, if_neg]
      · exact Or.inl rfl
      · rintro (hfinish | hopen)
        · exact (hends.ended.resolve_left herror) hfinish
        · obtain ⟨tool, htool, hnone⟩ := List.any_eq_true.mp hopen
          obtain ⟨hmem, hmessage⟩ := mem_toolRequestsOf.mp htool
          obtain ⟨_, houtcome⟩ := hends.tools tool hmem hmessage
          rw [houtcome] at hnone
          cases hnone
  · intro hopen
    obtain ⟨_, hrequest, houtstanding⟩ := List.any_eq_true.mp hopen
    obtain ⟨hactivation, houtstanding⟩ := of_decide_eq_true houtstanding
    refine (not_requestOutstanding_iff policy lifecycle).mpr ?_ houtstanding
    rcases mem_activityRequests.mp hrequest with
      ⟨named, other, otherMessage, hother, tool, htool, hmessage, rfl⟩ |
        ⟨provider, hprovider, ⟨other, hother, hmessage⟩, rfl⟩
    · have hnamed : named = activationID := hactivation
      subst hnamed
      have hsame := hone other hother.mem hother.activationID
      obtain ⟨_, houtcome⟩ := hends.tools tool htool (hmessage.trans hsame)
      exact exists_activityOutcome_tool hother htool hmessage houtcome
    · obtain ⟨hmem, named, -, hnamed⟩ := mem_activationMessages.mp hother
      have hfound : named = activationID := by
        rw [← hmessage, find?_activationMessages hsound.messageIDs hother] at hactivation
        change other.activationID.getD "" = activationID at hactivation
        rw [hnamed] at hactivation
        exact hactivation
      have hsame := hone other hmem (hfound ▸ hnamed)
      obtain ⟨_, houtcome⟩ := hends.providers provider hprovider (hmessage.symm.trans hsame)
      exact exists_activityOutcome_provider hprovider ⟨other, hother, hmessage⟩ houtcome

theorem activationConsumed_iff (hsound : ConversationSound db) (hinteractions : db.interactions = [])
    (hne : activationID ≠ "") (hleased : activationID ∈ activationIDs db ingress.id) :
    activationConsumed (conversationFacts db ingress policy lifecycle) activationID = true ↔
      activationConsumedInTransaction db activationID = true := by
  rw [activationConsumedInTransaction_iff]
  constructor
  · exact endsActivation_of_activationConsumed hsound hinteractions
  · rintro ⟨_, _, hends⟩
    exact activationConsumed_of_endsActivation hsound ⟨hends.mem, hends.data, hends.activation, hne, hleased⟩ hends

end Growth

end OpenCorvus.Engine
