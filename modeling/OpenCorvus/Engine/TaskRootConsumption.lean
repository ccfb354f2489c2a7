import Mathlib.Data.List.Pairwise
import OpenCorvus.Engine.TaskRootEvidenceGrowth

/-!
# Consumed activations, read twice

The reduction decides whether an activation is consumed from the evidence of its ingress, and the fence from the rows
of its messages.  They differ in two cases: the reduction also counts a request as settled when the operator has
answered what became of it, and it drops evidence whose integrity is broken, so that no activation is consumed.
-/

namespace OpenCorvus.Engine

open Transaction UniqueIndex Session

variable {db : TaskRootDatabase} {ingress : TaskRootIngressRow} {activationID : String}

def HasOutcomeFact (db : TaskRootDatabase) (ingress : TaskRootIngressRow) (requestID : String) : Prop :=
  ∃ fact ∈ (collectEvidence db ingress).activityOutcomes, fact.requestID = requestID

structure EndsInEvidence (db : TaskRootDatabase) (ingress : TaskRootIngressRow) (row : MessageRow)
    (message : AssistantMessage) : Prop where
  completed : ∃ timeCompleted ∈ message.timeCompleted, timeCompleted ≠ 0
  tools : ∀ request ∈ db.toolRequests, request.messageID = row.id → HasOutcomeFact db ingress request.id
  providers : ∀ request ∈ db.providerRequests, request.assistantMessageID = row.id →
    HasOutcomeFact db ingress request.id
  ended : message.hasError = true ∨ (¬message.finish.any includesTool = true ∧
    ∀ request ∈ db.toolRequests, request.messageID = row.id →
      ∃ outcome, toolOutcomeOf db request.id = some outcome)

def MissesOutcome (db : TaskRootDatabase) (row : MessageRow) : Prop :=
  (∃ request ∈ db.toolRequests, request.messageID = row.id ∧ toolOutcomeOf db request.id = none) ∨
    ∃ request ∈ db.providerRequests, request.assistantMessageID = row.id ∧ providerOutcomeOf db request.id = none

inductive ConsumptionDiverges (db : TaskRootDatabase) (ingress : TaskRootIngressRow)
    (activationID : String) : Prop where
  /-- The evidence is dropped because its integrity is broken, and a message ends the activation. -/
  | dropped (id message : String) (broken : readTaskRootIngressEvidence db ingress = .error (.integrity id message))
      (row : MessageRow) (assistant : AssistantMessage) (ends : EndsActivation db activationID row assistant)
  /-- The message of the activation ends it in the evidence, although some request has no outcome row:
  the operator has answered what became of the request. -/
  | acknowledged (intact : readTaskRootIngressEvidence db ingress = .ok (collectEvidence db ingress))
      (row : MessageRow) (assistant : AssistantMessage)
      (speaks : SpeaksFor db ingress.id activationID row assistant)
      (ends : EndsInEvidence db ingress row assistant) (misses : MissesOutcome db row)

lemma same_of_assertEvidenceAuthority {task : TaskRow}
    {earlier rest : List (String × MessageRow × AssistantMessage)}
    (h : assertEvidenceAuthority db ingress task earlier rest = .ok ()) :
    (∀ x ∈ earlier, ∀ y ∈ rest, x.1 = y.1 → x.2.1.id = y.2.1.id) ∧
      rest.Pairwise fun x y => x.1 = y.1 → x.2.1.id = y.2.1.id := by
  induction rest generalizing earlier with
  | nil => exact ⟨fun _ _ _ hy => absurd hy List.not_mem_nil, List.Pairwise.nil⟩
  | cons y _ ih =>
    obtain ⟨⟨⟩, hassert, hrest⟩ := bind_eq_ok.mp h
    obtain ⟨hearlier, hpairwise⟩ := ih hrest
    have hy : ∀ x ∈ earlier, x.1 = y.1 → x.2.1.id = y.2.1.id := by
      intro x hx hsame
      obtain ⟨⟨⟩, hthrow, -⟩ := bind_eq_ok.mp hassert
      by_contra hne
      refine (throwWhen_eq_ok.mp hthrow) (Or.inr (List.any_eq_true.mpr ⟨x, hx, ?_⟩))
      exact decide_eq_true ⟨hsame, hne⟩
    refine ⟨fun x hx z hz hsame => ?_, List.pairwise_cons.mpr ⟨fun z hz => ?_, hpairwise⟩⟩
    · rcases List.mem_cons.mp hz with rfl | hz
      · exact hy x hx hsame
      · exact hearlier x (List.mem_append_left _ hx) z hz hsame
    · exact hearlier y (List.mem_append_right _ (List.mem_singleton_self y)) z hz

lemma read_eq_ok {evidence : TaskRootIngressEvidence} (hleased : activationID ∈ activationIDs db ingress.id)
    (h : readTaskRootIngressEvidence db ingress = .ok evidence) :
    evidence = collectEvidence db ingress ∧
      ∀ row message other otherMessage, SpeaksFor db ingress.id activationID row message →
        SpeaksFor db ingress.id activationID other otherMessage → row.id = other.id := by
  unfold readTaskRootIngressEvidence at h
  rw [if_neg (List.ne_nil_of_mem hleased)] at h
  simp only [bind_eq_ok, pure_eq_ok] at h
  obtain ⟨_, -, -, -, ⟨⟩, hauthority, rfl⟩ := h
  refine ⟨rfl, fun row message other otherMessage hrow hother => ?_⟩
  have hpairwise := (same_of_assertEvidenceAuthority hauthority).2
  have hrow' := mem_activationAssistants.mpr hrow
  have hother' := mem_activationAssistants.mpr hother
  have hsymm : Std.Symm fun x y : String × MessageRow × AssistantMessage => x.1 = y.1 → x.2.1.id = y.2.1.id :=
    ⟨fun x y hxy hsame => (hxy hsame.symm).symm⟩
  exact hpairwise.forall_of_forall (fun _ _ _ => rfl) hrow' hother' rfl

variable {policy : TaskRootIngressPolicyRow} {lifecycle : List TaskLifecycleFact}

variable {row : MessageRow} {message : AssistantMessage}

lemma forall_activityRequests_iff (hmessages : PrimaryKey MessageRow.id db.messages)
    (hspeaks : SpeaksFor db ingress.id activationID row message)
    (hone : ∀ other otherMessage, SpeaksFor db ingress.id activationID other otherMessage → other.id = row.id)
    {p : String → Prop} :
    (∀ request ∈ (collectEvidence db ingress).activityRequests, request.activationID = activationID →
        p request.id) ↔
      (∀ request ∈ db.toolRequests, request.messageID = row.id → p request.id) ∧
        ∀ request ∈ db.providerRequests, request.assistantMessageID = row.id → p request.id := by
  have hrow : row ∈ activationMessages db ingress.id :=
    mem_activationMessages.mpr ⟨hspeaks.mem, activationID, hspeaks.leased, hspeaks.activationID⟩
  constructor
  · refine fun h => ⟨fun tool htool hmessage => ?_, fun provider hprovider hmessage => ?_⟩
    · exact h _ (mem_activityRequests.mpr (Or.inl ⟨activationID, row, message, hspeaks, tool, htool, hmessage,
        rfl⟩)) rfl
    · refine h _ (mem_activityRequests.mpr (Or.inr ⟨provider, hprovider, ⟨row, hrow, hmessage.symm⟩, rfl⟩)) ?_
      rw [hmessage, find?_activationMessages hmessages hrow]
      change row.activationID.getD "" = activationID
      rw [hspeaks.activationID]
      rfl
  · rintro ⟨htools, hproviders⟩ _ hrequest hactivation
    rcases mem_activityRequests.mp hrequest with
      ⟨named, other, otherMessage, hother, tool, htool, hmessage, rfl⟩ |
        ⟨provider, hprovider, ⟨other, hother, hmessage⟩, rfl⟩
    · obtain rfl : named = activationID := hactivation
      exact htools tool htool (hmessage.trans (hone other otherMessage hother))
    · obtain ⟨hmem, named, hleased, hnamed⟩ := mem_activationMessages.mp hother
      obtain rfl : named = activationID := by
        rw [← hmessage, find?_activationMessages hmessages hother] at hactivation
        change other.activationID.getD "" = activationID at hactivation
        rw [hnamed] at hactivation
        exact hactivation
      unfold MessageRow.activationID at hnamed
      obtain ⟨otherMessage, hdata, hnamed⟩ := Option.bind_eq_some_iff.mp hnamed
      have hotherSpeaks : SpeaksFor db ingress.id named other otherMessage := by
        refine ⟨hmem, ?_, hnamed, hspeaks.nonempty, hleased⟩
        cases hother : other.data with
        | user =>
          rw [hother] at hdata
          cases hdata
        | assistant =>
          rw [hother] at hdata
          cases hdata
          rfl
      exact hproviders provider hprovider (hmessage.symm.trans (hone other otherMessage hotherSpeaks))

lemma boundaryOf_ends_iff :
    (boundaryOf db row.id message = .final ∨ boundaryOf db row.id message = .providerError ∨
        boundaryOf db row.id message = .wait) ↔
      message.hasError = true ∨ (¬message.finish.any includesTool = true ∧
        ∀ request ∈ db.toolRequests, request.messageID = row.id →
          ∃ outcome, toolOutcomeOf db request.id = some outcome) := by
  have hopen : ((toolRequestsOf db row.id).any fun request => (toolOutcomeOf db request.id).isNone) = true ↔
      ¬∀ request ∈ db.toolRequests, request.messageID = row.id →
        ∃ outcome, toolOutcomeOf db request.id = some outcome := by
    rw [List.any_eq_true]
    push Not
    simp only [mem_toolRequestsOf, Option.isNone_iff_eq_none, and_assoc, Option.eq_none_iff_forall_ne_some]
  unfold boundaryOf
  by_cases herror : message.hasError = true
  · simp [herror]
  · rw [if_neg herror]
    by_cases hcalls : message.finish.any includesTool = true ∨
        ((toolRequestsOf db row.id).any fun request => (toolOutcomeOf db request.id).isNone) = true
    · rw [if_pos hcalls]
      rw [hopen] at hcalls
      simp only [reduceCtorEq, false_or, herror, Bool.false_eq_true, false_iff]
      tauto
    · rw [if_neg hcalls]
      rw [hopen] at hcalls
      simp only [true_or, true_iff]
      tauto

lemma activationConsumed_conversationFacts_iff (hmessages : PrimaryKey MessageRow.id db.messages)
    (hone : ∀ row message other otherMessage, SpeaksFor db ingress.id activationID row message →
      SpeaksFor db ingress.id activationID other otherMessage → row.id = other.id) :
    activationConsumed (conversationFacts db ingress policy lifecycle) activationID = true ↔
      ∃ row message, SpeaksFor db ingress.id activationID row message ∧ EndsInEvidence db ingress row message := by
  have hsettled : ¬((collectEvidence db ingress).activityRequests.any fun request =>
        request.activationID = activationID ∧
          requestOutstanding (conversationFacts db ingress policy lifecycle) request) = true ↔
      ∀ request ∈ (collectEvidence db ingress).activityRequests, request.activationID = activationID →
        HasOutcomeFact db ingress request.id := by
    simp only [List.any_eq_true, decide_eq_true_eq, not_exists, not_and,
      not_requestOutstanding_iff policy lifecycle]
    exact Iff.rfl
  have hsplit : activationConsumed (conversationFacts db ingress policy lifecycle) activationID = true ↔
      (∀ request ∈ (collectEvidence db ingress).activityRequests, request.activationID = activationID →
        HasOutcomeFact db ingress request.id) ∧
      ∃ turn ∈ (collectEvidence db ingress).turns, turn.activationID = activationID ∧
        (turn.boundary = .final ∨ turn.boundary = .providerError ∨ turn.boundary = .wait) := by
    rw [← hsettled]
    by_cases hopen : ((collectEvidence db ingress).activityRequests.any fun request =>
        request.activationID = activationID ∧
          requestOutstanding (conversationFacts db ingress policy lifecycle) request) = true
    · have hclosed : activationConsumed (conversationFacts db ingress policy lifecycle) activationID = false :=
        if_pos hopen
      rw [hclosed]
      exact ⟨fun h => absurd h Bool.false_ne_true, fun h => absurd hopen h.1⟩
    · have hturns : activationConsumed (conversationFacts db ingress policy lifecycle) activationID =
          (collectEvidence db ingress).turns.any fun turn => turn.activationID = activationID ∧
            (turn.boundary = .final ∨ turn.boundary = .providerError ∨ turn.boundary = .wait) := if_neg hopen
      rw [hturns, List.any_eq_true, and_iff_right hopen]
      simp only [decide_eq_true_eq]
  rw [hsplit]
  constructor
  · rintro ⟨hrequests, _, hturn, hactivation, hboundary⟩
    obtain ⟨named, row, message, hspeaks, hturnOf⟩ := mem_turns.mp hturn
    obtain ⟨timeCompleted, hcompleted, hne, rfl⟩ := turnOf_eq_some.mp hturnOf
    obtain rfl : named = activationID := hactivation
    obtain ⟨htools, hproviders⟩ := (forall_activityRequests_iff hmessages hspeaks fun other otherMessage hother =>
      hone other otherMessage row message hother hspeaks).mp hrequests
    exact ⟨row, message, hspeaks, ⟨timeCompleted, hcompleted, hne⟩, htools, hproviders,
      boundaryOf_ends_iff.mp hboundary⟩
  · rintro ⟨row, message, hspeaks, hends⟩
    obtain ⟨timeCompleted, hcompleted, hne⟩ := hends.completed
    refine ⟨(forall_activityRequests_iff hmessages hspeaks fun other otherMessage hother =>
      hone other otherMessage row message hother hspeaks).mpr ⟨hends.tools, hends.providers⟩, ?_⟩
    exact ⟨_, mem_turns.mpr ⟨activationID, row, message, hspeaks,
      turnOf_eq_some.mpr ⟨timeCompleted, hcompleted, hne, rfl⟩⟩, rfl, boundaryOf_ends_iff.mpr hends.ended⟩

lemma endsInEvidence_of_endsActivation (hspeaks : SpeaksFor db ingress.id activationID row message)
    (h : EndsActivation db activationID row message) : EndsInEvidence db ingress row message := by
  have hrow : row ∈ activationMessages db ingress.id :=
    mem_activationMessages.mpr ⟨hspeaks.mem, activationID, hspeaks.leased, hspeaks.activationID⟩
  refine ⟨h.completed, fun tool htool hmessage => ?_, fun provider hprovider hmessage => ?_,
    h.ended.imp_right fun hfinish => ⟨hfinish, h.tools⟩⟩
  · obtain ⟨_, houtcome⟩ := h.tools tool htool hmessage
    exact exists_activityOutcome_tool hspeaks htool hmessage houtcome
  · obtain ⟨_, houtcome⟩ := h.providers provider hprovider hmessage
    exact exists_activityOutcome_provider hprovider ⟨row, hrow, hmessage.symm⟩ houtcome

lemma endsActivation_iff_of_endsInEvidence (hspeaks : SpeaksFor db ingress.id activationID row message)
    (h : EndsInEvidence db ingress row message) :
    EndsActivation db activationID row message ↔ ¬MissesOutcome db row := by
  constructor
  · rintro hends (⟨tool, htool, hmessage, hnone⟩ | ⟨provider, hprovider, hmessage, hnone⟩)
    · obtain ⟨_, houtcome⟩ := hends.tools tool htool hmessage
      rw [hnone] at houtcome
      cases houtcome
    · obtain ⟨_, houtcome⟩ := hends.providers provider hprovider hmessage
      rw [hnone] at houtcome
      cases houtcome
  · intro hwhole
    refine ⟨hspeaks.mem, hspeaks.data, hspeaks.activation, h.completed, fun tool htool hmessage => ?_,
      fun provider hprovider hmessage => ?_, h.ended.imp_right And.left⟩
    · exact Option.ne_none_iff_exists'.mp fun hnone => hwhole (Or.inl ⟨tool, htool, hmessage, hnone⟩)
    · exact Option.ne_none_iff_exists'.mp fun hnone => hwhole (Or.inr ⟨provider, hprovider, hmessage, hnone⟩)

lemma SpeaksFor.eq {other : MessageRow} {otherMessage : AssistantMessage}
    (hmessages : PrimaryKey MessageRow.id db.messages)
    (hrow : SpeaksFor db ingress.id activationID row message)
    (hother : SpeaksFor db ingress.id activationID other otherMessage) (hid : row.id = other.id) :
    other = row ∧ otherMessage = message := by
  obtain rfl : other = row := hmessages.eq_of_id hother.mem hrow.mem hid.symm
  exact ⟨rfl, MessageData.assistant.inj (hother.data.symm.trans hrow.data)⟩

/-- The reduction and the fence agree on whether an activation of an ingress is consumed, unless the
evidence is dropped although a message ends the activation, or the operator has answered for a request
without outcome. -/
theorem activationConsumed_agrees_iff {ingressID : String} {facts : TaskRootIngressFacts}
    (hmessages : PrimaryKey MessageRow.id db.messages) (hingress : db.findIngress ingressID = some ingress)
    (hfacts : taskRootIngressFactsInTransaction db ingressID readTaskRootIngressEvidence = .ok facts)
    (hne : activationID ≠ "") (hleased : activationID ∈ activationIDs db ingressID) :
    (activationConsumed facts activationID = true ↔ activationConsumedInTransaction db activationID = true) ↔
      ¬ConsumptionDiverges db ingress activationID := by
  obtain rfl := TaskRootDatabase.findIngress_id hingress
  obtain ⟨found, policy, _, lifecycle, hfound, -, hguarded, -, rfl⟩ := taskRootIngressFacts_eq_ok.mp hfacts
  obtain rfl : ingress = found := Option.some.inj (hingress.symm.trans hfound)
  have hspeaksOf : ∀ row message, EndsActivation db activationID row message →
      SpeaksFor db ingress.id activationID row message := fun row message hends =>
    ⟨hends.mem, hends.data, hends.activation, hne, hleased⟩
  rw [activationConsumedInTransaction_iff]
  cases hread : readTaskRootIngressEvidence db ingress with
  | ok =>
    obtain ⟨rfl, hone⟩ := read_eq_ok hleased hread
    rw [hread] at hguarded
    cases hguarded
    change (activationConsumed (conversationFacts db ingress policy lifecycle) activationID = true ↔ _) ↔ _
    rw [activationConsumed_conversationFacts_iff hmessages hone]
    constructor
    · rintro hagree (⟨_, message, hbroken, -⟩ | ⟨-, row, message, hspeaks, hends, hmisses⟩)
      · rw [hread] at hbroken
        cases hbroken
      · obtain ⟨_, _, hother⟩ := hagree.mp ⟨row, message, hspeaks, hends⟩
        obtain ⟨rfl, rfl⟩ := SpeaksFor.eq hmessages hspeaks (hspeaksOf _ _ hother)
          (hone _ _ _ _ hspeaks (hspeaksOf _ _ hother))
        exact (endsActivation_iff_of_endsInEvidence hspeaks hends).mp hother hmisses
    · intro hagrees
      constructor
      · rintro ⟨row, message, hspeaks, hends⟩
        refine ⟨row, message, (endsActivation_iff_of_endsInEvidence hspeaks hends).mpr fun hmisses => ?_⟩
        exact hagrees (.acknowledged hread row message hspeaks hends hmisses)
      · rintro ⟨row, message, hends⟩
        exact ⟨row, message, hspeaksOf row message hends,
          endsInEvidence_of_endsActivation (hspeaksOf row message hends) hends⟩
  | error e =>
    rw [hread] at hguarded
    cases e with
    | integrity id text =>
      cases hguarded
      have hdropped : activationConsumed (assembleFacts db ingress policy (some text) EMPTY_EVIDENCE lifecycle)
          activationID = false := rfl
      rw [hdropped]
      constructor
      · rintro hagree (⟨-, -, -, row, message, hends⟩ | ⟨hintact, -⟩)
        · exact Bool.false_ne_true (hagree.mpr ⟨row, message, hends⟩)
        · rw [hread] at hintact
          cases hintact
      · refine fun hagrees => ⟨fun h => absurd h Bool.false_ne_true, ?_⟩
        rintro ⟨row, message, hends⟩
        exact absurd (.dropped id text hread row message hends) hagrees
    | _ => cases hguarded

/-! ### Examples -/

def controlMessage : MessageRow where
  id := "msg_task-root-control_art_h0000000000000000001_art_h0000000000000000001"
  sessionID := "ses_2"
  timeCreated := 1
  data := .user (some { ingressID := some "art_h0000000000000000001"
                        predecessorID := some "art_h0000000000000000001" }) ""

/-- The completed answer of the only activation, without an error or a Tool call. -/
def answerMessage : MessageRow where
  id := "msg_2"
  sessionID := "ses_2"
  timeCreated := 2
  data := .assistant
    { identity := { author := some "orchestrator", parentID := controlMessage.id
                    acceptedInputMessageIDs := [], activationID := some "act_1", agent := "orchestrator"
                    modelID := "model", providerID := "provider" }
      timeCompleted := some 3
      finish := some "stop"
      hasError := false
      rest := "" }

def answeredIngress : TaskRootIngressRow where
  id := "art_h0000000000000000001"
  taskID := "tsk_1"
  projectID := "prj_1"
  executionEpoch := 1
  sequence := 1
  source := .inline
  sourceID := "src_1"
  inlinePayload := none
  policyID := "policy"
  timeAccepted := 0

def answeredPolicy : TaskRootIngressPolicyRow where
  id := "policy"
  semanticTurnLimit := 8
  activationLimit := 8
  absoluteDeadline := none

/-- An ingress whose only activation has a completed answer.  Its Provider request has no outcome, and
the operator was asked what became of it. -/
def acknowledgedDatabase (answer : Option InteractionOutcome) : TaskRootDatabase where
  tasks := [{ id := "tsk_1", projectID := "prj_1", sessionID := some "ses_1" }]
  sessions := [
    { id := "ses_1", parentID := none, projectID := "prj_1", kind := .root },
    { id := "ses_2", parentID := some "ses_1", projectID := "prj_1", kind := .orchestrator }]
  closedProjects := []
  fencedSessions := []
  events := []
  protocolEvents := []
  messages := [controlMessage, answerMessage]
  toolRequests := []
  toolOutcomes := []
  parts := []
  providerRequests := [{ id := "act_2", assistantMessageID := "msg_2" }]
  providerOutcomes := []
  interactions := [
    { id := "int_1", taskID := some "tsk_1", sessionID := none, outcome := answer, toolMessageID := none
      timeExpires := none
      activityReconciliation := some { ingressID := answeredIngress.id, requestID := some "act_2"
                                       assistantMessageID := some "msg_2" } }]
  artifacts := []
  waits := []
  waitSettlements := []
  policies := [answeredPolicy]
  ingresses := [answeredIngress]
  activations :=
    { leases := [
        { id := "act_1", target := .taskRootIngress, targetID := answeredIngress.id
          ownerOccurrenceID := "own_1", timeActivated := 1, expiresAt := 100 }]
      grants := [] }

def acknowledgedFacts (answer : Option InteractionOutcome) : TaskRootIngressFacts :=
  conversationFacts (acknowledgedDatabase answer) answeredIngress answeredPolicy []

/-- Without the operator's answer, the reduction and the fence agree. -/
theorem activationConsumed_agrees_unanswered : (PrimaryKey MessageRow.id (acknowledgedDatabase none).messages ∧
      (acknowledgedDatabase none).findIngress answeredIngress.id = some answeredIngress ∧
      taskRootIngressFactsInTransaction (acknowledgedDatabase none) answeredIngress.id
        readTaskRootIngressEvidence = .ok (acknowledgedFacts none) ∧
      "act_1" ≠ "" ∧ "act_1" ∈ activationIDs (acknowledgedDatabase none) answeredIngress.id) ∧
    ((activationConsumed (acknowledgedFacts none) "act_1" = true ↔
        activationConsumedInTransaction (acknowledgedDatabase none) "act_1" = true) ↔
      ¬ConsumptionDiverges (acknowledgedDatabase none) answeredIngress "act_1") := by
  have hmessages : PrimaryKey MessageRow.id (acknowledgedDatabase none).messages := by decide
  have hingress : (acknowledgedDatabase none).findIngress answeredIngress.id = some answeredIngress := by
    decide
  have hfacts : taskRootIngressFactsInTransaction (acknowledgedDatabase none) answeredIngress.id
      readTaskRootIngressEvidence = .ok (acknowledgedFacts none) := by decide
  have hleased : "act_1" ∈ activationIDs (acknowledgedDatabase none) answeredIngress.id := by decide
  exact ⟨⟨hmessages, hingress, hfacts, by decide, hleased⟩,
    activationConsumed_agrees_iff hmessages hingress hfacts (by decide) hleased⟩

/-- Once the operator has answered for the request without outcome, the reduction counts the
activation as consumed, and the fence does not. -/
theorem activationConsumed_disagrees_acknowledged :
    taskRootIngressFactsInTransaction (acknowledgedDatabase (some .answered)) answeredIngress.id
        readTaskRootIngressEvidence = .ok (acknowledgedFacts (some .answered)) ∧
      ¬(activationConsumed (acknowledgedFacts (some .answered)) "act_1" = true ↔
        activationConsumedInTransaction (acknowledgedDatabase (some .answered)) "act_1" = true) := by
  constructor
  · decide
  · decide

end OpenCorvus.Engine
