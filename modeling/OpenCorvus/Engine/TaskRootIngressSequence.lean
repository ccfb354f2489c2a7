import OpenCorvus.Foundation.NumberedLanes
import OpenCorvus.Engine.TaskRootAcceptance

/-!
# The positions of accepted ingresses

Acceptance numbers the ingresses of a Task and epoch from one on, accepts a source of a Task at most once,
and answers the acceptance of an accepted source with the row that is stored.  The identity of a source
counts within its Task: two Tasks may accept one inline source.
-/

namespace OpenCorvus.Engine

open EcmaScript Transaction NumberedLanes List TaskRootIngressRow AcceptTaskRootIngressInput

section Positions

variable [TaskRootIdentity]

def TaskRootIngressRow.lane (row : TaskRootIngressRow) : String × ℕ := (row.taskID, row.executionEpoch)

inductive IngressStep : TaskRootDatabase → TaskRootDatabase → Prop
  | accept {db db' : TaskRootDatabase} {input : AcceptTaskRootIngressInput} {row : TaskRootIngressRow}
      (h : acceptTaskRootIngressInTransaction db input = .ok (row, db')) : IngressStep db db'
  | aside {db db' : TaskRootDatabase} (h : db'.ingresses = db.ingresses) : IngressStep db db'

structure IngressLog (ingresses : List TaskRootIngressRow) : Prop where
  dense : Dense TaskRootIngressRow.lane TaskRootIngressRow.sequence ingresses
  sources : (ingresses.map TaskRootIngressRow.sourceKey).Nodup
  epochs : ∀ row ∈ ingresses, IsPositiveSafeInteger row.executionEpoch
  identities : ∀ row ∈ ingresses, trim row.sourceID ≠ ""
  payloads : ∀ row ∈ ingresses, decide (row.source = .inline) = row.inlinePayload.isSome

variable {db db' : TaskRootDatabase} {input : AcceptTaskRootIngressInput} {row : TaskRootIngressRow}

omit [TaskRootIdentity] in
lemma latestIngressSequence_eq (db : TaskRootDatabase) (taskID : String) (executionEpoch : ℕ) :
    latestIngressSequence db taskID executionEpoch =
      NumberedLanes.frontier TaskRootIngressRow.lane TaskRootIngressRow.sequence db.ingresses (taskID, executionEpoch) := by
  simp only [latestIngressSequence, NumberedLanes.frontier, inLane, lane, Prod.mk.injEq]

lemma acceptNewTaskRootIngress_source (h : acceptNewTaskRootIngress db input = .ok (row, db')) :
    row.sourceKey = input.sourceKey ∧ row.inlinePayload = input.inlinePayload := by
  unfold acceptNewTaskRootIngress at h
  obtain ⟨_, h⟩ := of_bind h
  obtain ⟨_, h⟩ := of_bind h
  replace h := of_throwWhen h
  replace h := of_check h
  obtain ⟨_, h⟩ := of_bind h
  obtain ⟨⟨_, _⟩, -, h⟩ := bind_eq_ok.mp h
  obtain ⟨_, h⟩ := of_bind h
  obtain ⟨_, h⟩ := of_bind h
  cases pure_eq_ok.mp h
  exact ⟨rfl, rfl⟩

lemma IngressLog.accept (hlog : IngressLog db.ingresses)
    (h : acceptTaskRootIngressInTransaction db input = .ok (row, db')) : IngressLog db'.ingresses := by
  obtain ⟨_, _, _, ⟨-, -, -, rfl⟩ | ⟨hfresh, hnew⟩⟩ := acceptTaskRootIngress_cases h
  · exact hlog
  · have haccepts := acceptNewTaskRootIngress_eq_ok hnew
    obtain ⟨hsource, hinline⟩ := acceptNewTaskRootIngress_source hnew
    obtain ⟨_, _, htables⟩ := haccepts.tables
    have hrows : db'.ingresses = db.ingresses ++ [row] := by rw [htables]
    have hkey : row.source = input.source ∧ row.sourceID = input.sourceID := by
      simp only [TaskRootIngressRow.sourceKey, AcceptTaskRootIngressInput.sourceKey, Prod.mk.injEq] at hsource
      exact hsource.2
    rw [hrows]
    constructor
    · refine hlog.dense.concat ?_
      rw [haccepts.sequence, latestIngressSequence_eq, TaskRootIngressRow.lane, haccepts.taskID,
        haccepts.executionEpoch]
    · rw [map_append, map_singleton, nodup_append']
      refine ⟨hlog.sources, nodup_singleton _, ?_⟩
      rw [disjoint_singleton]
      intro hmem
      obtain ⟨other, hother, hsame⟩ := List.mem_map.mp hmem
      exact hfresh other hother (hsame.trans hsource)
    · refine forall_mem_append.mpr ⟨hlog.epochs, forall_mem_singleton.mpr ?_⟩
      rwa [haccepts.executionEpoch]
    · refine forall_mem_append.mpr ⟨hlog.identities, forall_mem_singleton.mpr ?_⟩
      rwa [hkey.2]
    · refine forall_mem_append.mpr ⟨hlog.payloads, forall_mem_singleton.mpr ?_⟩
      rwa [hkey.1, hinline]

lemma ingressLog_of_run (hlog : IngressLog db.ingresses) (hrun : Relation.ReflTransGen IngressStep db db') :
    IngressLog db'.ingresses := by
  induction hrun with
  | refl => exact hlog
  | tail _ hstep ih =>
    cases hstep with
    | accept h => exact ih.accept h
    | aside h => rwa [h]

omit [TaskRootIdentity] in
lemma IngressLog.find?_eq (hlog : IngressLog db.ingresses) (hrow : row ∈ db.ingresses)
    (hkey : row.sourceKey = input.sourceKey) :
    (db.ingresses.find? fun other =>
      other.taskID = input.taskID ∧ other.source = input.source ∧ other.sourceID = input.sourceID) =
        some row := by
  have hfields : row.taskID = input.taskID ∧ row.source = input.source ∧ row.sourceID = input.sourceID := by
    simpa only [TaskRootIngressRow.sourceKey, AcceptTaskRootIngressInput.sourceKey, Prod.mk.injEq] using hkey
  cases hfound : db.ingresses.find? fun other =>
      other.taskID = input.taskID ∧ other.source = input.source ∧ other.sourceID = input.sourceID with
  | none => exact absurd (decide_eq_true hfields) (find?_eq_none.mp hfound row hrow)
  | some other =>
    have hother : other.taskID = input.taskID ∧ other.source = input.source ∧ other.sourceID = input.sourceID := by
      simpa using find?_some hfound
    have hsame : other.sourceKey = row.sourceKey := by
      simp only [TaskRootIngressRow.sourceKey, hother, hfields]
    exact congrArg some (inj_on_of_nodup_map hlog.sources (mem_of_find?_eq_some hfound) hrow hsame)

lemma IngressLog.replay (hlog : IngressLog db.ingresses) (hrow : row ∈ db.ingresses)
    (hkey : row.sourceKey = input.sourceKey) (hdeleted : db.taskDeleted input.taskID = false)
    (hepoch : row.executionEpoch = input.executionEpoch) (hpayload : row.inlinePayload = input.inlinePayload)
    (hpolicy : ∃ policy ∈ db.findPolicy row.policyID, policy.Agrees input) :
    acceptTaskRootIngressInTransaction db input = .ok (row, db) := by
  have hfields : row.taskID = input.taskID ∧ row.source = input.source ∧ row.sourceID = input.sourceID := by
    simpa only [TaskRootIngressRow.sourceKey, AcceptTaskRootIngressInput.sourceKey, Prod.mk.injEq] using hkey
  have hpositive := hlog.epochs row hrow
  have hidentity := hlog.identities row hrow
  have hinline := hlog.payloads row hrow
  rw [hepoch] at hpositive
  rw [hfields.2.2] at hidentity
  rw [hfields.2.1, hpayload] at hinline
  obtain ⟨_, hfound, hagrees⟩ := hpolicy
  rw [Option.mem_def] at hfound
  unfold acceptTaskRootIngressInTransaction
  rw [hlog.find?_eq hrow hkey]
  simp [throwWhen, replayTaskRootIngress, bind, Except.bind, pure, Except.pure, hdeleted, hpositive,
    hidentity, hinline, hepoch, hpayload, hfound, hagrees]

theorem taskRootIngress_dense_and_idempotent {db₀ : TaskRootDatabase} (hempty : db₀.ingresses = [])
    (hrun : Relation.ReflTransGen IngressStep db₀ db) :
    (∀ taskID executionEpoch,
      ((db.ingresses.filter fun row => row.lane = (taskID, executionEpoch)).map (·.sequence)) =
        List.range' 1 (db.ingresses.filter fun row => row.lane = (taskID, executionEpoch)).length) ∧
    (db.ingresses.map TaskRootIngressRow.sourceKey).Nodup ∧
    ∀ existing ∈ db.ingresses, ∀ input : AcceptTaskRootIngressInput,
      existing.sourceKey = input.sourceKey →
        (∀ answer, acceptTaskRootIngressInTransaction db input = .ok answer → answer = (existing, db)) ∧
        (db.taskDeleted input.taskID = false → existing.executionEpoch = input.executionEpoch →
          existing.inlinePayload = input.inlinePayload →
          (∃ policy ∈ db.findPolicy existing.policyID, policy.Agrees input) →
            acceptTaskRootIngressInTransaction db input = .ok (existing, db)) := by
  have hlog₀ : IngressLog db₀.ingresses := by
    rw [hempty]
    exact ⟨Dense.nil, nodup_nil, by simp, by simp, by simp⟩
  have hlog := ingressLog_of_run hlog₀ hrun
  refine ⟨fun taskID executionEpoch => hlog.dense (taskID, executionEpoch), hlog.sources, ?_⟩
  intro existing hexisting input hkey
  refine ⟨?_, hlog.replay hexisting hkey⟩
  rintro ⟨_, _⟩ haccepted
  obtain ⟨-, -, -, ⟨hrow, hsame, -, rfl⟩ | ⟨hfresh, -⟩⟩ := acceptTaskRootIngress_cases haccepted
  · have heq := inj_on_of_nodup_map hlog.sources hrow hexisting (hsame.trans hkey.symm)
    rw [heq]
  · exact absurd hkey (hfresh existing hexisting)

end Positions

/-! ### Two Tasks -/

@[reducible] def taskIdentity : TaskRootIdentity where
  taskRootIngressID := fun taskID _ sourceID => taskID ++ "/" ++ sourceID
  taskRootIngressPolicyID := fun _ _ _ => "art_policy"
  stableInlineSource := fun _ => "inline"
  dispositionArtifactID := fun _ ingressID => ingressID
  taskRootIngressOperatorGateID := fun ingressID state _ => ingressID ++ "/" ++ state
  toolOutcomePartIdentity := id
  providerOutcomeIdentity := id

def twoTasks : TaskRootDatabase :=
  { tasks := [⟨"tsk_1", "prj_1", some "ses_1"⟩, ⟨"tsk_2", "prj_1", some "ses_2"⟩], sessions := [],
    closedProjects := [], fencedSessions := [],
    events := [⟨"evt_1", .opened, "tsk_1", 1, 1, 1⟩, ⟨"evt_2", .opened, "tsk_2", 2, 1, 1⟩],
    protocolEvents := [], messages := [], toolRequests := [], toolOutcomes := [], parts := [],
    providerRequests := [], providerOutcomes := [], interactions := [], artifacts := [], waits := [],
    waitSettlements := [], policies := [], ingresses := [], activations := ⟨[], []⟩ }

def inlineNote (taskID : String) : AcceptTaskRootIngressInput :=
  { taskID := taskID, executionEpoch := 1, source := .inline, sourceID := "inline",
    inlinePayload := some ⟨some "note", none, none, none, none, none, none, none, none, none⟩,
    semanticTurnLimit := 3, activationLimit := 4, absoluteDeadline := none, now := 2 }

def bothAccepted : TaskRootDatabase :=
  { twoTasks with
    policies := [⟨"art_policy", 3, 4, none⟩]
    ingresses :=
      [⟨"tsk_1/inline", "tsk_1", "prj_1", 1, 1, .inline, "inline", (inlineNote "tsk_1").inlinePayload,
          "art_policy", 2⟩,
        ⟨"tsk_2/inline", "tsk_2", "prj_1", 1, 1, .inline, "inline", (inlineNote "tsk_2").inlinePayload,
          "art_policy", 2⟩] }

/-- Both acceptances are answered. -/
lemma run_bothAccepted :
    letI := taskIdentity
    Relation.ReflTransGen IngressStep twoTasks bothAccepted := by
  let _ : TaskRootIdentity := taskIdentity
  have hrun : ∃ row db, acceptTaskRootIngressInTransaction twoTasks (inlineNote "tsk_1") = .ok (row, db) ∧
      ∃ row', acceptTaskRootIngressInTransaction db (inlineNote "tsk_2") = .ok (row', bothAccepted) :=
    ⟨_, _, rfl, _, rfl⟩
  obtain ⟨_, _, haccept, _, haccept'⟩ := hrun
  exact .tail (.tail .refl (.accept haccept)) (.accept haccept')

theorem accepted_by_two_tasks :
    letI := taskIdentity
    Relation.ReflTransGen IngressStep twoTasks bothAccepted ∧ twoTasks.ingresses = [] ∧
      ¬(bothAccepted.ingresses.map fun row => (row.source, row.sourceID)).Nodup :=
  ⟨run_bothAccepted, rfl, by decide⟩

/-- Within each Task the source is accepted once, in the first position. -/
theorem dense_two_tasks :
    letI := taskIdentity
    (bothAccepted.ingresses.map TaskRootIngressRow.sourceKey).Nodup ∧
      ((bothAccepted.ingresses.filter fun row => row.lane = ("tsk_2", 1)).map (·.sequence)) =
        List.range' 1 (bothAccepted.ingresses.filter fun row => row.lane = ("tsk_2", 1)).length := by
  let _ : TaskRootIdentity := taskIdentity
  obtain ⟨hdense, hsources, -⟩ := taskRootIngress_dense_and_idempotent rfl run_bothAccepted
  exact ⟨hsources, hdense "tsk_2" 1⟩

end OpenCorvus.Engine
