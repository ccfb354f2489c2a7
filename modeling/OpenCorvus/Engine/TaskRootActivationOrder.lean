import OpenCorvus.Engine.TaskRootReleased

/-!
# The order of activations

The system of everything that happens to the ingresses of a Task: they are accepted, activated and renewed, their
conversation is written, the Task is cancelled, ended, reopened and deleted, and an ingress with a Host fault is
abandoned.  Every call is one transaction at an instant of a shared clock that does not go backwards.
-/

namespace OpenCorvus.Engine

open EcmaScript Transaction UniqueIndex ExecutableSystem Session List TaskRootDatabase ControlLeaseTables KeepsActivations ConversationGrows

/-! ## The system -/

section System

variable [Collation] [TaskRootIdentity]

/-- What may happen to the database, each in one transaction. -/
inductive ActivationCall where
  /-- The tables that the calls below only read. -/
  | host (tasks : List TaskRow) (sessions : List SessionRow) (closedProjects : List String)
      (fencedSessions : List (String × String)) (protocolEvents : List ProtocolEventRow)
      (waits : List TaskWaitRegistrationRow)
  /-- An Artifact that disposes of no ingress. -/
  | writeArtifact (id taskID kind : String)
  | accept (input : AcceptTaskRootIngressInput)
  | acquire (input : AcquireTaskRootIngressLeaseInput)
  | renew (input : RenewTaskRootIngressLeaseInput)
  | writeMessage (msg : MessageRow)
  /-- A Tool call, with the body of its id. -/
  | writeToolPart (body : String) (part : ToolPart)
  | writeContentPart (part : ContentPart) (completedCompactionCheckpoint : Bool)
  /-- The start of a Provider call, with the body of its id. -/
  | startProvider (assistantMessageID body sessionID : String)
  | endProvider (assistantMessageID id : String) (outcome : ProviderActivityOutcome)
      (errorName : Option String) (rest : String)
  | lifecycle (id taskID : String) (write : TaskLifecycleWrite)
  | abandon (taskID ingressID : String)

def ActivationCall.run (db : TaskRootDatabase) (now : ℤ) : ActivationCall → Except EngineError TaskRootDatabase
  | .host tasks sessions closedProjects fencedSessions protocolEvents waits =>
    .ok { db with
      tasks := tasks, sessions := sessions, closedProjects := closedProjects,
      fencedSessions := fencedSessions, protocolEvents := protocolEvents, waits := waits }
  | .writeArtifact id taskID kind => do
    throwWhen (db.artifacts.any fun row => row.id = id) (.database "UNIQUE constraint failed: engine_artifact.id")
    return { db with artifacts := db.artifacts ++ [{ id, taskID, payload := .other kind }] }
  | .accept input =>
    (acceptTaskRootIngressInTransaction db { input with now := now }).map (·.2)
  | .acquire input =>
    (acquireTaskRootIngressLease db { input with now := now } readTaskRootIngressEvidence).map (·.2)
  | .renew input => renewTaskRootIngressLease db { input with now := now }
  | .writeMessage msg => upsertMessageRow db msg now
  | .writeToolPart body part => updateToolPart db { part with id := partID body } now
  | .writeContentPart part checkpoint => updateContentPart db part now checkpoint
  | .startProvider assistantMessageID body sessionID =>
    recordProviderActivityEvent db assistantMessageID (.started (activityID body) sessionID) now
  | .endProvider assistantMessageID id outcome errorName rest =>
    recordProviderActivityEvent db assistantMessageID (.terminal id outcome errorName rest) now
  | .lifecycle id taskID write =>
    (writeTaskLifecycle db.events id taskID now write).map fun events => { db with events := events }
  | .abandon taskID ingressID =>
    abandonTaskRootIngress db taskID ingressID now readTaskRootIngressEvidence

/-- The database and the instant of the last transaction. -/
structure ActivationState where
  db : TaskRootDatabase
  clock : ℤ
deriving DecidableEq

def activationStep (s : ActivationState) (call : ℤ × ActivationCall) : Option ActivationState :=
  if call.1 < s.clock then none
  else
    match call.2.run s.db call.1 with
    | .ok db => some ⟨db, call.1⟩
    | .error _ => some ⟨s.db, call.1⟩

/-- No Task has started, no ingress was accepted, and nobody was asked anything. -/
structure TaskRootDatabase.Unstarted (db : TaskRootDatabase) : Prop where
  events : db.events = []
  ingresses : db.ingresses = []
  leases : db.activations.leases = []
  interactions : db.interactions = []
  undisposed : ∀ row ∈ db.artifacts, ∀ taskID ingressID, row.dispositionOf taskID ingressID = none
  conversation : ConversationSound db

end System

/-! ## What the order is -/

section Order

variable [Collation]

def ProjectsToLeased (db : TaskRootDatabase) (ingress : TaskRootIngressRow) (now : ℤ) : Prop :=
  ∃ activationID ownerOccurrenceID expiresAt,
    projectTaskRootIngress db ingress.id now readTaskRootIngressEvidence =
      .ok (.leased activationID ownerOccurrenceID expiresAt)

/-- The ingress projects to a state that releases the head of line.  Of an abandoned ingress the
disposition alone decides this, whatever else is read about it. -/
def ProjectsToReleased (db : TaskRootDatabase) (ingress : TaskRootIngressRow) (now : ℤ) : Prop :=
  (∃ projection, projectTaskRootIngress db ingress.id now readTaskRootIngressEvidence =
      .ok projection ∧ taskRootIngressReleasesHeadOfLine projection = true) ∨
    ∃ evidenceIDs, ∀ policy integrityViolation evidence lifecycle, reduceTaskRootIngressFacts
        (assembleFacts db ingress policy integrityViolation evidence lifecycle) now =
          .operatorAbandoned evidenceIDs

structure TaskRootIngressRow.Precedes (first second : TaskRootIngressRow) : Prop where
  task : first.taskID = second.taskID
  epoch : first.executionEpoch = second.executionEpoch
  sequence : first.sequence < second.sequence

structure ActivationsOrdered (db : TaskRootDatabase) (now : ℤ) : Prop where
  exclusive : ∀ first ∈ db.ingresses, ∀ second ∈ db.ingresses,
    first.taskID = second.taskID → first.executionEpoch = second.executionEpoch →
      ProjectsToLeased db first now → ProjectsToLeased db second now → first = second
  fifo : ∀ input activationID expiresAt db', input.now = now →
    acquireTaskRootIngressLease db input readTaskRootIngressEvidence =
      .ok (.acquired activationID expiresAt, db') → ∃ ingress ∈ db.ingresses, ingress.id = input.ingressID ∧
          ∀ first ∈ db.ingresses, first.Precedes ingress → ProjectsToReleased db first now
  limited : ∀ ingress ∈ db.ingresses, ∃ policy, db.findPolicy ingress.policyID = some policy ∧
    (db.activations.ofTarget .taskRootIngress ingress.id).length ≤ policy.activationLimit

/-- What holds of every run. -/
structure ActivationInv (db : TaskRootDatabase) (clock : ℤ) : Prop where
  tables : SoundTables db clock
  ingressIDs : PrimaryKey TaskRootIngressRow.id db.ingresses
  positions : ∀ first ∈ db.ingresses, ∀ second ∈ db.ingresses, first.taskID = second.taskID →
    first.executionEpoch = second.executionEpoch → first.sequence = second.sequence → first = second
  policies : ∀ ingress ∈ db.ingresses, ∃ policy, db.findPolicy ingress.policyID = some policy
  onlyAbandons : OnlyAbandons db.artifacts
  owned : ∀ lease ∈ db.activations.leases, lease.target = .taskRootIngress →
    ∃ ingress ∈ db.ingresses, ingress.id = lease.targetID
  limited : ∀ ingress ∈ db.ingresses, ∀ policy, db.findPolicy ingress.policyID = some policy →
    (db.activations.ofTarget .taskRootIngress ingress.id).length ≤ policy.activationLimit
  /-- Whatever comes before an activated ingress has released its place. -/
  ordered : ∀ first ∈ db.ingresses, ∀ second ∈ db.ingresses, first.Precedes second →
    db.activations.ofTarget .taskRootIngress second.id ≠ [] → Released db first clock

variable {db db' : TaskRootDatabase} {clock now : ℤ}

/-- No Task has started. -/
lemma activationInv_of_unstarted (h : db.Unstarted) (clock : ℤ) : ActivationInv db clock := by
  have hnone : ∀ {lease}, lease ∉ db.activations.leases := by
    intro lease hlease
    rw [h.leases] at hlease
    cases hlease
  have hempty : ∀ {ingress}, ingress ∉ db.ingresses := by
    intro ingress hingress
    rw [h.ingresses] at hingress
    cases hingress
  refine ⟨⟨?_, h.conversation, h.interactions, fun _ hlease => absurd hlease hnone⟩, ?_, ?_, ?_, ?_,
    fun _ hlease => absurd hlease hnone, ?_, ?_⟩
  · rw [h.events]
    exact TaskEventLog.nil clock
  · rw [h.ingresses]
    exact primaryKey_nil
  · exact fun _ hfirst => absurd hfirst hempty
  · exact fun _ hingress => absurd hingress hempty
  · intro row hrow taskID ingressID payload hpayload
    rw [h.undisposed row hrow] at hpayload
    cases hpayload
  · exact fun _ hingress => absurd hingress hempty
  · exact fun _ hfirst => absurd hfirst hempty

lemma ActivationInv.mono (h : ActivationInv db clock) (hle : clock ≤ now) : ActivationInv db now :=
  { h with
    tables := { h.tables with log := h.tables.log.mono hle }
    ordered := fun first hfirst second hsecond hprecedes hactivated =>
      (h.ordered first hfirst second hsecond hprecedes hactivated).mono hle }

variable {ingress : TaskRootIngressRow}

lemma ActivationInv.stored (h : ActivationInv db clock) (hingress : ingress ∈ db.ingresses) :
    db.findIngress ingress.id = some ingress :=
  h.ingressIDs.find?_eq_some hingress

/-! ## Transactions that neither accept nor activate -/

section

variable (h : ActivationInv db now)

include h

lemma ActivationInv.quiet (htables : SoundTables db' now) (hingresses : db'.ingresses = db.ingresses)
    (hpolicies : db'.policies = db.policies) (honly : OnlyAbandons db'.artifacts)
    (hkeeps : ∀ ingressID, Keeps db db' now ingressID) : ActivationInv db' now := by
  have hfind : ∀ policyID, db'.findPolicy policyID = db.findPolicy policyID := by
    intro policyID
    unfold findPolicy
    rw [hpolicies]
  refine ⟨htables, ?_, ?_, ?_, honly, ?_, ?_, ?_⟩
  · rw [hingresses]
    exact h.ingressIDs
  · rw [hingresses]
    exact h.positions
  · intro ingress hingress
    rw [hfind]
    exact h.policies ingress (hingresses ▸ hingress)
  · intro lease' hlease' htarget
    obtain ⟨touch, htouch⟩ := (hkeeps lease'.targetID).activations
    have hmem : lease' ∈ db'.activations.ofTarget .taskRootIngress lease'.targetID :=
      mem_ofTarget.mpr ⟨hlease', htarget, rfl⟩
    rw [htouch.activations] at hmem
    obtain ⟨lease, hlease, hsame⟩ := List.mem_map.mp hmem
    obtain ⟨hrow, hrowTarget, hrowID⟩ := mem_ofTarget.mp hlease
    obtain ⟨ingress, hingress, hid⟩ := h.owned lease hrow hrowTarget
    exact ⟨ingress, hingresses ▸ hingress, hid.trans hrowID⟩
  · intro ingress hingress policy hpolicy
    obtain ⟨touch, htouch⟩ := (hkeeps ingress.id).activations
    rw [hfind] at hpolicy
    rw [htouch.activations, length_map]
    exact h.limited ingress (hingresses ▸ hingress) policy hpolicy
  · intro first hfirst second hsecond hprecedes hactivated
    obtain ⟨touch, htouch⟩ := (hkeeps second.id).activations
    rw [htouch.activations, Ne, map_eq_nil_iff] at hactivated
    have hreleased := h.ordered first (hingresses ▸ hfirst) second (hingresses ▸ hsecond) hprecedes hactivated
    exact hreleased.keeps h.tables (hkeeps first.id) htables.noInteractions

lemma ActivationInv.conversationWrite (hwrite : ConversationWrite db db') : ActivationInv db' now := by
  refine h.quiet ⟨?_, hwrite.sound, ?_, ?_⟩ hwrite.same.ingresses hwrite.same.policies ?_ ?_
  · rw [hwrite.same.events]
    exact h.tables.log
  · rw [hwrite.same.interactions]
    exact h.tables.noInteractions
  · rw [hwrite.same.activations]
    exact h.tables.namedActivations
  · rw [hwrite.same.artifacts]
    exact h.onlyAbandons
  · intro ingressID
    refine ⟨?_, ?_, ?_, hwrite.grows, ⟨id, of_eq (by rw [hwrite.same.activations])⟩⟩
    · rw [hwrite.same.events]
      exact Subset.refl _
    · unfold taskRootIngressDispositionInTransaction
      rw [hwrite.same.artifacts]
      exact fun _ _ _ hpayload => hpayload
    · unfold findPolicy
      rw [hwrite.same.policies]
      exact fun _ _ hpolicy => hpolicy

lemma ActivationInv.appendArtifacts {rows : List EngineArtifactRow} (honly : OnlyAbandons rows) :
    ActivationInv { db with artifacts := db.artifacts ++ rows } now := by
  refine h.quiet { h.tables with conversation := { h.tables.conversation with } } rfl rfl ?_
    fun ingressID => ?_
  · intro row hrow
    rcases mem_append.mp hrow with hold | hnew
    · exact h.onlyAbandons row hold
    · exact honly row hnew
  · exact ⟨Subset.refl _, fun _ _ _ hpayload => disposition_append rfl hpayload,
      fun _ _ hpolicy => hpolicy, of_eq rfl rfl rfl rfl rfl rfl, id,
      of_eq rfl⟩

lemma ActivationInv.appendsEvent {events : List TaskEvent} (happends : AppendsEvent db.events events now) :
    ActivationInv { db with events := events } now := by
  have htables : SoundTables { db with events := events } now :=
    { h.tables with
      log := h.tables.log.appendsEvent happends
      conversation := { h.tables.conversation with } }
  refine h.quiet htables rfl rfl h.onlyAbandons fun ingressID => ?_
  exact ⟨happends.subset, fun _ _ _ hpayload => hpayload, fun _ _ hpolicy => hpolicy,
    of_eq rfl rfl rfl rfl rfl rfl, id, of_eq rfl⟩

lemma ActivationInv.renew {input : RenewTaskRootIngressLeaseInput} (hnow : input.now = now)
    (hrenew : renewTaskRootIngressLease db input = .ok db') : ActivationInv db' now := by
  obtain ⟨lease, ingress, lifecycle, policy, current, activations, hpasses, hleases, rfl⟩ :=
    renewTaskRootIngressLease_eq_ok hrenew
  let touch : ControlLease → ControlLease := fun row =>
    if input.claim.matches current row then { row with expiresAt := input.expiresAt } else row
  have hsame : ∀ row, (touch row).SameIdentity row := by
    intro row
    by_cases hmatches : input.claim.matches current row = true
    · simp only [touch, hmatches, if_true]
      exact row.sameIdentity_expiresAt input.expiresAt
    · simp only [touch, hmatches]
      exact ⟨rfl, rfl, rfl, rfl, rfl⟩
  have hmap : activations.leases = db.activations.leases.map touch := hleases
  have hofTarget : ∀ ingressID, activations.ofTarget .taskRootIngress ingressID =
      (db.activations.ofTarget .taskRootIngress ingressID).map touch := by
    intro ingressID
    unfold ofTarget
    rw [hmap, List.filter_map]
    congr 1
    refine filter_congr fun row _ => ?_
    simp only [Function.comp_apply, (hsame row).target, (hsame row).targetID]
  have hnamed : ∀ row ∈ activations.leases, row.target = .taskRootIngress → row.id ≠ "" := by
    intro row hrow htarget
    rw [hmap] at hrow
    obtain ⟨old, hold, rfl⟩ := List.mem_map.mp hrow
    rw [(hsame old).id]
    exact h.tables.namedActivations old hold ((hsame old).target ▸ htarget)
  have htables : SoundTables { db with activations := activations } now :=
    { h.tables with
      conversation := { h.tables.conversation with }
      namedActivations := hnamed }
  -- The row that the update matches passes the fence.
  have huntouched : ∀ row : ControlLease,
      row.expiresAt ≤ now ∨ activationConsumedInTransaction db row.id = true → touch row = row := by
    intro row hover
    refine if_neg fun hmatches => ?_
    obtain ⟨hid, -, hunexpired⟩ := of_decide_eq_true hmatches
    rcases hover with hexpired | hconsumed
    · have hclaim : input.claim.now = now := hnow
      omega
    · have hactivation : row.id = input.activationID := hid
      rw [hactivation, hpasses.notConsumed] at hconsumed
      cases hconsumed
  refine h.quiet htables rfl rfl h.onlyAbandons fun ingressID => ?_
  exact ⟨Subset.refl _, fun _ _ _ hpayload => hpayload, fun _ _ hpolicy => hpolicy,
    of_eq rfl rfl rfl rfl rfl rfl, touch, hsame, fun row _ => huntouched row,
    hofTarget ingressID⟩

end

/-! ## Acceptance -/

omit [Collation] in
lemma sequence_le_latest (hingress : ingress ∈ db.ingresses) :
    ingress.sequence ≤ latestIngressSequence db ingress.taskID ingress.executionEpoch := by
  have hmax := maxOrZero_le_iff.mp (le_refl (latestIngressSequence db ingress.taskID ingress.executionEpoch))
  refine hmax ingress.sequence (List.mem_map.mpr ⟨ingress, mem_filter.mpr ⟨hingress, ?_⟩, rfl⟩)
  exact decide_eq_true ⟨rfl, rfl⟩

lemma ActivationInv.acceptsNew [TaskRootIdentity] (h : ActivationInv db now)
    {input : AcceptTaskRootIngressInput} {row : TaskRootIngressRow}
    (haccepts : AcceptsNew db input row db') : ActivationInv db' now := by
  obtain ⟨policies, settlements, hdb⟩ := haccepts.tables
  have hpolicyNew := haccepts.policy
  subst hdb
  have hkeeps : ∀ ingressID, Keeps db { db with
      policies := db.policies ++ policies, ingresses := db.ingresses ++ [row],
      waitSettlements := settlements } now ingressID := by
    intro ingressID
    refine ⟨Subset.refl _, fun _ _ _ hpayload => hpayload, ?_,
      of_eq rfl rfl rfl rfl rfl rfl, id, of_eq rfl⟩
    intro policyID policy hpolicy
    unfold findPolicy at hpolicy ⊢
    rw [find?_append, hpolicy]
    rfl
  have hlast : ∀ ingress ∈ db.ingresses, ingress.taskID = row.taskID →
      ingress.executionEpoch = row.executionEpoch → ingress.sequence < row.sequence := by
    intro ingress hingress htask hepoch
    have hle := sequence_le_latest hingress
    rw [htask, hepoch, haccepts.taskID, haccepts.executionEpoch] at hle
    rw [haccepts.sequence]
    omega
  have hunactivated : db.activations.ofTarget .taskRootIngress row.id = [] := by
    refine eq_nil_iff_forall_not_mem.mpr fun lease hlease => ?_
    obtain ⟨hmem, htarget, htargetID⟩ := mem_ofTarget.mp hlease
    obtain ⟨ingress, hingress, hid⟩ := h.owned lease hmem htarget
    exact haccepts.freshID ingress hingress (hid.trans htargetID)
  refine ⟨{ h.tables with conversation := { h.tables.conversation with } }, h.ingressIDs.concat haccepts.freshID, ?_, ?_, h.onlyAbandons, ?_, ?_, ?_⟩
  · intro first hfirst second hsecond htask hepoch hsequence
    rcases mem_append.mp hfirst with hfirst | hfirst <;>
      rcases mem_append.mp hsecond with hsecond | hsecond
    · exact h.positions first hfirst second hsecond htask hepoch hsequence
    · rw [mem_singleton.mp hsecond] at htask hepoch hsequence
      have hlt := hlast first hfirst htask hepoch
      omega
    · rw [mem_singleton.mp hfirst] at htask hepoch hsequence
      have hlt := hlast second hsecond htask.symm hepoch.symm
      omega
    · rw [mem_singleton.mp hfirst, mem_singleton.mp hsecond]
  · intro ingress hingress
    rcases mem_concat.mp hingress with hold | hnew
    · obtain ⟨policy, hpolicy⟩ := h.policies ingress hold
      exact ⟨policy, (hkeeps ingress.id).policies _ _ hpolicy⟩
    · obtain ⟨policy, hpolicy, -⟩ := hpolicyNew
      rw [hnew]
      exact ⟨policy, hpolicy⟩
  · intro lease hlease htarget
    obtain ⟨ingress, hingress, hid⟩ := h.owned lease hlease htarget
    exact ⟨ingress, mem_append_left _ hingress, hid⟩
  · intro ingress hingress policy hpolicy
    rcases mem_concat.mp hingress with hold | hnew
    · obtain ⟨old, hold'⟩ := h.policies ingress hold
      have hsame := (hkeeps ingress.id).policies _ _ hold'
      obtain rfl : old = policy := Option.some.inj (hsame.symm.trans hpolicy)
      exact h.limited ingress hold old hold'
    · rw [hnew]
      change (db.activations.ofTarget .taskRootIngress row.id).length ≤ _
      rw [hunactivated]
      exact Nat.zero_le _
  · intro first hfirst second hsecond hprecedes hactivated
    rcases mem_append.mp hsecond with hsecond | hsecond
    swap
    · rw [mem_singleton.mp hsecond] at hactivated
      exact absurd hunactivated hactivated
    rcases mem_append.mp hfirst with hfirst | hfirst
    · have hreleased := h.ordered first hfirst second hsecond hprecedes hactivated
      exact hreleased.keeps h.tables (hkeeps first.id) h.tables.noInteractions
    · rw [mem_singleton.mp hfirst] at hprecedes
      have hlt := hlast second hsecond hprecedes.task.symm hprecedes.epoch.symm
      have hgt := hprecedes.sequence
      omega

/-! ## Activation -/

lemma projectsToReleased_of_disposition (h : ActivationInv db clock) (hdisposed : db.undisposed ingress = false) :
    ProjectsToReleased db ingress now ∧ Released db ingress now := by
  unfold undisposed at hdisposed
  obtain ⟨payload, hpayload⟩ := Option.isSome_iff_exists.mp (by simpa using hdisposed)
  obtain ⟨row, hrow, hdisposition⟩ := mem_of_disposition hpayload
  have hoperator := h.onlyAbandons row hrow _ _ payload hdisposition
  refine ⟨Or.inr ⟨payload.evidenceIDs, fun policy integrityViolation evidence lifecycle => ?_⟩,
    .abandoned payload hpayload hoperator⟩
  have habandoned : (assembleFacts db ingress policy integrityViolation evidence lifecycle).operatorAbandoned =
      some ⟨payload.evidenceIDs⟩ := by
    change operatorAbandonedFact (taskRootIngressDispositionInTransaction db ingress.taskID ingress.id) = _
    rw [hpayload]
    simp [operatorAbandonedFact, hoperator]
  unfold reduceTaskRootIngressFacts
  rw [habandoned]

/-- The ingress that an acquisition activates, and what comes before it. -/
structure Grants (db : TaskRootDatabase) (now : ℤ) (ingress : TaskRootIngressRow) : Prop where
  mem : ingress ∈ db.ingresses
  ready : projectTaskRootIngress db ingress.id now readTaskRootIngressEvidence = .ok .ready
  budget : ∀ policy, db.findPolicy ingress.policyID = some policy →
    (db.activations.ofTarget .taskRootIngress ingress.id).length < policy.activationLimit
  before : ∀ first ∈ db.ingresses, first.Precedes ingress → ProjectsToReleased db first now ∧ Released db first now

variable {input : AcquireTaskRootIngressLeaseInput} {activations : ControlLeaseTables}

variable {facts : TaskRootIngressFacts}

/-- An acquisition only activates a ready ingress with a budget, after everything before it has been
released: the loop of the acquisition reads all that is not disposed of. -/
theorem ActivationInv.grants (h : ActivationInv db now) (hnow : input.now = now) {lease : ControlLease}
    (hactivates : Activates db input readTaskRootIngressEvidence facts lease activations) :
    ∃ ingress, ingress.id = input.ingressID ∧ Grants db now ingress := by
  obtain ⟨ingress, policy, evidence, lifecycle, hfind, hpolicy, -, -, hfacts⟩ :=
    taskRootIngressFacts_eq_ok.mp hactivates.factsRead
  have hid := findIngress_id hfind
  have hmem : ingress ∈ db.ingresses := mem_of_find?_eq_some hfind
  have hready : reduceTaskRootIngressFacts facts now = .ready := hnow ▸ hactivates.ready
  refine ⟨ingress, hid, hmem, ?_, ?_, ?_⟩
  · rw [hid]
    exact bind_eq_ok.mpr ⟨facts, hactivates.factsRead, congrArg Except.ok hready⟩
  · intro policy' hpolicy'
    obtain rfl : policy = policy' := Option.some.inj (hpolicy.symm.trans hpolicy')
    have hlive : (reduceTaskRootIngressFacts facts now).Live := by
      rw [hready]
      trivial
    obtain ⟨hundecided, hbudget⟩ := undecided_of_live hlive
    have hfree : heldLease facts now = none := by
      by_contra hne
      obtain ⟨held, hheld⟩ := Option.ne_none_iff_exists'.mp hne
      rw [reduce_of_undecided hundecided, hheld] at hready
      cases hready
    have hunspent := (hbudget hfree).2.2
    unfold BudgetSpent at hunspent
    rw [not_or] at hunspent
    have hlt := not_le.mp hunspent.2
    rw [hfacts, ingressLeases_assembleFacts] at hlt
    unfold activationLeaseFacts at hlt
    rw [length_map, length_toSorted] at hlt
    exact hlt
  · intro first hfirst hprecedes
    by_cases hdisposed : db.undisposed first = false
    · exact projectsToReleased_of_disposition h hdisposed
    obtain ⟨preceding, hpreceding, hblocked⟩ := hactivates.unblocked
    rw [precedingTaskRootIngresses_eq h.ingressIDs.pairwise] at hpreceding
    cases hpreceding
    have hread : first ∈ KeysetPagination.ordered TaskRootIngressRow.frontierKey
        (frontierRows db facts.ingress.taskID facts.ingress.executionEpoch
          (some facts.ingress.sequence)) := by
      rw [KeysetPagination.mem_ordered, mem_frontierRows, hfacts]
      exact ⟨hfirst, hprecedes.task, hprecedes.epoch, hprecedes.sequence, by simpa using hdisposed⟩
    obtain ⟨projection, hproject, hreleases⟩ := releases_of_blockedByIngress hblocked first hread
    rw [hnow] at hproject
    refine ⟨Or.inl ⟨projection, hproject, hreleases⟩, ?_⟩
    refine released_of_releases h.tables ?_ (h.stored hfirst) hproject hreleases
    intro payload hpayload
    obtain ⟨row, hrow, hdisposition⟩ := mem_of_disposition hpayload
    exact h.onlyAbandons row hrow _ _ payload hdisposition

lemma ActivationInv.activates (h : ActivationInv db now) (hnow : input.now = now) {lease : ControlLease}
    (hactivates : Activates db input readTaskRootIngressEvidence facts lease activations) :
    ActivationInv { db with activations := activations } now := by
  obtain ⟨ingress, hid, hgrants⟩ := h.grants hnow hactivates
  have hofTarget : ∀ ingressID, activations.ofTarget .taskRootIngress ingressID =
      db.activations.ofTarget .taskRootIngress ingressID ++
        if ingressID = ingress.id then [lease] else [] := by
    intro ingressID
    unfold ofTarget
    rw [hactivates.leases, filter_append, filter_singleton, hactivates.target, hactivates.targetID, hid]
    by_cases hsame : ingressID = input.ingressID
    · simp [hsame]
    · simp [hsame, Ne.symm hsame]
  have hkeeps : ∀ ingressID, ingressID ≠ ingress.id →
      Keeps db { db with activations := activations } now ingressID := by
    intro ingressID hne
    refine ⟨Subset.refl _, fun _ _ _ hpayload => hpayload, fun _ _ hpolicy => hpolicy,
      of_eq rfl rfl rfl rfl rfl rfl, id, of_eq ?_⟩
    change activations.ofTarget .taskRootIngress ingressID = _
    rw [hofTarget, if_neg hne, List.append_nil]
  have hnamed : ∀ row ∈ activations.leases, row.target = .taskRootIngress → row.id ≠ "" := by
    intro row hrow htarget
    rw [hactivates.leases] at hrow
    rcases mem_concat.mp hrow with hold | hnew
    · exact h.tables.namedActivations row hold htarget
    · rw [hnew]
      exact hactivates.named
  refine ⟨{ h.tables with
    conversation := { h.tables.conversation with }
    namedActivations := hnamed }, h.ingressIDs, h.positions, h.policies, h.onlyAbandons, ?_, ?_, ?_⟩
  · intro row hrow htarget
    change row ∈ activations.leases at hrow
    rw [hactivates.leases] at hrow
    rcases mem_concat.mp hrow with hold | hnew
    · exact h.owned row hold htarget
    · rw [hnew]
      exact ⟨ingress, hgrants.mem, hid.trans hactivates.targetID.symm⟩
  · intro other hother policy hpolicy
    change (activations.ofTarget .taskRootIngress other.id).length ≤ _
    rw [hofTarget]
    by_cases hsame : other.id = ingress.id
    · obtain rfl := h.ingressIDs.eq_of_id hother hgrants.mem hsame
      have hlt := hgrants.budget policy hpolicy
      simp only [if_true, length_append, length_singleton]
      omega
    · rw [if_neg hsame, List.append_nil]
      exact h.limited other hother policy hpolicy
  · intro first hfirst second hsecond hprecedes hactivated
    change activations.ofTarget .taskRootIngress second.id ≠ [] at hactivated
    rw [hofTarget] at hactivated
    have hreleased : Released db first now := by
      by_cases hsame : second.id = ingress.id
      · obtain rfl := h.ingressIDs.eq_of_id hsecond hgrants.mem hsame
        exact (hgrants.before first hfirst hprecedes).2
      · rw [if_neg hsame, List.append_nil] at hactivated
        exact h.ordered first hfirst second hsecond hprecedes hactivated
    -- The activated ingress is ready, so that it has not been released.
    have hother : first.id ≠ ingress.id := by
      intro hsame
      obtain rfl := h.ingressIDs.eq_of_id hfirst hgrants.mem hsame
      exact hreleased.not_live h.tables (h.stored hfirst) hgrants.ready trivial
    exact hreleased.keeps h.tables (hkeeps first.id hother) h.tables.noInteractions

/-! ## Runs -/

variable [TaskRootIdentity]

theorem ActivationInv.run (h : ActivationInv db now) {call : ActivationCall}
    (hrun : call.run db now = .ok db') : ActivationInv db' now := by
  cases call with
  | host =>
    cases hrun
    refine h.quiet { h.tables with conversation := { h.tables.conversation with } } rfl rfl
      h.onlyAbandons fun ingressID => ?_
    exact ⟨Subset.refl _, fun _ _ _ hpayload => hpayload, fun _ _ hpolicy => hpolicy,
      of_eq rfl rfl rfl rfl rfl rfl, id, of_eq rfl⟩
  | writeArtifact =>
    have hdb := of_throwWhen hrun
    cases pure_eq_ok.mp hdb
    refine h.appendArtifacts fun row hrow taskID' ingressID payload hpayload => ?_
    rw [mem_singleton.mp hrow] at hpayload
    cases hpayload
  | accept =>
    obtain ⟨⟨row, accepted⟩, haccept, rfl⟩ := map_eq_ok.mp hrun
    rcases acceptTaskRootIngress_eq_ok haccept with ⟨-, rfl⟩ | haccepts
    · exact h
    · exact h.acceptsNew haccepts
  | acquire =>
    obtain ⟨⟨result, acquired⟩, hacquire, rfl⟩ := map_eq_ok.mp hrun
    rcases acquireTaskRootIngressLease_eq_ok hacquire with
      ⟨projection, blocking, -, rfl⟩ | ⟨facts, lease, activations, hactivates, -, rfl⟩
    · exact h
    · exact h.activates rfl hactivates
  | renew => exact h.renew rfl hrun
  | writeMessage =>
    exact h.conversationWrite (conversationWrite_of_upsertMessageRow h.tables.conversation hrun)
  | writeToolPart body =>
    exact h.conversationWrite (conversationWrite_of_updateToolPart h.tables.conversation ⟨body, rfl⟩ hrun)
  | writeContentPart =>
    exact h.conversationWrite (conversationWrite_of_updateContentPart h.tables.conversation hrun)
  | startProvider _ body sessionID =>
    have hid : (LLMActivityEvent.started (activityID body) sessionID).HasActivityID := ⟨body, rfl⟩
    exact h.conversationWrite (conversationWrite_of_recordProviderActivityEvent h.tables.conversation hid hrun)
  | endProvider assistantMessageID id outcome errorName rest =>
    have hid : (LLMActivityEvent.terminal id outcome errorName rest).HasActivityID := trivial
    have hrecord : recordProviderActivityEvent db assistantMessageID
        (.terminal id outcome errorName rest) now = .ok db' := hrun
    exact h.conversationWrite (conversationWrite_of_recordProviderActivityEvent h.tables.conversation hid hrecord)
  | lifecycle =>
    obtain ⟨events, hwrite, rfl⟩ := map_eq_ok.mp hrun
    exact h.appendsEvent (appendsEvent_of_writeTaskLifecycle hwrite)
  | abandon =>
    obtain ⟨rows, honly, rfl⟩ := abandonTaskRootIngress_eq_ok hrun
    exact h.appendArtifacts honly

lemma preserves_activationInv :
    Preserves activationStep fun s : ActivationState => ActivationInv s.db s.clock := by
  intro s call s' h hstep
  unfold activationStep at hstep
  split_ifs at hstep with hclock
  have hlater := h.mono (not_lt.mp hclock)
  split at hstep
  · rename_i db hrun
    cases hstep
    exact hlater.run hrun
  · cases hstep
    exact hlater

omit [TaskRootIdentity] in
lemma activated_of_projectsToLeased (h : ActivationInv db clock) (hingress : ingress ∈ db.ingresses)
    (hleased : ProjectsToLeased db ingress now) :
    db.activations.ofTarget .taskRootIngress ingress.id ≠ [] := by
  obtain ⟨activationID, ownerOccurrenceID, expiresAt, hproject⟩ := hleased
  obtain ⟨policy, violation, evidence, lifecycle, -, -, -, hreduce⟩ :=
    projectTaskRootIngress_eq_ok h.tables.noInteractions (h.stored hingress) hproject
  intro hnone
  have hlive : (reduceTaskRootIngressFacts
      (assembleFacts db ingress policy violation evidence lifecycle) now).Live := by
    rw [← hreduce]
    trivial
  have hfree : heldLease (assembleFacts db ingress policy violation evidence lifecycle) now = none := by
    unfold heldLease latestTaskRootIngressLease
    rw [ingressLeases_assembleFacts]
    unfold activationLeaseFacts
    rw [hnone]
    rfl
  have hready := ((undecided_of_live hlive).2 hfree).1
  rw [← hreduce] at hready
  cases hready

omit [TaskRootIdentity] in
lemma not_both_leased (h : ActivationInv db now) {first second : TaskRootIngressRow}
    (hfirst : first ∈ db.ingresses) (hsecond : second ∈ db.ingresses)
    (hprecedes : first.Precedes second) (hfirstLeased : ProjectsToLeased db first now)
    (hsecondLeased : ProjectsToLeased db second now) : False := by
  have hreleased := h.ordered first hfirst second hsecond hprecedes
    (activated_of_projectsToLeased h hsecond hsecondLeased)
  obtain ⟨activationID, ownerOccurrenceID, expiresAt, hproject⟩ := hfirstLeased
  exact hreleased.not_live h.tables (h.stored hfirst) hproject trivial

/-- Task-root activations are exclusive, first in and first out, and limited, at every instant of
every run. -/
theorem activationsOrdered_of_exec {s₀ s : ActivationState} {calls : List (ℤ × ActivationCall)}
    (hinit : s₀.db.Unstarted) (hrun : exec activationStep s₀ calls = some s)
    (hnow : s.clock ≤ now) : ActivationsOrdered s.db now := by
  have hinv := preserves_activationInv.exec (activationInv_of_unstarted hinit s₀.clock) hrun
  have h := hinv.mono hnow
  refine ⟨?_, ?_, ?_⟩
  · intro first hfirst second hsecond htask hepoch hfirstLeased hsecondLeased
    rcases lt_trichotomy first.sequence second.sequence with hlt | heq | hgt
    · exact (not_both_leased h hfirst hsecond ⟨htask, hepoch, hlt⟩ hfirstLeased hsecondLeased).elim
    · exact h.positions first hfirst second hsecond htask hepoch heq
    · exact (not_both_leased h hsecond hfirst ⟨htask.symm, hepoch.symm, hgt⟩ hsecondLeased hfirstLeased).elim
  · intro input activationID expiresAt db' hinput hacquire
    rcases acquireTaskRootIngressLease_eq_ok hacquire with
      ⟨projection, blocking, hresult, -⟩ | ⟨facts, lease, activations, hactivates, -, -⟩
    · cases hresult
    · obtain ⟨ingress, hid, hgrants⟩ := h.grants hinput hactivates
      exact ⟨ingress, hgrants.mem, hid, fun first hfirst hprecedes =>
        (hgrants.before first hfirst hprecedes).1⟩
  · intro ingress hingress
    obtain ⟨policy, hpolicy⟩ := h.policies ingress hingress
    exact ⟨policy, hpolicy, h.limited ingress hingress policy hpolicy⟩

end Order

/-! ### Examples -/

def requestAcceptance (requestID : String) : AcceptTaskRootIngressInput :=
  { taskID := "tsk_1", executionEpoch := 1, source := .engineArtifact, sourceID := requestID,
    inlinePayload := none, semanticTurnLimit := 3, activationLimit := 4, absoluteDeadline := none,
    now := 0 }

def requestActivation (ingressID activationID : String) : AcquireTaskRootIngressLeaseInput :=
  { ingressID := ingressID, ownerOccurrenceID := "own_1", now := 0, leaseMilliseconds := 10,
    activationID := activationID, controlOwnerError := none }

def activatingCalls : List (ℤ × ActivationCall) :=
  [(1, .lifecycle "evt_1" "tsk_1" .opened), (1, .writeArtifact "art_later" "tsk_1" "request"),
    (2, .accept (requestAcceptance "art_request")), (3, .accept (requestAcceptance "art_later")),
    (4, .acquire (requestActivation "art_request" "cal_1")),
    (5, .acquire (requestActivation "art_later" "cal_2"))]

lemma requestedDatabase_unstarted : requestedDatabase.Unstarted := by
  refine ⟨rfl, rfl, rfl, rfl, requestedDatabase_fresh.undisposed, ?_⟩
  constructor <;> simp [requestedDatabase]

def activatedState : ActivationState where
  clock := 5
  db := { requestedDatabase with
    events := [⟨"evt_1", .opened, "tsk_1", 1, 1, 1⟩]
    artifacts := requestedDatabase.artifacts ++ [⟨"art_later", "tsk_1", .other "request"⟩]
    policies := [⟨"art_policy", 3, 4, none⟩]
    ingresses :=
      [⟨"art_request", "tsk_1", "prj_1", 1, 1, .engineArtifact, "art_request", none, "art_policy", 2⟩,
        ⟨"art_later", "tsk_1", "prj_1", 1, 2, .engineArtifact, "art_later", none, "art_policy", 3⟩]
    activations := ⟨[⟨"cal_1", .taskRootIngress, "art_request", "own_1", 4, 14⟩],
      [⟨"cal_1", 1, 14, 4⟩]⟩ }

/-- The first request is activated, and the second one waits for it. -/
theorem activationsOrdered_of_activatingCalls :
    letI := sourceIdentity
    letI := codePointCollation
    exec activationStep ⟨requestedDatabase, 0⟩ activatingCalls = some activatedState ∧
      ProjectsToLeased activatedState.db (activatedState.db.ingresses.get ⟨0, by decide⟩) 6 ∧
        ActivationsOrdered activatedState.db 6 := by
  let _ : TaskRootIdentity := sourceIdentity
  let _ : Collation := codePointCollation
  have hrun : exec activationStep ⟨requestedDatabase, 0⟩ activatingCalls = some activatedState := by
    decide
  have hnow : activatedState.clock ≤ 6 := by decide
  refine ⟨hrun, ⟨"cal_1", "own_1", 14, by decide⟩, ?_⟩
  exact activationsOrdered_of_exec requestedDatabase_unstarted hrun hnow

end OpenCorvus.Engine
