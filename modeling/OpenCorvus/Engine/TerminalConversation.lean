import OpenCorvus.Engine.TaskRootFactStore
import OpenCorvus.Engine.TaskRootIngressWake
import OpenCorvus.Foundation.ExecutableSystem

/-!
# Conversation with an ended Task

A Task keeps accepting operator messages and coordination requests after its epoch ended.  Three readers decide
whether such an ingress is live: the reduction (`terminal.time >= timeAccepted` makes it inapplicable), the
activation fence (`terminalAt < time_accepted` lets it proceed), and the project frontier
(`terminal.emitted_at > time_accepted` drops it).
-/

namespace OpenCorvus.Engine

open EcmaScript Transaction UniqueIndex ExecutableSystem List TaskRootDatabase

/-! ## The system -/

section System

variable [TaskRootIdentity]

/-- What may happen to the database, each in one transaction. -/
inductive ConversationCall where
  | createTask (row : TaskRow)
  | writeMessage (row : MessageRow)
  /-- An Artifact that disposes of no ingress. -/
  | writeArtifact (id taskID kind : String)
  | lifecycle (id taskID : String) (write : TaskLifecycleWrite)
  | persist (task : TaskRow) (event : OrchestratorEvent) (identity : TaskRootIngressIdentity)

def ConversationCall.run (db : TaskRootDatabase) (now : ℤ) : ConversationCall → Except EngineError TaskRootDatabase
  | .createTask row => do
    throwWhen (db.findTask row.id).isSome (.database "UNIQUE constraint failed: engine_task.id")
    return { db with tasks := db.tasks ++ [row] }
  | .writeMessage row => do
    throwWhen (db.findMessage row.id).isSome (.database "UNIQUE constraint failed: message.id")
    return { db with messages := db.messages ++ [row] }
  | .writeArtifact id taskID kind => do
    throwWhen (db.artifacts.any fun row => row.id = id) (.database "UNIQUE constraint failed: engine_artifact.id")
    return { db with artifacts := db.artifacts ++ [{ id, taskID, payload := .other kind }] }
  | .lifecycle id taskID write => do
    let events ← writeTaskLifecycle db.events id taskID now write
    return { db with events := events }
  | .persist task event identity => do
    let accepted ← persistTaskRootIngressInTransaction db task event identity now
    return accepted.2

/-- The database and the instant of the last transaction. -/
structure ConversationState where
  db : TaskRootDatabase
  clock : ℤ
deriving DecidableEq

def conversationStep (s : ConversationState) (call : ℤ × ConversationCall) : Option ConversationState :=
  if call.1 < s.clock then none
  else
    match call.2.run s.db call.1 with
    | .ok db => some ⟨db, call.1⟩
    | .error _ => some ⟨s.db, call.1⟩

structure TaskRootDatabase.Fresh (db : TaskRootDatabase) : Prop where
  events : db.events = []
  ingresses : db.ingresses = []
  undisposed : ∀ row ∈ db.artifacts, ∀ taskID ingressID, row.dispositionOf taskID ingressID = none

end System

/-! ## What each reader answers -/

def ReducerLive [Collation] (db : TaskRootDatabase) (ingress : TaskRootIngressRow) (now : ℤ) : Prop :=
  ∃ projection, projectTaskRootIngress db ingress.id now (fun _ _ => .ok EMPTY_EVIDENCE) =
    .ok projection ∧ ∀ boundary, projection ≠ .terminalInapplicable boundary

def FenceLive (db : TaskRootDatabase) (ingress : TaskRootIngressRow) : Prop :=
  ∃ activations messages activationID now fence, assertTaskRootActivationLeaseFenceInTransaction
      { db with activations := activations, messages := messages } activationID now false =
        .ok fence ∧ fence.ingressID = ingress.id

def FrontierLive (db : TaskRootDatabase) (ingress : TaskRootIngressRow) : Prop :=
  currentInProjectFrontier db ingress = true

def InCurrentEpoch (db : TaskRootDatabase) (ingress : TaskRootIngressRow) : Prop :=
  db.taskDeleted ingress.taskID = false ∧ ∀ row ∈ db.events, row.aggregateID = ingress.taskID → row.type.isOpen →
      row.epoch ≤ ingress.executionEpoch

/-! ## The invariant of the system -/

structure ConversationInv (s : ConversationState) : Prop where
  log : TaskEventLog s.db.events s.clock
  stored : ∀ ingress ∈ s.db.ingresses, s.db.findIngress ingress.id = some ingress
  policy : ∀ ingress ∈ s.db.ingresses, ∃ policy, s.db.findPolicy ingress.policyID = some policy
  opened : ∀ ingress ∈ s.db.ingresses, ∃ row ∈ s.db.events,
    row.aggregateID = ingress.taskID ∧ row.type.isOpen ∧ row.epoch = ingress.executionEpoch
  undisposed : ∀ row ∈ s.db.artifacts, ∀ taskID ingressID, row.dispositionOf taskID ingressID = none

structure Grows (db db' : TaskRootDatabase) : Prop where
  events : db.events ⊆ db'.events
  ingresses : db.ingresses ⊆ db'.ingresses

lemma Grows.of_eq {db db' : TaskRootDatabase} (hevents : db'.events = db.events)
    (hingresses : db'.ingresses = db.ingresses) : Grows db db' := by
  constructor
  · rw [hevents]
    exact Subset.refl _
  · rw [hingresses]
    exact Subset.refl _

lemma Grows.trans {db db' db'' : TaskRootDatabase} (h : Grows db db') (h' : Grows db' db'') : Grows db db'' :=
  ⟨Subset.trans h.events h'.events, Subset.trans h.ingresses h'.ingresses⟩

variable {s : ConversationState}

lemma conversationInv_of_fresh (h : s.db.Fresh) : ConversationInv s := by
  constructor
  · rw [h.events]
    exact TaskEventLog.nil s.clock
  · simp [h.ingresses]
  · simp [h.ingresses]
  · simp [h.ingresses]
  · exact h.undisposed

lemma ConversationInv.mono (h : ConversationInv s) {now : ℤ} (hle : s.clock ≤ now) : ConversationInv ⟨s.db, now⟩ :=
  { h with log := h.log.mono hle }

lemma ConversationInv.acceptsNew (h : ConversationInv s) {input : AcceptTaskRootIngressInput}
    {row : TaskRootIngressRow} {db : TaskRootDatabase} (haccepts : AcceptsNew s.db input row db) :
    ConversationInv ⟨db, s.clock⟩ ∧ Grows s.db db := by
  obtain ⟨_, _, hdb⟩ := haccepts.tables
  obtain ⟨policy, hpolicy, -⟩ := haccepts.policy
  obtain ⟨_, hlifecycle, hepoch⟩ := haccepts.currentEpoch
  obtain ⟨-, ⟨opening, hopening, htask, hopen, hopeningEpoch⟩, -⟩ :=
    epoch_of_taskLifecycleProjection hlifecycle
  subst hdb
  refine ⟨⟨h.log, ?_, ?_, ?_, h.undisposed⟩, ⟨Subset.refl _, subset_append_left _ _⟩⟩
  · intro ingress hingress
    unfold findIngress
    rw [find?_append]
    rcases mem_append.mp hingress with hold | hnew
    · have hstored := h.stored ingress hold
      unfold findIngress at hstored
      rw [hstored]
      rfl
    · rw [mem_singleton] at hnew
      subst hnew
      have hnone : s.db.ingresses.find? (fun other => other.id = ingress.id) = none := by
        rw [find?_eq_none]
        intro other hother
        simpa using haccepts.freshID other hother
      rw [hnone]
      simp
  · intro ingress hingress
    rcases mem_append.mp hingress with hold | hnew
    · obtain ⟨old, hold⟩ := h.policy ingress hold
      unfold findPolicy at hold ⊢
      refine ⟨old, ?_⟩
      rw [find?_append, hold]
      rfl
    · rw [mem_singleton.mp hnew]
      exact ⟨policy, hpolicy⟩
  · intro ingress hingress
    rcases mem_append.mp hingress with hold | hnew
    · exact h.opened ingress hold
    · rw [mem_singleton.mp hnew, haccepts.taskID, haccepts.executionEpoch]
      exact ⟨opening, hopening, htask, hopen, hopeningEpoch.trans hepoch⟩

section Runs

variable [TaskRootIdentity]

lemma ConversationInv.run {s : ConversationState} (h : ConversationInv s) {call : ConversationCall}
    {db : TaskRootDatabase} (hrun : call.run s.db s.clock = .ok db) :
    ConversationInv ⟨db, s.clock⟩ ∧ Grows s.db db := by
  cases call with
  | createTask | writeMessage =>
    have hdb := of_throwWhen hrun
    cases pure_eq_ok.mp hdb
    exact ⟨⟨h.log, h.stored, h.policy, h.opened, h.undisposed⟩, Grows.of_eq rfl rfl⟩
  | writeArtifact =>
    have hdb := of_throwWhen hrun
    cases pure_eq_ok.mp hdb
    refine ⟨⟨h.log, h.stored, h.policy, h.opened, ?_⟩, Grows.of_eq rfl rfl⟩
    intro row hrow taskID' ingressID
    rcases mem_concat.mp hrow with hold | hnew
    · exact h.undisposed row hold taskID' ingressID
    · rw [hnew]
      rfl
  | lifecycle =>
    obtain ⟨_, hwrite, hdb⟩ := bind_eq_ok.mp hrun
    cases pure_eq_ok.mp hdb
    have happends := appendsEvent_of_writeTaskLifecycle hwrite
    refine ⟨⟨h.log.appendsEvent happends, h.stored, h.policy, ?_, h.undisposed⟩,
      ⟨happends.subset, Subset.refl _⟩⟩
    intro ingress hingress
    obtain ⟨row, hrow, hopened⟩ := h.opened ingress hingress
    exact ⟨row, happends.subset hrow, hopened⟩
  | persist =>
    obtain ⟨⟨_, _⟩, hpersist, hdb⟩ := bind_eq_ok.mp hrun
    cases pure_eq_ok.mp hdb
    rcases persistTaskRootIngress_eq_ok hpersist with ⟨-, rfl⟩ | ⟨_, -, haccepts⟩
    · exact ⟨h, Grows.of_eq rfl rfl⟩
    · exact h.acceptsNew haccepts

lemma ConversationInv.step {s s' : ConversationState} (h : ConversationInv s)
    {call : ℤ × ConversationCall} (hstep : conversationStep s call = some s') :
    ConversationInv s' ∧ Grows s.db s'.db := by
  unfold conversationStep at hstep
  split_ifs at hstep with hclock
  have hinv := h.mono (not_lt.mp hclock)
  split at hstep
  · rename_i db hrun
    cases hstep
    exact hinv.run hrun
  · cases hstep
    exact ⟨hinv, Grows.of_eq rfl rfl⟩

theorem ConversationInv.exec {s s' : ConversationState} (h : ConversationInv s)
    {calls : List (ℤ × ConversationCall)} (hrun : exec conversationStep s calls = some s') :
    ConversationInv s' ∧ Grows s.db s'.db := by
  have hpreserves : Preserves conversationStep ConversationInv :=
    fun _ _ _ hinv hstep => (hinv.step hstep).1
  have htrans : ∀ ⦃s t u : ConversationState⦄, Grows s.db t.db → Grows t.db u.db →
      Grows s.db u.db := fun _ _ _ hst htu => hst.trans htu
  have hgrows : ∀ ⦃s call s'⦄, ConversationInv s → conversationStep s call = some s' →
      Grows s.db s'.db := fun _ _ _ hinv hstep => (hinv.step hstep).2
  refine ⟨hpreserves.exec h hrun, ?_⟩
  exact exec_relates hpreserves (fun _ => Grows.of_eq rfl rfl) htrans hgrows h hrun

end Runs

/-! ## The reduction -/

section Reduction

variable {db : TaskRootDatabase} {ingress : TaskRootIngressRow} {now : ℤ} {terminalRow : TaskEvent}

lemma isTerminal_iff_lifecycleKind (type : TaskEventType) :
    type.isTerminal = true ↔ lifecycleKind type = .cancelled ∨ lifecycleKind type = .closed := by
  cases type <;> decide

lemma isOpen_iff_lifecycleKind (type : TaskEventType) :
    type.isOpen = true ↔ lifecycleKind type = .opened ∨ lifecycleKind type = .reopened := by
  cases type <;> decide

variable {lifecycle : List TaskLifecycleFact}

lemma terminal_assembleFacts (hlog : TaskEventLog db.events now)
    (hlifecycle : lifecycleFacts db.events ingress.taskID = .ok lifecycle) (hmem : terminalRow ∈ db.events)
    (hterminal : IsTerminalOf terminalRow ingress.taskID ingress.executionEpoch)
    (policy : TaskRootIngressPolicyRow) (integrityViolation : Option String)
    (evidence : TaskRootIngressEvidence) :
    terminal (assembleFacts db ingress policy integrityViolation evidence lifecycle) =
      some terminalRow.fact := by
  have hrows : Unique TaskEvent.terminalKey (toSorted TaskEvent.compareSeq
        (db.events.filter fun row => row.aggregateID = ingress.taskID)) :=
    (hlog.terminalKey.sublist filter_sublist).perm (toSorted_perm _ _).symm
  have hends : ∀ row : TaskEvent, row.fact.epoch = ingress.executionEpoch ∧
      (row.fact.kind = .cancelled ∨ row.fact.kind = .closed) ↔
        row.epoch = ingress.executionEpoch ∧ row.type.isTerminal = true :=
    fun row => and_congr_right fun _ => (isTerminal_iff_lifecycleKind row.type).symm
  have hcovered : ∀ row ∈ toSorted TaskEvent.compareSeq
      (db.events.filter fun row => row.aggregateID = ingress.taskID),
      decide (row.fact.epoch = ingress.executionEpoch ∧
        (row.fact.kind = .cancelled ∨ row.fact.kind = .closed)) = true →
      row.terminalKey = some (ingress.taskID, ingress.executionEpoch) := by
    intro row hrow hfact
    obtain ⟨-, htask⟩ := mem_filter.mp (mem_toSorted.mp hrow)
    obtain ⟨hepoch, htype⟩ := (hends row).mp (of_decide_eq_true hfact)
    exact IsTerminalOf.key ⟨of_decide_eq_true htask, htype, hepoch⟩
  have hrow : terminalRow ∈ toSorted TaskEvent.compareSeq
      (db.events.filter fun row => row.aggregateID = ingress.taskID) :=
    mem_toSorted.mpr (mem_filter.mpr ⟨hmem, decide_eq_true hterminal.task⟩)
  have hfact : decide (terminalRow.fact.epoch = ingress.executionEpoch ∧
      (terminalRow.fact.kind = .cancelled ∨ terminalRow.fact.kind = .closed)) = true :=
    decide_eq_true ((hends terminalRow).mpr ⟨hterminal.epoch, hterminal.isTerminal⟩)
  unfold terminal
  rw [exactlyOne_eq_some]
  change lifecycle.filter _ = _
  rw [(lifecycleFacts_eq_ok.mp hlifecycle).1, List.filter_map]
  change List.map TaskEvent.fact (List.filter (fun row => decide (row.fact.epoch = ingress.executionEpoch ∧
      (row.fact.kind = .cancelled ∨ row.fact.kind = .closed))) _) = _
  rw [hrows.filter_eq_singleton hcovered hrow hfact]
  rfl

lemma deletion_assembleFacts (hlifecycle : lifecycleFacts db.events ingress.taskID = .ok lifecycle)
    (policy : TaskRootIngressPolicyRow) (integrityViolation : Option String)
    (evidence : TaskRootIngressEvidence) :
    deletion (assembleFacts db ingress policy integrityViolation evidence lifecycle) = none := by
  have hnone : lifecycle.filter (fun fact => fact.kind = .deleted) = [] := by
    rw [filter_eq_nil_iff]
    intro fact hfact
    obtain ⟨row, hrow, htask, rfl⟩ := (mem_lifecycleFacts hlifecycle).mp hfact
    obtain ⟨_, -⟩ := (lifecycleFacts_eq_ok.mp hlifecycle).2 row hrow htask
    have hkind : row.fact.kind ≠ .deleted := by
      change lifecycleKind row.type ≠ .deleted
      cases hrowType : row.type <;> simp_all [lifecycleKind]
    simpa using hkind
  unfold deletion
  change exactlyOne (lifecycle.filter _) = none
  rw [hnone]
  rfl

lemma currentEpoch_assembleFacts_le (hlifecycle : lifecycleFacts db.events ingress.taskID = .ok lifecycle)
    (policy : TaskRootIngressPolicyRow) (integrityViolation : Option String)
    (evidence : TaskRootIngressEvidence) :
    currentEpoch (assembleFacts db ingress policy integrityViolation evidence lifecycle) ≤ ingress.executionEpoch ↔
      ∀ row ∈ db.events, row.aggregateID = ingress.taskID → row.type.isOpen →
        row.epoch ≤ ingress.executionEpoch := by
  unfold currentEpoch
  rw [maxOrZero_le_iff]
  constructor
  · intro h row hrow htask hopen
    have hfact : row.fact ∈ lifecycle := (mem_lifecycleFacts hlifecycle).mpr ⟨row, hrow, htask, rfl⟩
    refine h row.epoch (List.mem_map.mpr ⟨row.fact, mem_filter.mpr ⟨hfact, ?_⟩, rfl⟩)
    exact decide_eq_true ((isOpen_iff_lifecycleKind row.type).mp hopen)
  · rintro h _ hepoch
    obtain ⟨_, hfact, rfl⟩ := List.mem_map.mp hepoch
    obtain ⟨hmem, hkind⟩ := mem_filter.mp hfact
    obtain ⟨row, hrow, htask, rfl⟩ := (mem_lifecycleFacts hlifecycle).mp hmem
    exact h row hrow htask ((isOpen_iff_lifecycleKind row.type).mpr (of_decide_eq_true hkind))

lemma exists_lifecycleFacts_iff (hlog : TaskEventLog db.events now) :
    (∃ lifecycle, lifecycleFacts db.events ingress.taskID = .ok lifecycle) ↔
      db.taskDeleted ingress.taskID = false := by
  have hdeleted : db.taskDeleted ingress.taskID = false ↔
      ∀ row ∈ db.events, row.aggregateID = ingress.taskID → row.type ≠ .deleted := by
    unfold taskDeleted taskDeletedInTransaction
    simp
  rw [hdeleted]
  constructor
  · rintro ⟨_, hlifecycle⟩ row hrow htask
    exact ((lifecycleFacts_eq_ok.mp hlifecycle).2 row hrow htask).1
  · intro h
    exact ⟨_, lifecycleFacts_eq_ok.mpr ⟨rfl, fun row hrow htask =>
      ⟨h row hrow htask, hlog.epoch_pos row hrow⟩⟩⟩

lemma hostFault_noEvidence [Collation] {policy : TaskRootIngressPolicyRow}
    (hpolicy : policy.id = ingress.policyID) (lifecycle : List TaskLifecycleFact) :
    hostFault (assembleFacts db ingress policy none EMPTY_EVIDENCE lifecycle) = none := by
  unfold hostFault completedTurnDecisions
  simp [assembleFacts, EMPTY_EVIDENCE, hpolicy]

lemma operatorAbandonedFact_eq_none (hundisposed : ∀ row ∈ db.artifacts, ∀ taskID ingressID,
      row.dispositionOf taskID ingressID = none) (taskID ingressID : String) :
    taskRootIngressDispositionInTransaction db taskID ingressID = none ∧
      operatorAbandonedFact (taskRootIngressDispositionInTransaction db taskID ingressID) =
        none := by
  have hnone : taskRootIngressDispositionInTransaction db taskID ingressID = none := by
    unfold taskRootIngressDispositionInTransaction
    rw [findSome?_eq_none_iff]
    exact fun row hrow => hundisposed row hrow taskID ingressID
  rw [hnone]
  exact ⟨rfl, rfl⟩

end Reduction

/-! ## The three readers -/

section Readers

variable {s : ConversationState} {ingress : TaskRootIngressRow} {terminalRow : TaskEvent} (h : ConversationInv s)
  (hingress : ingress ∈ s.db.ingresses) (hmem : terminalRow ∈ s.db.events)
  (hterminal : IsTerminalOf terminalRow ingress.taskID ingress.executionEpoch)

include h hingress hmem hterminal

theorem reducerLive_iff [Collation] (now : ℤ) :
    ReducerLive s.db ingress now ↔
      InCurrentEpoch s.db ingress ∧ terminalRow.emittedAt < ingress.timeAccepted := by
  have hstored := h.stored ingress hingress
  obtain ⟨policy, hpolicy⟩ := h.policy ingress hingress
  have hpolicyID := findPolicy_id hpolicy
  have habandoned : ∀ lifecycle, (assembleFacts s.db ingress policy none EMPTY_EVIDENCE
      lifecycle).operatorAbandoned = none :=
    fun _ => (operatorAbandonedFact_eq_none h.undisposed ingress.taskID ingress.id).2
  constructor
  · rintro ⟨_, hproject, hlive⟩
    obtain ⟨_, hfacts, hprojection⟩ := bind_eq_ok.mp hproject
    cases pure_eq_ok.mp hprojection
    obtain ⟨row, policy', _, lifecycle, hrow, hpolicy', hevidence, hlifecycle, rfl⟩ :=
      taskRootIngressFacts_eq_ok.mp hfacts
    obtain rfl : ingress = row := Option.some.inj (hstored.symm.trans hrow)
    obtain rfl : policy = policy' := Option.some.inj (hpolicy.symm.trans hpolicy')
    cases hevidence
    have hboundary : ¬(ingress.executionEpoch < currentEpoch
        (assembleFacts s.db ingress policy none EMPTY_EVIDENCE lifecycle) ∨
          ∃ fact, terminal (assembleFacts s.db ingress policy none EMPTY_EVIDENCE lifecycle) =
            some fact ∧ ingress.timeAccepted ≤ fact.time) := by
      intro hboundary
      obtain ⟨boundary, hreduce⟩ := reduce_of_boundary (habandoned lifecycle) rfl
        (hostFault_noEvidence hpolicyID lifecycle) hboundary now
      exact hlive boundary hreduce
    rw [not_or, not_lt] at hboundary
    refine ⟨⟨(exists_lifecycleFacts_iff h.log).mp ⟨lifecycle, hlifecycle⟩, ?_⟩, ?_⟩
    · exact (currentEpoch_assembleFacts_le hlifecycle policy none EMPTY_EVIDENCE).mp hboundary.1
    · by_contra hlater
      refine hboundary.2 ⟨terminalRow.fact, ?_, not_lt.mp hlater⟩
      exact terminal_assembleFacts h.log hlifecycle hmem hterminal policy none EMPTY_EVIDENCE
  · rintro ⟨⟨hdeleted, hepoch⟩, hlater⟩
    obtain ⟨lifecycle, hlifecycle⟩ := (exists_lifecycleFacts_iff h.log).mpr hdeleted
    have hfacts : taskRootIngressFactsInTransaction s.db ingress.id (fun _ _ => .ok EMPTY_EVIDENCE) =
          .ok (assembleFacts s.db ingress policy none EMPTY_EVIDENCE lifecycle) :=
      taskRootIngressFacts_eq_ok.mpr
        ⟨ingress, policy, (none, EMPTY_EVIDENCE), lifecycle, hstored, hpolicy, rfl, hlifecycle, rfl⟩
    refine ⟨_, bind_eq_ok.mpr ⟨_, hfacts, rfl⟩, fun boundary hreduce => ?_⟩
    rcases boundary_of_reduce hreduce with ⟨-, hreopened⟩ | ⟨-, hdeletion⟩ | ⟨_, hfact, htime, -⟩
    · have hle := (currentEpoch_assembleFacts_le hlifecycle policy none EMPTY_EVIDENCE).mpr hepoch
      exact absurd hle (not_le.mpr hreopened)
    · rw [deletion_assembleFacts hlifecycle policy none EMPTY_EVIDENCE] at hdeletion
      cases hdeletion
    · rw [terminal_assembleFacts h.log hlifecycle hmem hterminal policy none EMPTY_EVIDENCE,
        Option.some.injEq] at hfact
      subst hfact
      exact absurd htime (not_le.mpr hlater)

lemma not_swallowed [Collation] (hlater : terminalRow.emittedAt < ingress.timeAccepted) {now : ℤ}
    {readEvidence : TaskRootIngressEvidenceReader} {boundary : TerminalBoundary}
    (hproject : projectTaskRootIngress s.db ingress.id now readEvidence = .ok (.terminalInapplicable boundary)) :
    ¬(boundary = .cancelled ∨ boundary = .closed) := by
  obtain ⟨_, hfacts, hprojection⟩ := bind_eq_ok.mp hproject
  obtain ⟨row, policy, evidence, _, hrow, -, -, hlifecycle, rfl⟩ :=
    taskRootIngressFacts_eq_ok.mp hfacts
  obtain rfl : ingress = row := Option.some.inj ((h.stored ingress hingress).symm.trans hrow)
  rcases boundary_of_reduce (pure_eq_ok.mp hprojection) with
    ⟨hboundary, -⟩ | ⟨hboundary, -⟩ | ⟨fact, hfact, htime, -⟩
  · simp [hboundary]
  · simp [hboundary]
  · rw [terminal_assembleFacts h.log hlifecycle hmem hterminal policy evidence.1 evidence.2,
      Option.some.injEq] at hfact
    subst hfact
    exact absurd htime (not_le.mpr hlater)

theorem fenceLive_iff :
    FenceLive s.db ingress ↔
      InCurrentEpoch s.db ingress ∧ terminalRow.emittedAt < ingress.timeAccepted := by
  have hstored := h.stored ingress hingress
  obtain ⟨policy, hpolicy⟩ := h.policy ingress hingress
  have hlifecycleTerminal : ∀ lifecycle,
      taskLifecycleProjectionInTransaction s.db.events ingress.taskID = .ok lifecycle →
        lifecycle.epoch = ingress.executionEpoch →
          lifecycle.terminalAt = some terminalRow.emittedAt ∧ lifecycle.status ≠ .active := by
    intro lifecycle hlifecycle hepoch
    rw [← hepoch] at hterminal
    exact terminalAt_of_taskLifecycleProjection h.log hlifecycle hmem hterminal
  constructor
  · rintro ⟨_, _, _, _, _, hfence, hfenceID⟩
    obtain ⟨lease, row, lifecycle, _, hpasses, rfl⟩ :=
      assertTaskRootActivationLeaseFence_eq_ok.mp hfence
    obtain rfl : ingress = row := by
      have hrow : s.db.findIngress lease.targetID = some row := hpasses.ingressFound
      have hrowID : row.id = lease.targetID := findIngress_id hrow
      rw [← hrowID, show row.id = ingress.id from hfenceID] at hrow
      exact Option.some.inj (hstored.symm.trans hrow)
    obtain ⟨hterminalAt, hstatus⟩ :=
      hlifecycleTerminal lifecycle hpasses.lifecycleRead hpasses.epoch
    obtain ⟨-, -, hmax⟩ := epoch_of_taskLifecycleProjection hpasses.lifecycleRead
    refine ⟨⟨hpasses.notDeleted, ?_⟩, ?_⟩
    · rw [← hpasses.epoch]
      exact hmax
    · have hconversation := (hpasses.live rfl).resolve_left hstatus
      unfold TaskLifecycleProjection.isTerminalConversation at hconversation
      rw [hterminalAt] at hconversation
      simpa using hconversation
  · rintro ⟨⟨hdeleted, hmax⟩, hlater⟩
    obtain ⟨opening, hopening, htask, hopen, _⟩ := h.opened ingress hingress
    obtain ⟨lifecycle, hlifecycle⟩ :=
      exists_taskLifecycleProjection hopening htask hopen h.log.epoch_pos
    have hepoch : lifecycle.epoch = ingress.executionEpoch := by
      obtain ⟨-, ⟨row, hrow, hrowTask, hrowOpen, _⟩, hlifecycleMax⟩ :=
        epoch_of_taskLifecycleProjection hlifecycle
      have hle := hmax row hrow hrowTask hrowOpen
      have hge := hlifecycleMax opening hopening htask hopen
      omega
    obtain ⟨hterminalAt, -⟩ := hlifecycleTerminal lifecycle hlifecycle hepoch
    -- One lease that expires in the next millisecond, at an instant before the deadline.
    let now : ℤ := policy.absoluteDeadline.elim 0 fun deadline => deadline - 1
    let lease : ControlLease :=
      { id := "activation", target := .taskRootIngress, targetID := ingress.id,
        ownerOccurrenceID := "owner", timeActivated := now, expiresAt := now + 1 }
    have hcurrent : currentControlLeaseInTransaction { leases := [lease], grants := [] }
        .taskRootIngress ingress.id = some lease := by
      simp [currentControlLeaseInTransaction, ControlLeaseTables.ofTarget, lease]
    refine ⟨{ leases := [lease], grants := [] }, [], "activation", now, _,
      assertTaskRootActivationLeaseFence_eq_ok.mpr ⟨lease, ingress, lifecycle, policy, ?_, rfl⟩, rfl⟩
    refine ⟨rfl, rfl, ?_, hstored, hdeleted, hlifecycle, hpolicy, ?_, ?_, rfl, hepoch, ?_⟩
    · change (currentControlLeaseInTransaction { leases := [lease], grants := [] } .taskRootIngress
        ingress.id).map (·.id) = some lease.id
      rw [hcurrent]
      rfl
    · intro _
      change now < now + 1
      omega
    · intro _ deadline hdeadline
      rw [Option.mem_def] at hdeadline
      have hnow : now = deadline - 1 := by simp [now, hdeadline]
      omega
    · intro _
      refine Or.inr ?_
      unfold TaskLifecycleProjection.isTerminalConversation
      rw [hterminalAt]
      simpa using hlater

theorem frontierLive_iff :
    FrontierLive s.db ingress ↔
      InCurrentEpoch s.db ingress ∧ terminalRow.emittedAt ≤ ingress.timeAccepted := by
  obtain ⟨opening, hopening, htask, hopen, hopeningEpoch⟩ := h.opened ingress hingress
  have hundisposed : s.db.undisposed ingress = true := by
    unfold undisposed
    rw [(operatorAbandonedFact_eq_none h.undisposed ingress.taskID ingress.id).1]
    rfl
  have hlatest : latestOpenedEpoch s.db.events ingress.taskID = some ingress.executionEpoch ↔
      ∀ row ∈ s.db.events, row.aggregateID = ingress.taskID → row.type.isOpen →
        row.epoch ≤ ingress.executionEpoch := by
    unfold latestOpenedEpoch
    rw [max?_eq_some_iff]
    constructor
    · rintro ⟨-, hmax⟩ row hrow hrowTask hrowOpen
      refine hmax row.epoch (List.mem_map.mpr ⟨row, mem_filter.mpr ⟨hrow, ?_⟩, rfl⟩)
      exact decide_eq_true ⟨hrowTask, hrowOpen⟩
    · intro hmax
      refine ⟨List.mem_map.mpr ⟨opening, mem_filter.mpr ⟨hopening, ?_⟩, hopeningEpoch⟩, ?_⟩
      · exact decide_eq_true ⟨htask, hopen⟩
      · intro epoch hepoch
        obtain ⟨row, hrow, rfl⟩ := List.mem_map.mp hepoch
        obtain ⟨hrowMem, hrowOpen⟩ := mem_filter.mp hrow
        have hrowOpen := of_decide_eq_true hrowOpen
        exact hmax row hrowMem hrowOpen.1 hrowOpen.2
  have hended : (s.db.events.any fun terminal =>
      terminal.aggregateID = ingress.taskID ∧ terminal.type.isTerminal ∧ terminal.epoch = ingress.executionEpoch ∧
          ingress.timeAccepted < terminal.emittedAt) = true ↔
      ingress.timeAccepted < terminalRow.emittedAt := by
    rw [List.any_eq_true]
    constructor
    · rintro ⟨_, hrow, hrowTerminal⟩
      obtain ⟨hrowTask, hrowType, hrowEpoch, hrowTime⟩ := of_decide_eq_true hrowTerminal
      have hrowKey := IsTerminalOf.key ⟨hrowTask, hrowType, hrowEpoch⟩
      rw [h.log.terminalKey.eq_of_key hmem hrow hterminal.key hrowKey]
      exact hrowTime
    · intro htime
      exact ⟨terminalRow, hmem, decide_eq_true ⟨hterminal.task, hterminal.isTerminal, hterminal.epoch, htime⟩⟩
  unfold FrontierLive currentInProjectFrontier InCurrentEpoch
  simp only [decide_eq_true_eq, hlatest, hended, hundisposed, true_and, not_lt]
  unfold taskDeleted taskDeletedInTransaction
  rw [← Bool.not_eq_true]
  tauto

end Readers

/-! ## Every run -/

section Runs

variable [TaskRootIdentity] [Collation]

/-- What the three readers make of an ingress that was accepted after its epoch ended, in every
later state of every run.  Accepted after the millisecond of the terminal, the ingress is never
swallowed by the terminal, and the readers agree on whether it is live.  Accepted in the millisecond
of the terminal, it counts as ended with the epoch for the reduction and for the fence, and the
frontier discovers it as long as the epoch is current. -/
theorem terminalConversation_agrees {s₀ s₁ s : ConversationState}
    {before after : List (ℤ × ConversationCall)} (hfresh : s₀.db.Fresh)
    (hbefore : exec conversationStep s₀ before = some s₁) {task : TaskRow}
    {event : OrchestratorEvent} {identity : TaskRootIngressIdentity} {now : ℤ}
    {ingress : TaskRootIngressRow} {db : TaskRootDatabase} (hnow : s₁.clock ≤ now)
    (haccept : persistTaskRootIngressInTransaction s₁.db task event identity now = .ok (ingress, db))
    (hnew : ingress ∉ s₁.db.ingresses) {terminalRow : TaskEvent}
    (hmem : terminalRow ∈ s₁.db.events)
    (hterminal : IsTerminalOf terminalRow ingress.taskID ingress.executionEpoch)
    (hafter : exec conversationStep ⟨db, now⟩ after = some s) (later : ℤ) :
    terminalRow.emittedAt ≤ ingress.timeAccepted ∧ (terminalRow.emittedAt < ingress.timeAccepted →
        (∀ readEvidence projection, projectTaskRootIngress s.db ingress.id later readEvidence = .ok projection →
            projection ≠ .terminalInapplicable .cancelled ∧ projection ≠ .terminalInapplicable .closed) ∧
          (ReducerLive s.db ingress later ↔ FenceLive s.db ingress) ∧
            (FenceLive s.db ingress ↔ FrontierLive s.db ingress)) ∧
      (terminalRow.emittedAt = ingress.timeAccepted → ¬ReducerLive s.db ingress later ∧ ¬FenceLive s.db ingress ∧
          (FrontierLive s.db ingress ↔ InCurrentEpoch s.db ingress)) := by
  have hinv₁ := ((conversationInv_of_fresh hfresh).exec hbefore).1
  obtain ⟨_, hinput, haccepts⟩ :=
    (persistTaskRootIngress_eq_ok haccept).resolve_left fun h => hnew h.1
  have haccepted : ingress.timeAccepted = now := haccepts.timeAccepted.trans hinput
  obtain ⟨hinv, hgrows₁⟩ := (hinv₁.mono hnow).acceptsNew haccepts
  obtain ⟨hinv', hgrows⟩ := hinv.exec hafter
  have hingress : ingress ∈ s.db.ingresses := by
    obtain ⟨_, _, hdb⟩ := haccepts.tables
    refine hgrows.ingresses ?_
    rw [hdb]
    exact mem_append_right _ (mem_singleton_self _)
  have hmem' : terminalRow ∈ s.db.events := hgrows.events (hgrows₁.events hmem)
  have hreducer := reducerLive_iff hinv' hingress hmem' hterminal later
  have hfence := fenceLive_iff hinv' hingress hmem' hterminal
  have hfrontier := frontierLive_iff hinv' hingress hmem' hterminal
  have hpast : terminalRow.emittedAt ≤ ingress.timeAccepted := by
    have := hinv₁.log.emittedAt_le terminalRow hmem
    omega
  refine ⟨hpast, fun hlater => ⟨?_, ?_, ?_⟩, fun hequal => ⟨?_, ?_, ?_⟩⟩
  · intro readEvidence projection hproject
    have hswallowed : ∀ boundary, boundary = .cancelled ∨ boundary = .closed →
        projection ≠ .terminalInapplicable boundary := by
      rintro _ hboundary rfl
      exact not_swallowed hinv' hingress hmem' hterminal hlater hproject hboundary
    exact ⟨hswallowed _ (Or.inl rfl), hswallowed _ (Or.inr rfl)⟩
  · exact hreducer.trans hfence.symm
  · rw [hfence, hfrontier]
    simp [hlater, hpast]
  · rw [hreducer]
    rintro ⟨-, _⟩
    omega
  · rw [hfence]
    rintro ⟨-, _⟩
    omega
  · rw [hfrontier]
    simp [hpast]

end Runs

/-! ### Examples -/

@[reducible] def sourceIdentity : TaskRootIdentity where
  taskRootIngressID := fun _ _ sourceID => sourceID
  taskRootIngressPolicyID := fun _ _ _ => "art_policy"
  stableInlineSource := fun _ => "inline"
  dispositionArtifactID := fun _ ingressID => ingressID
  taskRootIngressOperatorGateID := fun ingressID state _ => ingressID ++ "/" ++ state
  toolOutcomePartIdentity := id
  providerOutcomeIdentity := id

def requestedDatabase : TaskRootDatabase :=
  { tasks := [⟨"tsk_1", "prj_1", some "ses_1"⟩], sessions := [], closedProjects := [],
    fencedSessions := [], events := [], protocolEvents := [], messages := [], toolRequests := [],
    toolOutcomes := [], parts := [], providerRequests := [], providerOutcomes := [],
    interactions := [],
    artifacts := [⟨"art_request", "tsk_1", .other "agent_coordination_request"⟩], waits := [],
    waitSettlements := [], policies := [], ingresses := [], activations := ⟨[], []⟩ }

/-- The terminal of the Task's first epoch, in millisecond 5. -/
def completedAtFive : TaskEvent := ⟨"evt_2", .completed, "tsk_1", 2, 5, 1⟩

def endedDatabase : TaskRootDatabase :=
  { requestedDatabase with events := [⟨"evt_1", .opened, "tsk_1", 1, 1, 1⟩, completedAtFive] }

def endingCalls : List (ℤ × ConversationCall) :=
  [(1, .lifecycle "evt_1" "tsk_1" .opened), (5, .lifecycle "evt_2" "tsk_1" (.terminal .completed))]

def coordinationEvent : OrchestratorEvent :=
  { note := none, taskCreation := none, taskWaitActivity := none, taskWaitWake := none,
    rootMessage := none, missionAcceptanceResume := none,
    coordinationRequest := some "art_request", processRecovery := none,
    dispatchInfrastructureFailure := none, agentLifecycleDelivery := none }

def coordinationIdentity : TaskRootIngressIdentity :=
  { messageID := none, requestID := some "art_request", recoveryFactID := none,
    infrastructureFactID := none, waitJobID := none, lifecycleEventID := none,
    taskCreationID := none }

def coordinationIngress (now : ℤ) : TaskRootIngressRow :=
  { id := "art_request", taskID := "tsk_1", projectID := "prj_1", executionEpoch := 1,
    sequence := 1, source := .engineArtifact, sourceID := "art_request", inlinePayload := none,
    policyID := "art_policy", timeAccepted := now }

def coordinatedDatabase (now : ℤ) : TaskRootDatabase :=
  { endedDatabase with
    policies := [⟨"art_policy", 3, 4, none⟩], ingresses := [coordinationIngress now] }

lemma endingCalls_run : letI := sourceIdentity
    exec conversationStep ⟨requestedDatabase, 0⟩ endingCalls = some ⟨endedDatabase, 5⟩ := by
  decide

lemma coordinationEvent_accepted : letI := sourceIdentity
    ∀ now ∈ [(5 : ℤ), 6], persistTaskRootIngressInTransaction endedDatabase ⟨"tsk_1", "prj_1", some "ses_1"⟩
        coordinationEvent coordinationIdentity now =
          .ok (coordinationIngress now, coordinatedDatabase now) := by
  decide

lemma requestedDatabase_fresh : requestedDatabase.Fresh := by
  refine ⟨rfl, rfl, ?_⟩
  intro row hrow taskID ingressID
  rw [mem_singleton.mp hrow]
  rfl

lemma completedAtFive_isTerminalOf (now : ℤ) : IsTerminalOf completedAtFive (coordinationIngress now).taskID
      (coordinationIngress now).executionEpoch :=
  ⟨rfl, rfl, rfl⟩

/-- A coordination request accepted one millisecond after the terminal. -/
theorem terminalConversation_agrees_next_millisecond :
    letI := codePointCollation
    (5 : ℤ) ≤ 6 ∧ ((5 : ℤ) < 6 → (∀ readEvidence projection,
          projectTaskRootIngress (coordinatedDatabase 6) "art_request" 7 readEvidence = .ok projection →
            projection ≠ .terminalInapplicable .cancelled ∧ projection ≠ .terminalInapplicable .closed) ∧
          (ReducerLive (coordinatedDatabase 6) (coordinationIngress 6) 7 ↔
            FenceLive (coordinatedDatabase 6) (coordinationIngress 6)) ∧
            (FenceLive (coordinatedDatabase 6) (coordinationIngress 6) ↔
              FrontierLive (coordinatedDatabase 6) (coordinationIngress 6))) ∧
      ((5 : ℤ) = 6 → ¬ReducerLive (coordinatedDatabase 6) (coordinationIngress 6) 7 ∧
          ¬FenceLive (coordinatedDatabase 6) (coordinationIngress 6) ∧
            (FrontierLive (coordinatedDatabase 6) (coordinationIngress 6) ↔
              InCurrentEpoch (coordinatedDatabase 6) (coordinationIngress 6))) := by
  let _ : TaskRootIdentity := sourceIdentity
  let _ : Collation := codePointCollation
  have hnow : (5 : ℤ) ≤ 6 := by decide
  have hnew : coordinationIngress 6 ∉ endedDatabase.ingresses := by decide
  have hmem : completedAtFive ∈ endedDatabase.events := by decide
  have hafter : exec conversationStep ⟨coordinatedDatabase 6, 6⟩ [] = some ⟨coordinatedDatabase 6, 6⟩ := rfl
  exact terminalConversation_agrees requestedDatabase_fresh endingCalls_run hnow
    (coordinationEvent_accepted 6 (by decide)) hnew hmem (completedAtFive_isTerminalOf 6) hafter 7

/-- In the millisecond of the terminal itself a coordination request is swallowed by the terminal
although it was accepted after it, and the frontier disagrees with the reduction. -/
theorem swallowed_in_terminal_millisecond :
    letI := sourceIdentity
    letI := codePointCollation
    ¬∀ (s₀ s₁ : ConversationState) (before : List (ℤ × ConversationCall)) (task : TaskRow)
      (event : OrchestratorEvent) (identity : TaskRootIngressIdentity) (now : ℤ)
      (ingress : TaskRootIngressRow) (db : TaskRootDatabase) (terminalRow : TaskEvent),
        s₀.db.Fresh → exec conversationStep s₀ before = some s₁ → s₁.clock ≤ now →
          persistTaskRootIngressInTransaction s₁.db task event identity now = .ok (ingress, db) →
            ingress ∉ s₁.db.ingresses → terminalRow ∈ s₁.db.events →
              IsTerminalOf terminalRow ingress.taskID ingress.executionEpoch → (∀ readEvidence projection,
                  projectTaskRootIngress db ingress.id now readEvidence = .ok projection →
                    projection ≠ .terminalInapplicable .cancelled ∧ projection ≠ .terminalInapplicable .closed) ∧
                (ReducerLive db ingress now ↔ FrontierLive db ingress) := by
  let _ : TaskRootIdentity := sourceIdentity
  let _ : Collation := codePointCollation
  intro h
  have hnow : (5 : ℤ) ≤ 5 := le_rfl
  have hnew : coordinationIngress 5 ∉ endedDatabase.ingresses := by decide
  have hmem : completedAtFive ∈ endedDatabase.events := by decide
  have hswallowed : projectTaskRootIngress (coordinatedDatabase 5) "art_request" 5
      (fun _ _ => .ok EMPTY_EVIDENCE) = .ok (.terminalInapplicable .closed) := by decide
  obtain ⟨hlive, -⟩ := h ⟨requestedDatabase, 0⟩ ⟨endedDatabase, 5⟩ endingCalls _ coordinationEvent
    coordinationIdentity 5 (coordinationIngress 5) (coordinatedDatabase 5) completedAtFive
    requestedDatabase_fresh endingCalls_run hnow (coordinationEvent_accepted 5 (by decide)) hnew hmem
    (completedAtFive_isTerminalOf 5)
  exact (hlive _ _ hswallowed).2 rfl

end OpenCorvus.Engine
