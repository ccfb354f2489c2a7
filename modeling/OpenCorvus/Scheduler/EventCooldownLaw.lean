import OpenCorvus.Scheduler.EventOrderLaw

/-!
# The cooldown of a definition

A definition is ready for a fire when its cooldown has elapsed since the fire before was started, whatever became of
it.  A cooldown is about wakes: the two agree on every decision exactly when no decision falls into the gap between
the start of the fire before and its wake, or into the one that a fire without a wake opens.
-/

namespace OpenCorvus.Scheduler

open NumberedLanes Engine ExecutableSystem Relation List Option EventStore

/-! ## The law -/

def WokeRecently (w : EventWorld) (definitionID : String) (queuePosition cooldownMs : ℕ) (now : ℤ) : Prop :=
  ∃ commit ∈ w.commits, commit.definitionID = definitionID ∧ commit.queuePosition < queuePosition ∧
    now < commit.committedAt + cooldownMs

instance (w : EventWorld) (definitionID : String) (queuePosition cooldownMs : ℕ) (now : ℤ) :
    Decidable (WokeRecently w definitionID queuePosition cooldownMs now) :=
  inferInstanceAs (Decidable (∃ commit ∈ w.commits, _))

structure CooldownHolds (w : EventWorld) (job : EventJob) : Prop where
  /-- A fire is held back exactly when a fire before it has woken its target within the cooldown. -/
  decided : ∀ decision ∈ w.decisions, decision.definitionID = job.definitionID → (decision.ready = false ↔
      WokeRecently w job.definitionID decision.queuePosition job.cooldownMs decision.decidedAt)
  /-- A fire that is settled by the cooldown was held back so. -/
  suppressed : ∀ receipt ∈ w.store.receipts, receipt.definitionID = job.definitionID →
    receipt.outcome.dispositionOf = some .cooldown → ∃ decision ∈ w.decisions,
      decision.fireID = receipt.fireID ∧
      WokeRecently w job.definitionID receipt.queuePosition job.cooldownMs decision.decidedAt
  /-- Wakes of different fires are at least the cooldown apart. -/
  apart : ∀ commit ∈ w.commits, ∀ later ∈ w.commits, commit.definitionID = job.definitionID →
    later.definitionID = job.definitionID → commit.queuePosition < later.queuePosition →
    commit.committedAt + job.cooldownMs ≤ later.committedAt

instance (w : EventWorld) (job : EventJob) : Decidable (CooldownHolds w job) :=
  decidable_of_iff (_ ∧ _ ∧ _) ⟨fun h => ⟨h.1, h.2.1, h.2.2⟩, fun h => ⟨h.decided, h.suppressed, h.apart⟩⟩

/-- The decision is taken while the cooldown counts from the start of the fire before in one way and from the
wakes in another.  Either the fire before has woken its target so late that the cooldown has elapsed since
its start and not since its wake; or it has not woken its target, its start was less than the cooldown ago,
and no wake before was. -/
def InCooldownGap (w : EventWorld) (fire : EventJobFire) (cooldownMs : ℕ) : Prop :=
  ∃ previous ∈ w.store.fires, previous.definitionID = fire.definitionID ∧
    previous.queuePosition + 1 = fire.queuePosition ∧ ∃ started ∈ w.store.timeStarted previous.id,
      (started + cooldownMs ≤ w.clock ∧ ∃ commit ∈ w.commits, commit.fireID = previous.id ∧
        w.clock < commit.committedAt + cooldownMs) ∨
      (w.clock < started + cooldownMs ∧ (∀ commit ∈ w.commits, commit.fireID ≠ previous.id) ∧
        ¬WokeRecently w fire.definitionID fire.queuePosition cooldownMs w.clock)

instance (w : EventWorld) (fire : EventJobFire) (cooldownMs : ℕ) : Decidable (InCooldownGap w fire cooldownMs) :=
  inferInstanceAs (Decidable (∃ previous ∈ w.store.fires, _))

def OutsideCooldownGap (definitionID : String) (w : EventWorld) : EventAction → Prop
  | .decide execution => execution.fire.definitionID = definitionID → ∀ job ∈ execution.activeJob,
    ¬InCooldownGap w execution.fire.toEventJobFire job.cooldownMs
  | _ => True

instance (definitionID : String) (w : EventWorld) (action : EventAction) :
    Decidable (OutsideCooldownGap definitionID w action) := by
  unfold OutsideCooldownGap
  split <;> infer_instance

/-! ## The invariant -/

def EventStore.fireStarts (store : EventStore) (fireID : String) : List ℤ :=
  (store.fireLeases fireID).map ControlLease.timeActivated

lemma timeStarted_eq (store : EventStore) (fireID : String) :
    store.timeStarted fireID = (store.fireStarts fireID).min? := rfl

structure ResolvedFor (store : EventStore) (fire : EventJobFire) (job : EventJobRow) : Prop where
  row : ∃ row ∈ store.jobs, row.definitionID = fire.definitionID ∧ row.cooldownMs = job.cooldownMs
  lastRun : (fire.queuePosition = 1 ∧ job.lastRun = none) ∨
    ∃ previous ∈ store.fires, previous.definitionID = fire.definitionID ∧
      previous.queuePosition + 1 = fire.queuePosition ∧ job.lastRun = store.timeStarted previous.id

def EventDecision.IsOf (decision : EventDecision) (fire : EventJobFire) : Prop :=
  decision.fireID = fire.id ∧ decision.definitionID = fire.definitionID ∧
    decision.queuePosition = fire.queuePosition

structure CooldownInv (w : EventWorld) : Prop where
  begun : 0 < w.clock
  starts : ∀ fireID, ∀ start ∈ w.store.fireStarts fireID, 0 < start
  resolved : ∀ e ∈ w.executions, ∀ job, e.job = some (some job) → ResolvedFor w.store e.fire.toEventJobFire job
  /-- A fire is started after the wakes of the fires before it. -/
  ordered : ∀ commit ∈ w.commits, ∀ fireID, ∀ start ∈ w.store.fireStarts fireID, ∃ fire ∈ w.store.fires,
    fire.id = fireID ∧ (fire.definitionID = commit.definitionID → commit.queuePosition < fire.queuePosition →
      commit.committedAt ≤ start)
  /-- A wake is committed for a fire that was started and found ready. -/
  commits : ∀ commit ∈ w.commits, commit.committedAt ≤ w.clock ∧
    (∃ fire ∈ w.store.fires, fire.id = commit.fireID ∧ fire.definitionID = commit.definitionID ∧
      fire.queuePosition = commit.queuePosition) ∧
    (∃ start ∈ w.store.fireStarts commit.fireID, start ≤ commit.committedAt) ∧
    ∃ decision ∈ w.decisions, decision.definitionID = commit.definitionID ∧
      decision.queuePosition = commit.queuePosition ∧ decision.ready = true ∧
      decision.decidedAt ≤ commit.committedAt
  decisions : ∀ decision ∈ w.decisions, decision.decidedAt ≤ w.clock ∧
    (∃ fire ∈ w.store.fires, decision.IsOf fire) ∧
    decision.queuePosition ≤ w.store.settledPosition decision.definitionID + 1 ∧
    ∃ row ∈ w.store.jobs, row.definitionID = decision.definitionID ∧ row.cooldownMs = decision.cooldownMs
  decided : ∀ e ∈ w.executions, ∀ ready, e.ready = some ready → ∃ decision ∈ w.decisions,
    decision.IsOf e.fire.toEventJobFire ∧ decision.ready = ready
  suppressed : ∀ receipt ∈ w.store.receipts, receipt.outcome.dispositionOf = some .cooldown →
    ∃ decision ∈ w.decisions, decision.fireID = receipt.fireID ∧ decision.ready = false

variable {store store' : EventStore} {w w' : EventWorld} {now : ℤ}

variable {job : EventJobRow} {e : EventExecution} {leases : ControlLeaseTables} {leaseID : String}

lemma ResolvedFor.frame {fire : EventJobFire} (h : ResolvedFor store fire job)
    (hjobs : ∀ row ∈ store.jobs, row ∈ store'.jobs) (hfires : ∀ fire ∈ store.fires, fire ∈ store'.fires)
    (hstarts : ∀ previous ∈ store.fires, previous.definitionID = fire.definitionID →
      previous.queuePosition + 1 = fire.queuePosition →
      store'.fireStarts previous.id = store.fireStarts previous.id) : ResolvedFor store' fire job := by
  refine ⟨?_, ?_⟩
  · obtain ⟨row, hrow, hof⟩ := h.row
    exact ⟨row, hjobs row hrow, hof⟩
  · rcases h.lastRun with hfirst | ⟨previous, hprevious, hdefinition, hposition, hlast⟩
    · exact Or.inl hfirst
    · refine Or.inr ⟨previous, hfires previous hprevious, hdefinition, hposition, ?_⟩
      rw [hlast, timeStarted_eq, timeStarted_eq, hstarts previous hprevious hdefinition hposition]

/-- The store moves on: no lease is taken, no decision is taken and no wake is committed. -/
structure CooldownFrame (w w' : EventWorld) : Prop where
  clock : w.clock ≤ w'.clock
  jobs : ∀ row ∈ w.store.jobs, row ∈ w'.store.jobs
  fires : ∀ fire ∈ w.store.fires, fire ∈ w'.store.fires
  starts : ∀ fireID, w'.store.fireStarts fireID = w.store.fireStarts fireID
  settled : ∀ definitionID, w.store.settledPosition definitionID ≤ w'.store.settledPosition definitionID
  executions : ∀ e ∈ w'.executions, e ∈ w.executions
  commits : w'.commits = w.commits
  decisions : w'.decisions = w.decisions
  suppressed : ∀ receipt ∈ w'.store.receipts, receipt.outcome.dispositionOf = some .cooldown →
    receipt ∈ w.store.receipts ∨ ∃ e ∈ w.executions, e.fire.id = receipt.fireID ∧ e.ready = some false

lemma CooldownInv.decisions_frame (h : CooldownInv w) (hclock : w.clock ≤ w'.clock)
    (hjobs : ∀ row ∈ w.store.jobs, row ∈ w'.store.jobs)
    (hfires : ∀ fire ∈ w.store.fires, fire ∈ w'.store.fires)
    (hsettled : ∀ definitionID, w.store.settledPosition definitionID ≤ w'.store.settledPosition definitionID) :
    ∀ decision ∈ w.decisions, decision.decidedAt ≤ w'.clock ∧
      (∃ fire ∈ w'.store.fires, decision.IsOf fire) ∧
      decision.queuePosition ≤ w'.store.settledPosition decision.definitionID + 1 ∧
      ∃ row ∈ w'.store.jobs, row.definitionID = decision.definitionID ∧
        row.cooldownMs = decision.cooldownMs := by
  intro decision hdecision
  obtain ⟨hat, ⟨fire, hfire, hof⟩, hle, row, hrow, hrowOf⟩ := h.decisions decision hdecision
  exact ⟨hat.trans hclock, ⟨fire, hfires fire hfire, hof⟩,
    hle.trans (Nat.add_le_add_right (hsettled _) 1), row, hjobs row hrow, hrowOf⟩

/-- The invariant stays while the store moves on. -/
lemma CooldownInv.frame (h : CooldownInv w) (hframe : CooldownFrame w w') : CooldownInv w' := by
  have hdecisions := h.decisions_frame hframe.clock hframe.jobs hframe.fires hframe.settled
  refine ⟨h.begun.trans_le hframe.clock, ?_, ?_, ?_, ?_, hframe.decisions ▸ hdecisions, ?_, ?_⟩
  · intro fireID start hstart
    exact h.starts fireID start (hframe.starts fireID ▸ hstart)
  · intro e he job hjob
    exact (h.resolved e (hframe.executions e he) job hjob).frame hframe.jobs hframe.fires
      fun previous _ _ _ => hframe.starts previous.id
  · intro commit hcommit fireID start hstart
    rw [hframe.commits] at hcommit
    rw [hframe.starts] at hstart
    obtain ⟨fire, hfire, hid, hle⟩ := h.ordered commit hcommit fireID start hstart
    exact ⟨fire, hframe.fires fire hfire, hid, hle⟩
  · intro commit hcommit
    rw [hframe.commits] at hcommit
    obtain ⟨hat, ⟨fire, hfire, hof⟩, ⟨start, hstart, hle⟩, hready⟩ := h.commits commit hcommit
    rw [hframe.decisions]
    exact ⟨hat.trans hframe.clock, ⟨fire, hframe.fires fire hfire, hof⟩,
      ⟨start, (hframe.starts commit.fireID).symm ▸ hstart, hle⟩, hready⟩
  · intro e he ready hready
    rw [hframe.decisions]
    exact h.decided e (hframe.executions e he) ready hready
  · intro receipt hreceipt hcooldown
    rw [hframe.decisions]
    rcases hframe.suppressed receipt hreceipt hcooldown with hold | ⟨e, he, hid, hready⟩
    · exact h.suppressed receipt hold hcooldown
    · obtain ⟨decision, hdecision, hof, hanswer⟩ := h.decided e he false hready
      exact ⟨decision, hdecision, hof.1.trans hid, hanswer⟩

lemma CooldownInv.advance (h : CooldownInv w) {e' : EventExecution}
    (hresolved : ∀ job, e'.job = some (some job) → ResolvedFor w.store e'.fire.toEventJobFire job)
    (hdecided : ∀ ready, e'.ready = some ready → ∃ decision ∈ w.decisions,
      decision.IsOf e'.fire.toEventJobFire ∧ decision.ready = ready) : CooldownInv (w.advance e e') := by
  refine ⟨h.begun, h.starts, ?_, h.ordered, h.commits, h.decisions, ?_, h.suppressed⟩
  · intro x hx
    rcases mem_concat.mp hx with hold | hnew
    · exact h.resolved x (mem_of_mem_erase hold)
    · rw [hnew]
      exact hresolved
  · intro x hx
    rcases mem_concat.mp hx with hold | hnew
    · exact h.decided x (mem_of_mem_erase hold)
    · rw [hnew]
      exact hdecided

/-! ## Steps -/

/-- Before anything was created. -/
lemma cooldownInv_initial (start : ℕ) : CooldownInv (initialEventWorld (start + 1)) := by
  refine ⟨?_, ?_, ?_, ?_, ?_, ?_, ?_, ?_⟩
  · change (0 : ℤ) < start + 1
    omega
  all_goals simp [initialEventWorld, fireStarts, fireLeases, ControlLeaseTables.ofTarget]

lemma fireStarts_of_moves (hmoves : Moves store.leases leases leaseID) (fireID : String) :
    EventStore.fireStarts { store with leases := leases } fireID = store.fireStarts fireID := by
  obtain ⟨_, hleases, hf⟩ := hmoves
  unfold fireStarts fireLeases
  rw [ofTarget_of_map hleases (fun row => (hf row).1) .eventFire fireID, List.map_map]
  exact map_congr_left fun row _ => (hf row).1.timeActivated

lemma fireStarts_of_claim {fireID ownerID other : String}
    (hleases : leases.leases = store.leases.leases ++ [(fireAcquisition fireID ownerID leaseID now).lease]) :
    EventStore.fireStarts { store with leases := leases } other = store.fireStarts other ++
      if fireID = other then [now] else [] := by
  unfold fireStarts
  rw [fireLeases_of_claim hleases, map_append]
  split_ifs <;> rfl

lemma resolvedFor_of_resolve (hqueue : QueueInv store) {fire : EventJobFireRow}
    (hstored : fire.toEventJobFire ∈ store.fires) (h : resolveEventJob store fire = .ok (some job)) :
    ResolvedFor store fire.toEventJobFire job := by
  obtain ⟨persisted, hpersisted, hid, hcooldown, -, hlast⟩ := resolveEventJob_eq_some h
  refine ⟨⟨persisted, hpersisted, ?_, hcooldown.symm⟩, ?_⟩
  · rw [(hqueue.jobs.definitions persisted hpersisted).1, hid, hqueue.revision_eq hstored]
  · rw [hlast]
    cases hprevious : store.previousFire fire.toEventJobFire with
    | none =>
      refine Or.inl ⟨?_, rfl⟩
      by_contra hne
      obtain ⟨_, _⟩ := hqueue.fires.le_frontier hstored
      obtain ⟨previous, hmem, hdefinition, _⟩ :=
        hqueue.fires.exists_number (n := fire.queuePosition - 1) (by omega) (by omega : _ ≤ frontier _ _ store.fires fire.definitionID)
      have hnone := find?_eq_none.mp hprevious previous hmem
      simp only [decide_eq_true_eq] at hnone
      exact hnone ⟨hdefinition, by omega⟩
    | some previous =>
      have hfound := find?_some hprevious
      simp only [decide_eq_true_eq] at hfound
      exact Or.inr ⟨previous, mem_of_find?_eq_some hprevious, hfound.1, hfound.2, rfl⟩

lemma EventBase.fireStarts_ne_nil (h : EventBase w) {fire : EventJobFire} (hfire : fire ∈ w.store.fires)
    (hsettled : fire.queuePosition ≤ w.store.settledPosition fire.definitionID) :
    w.store.fireStarts fire.id ≠ [] := by
  obtain ⟨receipt, hreceipt, hid, -⟩ := h.queue.exists_terminal hfire hsettled
  have hleased := h.leases.leased receipt (mem_of_mem_filter hreceipt)
  rw [hid] at hleased
  exact fun hnil => hleased (map_eq_nil_iff.mp hnil)

lemma EventBase.previous_settled (h : EventBase w) (he : e ∈ w.executions) {previous : EventJobFire}
    (hdefinition : previous.definitionID = e.fire.definitionID)
    (hposition : previous.queuePosition + 1 = e.fire.queuePosition) :
    previous.queuePosition ≤ w.store.settledPosition previous.definitionID := by
  have hexecution := h.executions.each e he
  have hle := h.leases.position_le h.queue hexecution.stored hexecution.leased
  rw [hdefinition]
  change e.fire.queuePosition ≤ w.store.settledPosition e.fire.definitionID + 1 at hle
  omega

lemma CooldownInv.claim (h : CooldownInv w) (hbase : EventBase w) {row : EventJobFireRow} {ownerID : String}
    (hclaimable : Claimable w.store row.toEventJobFire w.clock)
    (hleases : leases.leases = w.store.leases.leases ++ [(fireAcquisition row.id ownerID leaseID w.clock).lease]) :
    CooldownInv { w.withStore { w.store with leases := leases } with
      executions := w.executions ++ [startEventExecution row ownerID] } := by
  have hstarts : ∀ other, fireStarts { w.store with leases := leases } other =
      w.store.fireStarts other ++ if row.id = other then [w.clock] else [] :=
    fun _ => fireStarts_of_claim hleases
  have hsplit : ∀ other start, start ∈ fireStarts { w.store with leases := leases } other →
      start ∈ w.store.fireStarts other ∨ row.id = other ∧ start = w.clock := by
    intro other start hstart
    rw [hstarts] at hstart
    rcases mem_append.mp hstart with hold | hnew
    · exact Or.inl hold
    · split_ifs at hnew with hsame
      · exact Or.inr ⟨hsame, mem_singleton.mp hnew⟩
      · cases hnew
  refine ⟨h.begun, ?_, ?_, ?_, ?_, h.decisions, ?_, h.suppressed⟩
  · intro other start hstart
    rcases hsplit other start hstart with hold | ⟨-, rfl⟩
    · exact h.starts other start hold
    · exact h.begun
  · intro e he job hjob
    rcases mem_append.mp he with hold | hnew
    · refine (h.resolved e hold job hjob).frame (fun _ hrow => hrow) (fun _ hfire => hfire) ?_
      intro previous hprevious hdefinition hposition
      have hsettled := hbase.previous_settled hold hdefinition hposition
      have hne : row.id ≠ previous.id := by
        intro heq
        obtain rfl : row.toEventJobFire = previous :=
          hbase.queue.eq_of_id hclaimable.stored hprevious heq
        rw [hclaimable.head] at hsettled
        omega
      change fireStarts { w.store with leases := leases } previous.id = _
      rw [hstarts, if_neg hne, List.append_nil]
    · rw [mem_singleton.mp hnew] at hjob
      cases hjob
  · intro commit hcommit other start hstart
    rcases hsplit other start hstart with hold | ⟨hsame, rfl⟩
    · exact h.ordered commit hcommit other start hold
    · exact ⟨row.toEventJobFire, hclaimable.stored, hsame, fun _ _ => (h.commits commit hcommit).1⟩
  · intro commit hcommit
    obtain ⟨hat, hfire, ⟨start, hstart, hle⟩, hready⟩ := h.commits commit hcommit
    refine ⟨hat, hfire, ⟨start, ?_, hle⟩, hready⟩
    change start ∈ fireStarts { w.store with leases := leases } commit.fireID
    rw [hstarts]
    exact mem_append_left _ hstart
  · intro e he ready hready
    rcases mem_append.mp he with hold | hnew
    · exact h.decided e hold ready hready
    · rw [mem_singleton.mp hnew] at hready
      cases hready

/-- A decision on a fire. -/
lemma CooldownInv.decide (h : CooldownInv w) (hbase : EventBase w) (he : e ∈ w.executions)
    (hjob : e.activeJob = some job) :
    CooldownInv { w.advance e { e with ready := some (ready job w.clock) } with
      decisions := w.decisions ++ [e.decision job w.clock] } := by
  have hexecution := hbase.executions.each e he
  have hactive := join_eq_some_iff.mp (filter_eq_some_iff.mp hjob).1
  have hgrown : ∀ {P : EventDecision → Prop}, (∃ decision ∈ w.decisions, P decision) →
      ∃ decision ∈ w.decisions ++ [e.decision job w.clock], P decision := by
    rintro _ ⟨decision, hdecision, hP⟩
    exact ⟨decision, mem_append_left _ hdecision, hP⟩
  refine ⟨h.begun, h.starts, ?_, h.ordered, ?_, ?_, ?_, ?_⟩
  · intro x hx
    rcases mem_concat.mp hx with hold | hnew
    · exact h.resolved x (mem_of_mem_erase hold)
    · rw [hnew]
      exact h.resolved e he
  · intro commit hcommit
    obtain ⟨hat, hfire, hstart, hready⟩ := h.commits commit hcommit
    exact ⟨hat, hfire, hstart, hgrown hready⟩
  · intro decision hdecision
    rcases mem_concat.mp hdecision with hold | hnew
    · exact h.decisions decision hold
    · rw [hnew]
      exact ⟨le_rfl, ⟨e.fire.toEventJobFire, hexecution.stored, rfl, rfl, rfl⟩,
        hbase.leases.position_le hbase.queue hexecution.stored hexecution.leased,
        (h.resolved e he job hactive).row⟩
  · intro x hx answer hanswer
    rcases mem_concat.mp hx with hold | hnew
    · exact hgrown (h.decided x (mem_of_mem_erase hold) answer hanswer)
    · rw [hnew] at hanswer ⊢
      exact ⟨_, mem_append_right _ (mem_singleton_self _), ⟨rfl, rfl, rfl⟩, some.inj hanswer⟩
  · intro receipt hreceipt hcooldown
    exact hgrown (h.suppressed receipt hreceipt hcooldown)

section Law

variable [EventPayloads]

lemma CooldownInv.commit (h : CooldownInv w) (hbase : EventBase w) {e : EventExecution}
    (he : e ∈ w.executions) (hwaking : e.Waking) (hcommit : commitEventWake w.store e w.clock = .ok store) :
    CooldownInv { (w.withStore store).advance e { e with committed := true } with
      commits := w.commits ++
        [⟨e.fire.id, e.fire.definitionID, e.fire.queuePosition, e.ownerID, w.clock⟩] } := by
  have hexecution := hbase.executions.each e he
  obtain ⟨hstore, hopen, lease, hheld⟩ := commitEventWake_eq_ok hcommit
  obtain ⟨_, hmessages⟩ := upsertMessage_frame w.store e.wakeMessage
  rw [hmessages] at hstore
  subst hstore
  have hafter := hbase.queue.settled_lt_of_open hexecution.stored hopen
  refine ⟨h.begun, h.starts, ?_, ?_, ?_, h.decisions, ?_, h.suppressed⟩
  · intro x hx job hjob
    have hkept : ResolvedFor w.store x.fire.toEventJobFire job := by
      rcases mem_concat.mp hx with hold | hnew
      · exact h.resolved x (mem_of_mem_erase hold) job hjob
      · rw [hnew] at hjob ⊢
        exact h.resolved e he job hjob
    exact ⟨hkept.row, hkept.lastRun⟩
  · intro commit hmem fireID start hstart
    rcases mem_concat.mp hmem with hold | hnew
    · exact h.ordered commit hold fireID start hstart
    · -- A fire after the head was not started.
      rw [hnew]
      have hleased : w.store.fireLeases fireID ≠ [] := by
        intro hnil
        change start ∈ (w.store.fireLeases fireID).map _ at hstart
        rw [hnil] at hstart
        cases hstart
      obtain ⟨fire, hfire, hid, hle⟩ := hbase.leases.heads fireID hleased
      refine ⟨fire, hfire, hid, fun hdefinition hbefore => ?_⟩
      rw [hdefinition] at hle
      change w.store.settledPosition e.fire.definitionID < e.fire.queuePosition at hafter
      change e.fire.queuePosition < fire.queuePosition at hbefore
      change fire.queuePosition ≤ w.store.settledPosition e.fire.definitionID + 1 at hle
      omega
  · intro commit hmem
    rcases mem_concat.mp hmem with hold | hnew
    · exact h.commits commit hold
    · rw [hnew]
      obtain ⟨decision, hdecision, hof, hready⟩ := h.decided e he true hwaking.2.1
      have hlease := mem_fireLeases_of_held hheld
      exact ⟨le_rfl, ⟨e.fire.toEventJobFire, hexecution.stored, rfl, rfl, rfl⟩,
        ⟨lease.timeActivated, List.mem_map_of_mem hlease, hbase.leases.begun _ lease hlease⟩,
        decision, hdecision, hof.2.1, hof.2.2, hready, (h.decisions decision hdecision).1⟩
  · intro x hx
    rcases mem_concat.mp hx with hold | hnew
    · exact h.decided x (mem_of_mem_erase hold)
    · rw [hnew]
      exact h.decided e he

/-- Every step keeps starts, decisions and wakes in time. -/
theorem CooldownInv.effect (h : CooldownInv w) (hbase : EventBase w) (heffect : EventEffect w w') :
    CooldownInv w' := by
  have hsettledLe := settledPosition_le hbase.queue heffect
  have hfires := fires_subset_of_effect heffect
  cases heffect with
  | @around _ _ hclock hstore =>
    refine h.frame ⟨hclock, ?_, hfires, ?_, hsettledLe, fun _ he => he, rfl, rfl, ?_⟩
    · exact fun row hrow => hstore.jobs ▸ hrow
    · intro fireID
      unfold fireStarts fireLeases
      rw [hstore.leases]
    · exact fun receipt hreceipt _ => Or.inl (hstore.receipts ▸ hreceipt)
  | created =>
    exact h.frame ⟨le_rfl, fun _ hrow => mem_append_left _ hrow, hfires, fun _ => rfl, hsettledLe,
      fun _ he => he, rfl, rfl, fun _ hreceipt _ => Or.inl hreceipt⟩
  | accepted haccepted =>
    obtain ⟨_, _, rfl, -⟩ := frame_of_acceptance haccepted
    exact h.frame ⟨le_rfl, fun _ hrow => hrow, hfires, fun _ => rfl, hsettledLe, fun _ he => he, rfl, rfl,
      fun _ hreceipt _ => Or.inl hreceipt⟩
  | claimed hclaimable hleases => exact h.claim hbase hclaimable hleases
  | renewed _ _ hmoves =>
    exact h.frame ⟨le_rfl, fun _ hrow => hrow, hfires, fireStarts_of_moves hmoves, hsettledLe,
      fun _ he => he, rfl, rfl, fun _ hreceipt _ => Or.inl hreceipt⟩
  | @moved e _ he hmoves =>
    have hresolved := h.resolved e he
    have hdecided := h.decided e he
    cases hmoves with
    | resolved _ _ hjob =>
      refine h.advance (fun job hsome => ?_) hdecided
      rw [some.injEq] at hsome
      exact resolvedFor_of_resolve hbase.queue (hbase.executions.each e he).stored (hsome ▸ hjob)
    | _ => exact h.advance hresolved hdecided
  | decided he _ hjob => exact h.decide hbase he hjob
  | committed he hwaking hcommit => exact h.commit hbase he hwaking hcommit
  | @settled e receipt _ he hsettled hfound =>
    obtain ⟨_, _, -, hmoves, rfl⟩ := hsettled.held
    refine h.frame ⟨le_rfl, fun _ hrow => hrow, hfires, fireStarts_of_moves hmoves, hsettledLe,
      fun _ hx => mem_of_mem_erase hx, rfl, rfl, fun other hother hcooldown => ?_⟩
    rcases mem_concat.mp hother with hold | hnew
    · exact Or.inl hold
    · refine Or.inr ⟨e, he, ?_⟩
      rw [hnew] at hcooldown ⊢
      refine ⟨hsettled.of_fire.1.symm, ?_⟩
      cases houtcome : receipt.outcome with
      | disposition =>
        rw [houtcome] at hcooldown hfound
        exact hfound (some.inj hcooldown)
      | retryWait | succeeded => rw [houtcome] at hcooldown; cases hcooldown
  | finished =>
    exact h.frame ⟨le_rfl, fun _ hrow => hrow, hfires, fun _ => rfl, hsettledLe,
      fun _ hx => mem_of_mem_erase hx, rfl, rfl, fun _ hreceipt _ => Or.inl hreceipt⟩
  | purged =>
    exact h.frame ⟨le_rfl, fun _ hrow => hrow, hfires, fun _ => rfl, hsettledLe, fun _ hx => hx, rfl, rfl,
      fun _ hreceipt _ => Or.inl hreceipt⟩

/-! ## Decisions -/

def RightDecisions (w : EventWorld) (definitionID : String) : Prop :=
  ∀ decision ∈ w.decisions, decision.definitionID = definitionID → (decision.ready = false ↔
      WokeRecently w definitionID decision.queuePosition decision.cooldownMs decision.decidedAt)

lemma decisions_of_step {action : EventAction} (h : eventServiceStep w action = some w') :
    (∃ e job, action = .decide e ∧ e ∈ w.executions ∧ e.activeJob = some job ∧
      w' = { w.advance e { e with ready := some (ready job w.clock) } with
        decisions := w.decisions ++ [e.decision job w.clock] }) ∨
    ((∀ definitionID, OutsideCooldownGap definitionID w action) ∧ w'.decisions = w.decisions) := by
  cases action with
  | decide e =>
    simp only [eventServiceStep] at h
    split at h
    · rename_i job hjob
      obtain ⟨⟨he, -⟩, h⟩ := of_guard h
      exact Or.inl ⟨e, job, rfl, he, hjob, (some.inj h).symm⟩
    · cases h
  | _ =>
    refine Or.inr ⟨fun _ => trivial, ?_⟩
    simp only [eventServiceStep, EventWorld.settled] at h
    grind [EventWorld.withStore, EventWorld.advance, EventWorld.finish, map_eq_some_iff,
      bind_eq_some_iff]

lemma commits_of_effect (h : CooldownInv w) (hbase : EventBase w) (heffect : EventEffect w w') :
    ∃ added, w'.commits = w.commits ++ added ∧ ∀ commit ∈ added, ∀ decision ∈ w.decisions,
      decision.definitionID = commit.definitionID → decision.queuePosition ≤ commit.queuePosition := by
  cases heffect with
  | @committed e _ he _ hcommit =>
    refine ⟨_, rfl, fun commit hadded decision hdecision hdefinition => ?_⟩
    obtain ⟨-, hopen, -⟩ := commitEventWake_eq_ok hcommit
    have hafter := hbase.queue.settled_lt_of_open (hbase.executions.each e he).stored hopen
    obtain ⟨-, -, hle, -⟩ := h.decisions decision hdecision
    rw [mem_singleton.mp hadded] at hdefinition ⊢
    rw [hdefinition] at hle
    change w.store.settledPosition e.fire.definitionID < e.fire.queuePosition at hafter
    change decision.queuePosition ≤ w.store.settledPosition e.fire.definitionID + 1 at hle
    change decision.queuePosition ≤ e.fire.queuePosition
    omega
  | _ => exact ⟨[], (List.append_nil _).symm, fun _ hadded => (nomatch hadded)⟩

lemma wokeRecently_of_effect (h : CooldownInv w) (hbase : EventBase w) (heffect : EventEffect w w')
    {decision : EventDecision} (hdecision : decision ∈ w.decisions) :
    WokeRecently w' decision.definitionID decision.queuePosition decision.cooldownMs decision.decidedAt ↔
      WokeRecently w decision.definitionID decision.queuePosition decision.cooldownMs
        decision.decidedAt := by
  obtain ⟨_, hcommits, hlater⟩ := commits_of_effect h hbase heffect
  unfold WokeRecently
  rw [hcommits]
  constructor
  · rintro ⟨commit, hcommit, hdefinition, hposition, hrecent⟩
    rcases mem_append.mp hcommit with hold | hnew
    · exact ⟨commit, hold, hdefinition, hposition, hrecent⟩
    · exact absurd hposition (not_lt.mpr (hlater commit hnew decision hdecision hdefinition.symm))
  · rintro ⟨commit, hcommit, hof⟩
    exact ⟨commit, mem_append_left _ hcommit, hof⟩

variable {started : ℤ} {fire : EventJobFire}

omit [EventPayloads] in
lemma timeStarted_le {fireID : String} {start : ℤ} (hstarted : store.timeStarted fireID = some started)
    (hstart : start ∈ store.fireStarts fireID) : started ≤ start := by
  rw [timeStarted_eq] at hstarted
  exact (min?_eq_some_iff.mp hstarted).2 start hstart

omit [EventPayloads] in
lemma CooldownInv.committed_le (h : CooldownInv w) (hbase : EventBase w) {previous : EventJobFire}
    (hprevious : previous ∈ w.store.fires) (hstarted : w.store.timeStarted previous.id = some started)
    {commit : EventWakeCommit} (hcommit : commit ∈ w.commits)
    (hdefinition : commit.definitionID = previous.definitionID)
    (hposition : commit.queuePosition ≤ previous.queuePosition) (hother : commit.fireID ≠ previous.id) :
    commit.committedAt ≤ started := by
  rw [timeStarted_eq] at hstarted
  obtain ⟨fire, hfire, hid, hle⟩ := h.ordered commit hcommit previous.id started
    (min?_eq_some_iff.mp hstarted).1
  obtain rfl : fire = previous := hbase.queue.eq_of_id hfire hprevious hid
  refine hle hdefinition.symm (lt_of_le_of_ne hposition fun heq => hother ?_)
  obtain ⟨-, ⟨other, hmem, hid', hdefinition', hposition'⟩, -⟩ := h.commits commit hcommit
  obtain rfl : other = fire := hbase.queue.eq_of_position hmem hfire (hdefinition'.trans hdefinition)
    (hposition'.trans heq)
  exact hid'.symm

omit [EventPayloads] in
lemma CooldownInv.exists_timeStarted (h : CooldownInv w) (hbase : EventBase w) (hfire : fire ∈ w.store.fires)
    (hsettled : fire.queuePosition ≤ w.store.settledPosition fire.definitionID) :
    ∃ started, w.store.timeStarted fire.id = some started ∧ 0 < started := by
  rw [timeStarted_eq]
  obtain ⟨started, hstarted⟩ := ne_none_iff_exists'.mp fun hnone =>
    hbase.fireStarts_ne_nil hfire hsettled (min?_eq_none_iff.mp hnone)
  exact ⟨started, hstarted, h.starts fire.id started (min?_eq_some_iff.mp hstarted).1⟩

omit [EventPayloads] in
lemma CooldownInv.started_le (h : CooldownInv w) (hbase : EventBase w) (hfire : fire ∈ w.store.fires)
    (hstarted : w.store.timeStarted fire.id = some started) {commit : EventWakeCommit}
    (hcommit : commit ∈ w.commits) (hof : commit.fireID = fire.id) :
    started ≤ commit.committedAt ∧ commit.definitionID = fire.definitionID ∧
      commit.queuePosition = fire.queuePosition := by
  obtain ⟨-, ⟨other, hother, hid, hdefinition, hposition⟩, ⟨_, hstart, hle⟩, -⟩ :=
    h.commits commit hcommit
  obtain rfl : other = fire := hbase.queue.eq_of_id hother hfire (hid.trans hof)
  exact ⟨(timeStarted_le hstarted (hof ▸ hstart)).trans hle, hdefinition.symm, hposition.symm⟩

omit [EventPayloads] in
lemma CooldownInv.first_decision (h : CooldownInv w) (hbase : EventBase w) (hfirst : fire.queuePosition = 1)
    (cooldownMs : ℕ) :
    ¬WokeRecently w fire.definitionID fire.queuePosition cooldownMs w.clock ∧
      ¬InCooldownGap w fire cooldownMs := by
  constructor
  · rintro ⟨commit, hcommit, -, _, -⟩
    obtain ⟨-, ⟨_, hother, -, -, _⟩, -⟩ := h.commits commit hcommit
    have hpositive := (hbase.queue.fires.le_frontier hother).1
    omega
  · rintro ⟨_, hprevious, -, _, -⟩
    have hpositive := (hbase.queue.fires.le_frontier hprevious).1
    omega

omit [EventPayloads] in
lemma ready_eq_false_iff {job : EventJobRow} (hlast : job.lastRun = some started) (hpositive : 0 < started) :
    ready job now = false ↔ now < started + job.cooldownMs := by
  unfold ready
  rw [hlast]
  simp only [Bool.or_eq_false_iff, decide_eq_false_iff_not]
  omega

omit [EventPayloads] in
lemma EventBase.inCooldownGap_iff (h : EventBase w) {previous : EventJobFire} {cooldownMs : ℕ}
    (hprevious : previous ∈ w.store.fires) (hdefinition : previous.definitionID = fire.definitionID)
    (hposition : previous.queuePosition + 1 = fire.queuePosition)
    (hstarted : w.store.timeStarted previous.id = some started) :
    InCooldownGap w fire cooldownMs ↔
      (started + cooldownMs ≤ w.clock ∧ ∃ commit ∈ w.commits, commit.fireID = previous.id ∧
        w.clock < commit.committedAt + cooldownMs) ∨
      (w.clock < started + cooldownMs ∧ (∀ commit ∈ w.commits, commit.fireID ≠ previous.id) ∧
        ¬WokeRecently w fire.definitionID fire.queuePosition cooldownMs w.clock) := by
  constructor
  · rintro ⟨other, hother, hdefinition', _, started', hstarted', hin⟩
    obtain rfl : other = previous := h.queue.eq_of_position hother hprevious
      (hdefinition'.trans hdefinition.symm) (by omega)
    obtain rfl : started = started' := some.inj (hstarted.symm.trans hstarted')
    exact hin
  · exact fun hin => ⟨previous, hprevious, hdefinition, hposition, started, hstarted, hin⟩

omit [EventPayloads] in
lemma CooldownInv.decide_iff (h : CooldownInv w) (hbase : EventBase w) {e : EventExecution}
    {job : EventJobRow} (he : e ∈ w.executions) (hjob : e.activeJob = some job) :
    (ready job w.clock = false ↔ WokeRecently w e.fire.definitionID e.fire.queuePosition job.cooldownMs w.clock) ↔
      ¬InCooldownGap w e.fire.toEventJobFire job.cooldownMs := by
  have hactive := join_eq_some_iff.mp (filter_eq_some_iff.mp hjob).1
  rcases (h.resolved e he job hactive).lastRun with ⟨hfirst, hlast⟩ | ⟨previous, hprevious, hdefinition,
    hposition, hlast⟩
  · obtain ⟨hnone, hgap⟩ := h.first_decision hbase hfirst job.cooldownMs
    have hready : ready job w.clock = true := by
      unfold ready
      rw [hlast]
    exact iff_of_true (iff_of_false (by simp [hready]) hnone) hgap
  obtain ⟨started, hstarted, hpositive⟩ :=
    h.exists_timeStarted hbase hprevious (hbase.previous_settled he hdefinition hposition)
  rw [ready_eq_false_iff (hlast.trans hstarted) hpositive,
    hbase.inCooldownGap_iff hprevious hdefinition hposition hstarted]
  -- A wake of the fire before is one before the fire of the execution.
  have hown : ∀ commit ∈ w.commits, commit.fireID = previous.id → started ≤ commit.committedAt ∧
      commit.definitionID = e.fire.definitionID ∧ commit.queuePosition < e.fire.queuePosition := by
    intro commit hcommit hof
    obtain ⟨hle, hdefinition', _⟩ := h.started_le hbase hprevious hstarted hcommit hof
    refine ⟨hle, hdefinition'.trans hdefinition, ?_⟩
    change previous.queuePosition + 1 = e.fire.queuePosition at hposition
    omega
  constructor
  · rintro hright (⟨hlate, commit, hcommit, hof, hwoke⟩ | ⟨hearly, -, hnone⟩)
    · obtain ⟨-, hsame, hbefore⟩ := hown commit hcommit hof
      exact absurd (hright.mpr ⟨commit, hcommit, hsame, hbefore, hwoke⟩) (not_lt.mpr hlate)
    · exact hnone (hright.mp hearly)
  · intro hout
    push Not at hout
    constructor
    · intro hearly
      by_contra hnone
      obtain ⟨commit, hcommit, hof⟩ : ∃ commit ∈ w.commits, commit.fireID = previous.id := by
        by_contra hno
        push Not at hno
        exact hnone (hout.2 hearly hno)
      obtain ⟨_, hsame, hbefore⟩ := hown commit hcommit hof
      exact hnone ⟨commit, hcommit, hsame, hbefore, by omega⟩
    · rintro ⟨commit, hcommit, hsame, _, _⟩
      by_contra hlate
      by_cases hof : commit.fireID = previous.id
      · have hnot := hout.1 (not_lt.mp hlate) commit hcommit hof
        omega
      · -- The wakes before the fire before were committed before its start.
        have hle : commit.committedAt ≤ started := by
          refine h.committed_le hbase hprevious hstarted hcommit (hsame.trans hdefinition.symm) ?_ hof
          change previous.queuePosition + 1 = e.fire.queuePosition at hposition
          omega
        omega

/-- The state is well formed, and starts, decisions and wakes are in time. -/
structure EventCooldownInv (w : EventWorld) : Prop extends EventBase w where
  cooldown : CooldownInv w

theorem eventCooldownInv_preserves : Preserves eventServiceStep EventCooldownInv := by
  intro w action w' h hstep
  exact ⟨eventBase_preserves h.toEventBase hstep, h.cooldown.effect h.toEventBase (h.effect hstep)⟩

lemma rightDecisions_step (h : EventCooldownInv w) {action : EventAction}
    (hstep : eventServiceStep w action = some w') (definitionID : String) :
    RightDecisions w' definitionID ↔
      RightDecisions w definitionID ∧ OutsideCooldownGap definitionID w action := by
  have hrecent := fun (decision : EventDecision) (hdecision : decision ∈ w.decisions) =>
    wokeRecently_of_effect h.cooldown h.toEventBase (h.effect hstep) hdecision
  have hold : (∀ decision ∈ w.decisions, decision.definitionID = definitionID → (decision.ready = false ↔
        WokeRecently w' definitionID decision.queuePosition decision.cooldownMs decision.decidedAt)) ↔
      RightDecisions w definitionID := by
    unfold RightDecisions
    refine forall₂_congr fun decision hdecision => ⟨fun hright hof => ?_, fun hright hof => ?_⟩
    · subst hof
      rw [hright rfl, hrecent decision hdecision]
    · subst hof
      rw [hright rfl, hrecent decision hdecision]
  rcases decisions_of_step hstep with ⟨e, job, rfl, he, hjob, rfl⟩ | ⟨hout, hdecisions⟩
  · have hiff := h.cooldown.decide_iff h.toEventBase he hjob
    unfold RightDecisions
    simp only [forall_mem_append, forall_mem_singleton]
    rw [hold]
    refine and_congr_right fun _ => ?_
    change (e.fire.definitionID = definitionID → _) ↔ (e.fire.definitionID = definitionID → ∀ job ∈ e.activeJob, _)
    refine forall_congr' fun hof => ?_
    subst hof
    rw [hjob]
    simp only [mem_some_iff, forall_eq']
    exact hiff
  · unfold RightDecisions at hold ⊢
    rw [hdecisions, hold]
    simp only [hout definitionID, and_true]

omit [EventPayloads] in
lemma CooldownInv.cooldownMs_eq (h : CooldownInv w) (hbase : EventBase w) {job : EventJob}
    (hjob : job ∈ w.store.jobs) {decision : EventDecision} (hdecision : decision ∈ w.decisions)
    (hof : decision.definitionID = job.definitionID) : decision.cooldownMs = job.cooldownMs := by
  obtain ⟨-, -, -, row, hrow, hrowOf, hcooldown⟩ := h.decisions decision hdecision
  obtain rfl : row = job := hbase.queue.jobs.eq_of_definitionID hrow hjob (hrowOf.trans hof)
  exact hcooldown.symm

omit [EventPayloads] in
lemma EventCooldownInv.holds_iff (h : EventCooldownInv w) {job : EventJob} (hjob : job ∈ w.store.jobs) :
    CooldownHolds w job ↔ RightDecisions w job.definitionID := by
  have hcooldown := fun (decision : EventDecision) (hdecision : decision ∈ w.decisions) hof =>
    h.cooldown.cooldownMs_eq h.toEventBase hjob hdecision hof
  constructor
  · intro hholds decision hdecision hof
    rw [hholds.decided decision hdecision hof, hcooldown decision hdecision hof]
  · intro hright
    have hdecided : ∀ decision ∈ w.decisions, decision.definitionID = job.definitionID → (decision.ready = false ↔
          WokeRecently w job.definitionID decision.queuePosition job.cooldownMs decision.decidedAt) := by
      intro decision hdecision hof
      rw [hright decision hdecision hof, hcooldown decision hdecision hof]
    refine ⟨hdecided, ?_, ?_⟩
    · intro receipt hreceipt hof hkind
      obtain ⟨decision, hdecision, hid, hanswer⟩ := h.cooldown.suppressed receipt hreceipt hkind
      obtain ⟨-, ⟨fire, hfire, hfireID, hdefinition, hposition⟩, -⟩ :=
        h.cooldown.decisions decision hdecision
      obtain ⟨fire', hfire', hid', hdefinition', hposition'⟩ := h.queue.receipts receipt hreceipt
      obtain rfl : fire = fire' :=
        h.queue.eq_of_id hfire hfire' (hfireID.symm.trans (hid.trans hid'.symm))
      have hdecisionOf : decision.definitionID = job.definitionID :=
        hdefinition.trans (hdefinition'.trans hof)
      refine ⟨decision, hdecision, hid, ?_⟩
      rw [← hposition', ← hposition]
      exact (hdecided decision hdecision hdecisionOf).mp hanswer
    · intro commit hcommit later hlater hof hof' hbefore
      obtain ⟨-, -, -, decision, hdecision, hdefinition, hposition, hready, _⟩ :=
        h.cooldown.commits later hlater
      by_contra hclose
      have hnot := (hdecided decision hdecision (hdefinition.trans hof')).not.mp (by simp [hready])
      exact hnot ⟨commit, hcommit, hof, hposition ▸ hbefore, by omega⟩

/-- The cooldown of a definition means what it says exactly in the runs that take no decision on one of its
fires in a gap. -/
theorem cooldownHolds_iff {start : ℕ} {actions : List EventAction} {w : EventWorld}
    (hrun : exec eventServiceStep (initialEventWorld (start + 1)) actions = some w) {job : EventJob}
    (hjob : job ∈ w.store.jobs) :
    CooldownHolds w job ↔
      Within eventServiceStep (OutsideCooldownGap job.definitionID) (initialEventWorld (start + 1))
        actions := by
  have hinitial : EventCooldownInv (initialEventWorld (start + 1)) :=
    ⟨eventBase_initial _, cooldownInv_initial start⟩
  have hfinal := eventCooldownInv_preserves.exec hinitial hrun
  rw [hfinal.holds_iff hjob, final_iff_within eventCooldownInv_preserves
    (fun _ _ _ h hstep => rightDecisions_step h hstep job.definitionID) hinitial hrun]
  exact and_iff_right fun _ hdecision => (nomatch hdecision)

end Law

/-! ## Two runs -/

/-- Create a definition with a cooldown of 100 ms, and accept three events for it. -/
def threeFires : List (EventWorld → EventAction) := [
  fun _ => .createSession ⟨"ses_1", false⟩,
  fun _ => .create ⟨"evt_1", "prj_1", some "ses_1", "file.edited", [], false, 100⟩,
  fun _ => .accept "prj_1" ⟨"file.edited", "{}", "occ_1", none⟩ (namedFireInputs "fire_1"),
  fun _ => .accept "prj_1" ⟨"file.edited", "{}", "occ_2", none⟩ (namedFireInputs "fire_2"),
  fun _ => .accept "prj_1" ⟨"file.edited", "{}", "occ_3", none⟩ (namedFireInputs "fire_3")]

def claimAndDecide (fireID leaseID : String) (now : ℤ) : List (EventWorld → EventAction) := [
  fun _ => .tick now,
  fun _ => .claim (fireID ++ "evt_1") "owner_1" leaseID,
  fun w => .lookForWake (latestEventExecution w),
  fun w => .resolveJob (latestEventExecution w),
  fun w => .admitExecution (latestEventExecution w),
  fun w => .decide (latestEventExecution w)]

def wakeTarget (receiptID : String) : List (EventWorld → EventAction) := [
  fun w => .commitWake (latestEventExecution w),
  fun w => .confirmWake (latestEventExecution w),
  fun w => .succeed (latestEventExecution w) receiptID]

/-- The second fire is held back at 51 ms, and the third one comes when the cooldown has elapsed for both. -/
def cooledDown : List EventAction :=
  letI := plainPayloads
  scripted eventServiceStep (initialEventWorld 1) <| threeFires ++
    claimAndDecide "fire_1" "lease_1" 1 ++ wakeTarget "receipt_1" ++
    claimAndDecide "fire_2" "lease_2" 51 ++ [fun w => .suppress (latestEventExecution w) "receipt_2"] ++
    claimAndDecide "fire_3" "lease_3" 151 ++ wakeTarget "receipt_3"

/-- Its decisions, and the cooldown holds. -/
theorem cooldownHolds_cooledDown :
    letI := plainPayloads
    ∃ w, exec eventServiceStep (initialEventWorld ((0 : ℕ) + 1)) cooledDown = some w ∧
      w.decisions.map EventDecision.ready = [true, false, true] ∧
      ∃ job ∈ w.store.jobs, job.cooldownMs = 100 ∧ CooldownHolds w job := by
  let _ : EventPayloads := plainPayloads
  have hdecisions : (exec eventServiceStep (initialEventWorld ((0 : ℕ) + 1)) cooledDown).map
      (fun w => (w.decisions.map EventDecision.ready, w.store.jobs.map fun job =>
        (job.definitionID, job.cooldownMs))) = some ([true, false, true], [("evt_1", 100)]) := by
    decide +kernel
  obtain ⟨w, hw, hanswer⟩ := map_eq_some_iff.mp hdecisions
  obtain ⟨hready, hjobs⟩ := Prod.mk.inj hanswer
  obtain ⟨job, hjob, hof⟩ := List.mem_map.mp (hjobs ▸ mem_singleton_self ("evt_1", 100))
  obtain ⟨hid, hcooldown⟩ := Prod.mk.inj hof
  refine ⟨w, hw, hready, job, hjob, hcooldown, (cooldownHolds_iff hw hjob).mpr ?_⟩
  rw [hid]
  decide +kernel

/-- The third fire comes at 121 ms, later than the cooldown after the wake of the first one. -/
def heldBackTwice : List EventAction :=
  letI := plainPayloads
  scripted eventServiceStep (initialEventWorld 1) <| threeFires ++
    claimAndDecide "fire_1" "lease_1" 1 ++ wakeTarget "receipt_1" ++
    claimAndDecide "fire_2" "lease_2" 51 ++ [fun w => .suppress (latestEventExecution w) "receipt_2"] ++
    claimAndDecide "fire_3" "lease_3" 121 ++ [fun w => .suppress (latestEventExecution w) "receipt_3"]

def wokenInTurn : List EventAction :=
  letI := plainPayloads
  scripted eventServiceStep (initialEventWorld 1) <| threeFires ++
    claimAndDecide "fire_1" "lease_1" 1 ++ [fun _ => .tick 20001] ++ wakeTarget "receipt_1" ++
    claimAndDecide "fire_2" "lease_2" 20002 ++ wakeTarget "receipt_2"

/-- In the first run the cooldown suppresses a fire 120 ms after the only wake, and in the second one two
wakes are 1 ms apart. -/
theorem not_cooldownHolds :
    letI := plainPayloads
    (∃ w ∈ exec eventServiceStep (initialEventWorld 1) heldBackTwice,
      w.commits.map EventWakeCommit.committedAt = [1] ∧
      w.decisions.map (fun decision => (decision.ready, decision.decidedAt)) =
        [(true, 1), (false, 51), (false, 121)] ∧ ∃ job ∈ w.store.jobs, ¬CooldownHolds w job) ∧
    ∃ w ∈ exec eventServiceStep (initialEventWorld 1) wokenInTurn,
      w.commits.map EventWakeCommit.committedAt = [20001, 20002] ∧
      ∃ job ∈ w.store.jobs, ¬CooldownHolds w job := by
  decide +kernel

end OpenCorvus.Scheduler
