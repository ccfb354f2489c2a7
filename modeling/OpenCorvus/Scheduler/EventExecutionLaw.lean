import OpenCorvus.Scheduler.EventLeaseLaw

/-!
# The executions of the Event service

An execution is of a stored fire that was leased, and a runtime has one execution of a fire at most.  What an
execution has read it has read in order, and the definition that it resolved before its head position still
says whether a one-shot has succeeded before.
-/

namespace OpenCorvus.Scheduler

open UniqueIndex Engine Relation List EventStore

def EventExecution.key (e : EventExecution) : String × String := (e.ownerID, e.fire.id)

structure ExecutionInv (store : EventStore) (e : EventExecution) : Prop where
  stored : e.fire.toEventJobFire ∈ store.fires
  target : store.targetOf e.fire.toEventJobFire = some e.fire.targetSessionID
  leased : store.fireLeases e.fire.id ≠ []
  admitted : e.admitted = true → e.job.isSome
  resolved : e.job.isSome → e.existing.isSome
  decided : e.ready.isSome → e.existing = some none ∧ e.admitted = true ∧ ∃ job, e.activeJob = some job

/-- The executions are well formed, and have different owners or fires. -/
structure ExecutionsInv (w : EventWorld) : Prop where
  keys : PrimaryKey EventExecution.key w.executions
  each : ∀ e ∈ w.executions, ExecutionInv w.store e

variable {store store' : EventStore}

lemma targetOf_of_jobs (hqueue : QueueInv store) {fire : EventJobFire} (hfire : fire ∈ store.fires)
    (hjobs : store.jobs <+: store'.jobs) : store'.targetOf fire = store.targetOf fire := by
  obtain ⟨job, hjob, hid, -⟩ := hqueue.revisions fire hfire
  obtain ⟨_, hadded⟩ := hjobs
  have hfound : ∃ found, store.jobs.find? (fun other => other.id = fire.eventJobRevisionID) = some found := by
    rw [← Option.isSome_iff_exists, find?_isSome]
    exact ⟨job, hjob, by simpa using hid⟩
  obtain ⟨_, hfound⟩ := hfound
  have hkept : store'.findJob fire.eventJobRevisionID = store.findJob fire.eventJobRevisionID := by
    unfold findJob
    rw [← hadded, find?_append, hfound]
    rfl
  unfold targetOf
  rw [hkept]

variable {e e' : EventExecution}

lemma ExecutionInv.frame (h : ExecutionInv store e) (hqueue : QueueInv store)
    (hjobs : store.jobs <+: store'.jobs) (hfires : ∀ fire ∈ store.fires, fire ∈ store'.fires)
    (hleases : ∀ fireID, store.fireLeases fireID ≠ [] → store'.fireLeases fireID ≠ []) :
    ExecutionInv store' e :=
  ⟨hfires _ h.stored, (targetOf_of_jobs hqueue h.stored hjobs).trans h.target, hleases _ h.leased,
    h.admitted, h.resolved, h.decided⟩

lemma ExecutionInv.next (h : ExecutionInv store e) (hfire : e'.fire = e.fire)
    (hadmitted : e'.admitted = true → e'.job.isSome) (hresolved : e'.job.isSome → e'.existing.isSome)
    (hdecided : e'.ready.isSome → e'.existing = some none ∧ e'.admitted = true ∧ ∃ job, e'.activeJob = some job) :
    ExecutionInv store e' := by
  obtain ⟨hstored, htarget, hleased, -, -, -⟩ := h
  rw [← hfire] at hstored htarget hleased
  exact ⟨hstored, htarget, hleased, hadmitted, hresolved, hdecided⟩

lemma EventExecution.Moves.same (h : e.Moves store e') : e'.fire = e.fire ∧ e'.ownerID = e.ownerID := by
  cases h <;> exact ⟨rfl, rfl⟩

lemma ExecutionInv.moves (h : ExecutionInv store e) (hmoves : e.Moves store e') : ExecutionInv store e' := by
  refine h.next hmoves.same.1 ?_ ?_ ?_
  · cases hmoves with
    | resolved => intro; rfl
    | admitted hjob => exact fun _ => hjob
    | _ => exact h.admitted
  · cases hmoves with
    | looked => intro; rfl
    | resolved hlooked => exact fun _ => hlooked
    | _ => exact h.resolved
  · cases hmoves with
    | looked hopen => exact fun hready => by rw [(h.decided hready).1] at hopen; cases hopen
    | resolved _ hopen =>
      intro hready
      obtain ⟨-, hadmitted, -⟩ := h.decided hready
      have hjob := h.admitted hadmitted
      rw [hopen] at hjob
      cases hjob
    | admitted => exact fun hready => ⟨(h.decided hready).1, rfl, (h.decided hready).2.2⟩
    | _ => exact h.decided

lemma fireLeases_ne_nil_of_moves {leases : ControlLeaseTables} {leaseID : String}
    (hmoves : Moves store.leases leases leaseID) (fireID : String) (h : store.fireLeases fireID ≠ []) :
    EventStore.fireLeases { store with leases := leases } fireID ≠ [] := by
  obtain ⟨f, hleases, hf⟩ := hmoves
  have hmap : fireLeases { store with leases := leases } fireID = (store.fireLeases fireID).map f :=
    ofTarget_of_map hleases (fun row => (hf row).1) .eventFire fireID
  rw [hmap]
  exact fun hnil => h (map_eq_nil_iff.mp hnil)

/-- Before anything was created. -/
lemma executionsInv_initial (clock : ℤ) : ExecutionsInv (initialEventWorld clock) :=
  ⟨primaryKey_nil, fun _ he => (nomatch he)⟩

variable {w w' : EventWorld}

lemma ExecutionsInv.advance (h : ExecutionsInv w) (he : e ∈ w.executions) (he' : ExecutionInv w.store e')
    (hkey : e'.key = e.key) : ExecutionsInv (w.advance e e') := by
  refine ⟨h.keys.replace he hkey, fun x hx => ?_⟩
  rcases mem_concat.mp hx with hold | hnew
  · exact h.each x (mem_of_mem_erase hold)
  · rw [hnew]
    exact he'

lemma ExecutionsInv.withStore (h : ExecutionsInv w) (hqueue : QueueInv w.store)
    (hjobs : w.store.jobs <+: store'.jobs) (hfires : ∀ fire ∈ w.store.fires, fire ∈ store'.fires)
    (hleases : ∀ fireID, w.store.fireLeases fireID ≠ [] → store'.fireLeases fireID ≠ []) :
    ExecutionsInv (w.withStore store') :=
  ⟨h.keys, fun e he => (h.each e he).frame hqueue hjobs hfires hleases⟩

lemma ExecutionsInv.finish (h : ExecutionsInv w) (e : EventExecution) : ExecutionsInv (w.finish e) :=
  ⟨h.keys.erase, fun x hx => h.each x (mem_of_mem_erase hx)⟩

variable [EventPayloads]

theorem ExecutionsInv.effect (h : ExecutionsInv w) (hqueue : QueueInv w.store)
    (heffect : EventEffect w w') : ExecutionsInv w' := by
  cases heffect with
  | @around store _ _ hstore =>
    have hnext : ExecutionsInv (w.withStore store) :=
      h.withStore hqueue (hstore.jobs ▸ prefix_rfl) (fun fire hfire => hstore.fires ▸ hfire)
        fun fireID hfire => by
          unfold fireLeases
          rw [hstore.leases]
          exact hfire
    exact ⟨hnext.keys, hnext.each⟩
  | created => exact h.withStore hqueue (prefix_append _ _) (fun _ hf => hf) fun _ hl => hl
  | accepted haccepted =>
    obtain ⟨_, _, rfl, hfires⟩ := frame_of_acceptance haccepted
    exact h.withStore hqueue prefix_rfl (fun _ hf => hfires.subset hf) fun _ hl => hl
  | @claimed row ownerID leaseID leases hclaimable hleases _ htarget hfree =>
    have hrows : ∀ other, fireLeases { w.store with leases := leases } other =
        w.store.fireLeases other ++
          if row.id = other then [(fireAcquisition row.id ownerID leaseID w.clock).lease] else [] :=
      fun _ => fireLeases_of_claim hleases
    have hkept : ExecutionsInv (w.withStore { w.store with leases := leases }) :=
      h.withStore hqueue prefix_rfl (fun _ hf => hf) fun fireID hfire hnil => by
        rw [hrows] at hnil
        exact hfire (append_eq_nil_iff.mp hnil).1
    have hleased : fireLeases { w.store with leases := leases } row.id ≠ [] := by
      rw [hrows, if_pos rfl]
      simp
    refine ⟨h.keys.concat fun e he heq => ?_, fun x hx => ?_⟩
    · rw [EventExecution.key, EventExecution.key, Prod.mk.injEq] at heq
      exact hfree e he heq.1 heq.2
    · rcases mem_concat.mp hx with hold | hnew
      · exact hkept.each x hold
      · rw [hnew]
        exact ⟨hclaimable.stored, htarget, hleased, fun h => (nomatch h), fun h => (nomatch h),
          fun h => (nomatch h)⟩
  | renewed _ _ hmoves =>
    exact h.withStore hqueue prefix_rfl (fun _ hf => hf) fun _ hl =>
      fireLeases_ne_nil_of_moves hmoves _ hl
  | @moved e _ he hmoves =>
    refine h.advance he ((h.each e he).moves hmoves) ?_
    rw [EventExecution.key, EventExecution.key, hmoves.same.1, hmoves.same.2]
  | @decided e job he hmay hjob =>
    have hdecided : ExecutionInv w.store { e with ready := some (ready job w.clock) } :=
      (h.each e he).next rfl (h.each e he).admitted (h.each e he).resolved
        fun _ => ⟨hmay.2.2.1, hmay.2.1, job, hjob⟩
    have hnext : ExecutionsInv (w.advance e { e with ready := some (ready job w.clock) }) :=
      h.advance he hdecided rfl
    exact ⟨hnext.keys, hnext.each⟩
  | @committed e _ he _ hcommit =>
    have hcommit := (commitEventWake_eq_ok hcommit).1
    obtain ⟨messages, hmessages⟩ := upsertMessage_frame w.store e.wakeMessage
    rw [hmessages] at hcommit
    subst hcommit
    have hkept : ExecutionsInv (w.withStore { w.store with messages := messages }) :=
      h.withStore hqueue prefix_rfl (fun _ hf => hf) fun _ hl => hl
    have hcommitted : ExecutionInv { w.store with messages := messages } { e with committed := true } :=
      (hkept.each e he).next rfl (h.each e he).admitted (h.each e he).resolved (h.each e he).decided
    have hnext := hkept.advance he hcommitted rfl
    exact ⟨hnext.keys, hnext.each⟩
  | @settled e receipt _ _ hsettled _ =>
    obtain ⟨_, leases, -, hmoves, rfl⟩ := hsettled.held
    have hkept : ExecutionsInv (w.withStore
        { w.store with receipts := w.store.receipts ++ [receipt], leases := leases }) :=
      h.withStore hqueue prefix_rfl (fun _ hf => hf) fun fireID hl =>
        fireLeases_ne_nil_of_moves hmoves fireID hl
    exact hkept.finish e
  | finished => exact h.finish _
  | purged => exact h.withStore hqueue prefix_rfl (fun _ hf => hf) fun _ hl => hl

end OpenCorvus.Scheduler
