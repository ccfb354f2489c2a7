import OpenCorvus.Engine.TaskControlAdmission

/-!
# Wake obligations of the Task control driver

When an owner of a Task stops with an instant at which the Task is to be scanned again, a timer that honors it is
armed until the Task has an owner again.  Between the two lies the re-entry of the Project, which may be declined, and
whose request may be refused for capacity.  Then the obligation is left to the heartbeat.
-/

namespace OpenCorvus.Engine

open ExecutableSystem Relation ListUpdate List Option TaskControlDriver

def lastInstants (taskID : String) : List DriverEvent → List ℤ
  | [] => []
  | .stopped task instants _ :: events => if task = taskID then instants else lastInstants taskID events
  | .scanBegan task :: events => if task = taskID then [] else lastInstants taskID events
  | _ :: events => lastInstants taskID events

/-- Since the last owner stopped or a pass began, a request of the Task was refused for capacity while
no timer was armed, or a re-entry ended without its request. -/
def forfeited (taskID : String) : List DriverEvent → Bool
  | [] => false
  | .stopped task _ _ :: events | .scanBegan task :: events => task != taskID && forfeited taskID events
  | .unadmitted task :: events | .dropped task :: events => task == taskID || forfeited taskID events
  | .accepted _ _ :: events => forfeited taskID events

section Events

variable {taskID : String} {events : List DriverEvent} {event : DriverEvent}

lemma lastInstants_cons_ne (h : ¬event.ofTask taskID) :
    lastInstants taskID (event :: events) = lastInstants taskID events := by
  cases event with
  | stopped => exact if_neg h
  | scanBegan => exact if_neg h
  | _ => rfl

lemma forfeited_cons_ne (h : ¬event.ofTask taskID) :
    forfeited taskID (event :: events) = forfeited taskID events := by
  cases event with
  | accepted => rfl
  | _ task =>
    have hne : task ≠ taskID := h
    simp [forfeited, hne]

@[simp] lemma lastInstants_scanBegan : lastInstants taskID (.scanBegan taskID :: events) = [] :=
  if_pos rfl

@[simp] lemma lastInstants_stopped {instants : List ℤ} {armed : Bool} :
    lastInstants taskID (.stopped taskID instants armed :: events) = instants := if_pos rfl

@[simp] lemma forfeited_unadmitted : forfeited taskID (.unadmitted taskID :: events) = true := by
  simp [forfeited]

@[simp] lemma forfeited_dropped : forfeited taskID (.dropped taskID :: events) = true := by
  simp [forfeited]

end Events

lemma WakeTimer.Honors.mono {options : TaskControlDriverOptions} {timer : WakeTimer} {wakeAt wakeAt' : ℤ}
    (h : timer.Honors options wakeAt) (hle : wakeAt ≤ wakeAt') : timer.Honors options wakeAt' :=
  h.imp_left fun htimer => htimer.trans hle

namespace TaskControlDriver

def Awaited (s : TaskControlDriver) (taskID : String) : Prop :=
  (∃ current, s.entryFor taskID = some current ∧ current.timer.isSome = true) ∨
  (∃ entry, (taskID, entry) ∈ s.active) ∨
  (∃ reentry ∈ s.reentries, reentry.taskID = taskID ∧ reentry.requested = false) ∨
  forfeited taskID s.events = true

structure Kept (options : TaskControlDriverOptions) (s : TaskControlDriver) (taskID : String) : Prop where
  honors : ∀ current timer, s.entryFor taskID = some current → current.timer = some timer →
    timer.taskID = taskID ∧ ∀ wakeAt ∈ lastInstants taskID s.events, timer.Honors options wakeAt
  awaited : lastInstants taskID s.events ≠ [] → s.Awaited taskID

section Kept

variable {s t : TaskControlDriver} {options : TaskControlDriverOptions} {taskID : String} {entry : ℕ}
  {found current : Entry}

lemma Kept.congr (h : s.Kept options taskID) (hentry : t.entryFor taskID = s.entryFor taskID)
    (hevents : lastInstants taskID t.events = lastInstants taskID s.events)
    (hforfeited : forfeited taskID s.events = true → forfeited taskID t.events = true)
    (hactive : ∀ entry, (taskID, entry) ∈ s.active → (taskID, entry) ∈ t.active)
    (hreentries : ∀ reentry ∈ s.reentries, reentry.taskID = taskID → reentry.requested = false →
      reentry ∈ t.reentries) : t.Kept options taskID where
  honors current timer hcurrent htimer := hevents ▸ h.honors current timer (hentry ▸ hcurrent) htimer
  awaited hne := by
    rcases h.awaited (hevents ▸ hne) with ⟨current, hcurrent, harmed⟩ | ⟨entry, hmem⟩ |
      ⟨reentry, hmem, htask, hrequested⟩ | hleft
    · exact .inl ⟨current, hentry.trans hcurrent, harmed⟩
    · exact .inr (.inl ⟨entry, hactive entry hmem⟩)
    · exact .inr (.inr (.inl ⟨reentry, hreentries reentry hmem htask hrequested, htask, hrequested⟩))
    · exact .inr (.inr (.inr (hforfeited hleft)))

lemma Kept.other (h : s.Kept options taskID) (event : DriverEvent) (hevent : ¬event.ofTask taskID)
    (hentry : t.entryFor taskID = s.entryFor taskID) (hevents : t.events = event :: s.events)
    (hactive : ∀ entry, (taskID, entry) ∈ s.active → (taskID, entry) ∈ t.active)
    (hreentries : t.reentries = s.reentries) : t.Kept options taskID :=
  h.congr hentry (by rw [hevents, lastInstants_cons_ne hevent])
    (fun hleft => by rwa [hevents, forfeited_cons_ne hevent]) hactive
    fun _ hmem _ _ => hreentries ▸ hmem

lemma Kept.of_soon {timer : WakeTimer} (hentry : t.entryFor taskID = some current)
    (harmed : current.timer = some timer) (hown : timer.taskID = taskID) (hsoon : timer.Soon options) :
    t.Kept options taskID where
  honors current' timer' hcurrent' htimer' := by
    obtain rfl : current = current' := some.inj (hentry.symm.trans hcurrent')
    obtain rfl : timer = timer' := some.inj (harmed.symm.trans htimer')
    exact ⟨hown, fun _ _ => .inr hsoon⟩
  awaited _ := .inl ⟨current, hentry, by rw [harmed]; rfl⟩

lemma entryFor_retire_ne {task : String} (h : task ≠ taskID) :
    (s.retire options taskID current).entryFor task = s.entryFor task := by
  rcases retire_eq options s taskID current with heq | ⟨-, heq⟩
  · rw [heq]
  · rw [heq]
    unfold entryFor
    rw [lookup_filter_ne h]

lemma Kept.same_timer (h : s.Kept options taskID) (hcurrent : s.entryFor taskID = some found)
    (hentry : t.entryFor taskID = some current) (htimer : current.timer = found.timer)
    (hevents : lastInstants taskID t.events = lastInstants taskID s.events)
    (hawaited : lastInstants taskID s.events ≠ [] → t.Awaited taskID) : t.Kept options taskID where
  honors current' timer hcurrent' harmed := by
    obtain rfl : current = current' := some.inj (hentry.symm.trans hcurrent')
    rw [hevents]
    exact h.honors found timer hcurrent (htimer ▸ harmed)
  awaited hne := hawaited (hevents ▸ hne)

variable {i k : ℕ} {owner : Owner} {own : OwnedScan} {reentry : Reentry}

section

variable (h : ∀ task, s.Kept options task)

include h

lemma Kept.scan (hsound : s.EntriesSound) (hlive : s.disposed = false) {pass observed : ℕ}
    (hleaves : Leaves options s i owner found (current, .scanning pass observed own)) (task : String) :
    (((s.store owner.entry current).move i owner (.scanning pass observed own)).record
      (.scanBegan owner.taskID)).Kept options task := by
  have hphase : owner.phase.active = true := OwnerPhase.active_of_inLoop hleaves.inLoop
  obtain ⟨mine, hmine, -⟩ := hsound.owned hlive _ _ (mem_active hleaves.called hphase)
  obtain rfl : mine = found := some.inj (hmine.stored.symm.trans hleaves.stored)
  have hactive : (((s.store owner.entry current).move i owner (.scanning pass observed own)).record
      (.scanBegan owner.taskID)).active = s.active := by
    refine filterMap_set_eq hleaves.called ?_
    simp only [activity, hphase]
    rfl
  by_cases htask : task = owner.taskID
  · subst htask
    refine ⟨fun stored timer hstored harmed => ?_, fun hne => absurd lastInstants_scanBegan hne⟩
    have hcurrent : current = stored := some.inj
      (((entryFor_store hsound hmine current owner.taskID).trans (if_pos rfl)).symm.trans hstored)
    have htimer : mine.timer = some timer := hleaves.left.duties.timer ▸ hcurrent ▸ harmed
    refine ⟨((h owner.taskID).honors mine timer hmine.entryFor htimer).1, fun wakeAt hmem => ?_⟩
    have hnone : wakeAt ∈ ([] : List ℤ) := lastInstants_scanBegan ▸ hmem
    cases hnone
  · exact (h task).other (.scanBegan owner.taskID) (Ne.symm htask)
      ((entryFor_store hsound hmine current task).trans (if_neg htask)) rfl
      (fun e hmem => hactive ▸ hmem) rfl

lemma Kept.stop (hsound : s.EntriesSound) (hlive : s.disposed = false)
    (hleaves : Leaves options s i owner found (current, .stopped own)) (task : String) :
    (s.leavePass options i owner (current, .stopped own)).Kept options task := by
  have hphase : owner.phase.active = true := OwnerPhase.active_of_inLoop hleaves.inLoop
  obtain ⟨mine, hmine, -⟩ := hsound.owned hlive _ _ (mem_active hleaves.called hphase)
  obtain rfl : mine = found := some.inj (hmine.stored.symm.trans hleaves.stored)
  have harmed : ∀ timer, (arm options s.clock { current with running := false } s.disposed owner.taskID
      own.wakeInstants.min?).timer = some timer →
      timer.taskID = owner.taskID ∧ ∀ wakeAt ∈ own.wakeInstants, timer.Honors options wakeAt := by
    intro timer htimer
    refine ⟨arm_taskID htimer, fun wakeAt hmem => ?_⟩
    obtain ⟨_, hleast⟩ := isSome_iff_exists.mp (isSome_min?_of_mem hmem)
    rw [hleast] at htimer
    exact (arm_honors htimer).mono ((min?_eq_some_iff.mp hleast).2 wakeAt hmem)
  have hsome : own.wakeInstants ≠ [] → (arm options s.clock { current with running := false } s.disposed
      owner.taskID own.wakeInstants.min?).timer.isSome = true := by
    intro hne
    obtain ⟨least, hleast⟩ := ne_none_iff_exists'.mp (mt min?_eq_none_iff.mp hne)
    rw [hlive, hleast]
    exact arm_isSome least
  simp only [leavePass]
  generalize arm options s.clock { current with running := false } s.disposed owner.taskID
    own.wakeInstants.min? = stopped at harmed hsome ⊢
  have hstore := entryFor_store hsound hmine stopped
  have hevents : ((((s.store owner.entry stopped).retire options owner.taskID stopped).move i owner
      (.settled own)).record (.stopped owner.taskID own.wakeInstants stopped.timer.isSome)).events =
      .stopped owner.taskID own.wakeInstants stopped.timer.isSome :: s.events := by
    simp [record, move, store]
  by_cases htask : task = owner.taskID
  · subst htask
    constructor
    · intro stored timer hstored htimer
      have hcurrent : stopped = stored := some.inj
        (((hstore owner.taskID).trans (if_pos rfl)).symm.trans (entryFor_retire hstored))
      rw [hevents, lastInstants_stopped]
      exact harmed timer (hcurrent ▸ htimer)
    · intro hne
      rw [hevents, lastInstants_stopped] at hne
      have hkept : (s.store owner.entry stopped).retire options owner.taskID stopped =
          s.store owner.entry stopped := by
        simp [retire, isSome_iff_ne_none.mp (hsome hne)]
      rw [hkept]
      exact .inl ⟨stopped, (hstore owner.taskID).trans (if_pos rfl), hsome hne⟩
  · obtain ⟨before, after, hbefore, hafter⟩ := filterMap_set_none (f := activity)
      (y := { owner with phase := .settled own }) hleaves.called (by simp only [activity, hphase]; rfl) rfl
    refine (h task).other (.stopped owner.taskID own.wakeInstants stopped.timer.isSome) (Ne.symm htask)
      ((entryFor_retire_ne htask).trans ((hstore task).trans (if_neg htask))) hevents ?_
      (by simp [record, move, store])
    intro e he
    have hmem : (task, e) ∈ before ++ after := by
      have hsplit : (task, e) ∈ before ++ (owner.taskID, owner.entry) :: after := hbefore ▸ he
      simpa [htask] using hsplit
    have hactive : (task, e) ∈ (s.owners.set i { owner with phase := .settled own }).filterMap activity :=
      hafter ▸ hmem
    simpa [active, record, move, store] using hactive

lemma Kept.create (hsound : s.EntriesSound) (hfresh : s.entries.lookup taskID = none) (task : String) :
    Kept options { s with
      heap := s.heap ++ [.created], entries := s.entries ++ [(taskID, s.heap.length)] } task := by
  by_cases htask : task = taskID
  · subst htask
    have hcreated : entryFor { s with
        heap := s.heap ++ [.created], entries := s.entries ++ [(task, s.heap.length)] } task =
        some .created := by
      simp [entryFor, lookup_append, hfresh]
    refine ⟨fun current timer hcurrent htimer => ?_, fun hne => ?_⟩
    · obtain rfl : Entry.created = current := some.inj (hcreated.symm.trans hcurrent)
      cases htimer
    · rcases (h task).awaited hne with ⟨_, hcurrent, -⟩ | hrest
      · obtain ⟨_, hmapped, -⟩ := bind_eq_some_iff.mp hcurrent
        rw [hfresh] at hmapped
        cases hmapped
      · exact .inr hrest
  · refine (h task).congr ?_ rfl id (fun _ hmem => hmem) fun _ hmem _ _ => hmem
    have hmiss : (task == taskID) = false := by simpa using htask
    have hlookup : (s.entries ++ [(taskID, s.heap.length)]).lookup task = s.entries.lookup task := by
      simp [lookup_append, lookup_cons, hmiss]
    change ((s.entries ++ [(taskID, s.heap.length)]).lookup task).bind
      (fun e => (s.heap ++ [Entry.created])[e]?) = _
    rw [hlookup]
    cases hmapped : s.entries.lookup task with
    | none => simp [entryFor, hmapped]
    | some e =>
      simp only [entryFor, hmapped, bind_some]
      exact getElem?_append_left (hsound.refs task e hmapped)

lemma Kept.fire {timer : WakeTimer} (hstored : s.heap[entry]? = some found) (harmed : found.timer = some timer)
    (task : String) : Kept options { s.store entry { found with timer := none } with
      reentries := s.reentries ++ [⟨timer.taskID, entry, false⟩] } task := by
  have hlt : entry < s.heap.length := (List.getElem?_eq_some_iff.mp hstored).1
  by_cases hmapped : s.entries.lookup task = some entry
  · have hfound : s.entryFor task = some found := by
      unfold entryFor
      rw [hmapped]
      exact hstored
    have hfired : entryFor { s.store entry { found with timer := none } with
        reentries := s.reentries ++ [⟨timer.taskID, entry, false⟩] } task =
        some { found with timer := none } := by
      change (s.entries.lookup task).bind (fun e => (s.heap.set entry { found with timer := none })[e]?) = _
      rw [hmapped]
      exact getElem?_set_self hlt
    refine ⟨fun current timer' hcurrent htimer => ?_, fun _ => ?_⟩
    · obtain rfl : { found with timer := none } = current := some.inj (hfired.symm.trans hcurrent)
      cases htimer
    · exact .inr (.inr (.inl ⟨⟨timer.taskID, entry, false⟩, by simp,
        ((h task).honors found timer hfound harmed).1, rfl⟩))
  · refine (h task).congr ?_ rfl id (fun _ hmem => hmem) fun _ hmem _ _ => mem_append_left _ hmem
    change (s.entries.lookup task).bind (fun e => (s.heap.set entry { found with timer := none })[e]?) = _
    cases hother : s.entries.lookup task with
    | none => simp [entryFor, hother]
    | some e =>
      have hne : entry ≠ e := by
        rintro rfl
        exact hmapped hother
      simp [entryFor, hother, getElem?_set_ne hne]

lemma Kept.store (hsound : s.EntriesSound) (hlocated : s.Located taskID entry found) (task : String)
    {current : Entry} {event : DriverEvent} (hheap : t.heap = s.heap.set entry current)
    (hentries : t.entries = s.entries) (hevents : t.events = event :: s.events) (hevent : event.ofTask taskID)
    (hactive : ∀ task e, (task, e) ∈ s.active → (task, e) ∈ t.active) (hreentries : t.reentries = s.reentries)
    (htouched : t.entryFor taskID = some current → t.Kept options taskID) : t.Kept options task := by
  have hentry : t.entryFor task = if task = taskID then some current else s.entryFor task := by
    rw [← entryFor_store hsound hlocated current task]
    unfold entryFor
    rw [hheap, hentries]
    rfl
  by_cases htask : task = taskID
  · subst htask
    exact htouched (hentry.trans (if_pos rfl))
  · refine (h task).other event ?_ (hentry.trans (if_neg htask)) hevents (hactive task) hreentries
    intro hother
    cases event <;> exact htask (hother.symm.trans hevent)

end

lemma Kept.reentered (h : s.Kept options taskID) (reentries : List Reentry)
    (hkept : ∀ reentry ∈ s.reentries, reentry.taskID = taskID → reentry.requested = false →
      reentry ∈ reentries) : Kept options { s with reentries := reentries } taskID :=
  h.congr rfl rfl id (fun _ hmem => hmem) hkept

lemma mem_eraseIdx_of_ne {reentries : List Reentry} {gone : Reentry} (hgone : reentries[k]? = some gone)
    (hmem : reentry ∈ reentries) (hne : reentry ≠ gone) :
    reentry ∈ reentries.eraseIdx k := by
  obtain ⟨j, hj⟩ := mem_iff_getElem?.mp hmem
  refine mem_eraseIdx_iff_getElem?.mpr ⟨j, ?_, hj⟩
  rintro rfl
  exact hne (some.inj (hj.symm.trans hgone))

lemma Kept.endReentry (h : ∀ task, s.Kept options task) (hentered : s.reentries[k]? = some reentry)
    (task : String) :
    (endReentry s k reentry).Kept options task := by
  have hother : ∀ other ∈ s.reentries, other ≠ reentry → other ∈ s.reentries.eraseIdx k :=
    fun other hmem hne => mem_eraseIdx_of_ne hentered hmem hne
  unfold Engine.endReentry
  simp only
  split
  next hrequested =>
    refine (h task).reentered _ fun other hmem _ hwaiting => hother other hmem ?_
    rintro rfl
    rw [hrequested] at hwaiting
    cases hwaiting
  next hdropped =>
    by_cases htask : task = reentry.taskID
    · subst htask
      exact ⟨fun current timer hcurrent htimer => (h _).honors current timer hcurrent htimer,
        fun _ => .inr (.inr (.inr forfeited_dropped))⟩
    · have hevent : ¬DriverEvent.ofTask task (.dropped reentry.taskID) := Ne.symm htask
      refine (h task).congr rfl (lastInstants_cons_ne hevent)
        (fun hleft => (forfeited_cons_ne hevent).trans hleft) (fun _ hmem => hmem)
        fun other hmem hown _ => hother other hmem ?_
      rintro rfl
      exact htask hown.symm

lemma Kept.requested (h : ∀ task, s.Kept options task) (hsound : s.EntriesSound) (hlive : s.disposed = false)
    (hentered : s.reentries[k]? = some reentry) (hanswered : s.Answered reentry.taskID) (task : String) :
    Kept options { s with reentries := s.reentries.set k { reentry with requested := true } } task := by
  have hother : ∀ other ∈ s.reentries, other ≠ reentry →
      other ∈ s.reentries.set k { reentry with requested := true } := by
    intro other hmem hne
    obtain ⟨j, hj⟩ := mem_iff_getElem?.mp hmem
    have hjk : k ≠ j := by
      rintro rfl
      exact hne (some.inj (hj.symm.trans hentered))
    exact mem_of_getElem? ((getElem?_set_ne hjk).trans hj)
  by_cases htask : task = reentry.taskID
  · subst htask
    refine ⟨fun current timer hcurrent htimer => (h _).honors current timer hcurrent htimer, fun _ => ?_⟩
    rcases hanswered with hdisposed | ⟨current, hcurrent, hrunning | harmed⟩ | ⟨_, hevents⟩
    · exact absurd (hlive.symm.trans hdisposed) (by decide)
    · obtain ⟨entry, hlocated⟩ := located_of_entryFor hlive hcurrent
      exact .inr (.inl ⟨entry, hsound.running _ entry current hlocated hrunning⟩)
    · exact .inl ⟨current, hcurrent, harmed⟩
    · refine .inr (.inr (.inr ?_))
      exact hevents ▸ forfeited_unadmitted
  · refine (h task).reentered _ fun other hmem hown _ => hother other hmem ?_
    rintro rfl
    exact htask hown.symm

lemma kept_quiet (h : ∀ task, s.Kept options task) (hsound : s.EntriesSound)
    (hlive : s.disposed = false) (hquiet : Quiet options s t) (task : String) : t.Kept options task := by
  cases hquiet with
  | create _ _ fresh => exact Kept.create h hsound fresh task
  | coalesce taskID entry found located running =>
    refine Kept.store h hsound located task rfl rfl rfl rfl (fun _ _ hmem => hmem) rfl (fun hentry => ?_)
    refine (h taskID).same_timer located.entryFor hentry rfl rfl fun _ => ?_
    exact .inr (.inl ⟨entry, hsound.running taskID entry found located running⟩)
  | pace _ _ _ _ _ located _ _ armed own soon =>
    exact Kept.store h hsound located task rfl rfl rfl rfl (fun _ _ hmem => hmem) rfl
      fun hentry => .of_soon hentry armed own soon
  | enroll taskID _ entry _ _ located _ timer | enqueue taskID _ entry _ _ located _ timer =>
    refine Kept.store h hsound located task rfl rfl rfl rfl ?_ rfl (fun hentry => ?_)
    · intro task e hmem
      simp only [active, filterMap_append, mem_append]
      exact .inl hmem
    · refine (h taskID).same_timer located.entryFor hentry timer rfl fun _ => ?_
      exact .inr (.inl ⟨entry, by simp [active, activity, OwnerPhase.active]⟩)
  | rejectArmed taskID _ found current located _ timer armed =>
    have hstore := entryFor_store hsound located { current with running := false } task
    by_cases htask : task = taskID
    · subst htask
      have harmed : found.timer.isSome = true := isSome_iff_ne_none.mpr armed
      exact (h task).same_timer located.entryFor (hstore.trans (if_pos rfl)) timer rfl
        fun _ => .inl ⟨_, hstore.trans (if_pos rfl), timer ▸ harmed⟩
    · exact (h task).congr (hstore.trans (if_neg htask)) rfl id (fun _ hmem => hmem)
        fun _ hmem _ _ => hmem
  | rejectUnarmed taskID entry _ current located _ timer unarmed =>
    have hstore := entryFor_store hsound located { current with running := false } task
    have hevents : (((s.store entry { current with running := false }).retire options taskID
        current).record (.unadmitted taskID)).events = .unadmitted taskID :: s.events := by
      simp [record, store]
    by_cases htask : task = taskID
    · subst htask
      refine ⟨fun stored timer' hstored htimer' => ?_, fun _ => .inr (.inr (.inr ?_))⟩
      · have hcurrent : { current with running := false } = stored := some.inj
          ((hstore.trans (if_pos rfl)).symm.trans (entryFor_retire hstored))
        have hnone : stored.timer = none := by
          rw [← hcurrent]
          exact timer.trans unarmed
        rw [hnone] at htimer'
        cases htimer'
      · rw [hevents]
        exact forfeited_unadmitted
    · exact (h task).other (.unadmitted taskID) (Ne.symm htask)
        ((entryFor_retire_ne htask).trans (hstore.trans (if_neg htask))) hevents
        (fun e hmem => by simpa [active, record, store] using hmem)
        (by simp [record, store])
  | leave _ _ _ result called inLoop stored left =>
    obtain ⟨_, passEnd⟩ := result
    cases passEnd with
    | scanning => exact Kept.scan h hsound hlive ⟨called, inLoop, stored, left⟩ task
    | stopped => exact Kept.stop h hsound hlive ⟨called, inLoop, stored, left⟩ task
  | refused _ owner _ called refused =>
    exact absurd (hlive.symm.trans (hsound.refused owner (mem_of_getElem? called) refused))
      (by decide)
  | fire _ _ _ stored armed => exact Kept.fire h stored armed task
  | requested _ _ entered answered => exact Kept.requested h hsound hlive entered answered task
  | endReentry _ _ entered => exact Kept.endReentry h entered task
  | rearm _ reentry _ current _ entered located _ _ armed own soon =>
    have hstore := entryFor_store hsound located current task
    by_cases htask : task = reentry.taskID
    · subst htask
      exact .of_soon (hstore.trans (if_pos rfl)) armed own soon
    · refine (h task).congr (hstore.trans (if_neg htask)) rfl id (fun _ hmem => hmem)
        fun other hmem hown _ => mem_eraseIdx_of_ne entered hmem ?_
      rintro rfl
      exact htask hown.symm
  | tick => exact (h task).congr rfl rfl id (fun _ hmem => hmem) fun _ hmem _ _ => hmem

lemma quiet_disposed (hquiet : Quiet options s t) : t.disposed = s.disposed := by
  cases hquiet with
  | rejectUnarmed => simp [record, store]
  | leave _ _ _ result =>
    obtain ⟨_, _ | _⟩ := result
    · rfl
    · simp [leavePass, record, move, store]
  | refused => simp [move, store]
  | endReentry k reentry =>
    obtain ⟨_, heq⟩ := endReentry_eq s k reentry
    rw [heq]
  | _ => rfl

structure WakesKept (options : TaskControlDriverOptions) (s : TaskControlDriver) : Prop where
  sound : s.DriverSound options
  kept : s.disposed = false → ∀ taskID, s.Kept options taskID

lemma WakesKept.quiets (h : s.WakesKept options) (hquiet : ReflTransGen (Quiet options) s t) :
    t.WakesKept options := by
  induction hquiet with
  | refl => exact h
  | tail _ hlast ih =>
    refine ⟨⟨ih.sound.entries.quiet hlast, ih.sound.slots.quiet hlast⟩, fun hlive => ?_⟩
    have hlive' := (quiet_disposed hlast).symm.trans hlive
    exact kept_quiet (ih.kept hlive') ih.sound.entries hlive' hlast

lemma Kept.release (h : s.Kept options taskID) (hslots : s.SlotsSound options)
    (hcalled : s.owners[i]? = some owner) (hphase : owner.phase = .settled own) :
    ((s.move i owner .ended).releaseScanSlot).Kept options taskID := by
  obtain ⟨hheap, hentries, -, hevents⟩ := releaseScanSlot_frame (s.move i owner .ended)
  have hreentries : ((s.move i owner .ended).releaseScanSlot).reentries = s.reentries := by
    unfold releaseScanSlot
    split
    · rfl
    · split <;> rfl
  refine h.congr ?_ (congrArg _ hevents) (fun hleft => (congrArg _ hevents).trans hleft)
    (fun e hmem => release_active hslots hcalled hphase ▸ hmem) fun _ hmem _ _ => hreentries ▸ hmem
  unfold entryFor
  rw [hheap, hentries]
  rfl

theorem wakesKept_preserved : Preserves (driverStep options) (WakesKept options) := by
  intro s action t h hstep
  have hsound := driverSound_preserved h.sound hstep
  obtain ⟨-, -, hquiet⟩ | ⟨i, owner, _, -, hcalled, hphase, rfl⟩ | ⟨-, rfl⟩ :=
    step_cases h.sound.entries.refs hstep
  · exact h.quiets hquiet
  · refine ⟨hsound, fun hlive taskID => ?_⟩
    have hlive' : s.disposed = false :=
      (releaseScanSlot_frame (s.move i owner .ended)).2.2.1.symm.trans hlive
    exact (h.kept hlive' taskID).release h.sound.slots hcalled hphase
  · exact ⟨hsound, nofun⟩

lemma wakesKept_initial (clock : ℤ) : (initial clock).WakesKept options where
  sound := driverSound_initial clock
  kept _ _ := ⟨fun _ _ hcurrent _ => (nomatch hcurrent), fun hne => absurd rfl hne⟩

end Kept

/-- In every state that the driver reaches before its disposal, an instant with which the last owner of
a Task stopped is honored by a timer of the Task, or an owner of the Task is active, or a timer has
fired whose re-entry has not made its request, or a request was refused for capacity while no timer was
armed, or a re-entry ended without its request. -/
theorem wake_kept (options : TaskControlDriverOptions) (clock : ℤ) (actions : List DriverAction)
    (s : TaskControlDriver) (hrun : exec (driverStep options) (initial clock) actions = some s)
    (hlive : s.disposed = false) (taskID : String) (wakeAt : ℤ)
    (howed : wakeAt ∈ lastInstants taskID s.events) :
    (∃ current timer, s.entryFor taskID = some current ∧ current.timer = some timer ∧
      timer.taskID = taskID ∧ timer.Honors options wakeAt) ∨
    (∃ owner ∈ s.owners, owner.taskID = taskID ∧ owner.phase.active = true) ∨
    (∃ reentry ∈ s.reentries, reentry.taskID = taskID ∧ reentry.requested = false) ∨
    forfeited taskID s.events = true := by
  have hkept := (wakesKept_preserved.exec (wakesKept_initial clock) hrun).kept hlive taskID
  rcases hkept.awaited (ne_nil_of_mem howed) with ⟨current, hcurrent, harmed⟩ | ⟨_, hmem⟩ | hrest
  · obtain ⟨timer, htimer⟩ := isSome_iff_exists.mp harmed
    obtain ⟨hown, hhonors⟩ := hkept.honors current timer hcurrent htimer
    exact .inl ⟨current, timer, hcurrent, htimer, hown, hhonors wakeAt howed⟩
  · obtain ⟨owner, howner, hactivity⟩ := mem_filterMap.mp hmem
    unfold activity at hactivity
    split at hactivity
    next hactive => exact .inr (.inl ⟨owner, howner, (Prod.mk.inj (some.inj hactivity)).1, hactive⟩)
    · cases hactivity
  · exact .inr (.inr hrest)

/-- Options with one slot and one place in the queue. -/
def narrowOptions : TaskControlDriverOptions where
  maxPasses := 64
  minimumWakeDelay := 25
  maximumWakeDelay := 3600000
  initialBackoff := 1000
  maximumBackoff := 60000
  maximumConcurrentScans := 1
  maximumPendingScans := 1
  retireSettledEntries := true
  readsInputRevision := false
  maxPasses_pos := by decide
  minimumWakeDelay_pos := by decide
  maximumWakeDelay_ge := by decide
  initialBackoff_pos := by decide
  maximumBackoff_ge := by decide
  maximumConcurrentScans_pos := by decide
  maximumPendingScans_pos := by decide

def settledWithWake : List DriverAction :=
  [.request "task-a" false .unreadable .unreadable,
    .settle 0 (.returned 0 (some 100) false) .unreadable .unreadable, .release 0]

/-- The timer is armed for the instant. -/
theorem wake_kept_of_settledWithWake : ∃ s, exec (driverStep narrowOptions) (initial 0) settledWithWake = some s ∧
      ((∃ current timer, s.entryFor "task-a" = some current ∧ current.timer = some timer ∧
        timer.taskID = "task-a" ∧ timer.Honors narrowOptions 100) ∨
      (∃ owner ∈ s.owners, owner.taskID = "task-a" ∧ owner.phase.active = true) ∨
      (∃ reentry ∈ s.reentries, reentry.taskID = "task-a" ∧ reentry.requested = false) ∨
      forfeited "task-a" s.events = true) := by
  refine ⟨_, rfl, ?_⟩
  exact wake_kept narrowOptions 0 settledWithWake _ rfl rfl "task-a" 100 (by decide)

/-- The timer fires while another Task is scanned and a third one waits. -/
def firedAtCapacity : List DriverAction :=
  settledWithWake ++
    [.request "task-b" false .unreadable .unreadable, .request "task-c" false .unreadable .unreadable,
      .tick 100, .fire 0, .reenter 0 .unreadable .unreadable, .endReentry 0]

/-- A timer whose request is refused for capacity leaves neither a timer nor an owner. -/
theorem wake_lost_of_firedAtCapacity :
    ¬∀ (options : TaskControlDriverOptions) (clock : ℤ) (actions : List DriverAction)
      (s : TaskControlDriver), exec (driverStep options) (initial clock) actions = some s →
      s.disposed = false → ∀ (taskID : String) (wakeAt : ℤ), wakeAt ∈ lastInstants taskID s.events →
      (∃ current timer, s.entryFor taskID = some current ∧ current.timer = some timer ∧
        timer.Honors options wakeAt) ∨
      ∃ owner ∈ s.owners, owner.taskID = taskID ∧ owner.phase.active = true := by
  intro h
  have hfired : (exec (driverStep narrowOptions) (initial 0) firedAtCapacity).any (fun s =>
      s.disposed = false ∧ 100 ∈ lastInstants "task-a" s.events ∧ s.entryFor "task-a" = none ∧
        ∀ owner ∈ s.owners, ¬(owner.taskID = "task-a" ∧ owner.phase.active = true)) = true := by
    decide
  obtain ⟨s, hrun, hlost⟩ := (Option.any_eq_true _ _).mp hfired
  obtain ⟨hlive, howed, hnone, hidle⟩ := of_decide_eq_true hlost
  rcases h narrowOptions 0 firedAtCapacity s hrun hlive "task-a" 100 howed with
    ⟨current, timer, hcurrent, -⟩ | ⟨owner, hmem, howner⟩
  · rw [hnone] at hcurrent
    cases hcurrent
  · exact hidle owner hmem howner

end TaskControlDriver

end OpenCorvus.Engine
