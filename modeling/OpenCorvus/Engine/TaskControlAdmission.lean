import OpenCorvus.Engine.TaskControlQueue

/-!
# Admission to the Task control driver

A request that is admitted or coalesced is heard: a pass of its Task begins after it, or a timer is
armed for the Task, at once or when the owner stops.  Until then an owner of the Task is active.  The
invariant compares the revision that a scan observed with the revision that the last request left.
-/

namespace OpenCorvus.Engine

open ExecutableSystem Relation ListUpdate List Option OwnerPhase

def unheard (taskID : String) : List DriverEvent → Bool
  | [] => false
  | .accepted task true :: events => task == taskID || unheard taskID events
  | .scanBegan task :: events => task != taskID && unheard taskID events
  | .stopped task _ true :: events => task != taskID && unheard taskID events
  | _ :: events => unheard taskID events

def DriverEvent.ofTask (taskID : String) : DriverEvent → Prop
  | .accepted task _ | .scanBegan task | .stopped task _ _ | .unadmitted task | .dropped task =>
    task = taskID

section Events

variable {taskID : String} {events : List DriverEvent} {event : DriverEvent}

attribute [local simp] unheard

lemma unheard_cons_ne (h : ¬event.ofTask taskID) : unheard taskID (event :: events) = unheard taskID events := by
  cases event with
  | accepted task owned =>
    have hne : task ≠ taskID := h
    cases owned <;> simp [hne]
  | scanBegan task =>
    have hne : task ≠ taskID := h
    simp [hne]
  | stopped task _ armed =>
    have hne : task ≠ taskID := h
    cases armed <;> simp [hne]
  | unadmitted | dropped => rfl

@[simp] lemma unheard_accepted : unheard taskID (.accepted taskID true :: events) = true := by
  simp

@[simp] lemma unheard_scanBegan : unheard taskID (.scanBegan taskID :: events) = false := by
  simp

lemma unheard_stopped {wakeInstants : List ℤ} {armed : Bool} :
    unheard taskID (.stopped taskID wakeInstants armed :: events) = (!armed && unheard taskID events) := by
  cases armed <;> simp

lemma unheard_append {new : List DriverEvent} (haccepted : .accepted taskID true ∈ new)
    (hbegan : .scanBegan taskID ∉ new) (hstopped : ∀ instants, .stopped taskID instants true ∉ new) :
    unheard taskID (new ++ events) = true := by
  induction new with
  | nil => cases haccepted
  | cons event new ih =>
    have hbegan' : .scanBegan taskID ∉ new := fun hmem => hbegan (mem_cons_of_mem _ hmem)
    have hstopped' : ∀ instants, .stopped taskID instants true ∉ new :=
      fun instants hmem => hstopped instants (mem_cons_of_mem _ hmem)
    rcases mem_cons.mp haccepted with rfl | hmem
    · exact unheard_accepted
    · have hrest := ih hmem hbegan' hstopped'
      by_cases hevent : event.ofTask taskID
      · cases event with
        | accepted task owned =>
          obtain rfl : task = taskID := hevent
          cases owned
          · exact hrest
          · exact unheard_accepted
        | scanBegan task =>
          obtain rfl : task = taskID := hevent
          exact absurd mem_cons_self hbegan
        | stopped task wakeInstants armed =>
          obtain rfl : task = taskID := hevent
          cases armed
          · exact hrest
          · exact absurd mem_cons_self (hstopped wakeInstants)
        | unadmitted | dropped => exact hrest
      · exact (unheard_cons_ne hevent).trans hrest

end Events

namespace TaskControlDriver

structure Heard (s : TaskControlDriver) : Prop where
  owned : s.disposed = false → ∀ taskID, unheard taskID s.events = true → ∃ entry, (taskID, entry) ∈ s.active
  observed : s.disposed = false → ∀ owner ∈ s.owners, ∀ pass observed own,
    owner.phase = .scanning pass observed own → ∀ current, s.entryFor owner.taskID = some current →
    observed ≤ current.revision ∧ (unheard owner.taskID s.events = true → observed < current.revision)

section Heard

variable {s t : TaskControlDriver} {options : TaskControlDriverOptions} {taskID : String} {entry : ℕ}
  {found current : Entry}

lemma Located.entryFor (h : s.Located taskID entry found) : s.entryFor taskID = some found := by
  unfold TaskControlDriver.entryFor
  rw [h.mapped]
  exact h.stored

lemma located_of_entryFor (hlive : s.disposed = false) (h : s.entryFor taskID = some found) :
    ∃ entry, s.Located taskID entry found := by
  obtain ⟨entry, hmapped, hstored⟩ := bind_eq_some_iff.mp h
  exact ⟨entry, hlive, hmapped, hstored⟩

lemma entryFor_store (h : s.EntriesSound) (hlocated : s.Located taskID entry found) (current : Entry)
    (task : String) :
    (s.store entry current).entryFor task = if task = taskID then some current else s.entryFor task := by
  have hlt : entry < s.heap.length := (List.getElem?_eq_some_iff.mp hlocated.stored).1
  unfold entryFor
  change (s.entries.lookup task).bind (fun e => (s.heap.set entry current)[e]?) = _
  split_ifs with htask
  · rw [htask, hlocated.mapped]
    exact getElem?_set_self hlt
  · cases hmapped : s.entries.lookup task with
    | none => rfl
    | some => exact getElem?_set_ne (h.entry_ne hlocated.mapped hmapped htask).symm

lemma entryFor_retire {task : String} (h : (s.retire options taskID current).entryFor task = some found) :
    s.entryFor task = some found := by
  rcases retire_eq options s taskID current with heq | ⟨-, heq⟩
  · rwa [heq] at h
  · rw [heq] at h
    obtain ⟨e, hmapped, hstored⟩ := bind_eq_some_iff.mp h
    exact bind_eq_some_iff.mpr ⟨e, (lookup_of_lookup_filter hmapped).2, hstored⟩

lemma Heard.touch (h : s.Heard) (taskID : String) (hdisposed : t.disposed = s.disposed)
    (hentry : ∀ task ≠ taskID, ∀ current, t.entryFor task = some current → s.entryFor task = some current)
    (hevents : ∀ task ≠ taskID, unheard task t.events = unheard task s.events)
    (howners : ∀ owner ∈ t.owners, owner.taskID ≠ taskID → owner ∈ s.owners)
    (hactive : ∀ task ≠ taskID, ∀ entry, (task, entry) ∈ s.active → (task, entry) ∈ t.active)
    (howned : s.disposed = false → unheard taskID t.events = true → ∃ entry, (taskID, entry) ∈ t.active)
    (hobserved : s.disposed = false → ∀ owner ∈ t.owners, owner.taskID = taskID →
      ∀ pass observed own, owner.phase = .scanning pass observed own → ∀ current,
      t.entryFor taskID = some current →
      observed ≤ current.revision ∧ (unheard taskID t.events = true → observed < current.revision)) :
    t.Heard where
  owned hlive task hunheard := by
    by_cases htask : task = taskID
    · subst htask
      exact howned (hdisposed ▸ hlive) hunheard
    · rw [hevents task htask] at hunheard
      obtain ⟨e, hmem⟩ := h.owned (hdisposed ▸ hlive) task hunheard
      exact ⟨e, hactive task htask e hmem⟩
  observed hlive owner hmem pass observed own hphase current hcurrent := by
    by_cases htask : owner.taskID = taskID
    · rw [htask] at hcurrent ⊢
      exact hobserved (hdisposed ▸ hlive) owner hmem htask pass observed own hphase current hcurrent
    · rw [hevents _ htask]
      exact h.observed (hdisposed ▸ hlive) owner (howners owner hmem htask) pass observed own hphase
        current (hentry _ htask current hcurrent)

/-- A transition that touches no request. -/
lemma Heard.congr (h : s.Heard) (hdisposed : t.disposed = s.disposed)
    (hentry : ∀ task current, t.entryFor task = some current →
      ∃ found, s.entryFor task = some found ∧ current.revision = found.revision)
    (hevents : ∀ task, unheard task t.events = unheard task s.events)
    (howners : ∀ owner ∈ t.owners, ∀ pass observed own, owner.phase = .scanning pass observed own →
      owner ∈ s.owners)
    (hactive : t.active = s.active) : t.Heard where
  owned hlive task hunheard := hactive ▸ h.owned (hdisposed ▸ hlive) task (hevents task ▸ hunheard)
  observed hlive owner hmem pass observed own hphase current hcurrent := by
    obtain ⟨found, hfound, hrevision⟩ := hentry _ _ hcurrent
    rw [hrevision, hevents]
    exact h.observed (hdisposed ▸ hlive) owner (howners owner hmem pass observed own hphase) pass observed
      own hphase found hfound

variable {own : OwnedScan} {owner : Owner}

lemma EntriesSound.not_scanning (h : s.EntriesSound) (hlocated : s.Located taskID entry found)
    (hidle : found.running = false) (hmem : owner ∈ s.owners) (htask : owner.taskID = taskID) {pass observed : ℕ} :
    owner.phase ≠ .scanning pass observed own := by
  intro hphase
  obtain ⟨_, hcalled⟩ := mem_iff_getElem?.mp hmem
  have hactive := mem_active hcalled (by rw [hphase]; rfl)
  rw [htask] at hactive
  exact h.not_active hlocated hidle _ hactive

lemma entryFor_store_revision (hstored : s.heap[entry]? = some found)
    (hrevision : current.revision = found.revision) {task : String} {stored : Entry}
    (h : (s.store entry current).entryFor task = some stored) :
    ∃ found, s.entryFor task = some found ∧ stored.revision = found.revision := by
  obtain ⟨e, hmapped, hset⟩ := bind_eq_some_iff.mp h
  have hset' : (s.heap.set entry current)[e]? = some stored := hset
  by_cases hentry : e = entry
  · subst hentry
    rw [getElem?_set_self (List.getElem?_eq_some_iff.mp hstored).1] at hset'
    exact ⟨found, bind_eq_some_iff.mpr ⟨e, hmapped, hstored⟩,
      (congrArg Entry.revision (some.inj hset')).symm.trans hrevision⟩
  · rw [getElem?_set_ne (Ne.symm hentry)] at hset'
    exact ⟨stored, bind_eq_some_iff.mpr ⟨e, hmapped, hset'⟩, rfl⟩

lemma Heard.create (h : s.Heard) (hsound : s.EntriesSound) (hlive : s.disposed = false)
    (hfresh : s.entries.lookup taskID = none) :
    Heard { s with heap := s.heap ++ [.created], entries := s.entries ++ [(taskID, s.heap.length)] } := by
  refine h.touch taskID rfl ?_ (fun _ _ => rfl) (fun _ hmem _ => hmem) (fun _ _ _ hmem => hmem)
    (fun hlive hunheard => h.owned hlive _ hunheard) ?_
  · intro task htask other hother
    obtain ⟨e, hmapped, hstored⟩ := bind_eq_some_iff.mp hother
    have hmiss : (task == taskID) = false := by simpa using htask
    have hmapped' : s.entries.lookup task = some e := by
      simpa [lookup_append, lookup_cons, hmiss] using hmapped
    refine bind_eq_some_iff.mpr ⟨e, hmapped', ?_⟩
    exact (getElem?_append_left (hsound.refs task e hmapped')).symm.trans hstored
  · intro _ owner hmem htask pass observed own hphase
    obtain ⟨_, hcalled⟩ := mem_iff_getElem?.mp hmem
    have hactive := mem_active hcalled (by rw [hphase]; rfl)
    obtain ⟨_, hother, -⟩ := hsound.owned hlive _ _ hactive
    have hmapped := hother.mapped
    rw [htask, hfresh] at hmapped
    cases hmapped

lemma Heard.idle (h : s.Heard) (hsound : s.EntriesSound) (hlocated : s.Located taskID entry found)
    (hidle : found.running = false) (new : List Owner) (hdisposed : t.disposed = s.disposed)
    (hentry : ∀ task ≠ taskID, ∀ current, t.entryFor task = some current → s.entryFor task = some current)
    (hevents : ∀ task ≠ taskID, unheard task t.events = unheard task s.events)
    (howners : t.owners = s.owners ++ new)
    (hnew : ∀ owner ∈ new, owner.taskID = taskID ∧ owner.phase.isScanning = false)
    (howned : unheard taskID t.events = true → unheard taskID s.events = true ∨
      ∃ entry, (taskID, entry) ∈ t.active) : t.Heard := by
  have hactive : t.active = s.active ++ new.filterMap activity := by
    unfold active
    rw [howners, filterMap_append]
  refine h.touch taskID hdisposed hentry hevents ?_ ?_ ?_ ?_
  · intro owner hmem htask
    rw [howners] at hmem
    exact (mem_append.mp hmem).resolve_right fun hlate => htask (hnew owner hlate).1
  · intro task htask e hmem
    rw [hactive]
    exact mem_append_left _ hmem
  · intro hlive hunheard
    rcases howned hunheard with hold | hlate
    · obtain ⟨e, hmem⟩ := h.owned hlive taskID hold
      exact absurd hmem (hsound.not_active hlocated hidle e)
    · exact hlate
  · intro _ owner hmem htask pass observed own hphase
    rw [howners] at hmem
    rcases mem_append.mp hmem with hold | hlate
    · exact absurd hphase (hsound.not_scanning hlocated hidle hold htask)
    · have hscanning := (hnew owner hlate).2
      rw [hphase] at hscanning
      cases hscanning

/-- Nothing is left to hear after the disposal. -/
lemma Heard.of_disposed (hdisposed : t.disposed = true) : t.Heard where
  owned hlive := absurd (hlive.symm.trans hdisposed) (by decide)
  observed hlive := absurd (hlive.symm.trans hdisposed) (by decide)

lemma Heard.scan (h : s.Heard) (hsound : s.EntriesSound) (hlive : s.disposed = false) {i : ℕ} {pass observed : ℕ}
    (hleaves : Leaves options s i owner found (current, .scanning pass observed own)) :
    (((s.store owner.entry current).move i owner (.scanning pass observed own)).record
      (.scanBegan owner.taskID)).Heard := by
  have hmem : owner ∈ s.owners := mem_of_getElem? hleaves.called
  have hphase : owner.phase.active = true := active_of_inLoop hleaves.inLoop
  obtain ⟨mine, hmine, -⟩ := hsound.owned hlive _ _ (mem_active hleaves.called hphase)
  obtain rfl : mine = found := some.inj (hmine.stored.symm.trans hleaves.stored)
  have hstore := entryFor_store hsound hmine current
  have hrevision : current.revision = mine.revision := hleaves.left.duties.revision
  refine h.touch owner.taskID rfl ?_ (fun task htask => unheard_cons_ne (Ne.symm htask)) ?_ ?_ ?_ ?_
  · intro task htask other hother
    exact (if_neg htask ▸ (hstore task).symm).trans hother
  · intro other hother htask
    rcases mem_or_eq_of_mem_set hother with hold | rfl
    · exact hold
    · exact absurd rfl htask
  · intro task _ e he
    have hactive : (s.owners.set i { owner with phase := .scanning pass observed own }).filterMap activity =
        s.active := by
      refine filterMap_set_eq hleaves.called ?_
      simp only [activity, hphase]
      rfl
    exact (congrArg (fun rows => (task, e) ∈ rows) hactive).mpr he
  · intro _ hunheard
    exact absurd (unheard_scanBegan.symm.trans hunheard) (by decide)
  · intro _ other hother htask pass' observed' own' hscanning stored hstored
    have hcurrent : current = stored :=
      some.inj ((if_pos rfl ▸ (hstore owner.taskID).symm).trans hstored)
    refine ⟨?_, fun hunheard => absurd (unheard_scanBegan.symm.trans hunheard) (by decide)⟩
    rw [← hcurrent, hrevision]
    rcases mem_or_eq_of_mem_set hother with hold | rfl
    · exact (h.observed hlive other hold _ _ _ hscanning mine (htask ▸ hmine.entryFor)).1
    · cases hscanning
      exact (hleaves.left.scanning pass observed own rfl).1.le

lemma Heard.stop (h : s.Heard) (hsound : s.EntriesSound) (hlive : s.disposed = false) {i : ℕ}
    (hleaves : Leaves options s i owner found (current, .stopped own)) :
    (s.leavePass options i owner (current, .stopped own)).Heard := by
  have hmem : owner ∈ s.owners := mem_of_getElem? hleaves.called
  have hphase : owner.phase.active = true := active_of_inLoop hleaves.inLoop
  obtain ⟨mine, hmine, -⟩ := hsound.owned hlive _ _ (mem_active hleaves.called hphase)
  obtain rfl : mine = found := some.inj (hmine.stored.symm.trans hleaves.stored)
  have hcaught : own.wakeInstants.min? = none → unheard owner.taskID s.events = false := by
    intro hnone
    obtain ⟨pass, own', hscanning⟩ := hleaves.left.stopped own rfl (min?_eq_none_iff.mp hnone)
    by_contra hunheard
    have hless := (h.observed hlive owner hmem pass _ own' hscanning mine hmine.entryFor).2
      (by simpa using hunheard)
    omega
  have harmed : own.wakeInstants.min? ≠ none → (arm options s.clock { current with running := false }
      s.disposed owner.taskID own.wakeInstants.min?).timer.isSome = true := by
    intro hsome
    obtain ⟨wakeAt, hwakeAt⟩ := ne_none_iff_exists'.mp hsome
    rw [hlive, hwakeAt]
    exact arm_isSome wakeAt
  have hrevision : (arm options s.clock { current with running := false } s.disposed owner.taskID
      own.wakeInstants.min?).revision = mine.revision :=
    (arm_revision _ _).trans hleaves.left.duties.revision
  simp only [leavePass]
  generalize arm options s.clock { current with running := false } s.disposed owner.taskID
    own.wakeInstants.min? = stopped at harmed hrevision ⊢
  have hquiet : unheard owner.taskID (.stopped owner.taskID own.wakeInstants stopped.timer.isSome ::
      s.events) = false := by
    rw [unheard_stopped]
    by_cases hnone : own.wakeInstants.min? = none
    · rw [hcaught hnone, Bool.and_false]
    · rw [harmed hnone]
      rfl
  have hstore := entryFor_store hsound hmine stopped
  have hentry : ∀ task other, ((s.store owner.entry stopped).retire options owner.taskID
      stopped).entryFor task = some other → (if task = owner.taskID then some stopped else
        s.entryFor task) = some other := fun task other hother => hstore task ▸ entryFor_retire hother
  obtain ⟨before, after, hbefore, hafter⟩ := filterMap_set_none (f := activity)
    (y := { owner with phase := .settled own }) hleaves.called (by simp only [activity, hphase]; rfl) rfl
  have hevents : ((((s.store owner.entry stopped).retire options owner.taskID stopped).move i owner
      (.settled own)).record (.stopped owner.taskID own.wakeInstants stopped.timer.isSome)).events =
      .stopped owner.taskID own.wakeInstants stopped.timer.isSome :: s.events := by
    simp [record, move, store]
  refine h.touch owner.taskID ?_ ?_ ?_ ?_ ?_ ?_ ?_
  · simp [record, move, store]
  · intro task htask other hother
    exact (if_neg htask).symm.trans (hentry task other hother)
  · intro task htask
    have hother : ¬DriverEvent.ofTask task (.stopped owner.taskID own.wakeInstants stopped.timer.isSome) :=
      Ne.symm htask
    rw [hevents, unheard_cons_ne hother]
  · intro other hother htask
    have hother' : other ∈ s.owners.set i { owner with phase := .settled own } := by
      simpa [record, move, store] using hother
    rcases mem_or_eq_of_mem_set hother' with hold | rfl
    · exact hold
    · exact absurd rfl htask
  · intro task htask e he
    have hmem' : (task, e) ∈ before ++ after := by
      have hsplit : (task, e) ∈ before ++ (owner.taskID, owner.entry) :: after := hbefore ▸ he
      simpa [htask] using hsplit
    have hactive : (task, e) ∈ (s.owners.set i { owner with phase := .settled own }).filterMap activity :=
      hafter ▸ hmem'
    simpa [active, record, move, store] using hactive
  · intro _ hunheard
    rw [hevents, hquiet] at hunheard
    cases hunheard
  · intro _ other hother htask pass observed own' hscanning stored hstored
    have hother' : other ∈ s.owners.set i { owner with phase := .settled own } := by
      simpa [record, move, store] using hother
    have hcurrent : stopped = stored := some.inj ((if_pos rfl).symm.trans (hentry _ _ hstored))
    rw [hevents, hquiet, ← hcurrent, hrevision]
    refine ⟨?_, fun h => absurd h Bool.false_ne_true⟩
    rcases mem_or_eq_of_mem_set hother' with hold | rfl
    · exact (h.observed hlive other hold _ _ _ hscanning mine (htask ▸ hmine.entryFor)).1
    · cases hscanning

lemma Heard.quiet (h : s.Heard) (hsound : s.EntriesSound) (hquiet : Quiet options s t) : t.Heard := by
  cases hquiet with
  | create _ live fresh => exact h.create hsound live fresh
  | coalesce taskID entry found located running =>
    have hstore := entryFor_store hsound located { found with revision := found.revision + 1 }
    refine h.touch taskID rfl (fun task htask other hother => ?_)
      (fun task htask => unheard_cons_ne (Ne.symm htask)) (fun _ hmem _ => hmem) (fun _ _ _ hmem => hmem)
      (fun _ _ => ⟨entry, hsound.running taskID entry found located running⟩) ?_
    · exact ((hstore task).trans (if_neg htask)).symm.trans hother
    · rintro hlive owner hmem rfl pass observed own hphase current hcurrent
      have hle := (h.observed hlive owner hmem pass observed own hphase found located.entryFor).1
      have hcurrent' : { found with revision := found.revision + 1 } = current :=
        some.inj (((hstore owner.taskID).trans (if_pos rfl)).symm.trans hcurrent)
      rw [← hcurrent']
      exact ⟨Nat.le_succ_of_le hle, fun _ => Nat.lt_succ_of_le hle⟩
  | pace _ _ _ current _ located _ _ _ _ _ idle =>
    have hstore := entryFor_store hsound located current
    refine h.idle hsound located idle [] rfl (fun task htask other hother => ?_)
      (fun task htask => unheard_cons_ne (Ne.symm htask)) (List.append_nil _).symm nofun .inl
    exact ((hstore task).trans (if_neg htask)).symm.trans hother
  | enroll _ _ entry _ current located idle | enqueue _ _ entry _ current located idle =>
    have hstore := entryFor_store hsound located { current with running := true }
    refine h.idle hsound located idle [_] rfl (fun task htask other hother => ?_)
      (fun task htask => unheard_cons_ne (Ne.symm htask)) rfl (by simp [OwnerPhase.isScanning])
      (fun _ => .inr ⟨entry, ?_⟩)
    · exact ((hstore task).trans (if_neg htask)).symm.trans hother
    · simp [active, activity, OwnerPhase.active]
  | rejectArmed _ _ _ current located idle =>
    have hstore := entryFor_store hsound located { current with running := false }
    refine h.idle hsound located idle [] rfl (fun task htask other hother => ?_) (fun _ _ => rfl)
      (List.append_nil _).symm nofun .inl
    exact ((hstore task).trans (if_neg htask)).symm.trans hother
  | rejectUnarmed _ _ _ current located idle =>
    have hstore := entryFor_store hsound located { current with running := false }
    refine h.idle hsound located idle [] (by simp [record, store]) (fun task htask other hother => ?_)
      (fun task _ => by simp [record, store, unheard])
      (by simp [record, store]) nofun (fun hunheard => .inl (by simpa [record, store, unheard] using hunheard))
    exact ((hstore task).trans (if_neg htask)).symm.trans (entryFor_retire hother)
  | leave _ _ _ result called inLoop stored left =>
    obtain hdisposed | hlive := Bool.eq_false_or_eq_true s.disposed
    · refine .of_disposed ?_
      obtain ⟨_, _ | _⟩ := result
      · exact hdisposed
      · simpa [leavePass, record, move, store] using hdisposed
    · obtain ⟨_, passEnd⟩ := result
      cases passEnd with
      | scanning => exact h.scan hsound hlive ⟨called, inLoop, stored, left⟩
      | stopped => exact h.stop hsound hlive ⟨called, inLoop, stored, left⟩
  | refused _ owner _ called refused =>
    refine .of_disposed ?_
    simpa [move, store] using hsound.refused owner (mem_of_getElem? called) refused
  | fire _ found timer stored =>
    have hrevision : { found with timer := none }.revision = found.revision := rfl
    exact h.congr rfl (fun _ _ hcurrent => entryFor_store_revision stored hrevision hcurrent)
      (fun _ => rfl) (fun _ hmem _ _ _ _ => hmem) rfl
  | requested | tick =>
    exact h.congr rfl (fun _ current hcurrent => ⟨current, hcurrent, rfl⟩) (fun _ => rfl)
      (fun _ hmem _ _ _ _ => hmem) rfl
  | endReentry k reentry =>
    have hevents : ∀ task, unheard task (endReentry s k reentry).events = unheard task s.events := by
      intro task
      unfold endReentry
      simp only
      split <;> rfl
    obtain ⟨_, heq⟩ := endReentry_eq s k reentry
    rw [heq] at hevents ⊢
    exact h.congr rfl (fun _ current hcurrent => ⟨current, hcurrent, rfl⟩) hevents (fun _ hmem _ _ _ _ => hmem) rfl
  | rearm _ _ _ _ _ _ located _ revision =>
    exact h.congr rfl (fun _ _ hcurrent => entryFor_store_revision located.stored revision hcurrent)
      (fun _ => rfl) (fun _ hmem _ _ _ _ => hmem) rfl

lemma Heard.release (h : s.Heard) (hslots : s.SlotsSound options) {i : ℕ} (hcalled : s.owners[i]? = some owner)
    (hphase : owner.phase = .settled own) : ((s.move i owner .ended).releaseScanSlot).Heard := by
  obtain ⟨hheap, hentries, hdisposed, hevents⟩ := releaseScanSlot_frame (s.move i owner .ended)
  refine h.congr hdisposed (fun task current hcurrent => ⟨current, ?_, rfl⟩)
    (fun task => congrArg (unheard task) hevents) ?_ (release_active hslots hcalled hphase)
  · unfold entryFor at hcurrent ⊢
    rwa [hheap, hentries] at hcurrent
  · intro other hmem pass observed own' hscanning
    rcases mem_of_mem_release hslots hcalled hphase hmem with hold | hended | hgranted
    · exact hold
    · rw [hended] at hscanning
      cases hscanning
    · rw [hgranted] at hscanning
      cases hscanning

lemma Heard.quiets (h : s.Heard) (hsound : s.DriverSound options)
    (hquiet : ReflTransGen (Quiet options) s t) : t.Heard := by
  induction hquiet with
  | refl => exact h
  | tail hbefore hlast ih => exact ih.quiet (hsound.quiet hbefore).entries hlast

theorem heard_preserved : Preserves (driverStep options) fun s => s.DriverSound options ∧ s.Heard := by
  rintro _ _ _ ⟨hsound, h⟩ hstep
  refine ⟨driverSound_preserved hsound hstep, ?_⟩
  obtain ⟨-, -, hquiet⟩ | ⟨_, _, _, -, hcalled, hphase, rfl⟩ | ⟨-, rfl⟩ :=
    step_cases hsound.entries.refs hstep
  · exact h.quiets hsound hquiet
  · exact h.release hsound.slots hcalled hphase
  · exact .of_disposed rfl

lemma heard_initial (clock : ℤ) : (initial clock).Heard where
  owned _ _ hunheard := by cases hunheard
  observed _ _ hmem := by cases hmem

end Heard

/-! ## Events -/

section Events

variable {s t : TaskControlDriver} {options : TaskControlDriverOptions} {taskID : String}

lemma leavePass_events (options : TaskControlDriverOptions) (s : TaskControlDriver) (i : ℕ)
    (owner : Owner) (result : Entry × PassEnd) :
    ∃ event, (s.leavePass options i owner result).events = event :: s.events := by
  obtain ⟨_, _ | _⟩ := result
  · exact ⟨_, rfl⟩
  · exact ⟨_, by simp only [leavePass, record, move, retire_events, store]; rfl⟩

lemma quiet_events (hquiet : Quiet options s t) : s.events <:+ t.events := by
  cases hquiet with
  | coalesce | pace | enroll | enqueue => exact suffix_cons _ _
  | rejectUnarmed =>
    simp only [record, retire_events, store]
    exact suffix_cons _ _
  | leave i owner _ result =>
    obtain ⟨_, heq⟩ := leavePass_events options s i owner result
    rw [heq]
    exact suffix_cons _ _
  | refused =>
    simp only [move, retire_events, store]
    exact suffix_refl _
  | endReentry =>
    unfold endReentry
    simp only
    split
    · exact suffix_refl _
    · exact suffix_cons _ _
  | _ => exact suffix_refl _

lemma step_events {action : DriverAction} (h : s.DriverSound options)
    (hstep : driverStep options s action = some t) : s.events <:+ t.events := by
  obtain ⟨-, -, hquiet⟩ | ⟨i, owner, _, -, -, -, rfl⟩ | ⟨-, rfl⟩ := step_cases h.entries.refs hstep
  · clear hstep
    induction hquiet with
    | refl => exact suffix_refl _
    | tail _ hlast ih => exact ih.trans (quiet_events hlast)
  · exact (releaseScanSlot_frame (s.move i owner .ended)).2.2.2 ▸ suffix_refl _
  · exact suffix_refl _

lemma requestEntry_accepted (hsound : s.EntriesSound) {entry : ℕ} {found : Entry}
    {propagateFailure : Bool} {read firstRead : InputRead} (hlocated : s.Located taskID entry found)
    (hadmitted : (s.requestEntry options taskID propagateFailure entry found read firstRead).2 ≠
      .rejected) :
    (∃ new, (s.requestEntry options taskID propagateFailure entry found read firstRead).1.events =
        new ++ s.events ∧ .accepted taskID true ∈ new) ∨
    ∃ current, (s.requestEntry options taskID propagateFailure entry found read firstRead).1.entryFor
      taskID = some current ∧ current.timer.isSome = true := by
  have hpaced : Entry.PacedTo options { found with revision := found.revision + 1 } taskID
      (admitRequest options s.clock { found with revision := found.revision + 1 } taskID read) :=
    admitRequest_pacedTo read
  unfold requestEntry at hadmitted ⊢
  simp only at hadmitted ⊢
  split
  · exact .inl ⟨[_], rfl, mem_singleton_self _⟩
  next hidle =>
    simp only [if_neg hidle] at hadmitted
    generalize admitRequest options s.clock { found with revision := found.revision + 1 } taskID read =
      result at hpaced hadmitted ⊢
    obtain ⟨current, pacing⟩ := result
    cases pacing with
    | paced | unreadable =>
      obtain ⟨-, -, timer, harmed, -⟩ := hpaced.paced nofun
      exact .inr ⟨current, (entryFor_store hsound hlocated current taskID).trans (if_pos rfl),
        isSome_iff_exists.mpr ⟨timer, harmed⟩⟩
    | clear =>
      refine .inl ?_
      simp only [startOwner] at hadmitted ⊢
      split
      · obtain ⟨event, heq⟩ := leavePass_events options { s.store entry { current with running := true } with
            activeScans := s.activeScans + 1
            owners := s.owners ++ [⟨taskID, entry, propagateFailure, .granted⟩]
            events := .accepted taskID true :: s.events } s.owners.length
          ⟨taskID, entry, propagateFailure, .granted⟩ (beginPass options s.clock
            { current with running := true } propagateFailure 0 ⟨0, [], false⟩ firstRead)
        exact ⟨[event, .accepted taskID true], heq, by simp⟩
      next hfull =>
        simp only [if_neg hfull] at hadmitted
        split
        next hcrowded => simp [hcrowded] at hadmitted
        · exact ⟨[_], rfl, mem_singleton_self _⟩

lemma startRequest_accepted (h : s.DriverSound options) {propagateFailure : Bool}
    {read firstRead : InputRead}
    (hadmitted : (s.startRequest options taskID propagateFailure read firstRead).2 ≠ .rejected) :
    (∃ new, (s.startRequest options taskID propagateFailure read firstRead).1.events = new ++ s.events ∧
      .accepted taskID true ∈ new) ∨
    ∃ current, (s.startRequest options taskID propagateFailure read firstRead).1.entryFor taskID =
      some current ∧ current.timer.isSome = true := by
  unfold startRequest at hadmitted ⊢
  split
  next hclosed => simp [hclosed] at hadmitted
  next hlive =>
    have hentryOf : ReflTransGen (Quiet options) s (s.entryOf taskID).2 ∧
        ∃ found, (s.entryOf taskID).2.Located taskID (s.entryOf taskID).1 found :=
      located_entryOf (by simpa using hlive) h.entries.refs taskID
    obtain ⟨hcreated, _, hlocated⟩ := hentryOf
    have hevents : (s.entryOf taskID).2.events = s.events := by
      unfold entryOf
      split <;> rfl
    simp only [if_neg hlive, hlocated.stored] at hadmitted ⊢
    rw [← hevents]
    exact requestEntry_accepted (h.quiet hcreated).entries hlocated hadmitted

end Events

/-! ## The admission law -/

def answered (options : TaskControlDriverOptions) (s : TaskControlDriver) :
    DriverAction → Option (String × RequestStatus)
  | .request taskID propagateFailure read firstRead =>
    some (taskID, (s.startRequest options taskID propagateFailure read firstRead).2)
  | .reenter k read firstRead =>
    (s.reentries[k]?).map fun reentry =>
      (reentry.taskID, (s.startRequest options reentry.taskID false read firstRead).2)
  | _ => none

section Admission

variable {s t : TaskControlDriver} {options : TaskControlDriverOptions} {taskID : String}

lemma count_active (taskID : String) (owners : List Owner) :
    ((owners.filterMap activity).map Prod.fst).count taskID =
      owners.countP fun owner => owner.taskID == taskID && owner.phase.active := by
  induction owners with
  | nil => rfl
  | cons owner _ ih =>
    rw [countP_cons, filterMap_cons]
    cases hactive : owner.phase.active with
    | false => simp [activity, hactive, ih]
    | true => simp [activity, hactive, ih, count_cons]

lemma scanning_le_one (h : s.EntriesSound) (taskID : String) :
    s.owners.countP (fun owner => owner.taskID == taskID && owner.phase.isScanning) ≤ 1 := by
  have hsingle : (s.active.map Prod.fst).count taskID ≤ 1 := nodup_iff_count_le_one.mp h.single taskID
  unfold active at hsingle
  rw [count_active] at hsingle
  refine le_trans (countP_mono_left fun owner _ hscanning => ?_) hsingle
  rw [Bool.and_eq_true] at hscanning ⊢
  exact ⟨hscanning.1, active_of_isScanning hscanning.2⟩

lemma scanning_le_slots (h : s.SlotsSound options) :
    s.owners.countP (fun owner => owner.phase.isScanning) ≤ options.maximumConcurrentScans := by
  have hslots := h.bounded
  rw [h.slots] at hslots
  exact le_trans (countP_mono_left fun owner _ => holdsSlot_of_isScanning) hslots

lemma step_accepted {action : DriverAction} {status : RequestStatus} (h : s.DriverSound options)
    (hstep : driverStep options s action = some t) (hanswer : answered options s action = some (taskID, status))
    (hadmitted : status ≠ .rejected) :
    (∃ new, t.events = new ++ s.events ∧ .accepted taskID true ∈ new) ∨
      ∃ current, t.entryFor taskID = some current ∧ current.timer.isSome = true := by
  cases action with
  | request =>
    cases hstep
    cases hanswer
    exact startRequest_accepted h hadmitted
  | reenter =>
    obtain ⟨reentry, hentered, hrest⟩ := bind_eq_some_iff.mp hstep
    obtain ⟨reentry', hentered', heq⟩ := map_eq_some_iff.mp hanswer
    obtain rfl : reentry = reentry' := some.inj (hentered.symm.trans hentered')
    cases heq
    split at hrest
    · cases hrest
    · cases hrest
      exact startRequest_accepted h hadmitted
  | _ => cases hanswer

lemma request_heard {action : DriverAction} {status : RequestStatus} {later : List DriverAction}
    {u : TaskControlDriver} (h : s.DriverSound options ∧ s.Heard)
    (hstep : driverStep options s action = some t)
    (hanswer : answered options s action = some (taskID, status)) (hadmitted : status ≠ .rejected)
    (hlater : exec (driverStep options) t later = some u) (hlive : u.disposed = false) :
    (∃ current, t.entryFor taskID = some current ∧ current.timer.isSome = true) ∨
    (∃ new, u.events = new ++ s.events ∧
      (.scanBegan taskID ∈ new ∨ ∃ instants, .stopped taskID instants true ∈ new)) ∨
    ∃ owner ∈ u.owners, owner.taskID = taskID ∧ owner.phase.active = true := by
  rcases step_accepted h.1 hstep hanswer hadmitted with ⟨before, hbefore, haccepted⟩ | harmed
  · refine .inr ?_
    have hafter := heard_preserved h hstep
    obtain ⟨_, hheard⟩ := heard_preserved.exec hafter hlater
    obtain ⟨after, hafter⟩ : t.events <:+ u.events :=
      exec_relates driverSound_preserved (fun s => suffix_refl s.events)
        (fun _ _ _ h h' => h.trans h') (fun _ _ _ hs hstep => step_events hs hstep) hafter.1 hlater
    have hevents : u.events = (after ++ before) ++ s.events := by
      rw [← hafter, hbefore, append_assoc]
    by_cases hnew : .scanBegan taskID ∈ after ++ before ∨
        ∃ instants, .stopped taskID instants true ∈ after ++ before
    · exact .inl ⟨_, hevents, hnew⟩
    · refine .inr ?_
      have hunheard : unheard taskID u.events = true := by
        rw [hevents]
        exact unheard_append (mem_append_right _ haccepted) (fun hmem => hnew (.inl hmem))
          fun instants hmem => hnew (.inr ⟨instants, hmem⟩)
      obtain ⟨_, hmem⟩ := hheard.owned hlive taskID hunheard
      obtain ⟨owner, howner, hactivity⟩ := mem_filterMap.mp hmem
      unfold activity at hactivity
      split at hactivity
      next hactive =>
        exact ⟨owner, howner, (Prod.mk.inj (some.inj hactivity)).1, hactive⟩
      · cases hactivity
  · exact .inl harmed

end Admission

end TaskControlDriver

end OpenCorvus.Engine
