import Mathlib.Logic.Relation
import OpenCorvus.Engine.TaskControlDriver

/-!
# The transitions of the Task control driver

Every action is a sequence of transitions, each of which touches one Task: an entry is created, a
request is answered, an owner is enrolled, queued or rejected, an owner leaves a pass, a timer fires,
a re-entry ends.  A released slot and the disposal alone reach into the queue.
-/

namespace OpenCorvus.Engine

open Relation Option

/-! ## Phases -/

/-- The owner waits for a slot, or its loop runs. -/
def OwnerPhase.active : OwnerPhase → Bool
  | .queued | .granted | .scanning _ _ _ => true
  | .refused | .settled _ | .ended => false

def OwnerPhase.holdsSlot : OwnerPhase → Bool
  | .granted | .scanning _ _ _ | .settled _ => true
  | .queued | .refused | .ended => false

def OwnerPhase.isScanning : OwnerPhase → Bool
  | .scanning _ _ _ => true
  | _ => false

def OwnerPhase.inLoop : OwnerPhase → Bool
  | .granted | .scanning _ _ _ => true
  | _ => false

variable (options : TaskControlDriverOptions)

def OwnerPhase.turn : OwnerPhase → ℕ → Prop
  | .granted, next => next = 0
  | .scanning pass _ _, next => next = pass + 1 ∧ next ≠ options.maxPasses
  | _, _ => False

variable {phase : OwnerPhase}

lemma OwnerPhase.active_of_inLoop (h : phase.inLoop = true) : phase.active = true := by
  cases phase <;> first | rfl | cases h

lemma OwnerPhase.holdsSlot_of_inLoop (h : phase.inLoop = true) : phase.holdsSlot = true := by
  cases phase <;> first | rfl | cases h

lemma OwnerPhase.holdsSlot_of_isScanning (h : phase.isScanning = true) : phase.holdsSlot = true := by
  cases phase <;> first | rfl | cases h

lemma OwnerPhase.active_of_isScanning (h : phase.isScanning = true) : phase.active = true := by
  cases phase <;> first | rfl | cases h

/-! ## What the pure parts keep -/

def WakeTimer.Soon (timer : WakeTimer) : Prop :=
  timer.delay ≤ options.minimumWakeDelay ∨ timer.timerAt ≤ timer.notBefore

/-- The timer does not fire after the instant, up to the least delay and the end of a backoff. -/
def WakeTimer.Honors (timer : WakeTimer) (wakeAt : ℤ) : Prop :=
  timer.timerAt ≤ wakeAt ∨ timer.Soon options

structure Entry.SameDuties (current found : Entry) : Prop where
  revision : current.revision = found.revision
  running : current.running = found.running
  timer : current.timer = found.timer

/-- What a stretch of `own` leaves: the duties of the entry are the same, a next scan has its turn and
observes the revision, and a loop that ends without an instant has caught up. -/
structure Entry.LeftBy (entry : Entry) (caughtUp : Prop) (turn : ℕ → Prop) (result : Entry × PassEnd) :
    Prop where
  duties : result.1.SameDuties entry
  scanning : ∀ pass observed own, result.2 = .scanning pass observed own → observed = entry.revision ∧ turn pass
  stopped : ∀ own, result.2 = .stopped own → own.wakeInstants = [] → caughtUp

section Pure

variable {options : TaskControlDriverOptions} {now : ℤ} {entry : Entry} {taskID : String}

lemma Entry.SameDuties.refl (entry : Entry) : entry.SameDuties entry := ⟨rfl, rfl, rfl⟩

lemma Entry.SameDuties.trans {e e' e'' : Entry} (h : e.SameDuties e') (h' : e'.SameDuties e'') :
    e.SameDuties e'' :=
  ⟨h.revision.trans h'.revision, h.running.trans h'.running, h.timer.trans h'.timer⟩

lemma readInputRevision_sameDuties (read : InputRead) :
    (readInputRevision options entry read).1.SameDuties entry := by
  unfold readInputRevision
  split
  · cases read <;> exact ⟨rfl, rfl, rfl⟩
  · exact .refl _

lemma inputChangedAfterScan_sameDuties (read : InputRead) :
    (inputChangedAfterScan options entry read).1.SameDuties entry := by
  have hread : (readInputRevision options entry read).1.SameDuties entry :=
    readInputRevision_sameDuties read
  unfold inputChangedAfterScan
  split
  · exact .refl _
  · generalize readInputRevision options entry read = result at hread
    obtain ⟨_, _ | _⟩ := result
    · exact hread
    · exact hread

/-- Counting a fault. -/
lemma penalize_sameDuties (instants : List ℤ) :
    (penalize options now entry instants).1.SameDuties entry := ⟨rfl, rfl, rfl⟩

/-- Forgiving faults. -/
lemma decayFailures_sameDuties : (decayFailures options now entry).SameDuties entry := by
  unfold decayFailures
  split
  · exact .refl _
  · split
    · exact .refl _
    · exact ⟨rfl, rfl, rfl⟩

lemma pace_leftBy (own : OwnedScan) (caughtUp : Prop) (turn : ℕ → Prop) :
    entry.LeftBy caughtUp turn (pace options now entry own) where
  duties := penalize_sameDuties _
  scanning pass observed own' h := by cases h
  stopped own' h hempty := by
    cases h
    exact absurd hempty (by simp)

lemma Entry.LeftBy.of_sameDuties {current : Entry} {caughtUp : Prop} {turn : ℕ → Prop}
    {result : Entry × PassEnd} (h : current.LeftBy caughtUp turn result)
    (hduties : current.SameDuties entry) : entry.LeftBy caughtUp turn result where
  duties := h.duties.trans hduties
  scanning pass observed own hresult :=
    ⟨(h.scanning pass observed own hresult).1.trans hduties.revision, (h.scanning pass observed own hresult).2⟩
  stopped := h.stopped

lemma Entry.LeftBy.imp {caughtUp caughtUp' : Prop} {turn turn' : ℕ → Prop} {result : Entry × PassEnd}
    (h : entry.LeftBy caughtUp turn result) (himp : caughtUp → caughtUp')
    (hturn : ∀ pass, turn pass → turn' pass) : entry.LeftBy caughtUp' turn' result where
  duties := h.duties
  scanning pass observed own hresult :=
    ⟨(h.scanning pass observed own hresult).1, hturn pass (h.scanning pass observed own hresult).2⟩
  stopped own hresult hempty := himp (h.stopped own hresult hempty)

lemma beginPass_leftBy (propagateFailure : Bool) (pass : ℕ) (own : OwnedScan) (read : InputRead)
    (caughtUp : Prop) :
    entry.LeftBy caughtUp (fun next => next = pass)
      (beginPass options now entry propagateFailure pass own read) := by
  have hread : (readInputRevision options (decayFailures options now entry) read).1.SameDuties entry :=
    (readInputRevision_sameDuties read).trans decayFailures_sameDuties
  unfold beginPass
  generalize readInputRevision options (decayFailures options now entry) read = result at hread
  obtain ⟨_, revision | revision⟩ := result
  · exact (pace_leftBy _ caughtUp _).of_sameDuties hread
  · refine ⟨⟨hread.revision, hread.running, hread.timer⟩, ?_, ?_⟩
    · intro pass' observed own' h
      cases h
      exact ⟨rfl, rfl⟩
    · intro own' h
      cases h

lemma inputCompared_sameDuties (options : TaskControlDriverOptions) (pass : ℕ) (entry : Entry) (read : InputRead) :
    (if pass + 1 < options.maxPasses then inputChangedAfterScan options entry read
      else (entry, false)).1.SameDuties entry ∧
    ((if pass + 1 < options.maxPasses then inputChangedAfterScan options entry read
      else (entry, false)).2 = true → pass + 1 ≠ options.maxPasses) := by
  split
  next hleft => exact ⟨inputChangedAfterScan_sameDuties read, fun _ => by omega⟩
  · exact ⟨.refl _, nofun⟩

lemma settlePass_leftBy (propagateFailure : Bool) (pass observed : ℕ) (own : OwnedScan)
    (outcome : ScanOutcome) (read nextRead : InputRead) :
    entry.LeftBy (entry.revision = observed) (fun next => next = pass + 1 ∧ next ≠ options.maxPasses)
      (settlePass options now entry propagateFailure pass observed own outcome read nextRead) := by
  have hnext : ∀ (next : Entry) (own : OwnedScan), next.SameDuties entry → pass + 1 ≠ options.maxPasses →
      entry.LeftBy (entry.revision = observed) (fun next => next = pass + 1 ∧ next ≠ options.maxPasses)
        (beginPass options now next propagateFailure (pass + 1) own nextRead) :=
    fun next own hduties hpass => ((beginPass_leftBy _ _ _ _ _).imp id
      (fun turn hturn => ⟨hturn, hturn.trans_ne hpass⟩)).of_sameDuties hduties
  cases outcome with
  | threw =>
    have hpenalized : (penalize options now entry own.wakeInstants).1.SameDuties entry :=
      penalize_sameDuties own.wakeInstants
    simp only [settlePass]
    generalize penalize options now entry own.wakeInstants = penalized at hpenalized
    obtain ⟨current, _⟩ := penalized
    obtain ⟨hchanged, hearly⟩ := inputCompared_sameDuties options pass current read
    simp only
    generalize (if pass + 1 < options.maxPasses then inputChangedAfterScan options current read
      else (current, false)) = compared at hchanged hearly
    split
    next hagain =>
      have hduties : compared.1.SameDuties entry := hchanged.trans hpenalized
      exact hnext _ _ ⟨hduties.revision, hduties.running, hduties.timer⟩ (hearly hagain)
    · refine ⟨hchanged.trans hpenalized, ?_, ?_⟩
      · intro pass' observed' own' h
        cases h
      · intro own' h hempty
        cases h
        exact absurd hempty (by simp)
  | returned =>
    simp only [settlePass]
    split
    · obtain ⟨hchanged, hearly⟩ := inputCompared_sameDuties options pass entry read
      generalize (if pass + 1 < options.maxPasses then inputChangedAfterScan options entry read
        else (entry, false)) = compared at hchanged hearly
      split
      next hagain => exact hnext _ _ hchanged (hearly hagain)
      · exact (pace_leftBy _ _ _).of_sameDuties hchanged
    · split
      next hcurrent =>
        refine ⟨.refl _, ?_, fun _ _ _ => hcurrent⟩
        intro pass' observed' own' h
        cases h
      · split
        · exact pace_leftBy _ _ _
        next hpass => exact hnext _ _ (.refl _) hpass

/-! ## Timers -/

variable {disposed : Bool} {timer : WakeTimer}

lemma arm_honors {wakeAt : ℤ} (h : (arm options now entry disposed taskID (some wakeAt)).timer = some timer) :
    timer.Honors options wakeAt := by
  have hleast := options.maximumWakeDelay_ge
  cases disposed with
  | true => cases h
  | false =>
    cases h
    unfold WakeTimer.Honors WakeTimer.Soon
    simp only
    omega

lemma arm_soon {retryAt : ℤ} (hretry : entry.retryNotBefore = some retryAt)
    (h : (arm options now entry disposed taskID (some retryAt)).timer = some timer) :
    timer.Soon options := by
  have hhonors := arm_honors h
  have hnotBefore : timer.notBefore = retryAt := by
    cases disposed with
    | true => cases h
    | false =>
      cases h
      simp [hretry]
  unfold WakeTimer.Honors WakeTimer.Soon at *
  omega

lemma arm_taskID {wakeAt : Option ℤ} (h : (arm options now entry disposed taskID wakeAt).timer = some timer) :
    timer.taskID = taskID := by
  cases disposed <;> cases wakeAt <;> cases h
  rfl

lemma arm_isSome (wakeAt : ℤ) : (arm options now entry false taskID (some wakeAt)).timer.isSome := rfl

lemma arm_running (disposed : Bool) (wakeAt : Option ℤ) :
    (arm options now entry disposed taskID wakeAt).running = entry.running := by
  cases disposed <;> cases wakeAt <;> rfl

lemma arm_revision (disposed : Bool) (wakeAt : Option ℤ) :
    (arm options now entry disposed taskID wakeAt).revision = entry.revision := by
  cases disposed <;> cases wakeAt <;> rfl

structure Entry.PacedTo (options : TaskControlDriverOptions) (entry : Entry) (taskID : String)
    (result : Entry × RequestPacing) : Prop where
  clear : result.2 = .clear → result.1.SameDuties entry
  paced : result.2 ≠ .clear → result.1.running = entry.running ∧
    result.1.revision = entry.revision ∧
    ∃ timer, result.1.timer = some timer ∧ timer.taskID = taskID ∧ timer.Soon options

lemma arm_paced {retryAt : ℤ} (hretry : entry.retryNotBefore = some retryAt) :
    ∃ timer, (arm options now entry false taskID (some retryAt)).timer = some timer ∧
      timer.taskID = taskID ∧ timer.Soon options := by
  have hsome : (arm options now entry false taskID (some retryAt)).timer.isSome := arm_isSome retryAt
  obtain ⟨timer, htimer⟩ := isSome_iff_exists.mp hsome
  exact ⟨timer, htimer, arm_taskID htimer, arm_soon hretry htimer⟩

lemma paceRequest_pacedTo : entry.PacedTo options taskID (paceRequest options now entry taskID) := by
  unfold paceRequest
  split
  next hpaced =>
    obtain ⟨_, hretry, -⟩ := (Option.any_eq_true _ _).mp hpaced
    refine ⟨nofun, fun _ => ⟨arm_running _ _, arm_revision _ _, ?_⟩⟩
    rw [hretry]
    exact arm_paced hretry
  · exact ⟨fun _ => ⟨rfl, rfl, rfl⟩, fun h => absurd rfl h⟩

lemma Entry.PacedTo.of_sameDuties {current : Entry} {result : Entry × RequestPacing}
    (h : current.PacedTo options taskID result) (hduties : current.SameDuties entry) :
    entry.PacedTo options taskID result where
  clear hclear := (h.clear hclear).trans hduties
  paced hpaced := by
    obtain ⟨hrunning, hrevision, htimer⟩ := h.paced hpaced
    exact ⟨hrunning.trans hduties.running, hrevision.trans hduties.revision, htimer⟩

lemma admitRequest_pacedTo (read : InputRead) :
    entry.PacedTo options taskID (admitRequest options now entry taskID read) := by
  have hread : (readInputRevision options entry read).1.SameDuties entry :=
    readInputRevision_sameDuties read
  unfold admitRequest
  split
  · exact paceRequest_pacedTo
  · generalize readInputRevision options entry read = result at hread
    obtain ⟨_, revision | revision⟩ := result
    · exact ⟨nofun, fun _ => ⟨(arm_running _ _).trans hread.running,
        (arm_revision _ _).trans hread.revision, arm_paced rfl⟩⟩
    · refine paceRequest_pacedTo.of_sameDuties ?_
      split
      · exact ⟨hread.revision, hread.running, hread.timer⟩
      · exact hread

end Pure

/-! ## Transitions -/

namespace TaskControlDriver

variable (options : TaskControlDriverOptions) (s : TaskControlDriver)

def entryFor (taskID : String) : Option Entry :=
  (s.entries.lookup taskID).bind fun entry => s.heap[entry]?

structure Located (taskID : String) (entry : ℕ) (found : Entry) : Prop where
  live : s.disposed = false
  mapped : s.entries.lookup taskID = some entry
  stored : s.heap[entry]? = some found

/-- After a request its Task runs or has a timer, or the request was the last thing to be refused. -/
def Answered (taskID : String) : Prop :=
  s.disposed = true ∨
  (∃ current, s.entryFor taskID = some current ∧ (current.running = true ∨ current.timer.isSome = true)) ∨
  ∃ events, s.events = .unadmitted taskID :: events

/-- The transitions that leave the queue alone, but for new owners at its end. -/
inductive Quiet : TaskControlDriver → Prop where
  /-- The entry of a Task is created. -/
  | create (taskID : String) (live : s.disposed = false) (fresh : s.entries.lookup taskID = none) :
      Quiet { s with
        heap := s.heap ++ [.created], entries := s.entries ++ [(taskID, s.heap.length)] }
  /-- A request finds an owner. -/
  | coalesce (taskID : String) (entry : ℕ) (found : Entry) (located : s.Located taskID entry found)
      (running : found.running = true) :
      Quiet ((s.store entry { found with revision := found.revision + 1 }).record (.accepted taskID true))
  /-- A request is paced by a timer. -/
  | pace (taskID : String) (entry : ℕ) (found current : Entry) (timer : WakeTimer)
      (located : s.Located taskID entry found) (running : current.running = found.running)
      (revision : current.revision = found.revision + 1) (armed : current.timer = some timer)
      (own : timer.taskID = taskID) (soon : timer.Soon options) (idle : found.running = false) :
      Quiet ((s.store entry current).record (.accepted taskID false))
  /-- An owner takes a free slot. -/
  | enroll (taskID : String) (propagateFailure : Bool) (entry : ℕ) (found current : Entry)
      (located : s.Located taskID entry found) (idle : found.running = false)
      (timer : current.timer = found.timer) (free : s.activeScans < options.maximumConcurrentScans) :
      Quiet { s.store entry { current with running := true } with
        activeScans := s.activeScans + 1
        owners := s.owners ++ [⟨taskID, entry, propagateFailure, .granted⟩]
        events := .accepted taskID true :: s.events }
  /-- An owner waits for a slot. -/
  | enqueue (taskID : String) (propagateFailure : Bool) (entry : ℕ) (found current : Entry)
      (located : s.Located taskID entry found) (idle : found.running = false)
      (timer : current.timer = found.timer)
      (saturated : options.maximumConcurrentScans ≤ s.activeScans)
      (room : s.scanWaiters.length < options.maximumPendingScans) :
      Quiet { s.store entry { current with running := true } with
        scanWaiters := s.scanWaiters ++ [s.owners.length]
        owners := s.owners ++ [⟨taskID, entry, propagateFailure, .queued⟩]
        events := .accepted taskID true :: s.events }
  /-- A request is rejected for capacity while a timer is armed. -/
  | rejectArmed (taskID : String) (entry : ℕ) (found current : Entry)
      (located : s.Located taskID entry found) (idle : found.running = false)
      (timer : current.timer = found.timer) (armed : found.timer ≠ none) :
      Quiet (s.store entry { current with running := false })
  /-- A request is rejected for capacity while no timer is armed. -/
  | rejectUnarmed (taskID : String) (entry : ℕ) (found current : Entry)
      (located : s.Located taskID entry found) (idle : found.running = false)
      (timer : current.timer = found.timer) (unarmed : found.timer = none) :
      Quiet (((s.store entry { current with running := false }).retire options taskID current).record
        (.unadmitted taskID))
  /-- An owner leaves a stretch of `own`. -/
  | leave (i : ℕ) (owner : Owner) (found : Entry) (result : Entry × PassEnd)
      (called : s.owners[i]? = some owner) (inLoop : owner.phase.inLoop = true)
      (stored : s.heap[owner.entry]? = some found)
      (left : found.LeftBy (∃ pass own, owner.phase = .scanning pass found.revision own)
        (owner.phase.turn options) result) :
      Quiet (s.leavePass options i owner result)
  /-- A refused owner ends. -/
  | refused (i : ℕ) (owner : Owner) (found : Entry) (called : s.owners[i]? = some owner)
      (refused : owner.phase = .refused) (stored : s.heap[owner.entry]? = some found) :
      Quiet (((s.store owner.entry { found with running := false }).retire options owner.taskID
        { found with running := false }).move i owner .ended)
  /-- A timer fires. -/
  | fire (entry : ℕ) (found : Entry) (timer : WakeTimer) (stored : s.heap[entry]? = some found)
      (armed : found.timer = some timer) :
      Quiet { s.store entry { found with timer := none } with
        reentries := s.reentries ++ [⟨timer.taskID, entry, false⟩] }
  /-- A re-entry has made its request. -/
  | requested (k : ℕ) (reentry : Reentry) (entered : s.reentries[k]? = some reentry)
      (answered : s.Answered reentry.taskID) :
      Quiet { s with reentries := s.reentries.set k { reentry with requested := true } }
  /-- A re-entry ends. -/
  | endReentry (k : ℕ) (reentry : Reentry) (entered : s.reentries[k]? = some reentry) :
      Quiet (endReentry s k reentry)
  /-- A re-entry faults, and the timer is armed again. -/
  | rearm (k : ℕ) (reentry : Reentry) (found current : Entry) (timer : WakeTimer)
      (entered : s.reentries[k]? = some reentry)
      (located : s.Located reentry.taskID reentry.entry found)
      (running : current.running = found.running) (revision : current.revision = found.revision)
      (armed : current.timer = some timer) (own : timer.taskID = reentry.taskID)
      (soon : timer.Soon options) :
      Quiet { s.store reentry.entry current with reentries := s.reentries.eraseIdx k }
  /-- The clock reads another instant. -/
  | tick (now : ℤ) : Quiet { s with clock := now }

end TaskControlDriver

/-! ## Actions are transitions -/

section Actions

open TaskControlDriver

variable {options : TaskControlDriverOptions} {s s' : TaskControlDriver}

lemma endReentry_eq (s : TaskControlDriver) (k : ℕ) (reentry : Reentry) : ∃ events, endReentry s k reentry =
      { s with reentries := s.reentries.eraseIdx k, events := events } := by
  unfold endReentry
  simp only
  split
  · exact ⟨s.events, rfl⟩
  · exact ⟨.dropped reentry.taskID :: s.events, rfl⟩

lemma located_entryOf (hlive : s.disposed = false)
    (hrefs : ∀ taskID entry, s.entries.lookup taskID = some entry → entry < s.heap.length)
    (taskID : String) : ReflTransGen (Quiet options) s (s.entryOf taskID).2 ∧
      ∃ found, (s.entryOf taskID).2.Located taskID (s.entryOf taskID).1 found := by
  unfold entryOf
  split
  next entry hmapped =>
    have hstored : entry < s.heap.length := hrefs taskID entry hmapped
    exact ⟨.refl, s.heap[entry], hlive, hmapped, List.getElem?_eq_getElem hstored⟩
  next hfresh =>
    refine ⟨.single (.create taskID hlive hfresh), .created, hlive, ?_, ?_⟩
    · simp [List.lookup_append, hfresh]
    · simp

variable {taskID : String} {propagateFailure : Bool} {entry i : ℕ} {found current : Entry}
  {read : InputRead}

/-- Asking for a slot. -/
lemma quiet_startOwner (hlocated : s.Located taskID entry found) (hidle : found.running = false)
    (htimer : current.timer = found.timer) : ReflTransGen (Quiet options) s
      (s.startOwner options taskID propagateFailure entry current read).1 := by
  have hentry : entry < s.heap.length := (List.getElem?_eq_some_iff.mp hlocated.stored).1
  unfold startOwner
  split
  next hfree =>
    refine .tail (.single (.enroll taskID propagateFailure entry found current hlocated hidle htimer hfree)) ?_
    refine .leave s.owners.length _ { current with running := true } _ ?_ rfl ?_ (beginPass_leftBy ..)
    · simp
    · simp [store, hentry]
  next hfull =>
    split
    next hcrowded =>
      by_cases harmed : current.timer = none
      · simp only [if_pos harmed]
        exact .single (.rejectUnarmed taskID entry found current hlocated hidle htimer (htimer ▸ harmed))
      · simp only [harmed, if_false, retire, and_false]
        exact .single (.rejectArmed taskID entry found current hlocated hidle htimer (htimer ▸ harmed))
    next hroom =>
      exact .single (.enqueue taskID propagateFailure entry found current hlocated hidle htimer
        (Nat.le_of_not_lt hfull) (Nat.lt_of_not_le hroom))

lemma quiet_requestEntry {firstRead : InputRead} (hlocated : s.Located taskID entry found) :
    ReflTransGen (Quiet options) s
      (s.requestEntry options taskID propagateFailure entry found read firstRead).1 := by
  unfold requestEntry
  simp only
  split
  next hrunning => exact .single (.coalesce taskID entry found hlocated hrunning)
  next hidle =>
    have hidle' : found.running = false := by simpa using hidle
    have hpaced : Entry.PacedTo options { found with revision := found.revision + 1 } taskID
        (admitRequest options s.clock { found with revision := found.revision + 1 } taskID read) :=
      admitRequest_pacedTo read
    generalize admitRequest options s.clock { found with revision := found.revision + 1 } taskID read =
      result at hpaced
    obtain ⟨current, pacing⟩ := result
    cases pacing with
    | clear => exact quiet_startOwner hlocated hidle' (hpaced.clear rfl).timer
    | paced | unreadable =>
      obtain ⟨hrunning, hrevision, timer, harmed, hown, hsoon⟩ := hpaced.paced nofun
      exact .single (.pace taskID entry found current timer hlocated hrunning hrevision harmed hown hsoon hidle')

lemma quiet_startRequest (hrefs : ∀ taskID entry, s.entries.lookup taskID = some entry → entry < s.heap.length)
    (taskID : String) (propagateFailure : Bool) (read firstRead : InputRead) :
    ReflTransGen (Quiet options) s
      (s.startRequest options taskID propagateFailure read firstRead).1 := by
  unfold startRequest
  split
  · exact .refl
  next hlive =>
    have hentryOf : ReflTransGen (Quiet options) s (s.entryOf taskID).2 ∧
        ∃ found, (s.entryOf taskID).2.Located taskID (s.entryOf taskID).1 found :=
      located_entryOf (by simpa using hlive) hrefs taskID
    obtain ⟨hcreated, _, hlocated⟩ := hentryOf
    simp only [hlocated.stored]
    exact hcreated.trans (quiet_requestEntry hlocated)

@[simp] lemma leavePass_reentries (i : ℕ) (owner : Owner) (result : Entry × PassEnd) :
    (s.leavePass options i owner result).reentries = s.reentries := by
  obtain ⟨_, _ | _⟩ := result
  · rfl
  · simp only [leavePass, record, move, retire]
    split <;> rfl

lemma startRequest_reentries (taskID : String) (propagateFailure : Bool) (read firstRead : InputRead) :
    (s.startRequest options taskID propagateFailure read firstRead).1.reentries = s.reentries := by
  have hentryOf : (s.entryOf taskID).2.reentries = s.reentries := by
    unfold entryOf
    split <;> rfl
  have howner : ∀ (t : TaskControlDriver) entry current, (t.startOwner options taskID propagateFailure
      entry current firstRead).1.reentries = t.reentries := by
    intro t entry current
    unfold startOwner
    split
    · exact leavePass_reentries ..
    · split
      · simp only [retire]
        split <;> split <;> rfl
      · rfl
  unfold startRequest
  split
  · rfl
  · simp only
    split
    next found hstored =>
      rw [← hentryOf]
      unfold requestEntry
      simp only
      split
      · rfl
      · split
        · rfl
        · rfl
        · exact howner ..
    · exact hentryOf

lemma answered_of_located {t : TaskControlDriver} (h : s.Located taskID entry found)
    (hheap : t.heap = s.heap.set entry current) (hentries : t.entries = s.entries)
    (hduty : current.running = true ∨ current.timer.isSome = true) :
    t.Answered taskID := by
  have hlt : entry < s.heap.length := (List.getElem?_eq_some_iff.mp h.stored).1
  refine .inr (.inl ⟨current, ?_, hduty⟩)
  unfold entryFor
  rw [hentries, h.mapped, hheap]
  exact List.getElem?_set_self hlt

/-- The first stretch of `own` scans, or stops with a timer. -/
lemma leavePass_answered {owner : Owner} {turn : ℕ → Prop} {result : Entry × PassEnd}
    (hlocated : s.Located taskID entry found) (htask : owner.taskID = taskID) (hentry : owner.entry = entry)
    (hleft : found.LeftBy False turn result) (hrunning : found.running = true) :
    (s.leavePass options i owner result).Answered taskID := by
  subst htask hentry
  obtain ⟨current, passEnd⟩ := result
  cases passEnd with
  | scanning =>
    exact answered_of_located hlocated rfl rfl (.inl (hleft.duties.running.trans hrunning))
  | stopped own =>
    have hsome : own.wakeInstants ≠ [] := hleft.stopped own rfl
    obtain ⟨wakeAt, hwakeAt⟩ := ne_none_iff_exists'.mp (mt List.min?_eq_none_iff.mp hsome)
    have harmed : (arm options s.clock { current with running := false } s.disposed owner.taskID
        own.wakeInstants.min?).timer.isSome = true := by
      rw [hlocated.live, hwakeAt]
      exact arm_isSome wakeAt
    simp only [leavePass]
    generalize arm options s.clock { current with running := false } s.disposed owner.taskID
      own.wakeInstants.min? = stopped at harmed ⊢
    have hkept : (s.store owner.entry stopped).retire options owner.taskID stopped =
        s.store owner.entry stopped := by
      simp [retire, isSome_iff_ne_none.mp harmed]
    rw [hkept]
    exact answered_of_located hlocated rfl rfl (.inr harmed)

lemma startOwner_answered (hlocated : s.Located taskID entry found) :
    (s.startOwner options taskID propagateFailure entry current read).1.Answered taskID := by
  unfold startOwner
  split
  · have hleft : Entry.LeftBy { current with running := true } False (fun next => next = 0)
        (beginPass options s.clock { current with running := true } propagateFailure 0 ⟨0, [], false⟩
          read) := beginPass_leftBy ..
    have hstarted : Located { s.store entry { current with running := true } with
        activeScans := s.activeScans + 1
        owners := s.owners ++ [⟨taskID, entry, propagateFailure, .granted⟩]
        events := .accepted taskID true :: s.events } taskID entry { current with running := true } :=
      ⟨hlocated.live, hlocated.mapped, List.getElem?_set_self (List.getElem?_eq_some_iff.mp hlocated.stored).1⟩
    exact leavePass_answered hstarted rfl rfl hleft rfl
  · split
    · split
      next hunarmed => exact .inr (.inr ⟨_, rfl⟩)
      next harmed =>
        have hkept : (s.store entry { current with running := false }).retire options taskID current =
            s.store entry { current with running := false } := by
          simp [retire, harmed]
        simp only [hkept]
        exact answered_of_located hlocated rfl rfl (.inr (isSome_iff_ne_none.mpr harmed))
    · exact answered_of_located hlocated rfl rfl (.inl rfl)

lemma startRequest_answered (hrefs : ∀ taskID entry, s.entries.lookup taskID = some entry → entry < s.heap.length)
    (taskID : String) (propagateFailure : Bool) (read firstRead : InputRead) :
    (s.startRequest options taskID propagateFailure read firstRead).1.Answered taskID := by
  unfold startRequest
  split
  next hdisposed => exact .inl hdisposed
  next hlive =>
    have hentryOf : ReflTransGen (Quiet options) s (s.entryOf taskID).2 ∧
        ∃ found, (s.entryOf taskID).2.Located taskID (s.entryOf taskID).1 found :=
      located_entryOf (by simpa using hlive) hrefs taskID
    obtain ⟨-, found, hlocated⟩ := hentryOf
    simp only [hlocated.stored]
    unfold requestEntry
    simp only
    split
    next hrunning => exact answered_of_located hlocated rfl rfl (.inl hrunning)
    next hidle =>
      have hpaced : Entry.PacedTo options { found with revision := found.revision + 1 } taskID
          (admitRequest options (s.entryOf taskID).2.clock { found with revision := found.revision + 1 }
            taskID read) := admitRequest_pacedTo read
      generalize admitRequest options (s.entryOf taskID).2.clock
        { found with revision := found.revision + 1 } taskID read = result at hpaced
      obtain ⟨_, pacing⟩ := result
      cases pacing with
      | clear => exact startOwner_answered hlocated
      | paced | unreadable =>
        obtain ⟨-, -, timer, harmed, -⟩ := hpaced.paced nofun
        exact answered_of_located hlocated rfl rfl (.inr (isSome_iff_exists.mpr ⟨timer, harmed⟩))

/-- An owner leaves a stretch of `own`. -/
structure Leaves (options : TaskControlDriverOptions) (s : TaskControlDriver) (i : ℕ) (owner : Owner)
    (found : Entry) (result : Entry × PassEnd) : Prop where
  called : s.owners[i]? = some owner
  inLoop : owner.phase.inLoop = true
  stored : s.heap[owner.entry]? = some found
  left : found.LeftBy (∃ pass own, owner.phase = .scanning pass found.revision own)
    (owner.phase.turn options) result

lemma settle_leaves {outcome : ScanOutcome} {nextRead : InputRead}
    (h : driverStep options s (.settle i outcome read nextRead) = some s') :
    ∃ owner found result, Leaves options s i owner found result ∧
      s' = s.leavePass options i owner result := by
  obtain ⟨owner, hcalled, hrest⟩ := bind_eq_some_iff.mp h
  obtain ⟨found, hstored, hsettled⟩ := bind_eq_some_iff.mp hrest
  unfold settleScan at hsettled
  split at hsettled
  next pass observed own hphase =>
    cases hsettled
    refine ⟨owner, found, _, ⟨hcalled, by rw [hphase]; rfl, hstored, ?_⟩, rfl⟩
    refine (settlePass_leftBy ..).imp ?_ ?_
    · rintro rfl
      exact ⟨pass, own, hphase⟩
    · intro next hturn
      rw [hphase]
      exact hturn
  · cases hsettled

lemma resume_leaves {firstRead : InputRead} (h : driverStep options s (.resume i firstRead) = some s') :
    (∃ owner found result, Leaves options s i owner found result ∧ s' = s.leavePass options i owner result) ∨
    ∃ owner found, s.owners[i]? = some owner ∧ owner.phase = .refused ∧
      s.heap[owner.entry]? = some found ∧
      s' = ((s.store owner.entry { found with running := false }).retire options owner.taskID
        { found with running := false }).move i owner .ended := by
  obtain ⟨owner, hcalled, hrest⟩ := bind_eq_some_iff.mp h
  obtain ⟨found, hstored, hresumed⟩ := bind_eq_some_iff.mp hrest
  unfold resumeOwner at hresumed
  split at hresumed
  next hphase =>
    cases hresumed
    refine .inl ⟨owner, found, _, ⟨hcalled, by rw [hphase]; rfl, hstored, ?_⟩, rfl⟩
    rw [hphase]
    exact beginPass_leftBy ..
  next hphase =>
    cases hresumed
    exact .inr ⟨owner, found, hcalled, hphase, hstored, rfl⟩
  · cases hresumed

theorem step_cases {action : DriverAction}
    (hrefs : ∀ taskID entry, s.entries.lookup taskID = some entry → entry < s.heap.length)
    (h : driverStep options s action = some s') :
    ((∀ i, action ≠ .release i) ∧ action ≠ .dispose ∧ ReflTransGen (Quiet options) s s') ∨
      (∃ i owner own, action = .release i ∧ s.owners[i]? = some owner ∧ owner.phase = .settled own ∧
        s' = (s.move i owner .ended).releaseScanSlot) ∨
      action = .dispose ∧ s' = s.dispose := by
  cases action with
  | request taskID propagateFailure read firstRead =>
    cases h
    exact .inl ⟨nofun, nofun, quiet_startRequest hrefs taskID propagateFailure read firstRead⟩
  | settle i =>
    obtain ⟨owner, found, result, hleaves, rfl⟩ := settle_leaves h
    exact .inl ⟨nofun, nofun, .single (.leave i owner found result hleaves.called hleaves.inLoop
      hleaves.stored hleaves.left)⟩
  | release i =>
    obtain ⟨owner, hcalled, hrest⟩ := bind_eq_some_iff.mp h
    split at hrest
    next own hphase =>
      cases hrest
      exact .inr (.inl ⟨i, owner, own, rfl, hcalled, hphase, rfl⟩)
    · cases hrest
  | resume i =>
    refine .inl ⟨nofun, nofun, .single ?_⟩
    obtain ⟨owner, found, result, hleaves, rfl⟩ | ⟨owner, found, hcalled, hphase, hstored, rfl⟩ :=
      resume_leaves h
    · exact .leave i owner found result hleaves.called hleaves.inLoop hleaves.stored hleaves.left
    · exact .refused i owner found hcalled hphase hstored
  | fire entry =>
    obtain ⟨found, hstored, hfired⟩ := bind_eq_some_iff.mp h
    obtain ⟨timer, harmed, hs'⟩ := map_eq_some_iff.mp hfired
    subst hs'
    exact .inl ⟨nofun, nofun, .single (.fire entry found timer hstored harmed)⟩
  | reenter k read firstRead =>
    obtain ⟨reentry, _, hrest⟩ := bind_eq_some_iff.mp h
    split at hrest
    · cases hrest
    · cases hrest
      refine .inl ⟨nofun, nofun, .tail (quiet_startRequest hrefs reentry.taskID false read firstRead)
        (.requested k reentry ?_ (startRequest_answered hrefs ..))⟩
      rwa [startRequest_reentries]
  | endReentry k =>
    obtain ⟨reentry, hentered, hs'⟩ := map_eq_some_iff.mp h
    subst hs'
    exact .inl ⟨nofun, nofun, .single (.endReentry k reentry hentered)⟩
  | failReentry k =>
    obtain ⟨reentry, hentered, hs'⟩ := map_eq_some_iff.mp h
    subst hs'
    refine .inl ⟨nofun, nofun, .single ?_⟩
    unfold failReentry
    split
    next found hlive hmapped hstored =>
      have hpaced : ∃ timer, (arm options s.clock (penalize options s.clock found []).1 false
          reentry.taskID (some (penalize options s.clock found []).2)).timer = some timer ∧
          timer.taskID = reentry.taskID ∧ timer.Soon options := arm_paced rfl
      obtain ⟨timer, harmed, hown, hsoon⟩ := hpaced
      refine .rearm k reentry found _ timer hentered ⟨hlive, by simpa using hmapped, hstored⟩ ?_ ?_ ?_
        hown hsoon
      · exact arm_running _ _
      · exact arm_revision _ _
      · rw [hlive]
        exact harmed
    · exact .endReentry k reentry hentered
  | dispose =>
    cases h
    exact .inr (.inr ⟨rfl, rfl⟩)
  | tick now =>
    cases h
    exact .inl ⟨nofun, nofun, .single (.tick now)⟩

end Actions

end OpenCorvus.Engine
