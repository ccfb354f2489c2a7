import OpenCorvus.LLM.Activity

/-!
# The invariant of an activity

The protocol of an activity as a property of its states, the condition on its steps, and the invariant that these
keep: the clock of the deadline, the idle monitors, the heartbeats and the pauses.  The timers stay within the pauses
because the depth of the idle monitor of the attempt in progress is the number of the shared owners of pauses.
-/

namespace OpenCorvus.LLM

open List Option ActivityState StreamActivityMonitor

/-! ## What is told -/

def LLMActivityEvent.isStarted : LLMActivityEvent → Bool
  | .started .. => true
  | _ => false

def LLMActivityEvent.isTerminal : LLMActivityEvent → Bool
  | .terminal .. => true
  | _ => false

def LLMActivityEvent.outcome? : LLMActivityEvent → Option Outcome
  | .terminal _ outcome _ _ _ => some outcome
  | _ => none

def LLMActivityEvent.retry? : LLMActivityEvent → Option RetryEvent
  | .retry event => some event
  | _ => none

def retries (events : List LLMActivityEvent) : List RetryEvent :=
  events.filterMap LLMActivityEvent.retry?

/-- The runner has returned or thrown. -/
def Phase.isSettled {τ : Type} : Phase τ → Bool
  | .settled _ => true
  | _ => false

structure Telling (activity : LLMActivity) (count : ℕ) (events : List LLMActivityEvent) : Prop where
  started : ∃ event rest, events = event :: rest ∧ event.isStarted = true ∧ ∀ other ∈ rest, other.isStarted = false
  numbered : (retries events).map RetryEvent.attempt = List.range' 1 count
  capped : ∀ event ∈ retries events, event.attempt ≤ activity.policy.cap event.cls event.lastHeartbeat

/-- No end was told. -/
def Unended (events : List LLMActivityEvent) : Prop := ∀ event ∈ events, event.isTerminal = false

def heldBack {τ : Type} (s : ActivityState τ) : List ActivityTimer :=
  [.total, .idle s.attempt, .pause s.attempt]

structure ActivityLaw {τ : Type} (activity : LLMActivity) (s : ActivityState τ) : Prop where
  /-- The start comes first and once; the retries are numbered and within their caps. -/
  told : ∃ count, Telling activity count s.events
  /-- An activity that goes on has told no end. -/
  unended : s.phase.isSettled = false → Unended s.events
  /-- One that has returned or thrown has told one end, and told it last; the end reports an abort when the
  caller aborted the activity before. -/
  ended : s.phase.isSettled = true → ∃ front last outcome, s.events = front ++ [last] ∧ Unended front ∧
    last.outcome? = some outcome ∧ (s.external.isSome → outcome = .aborted)
  /-- While an owner holds a pause, none of the timers fires before the pauses have lasted `maxPauseMs`. -/
  paused : s.pauseOwners ≠ [] → ∀ timer ∈ heldBack s, (s.fire activity timer).isSome →
    ∃ since, s.pausedStartedAt = some since ∧ since + activity.policy.maxPauseMs ≤ s.now

def Unmonitored {τ : Type} (s : ActivityState τ) : Prop :=
  ∀ attempt ∈ s.attempts[s.attempt]?, attempt.monitor = none

/-- The step begins no idle monitor under a pause, changes the pauses of an attempt with an idle monitor only
through its own run object, and is no failure of the hook before a retry after an external abort. -/
def Orderly {τ : Type} (s : ActivityState τ) : ActivityAction τ → Prop
  | .bump index _ =>
    index = s.attempt → s.terminalEmitted = false →
      (∀ attempt ∈ s.attempts[index]?, attempt.firstByteSeen = false) → s.pauseOwners = []
  | .pause index owner =>
    s.terminalEmitted = false → owner ∉ s.pauseOwners → index = s.attempt ∨ Unmonitored s
  | .resume index owner =>
    s.terminalEmitted = false → owner ∈ s.pauseOwners → index = s.attempt ∨ Unmonitored s
  | .beforeRetryThrows _ => s.external = none
  | _ => True

variable {τ : Type} {activity : LLMActivity} {s s' : ActivityState τ}

/-! ## Events -/

section Events

variable {count : ℕ} {events : List LLMActivityEvent} {event : LLMActivityEvent}

lemma Telling.tell (h : Telling activity count events) (hstarted : event.isStarted = false)
    (hretry : event.retry? = none) : Telling activity count (events ++ [event]) := by
  have hretries : retries (events ++ [event]) = retries events := by
    simp [retries, hretry]
  obtain ⟨first, rest, rfl, hfirst, hrest⟩ := h.started
  refine ⟨⟨first, rest ++ [event], rfl, hfirst, fun other hother => ?_⟩, ?_, ?_⟩
  · rcases mem_append.mp hother with hold | hnew
    · exact hrest other hold
    · rw [mem_singleton.mp hnew]
      exact hstarted
  · rw [hretries]
    exact h.numbered
  · rw [hretries]
    exact h.capped

lemma Telling.tellRetry (h : Telling activity count events) {event : RetryEvent}
    (hattempt : event.attempt = count + 1)
    (hcap : event.attempt ≤ activity.policy.cap event.cls event.lastHeartbeat) :
    Telling activity (count + 1) (events ++ [.retry event]) := by
  have hretries : retries (events ++ [.retry event]) = retries events ++ [event] := by
    simp [retries, LLMActivityEvent.retry?]
  obtain ⟨first, rest, rfl, hfirst, hrest⟩ := h.started
  refine ⟨⟨first, rest ++ [.retry event], rfl, hfirst, fun other hother => ?_⟩, ?_, ?_⟩
  · rcases mem_append.mp hother with hold | hnew
    · exact hrest other hold
    · rw [mem_singleton.mp hnew]
      rfl
  · rw [hretries, map_append, h.numbered, range'_concat, map_singleton, hattempt,
      Nat.one_mul, Nat.add_comm 1 count]
  · rw [hretries]
    intro other hother
    rcases mem_append.mp hother with hold | hnew
    · exact h.capped other hold
    · rw [mem_singleton.mp hnew]
      exact hcap

lemma Unended.tell (h : Unended events) (hevent : event.isTerminal = false) : Unended (events ++ [event]) := by
  intro other hother
  rcases mem_append.mp hother with hold | hnew
  · exact h other hold
  · rw [mem_singleton.mp hnew]
    exact hevent

end Events

/-! ## The clock of the deadline -/

lemma due_eq_true {timer : Option ℕ} {now : ℕ} : due timer now = true ↔ ∃ at_ ∈ timer, at_ ≤ now := by
  cases timer <;> simp [due]

/-- What holds of the variables of the deadline: the pauses are counted, the timer is never early, and a
deadline that has passed stays passed. -/
structure Clocked (activity : LLMActivity) (s : ActivityState τ) : Prop where
  paused : s.pausedStartedAt.isSome ↔ s.pauseOwners ≠ []
  since : ∀ since ∈ s.pausedStartedAt, s.startedAt + s.pausedTotalMs ≤ since ∧ since ≤ s.now
  counted : s.startedAt + s.pausedTotalMs ≤ s.now
  armed : ∀ at_ ∈ s.totalTimer, s.pauseOwners = [] ∧ s.startedAt + s.pausedTotalMs + activity.policy.totalMs ≤ at_
  spent : s.total.isSome → s.remainingTotalMs activity = 0

namespace Clocked

lemma remainingTotalMs_countPause (activity : LLMActivity) (s : ActivityState τ) :
    s.countPause.remainingTotalMs activity = s.remainingTotalMs activity := by
  unfold countPause
  cases hsince : s.pausedStartedAt with
  | none => rfl
  | some =>
    simp only [remainingTotalMs, activeElapsedMs, hsince, map_some,
      map_none, getD_some, getD_none]
    omega

/-- Time leaves no more time than there was. -/
lemma remainingTotalMs_wait (activity : LLMActivity) (s : ActivityState τ) (ms : ℕ) :
    { s with now := s.now + ms }.remainingTotalMs activity ≤ s.remainingTotalMs activity := by
  simp only [remainingTotalMs, activeElapsedMs]
  cases s.pausedStartedAt with
  | none =>
    simp only [map_none, getD_none]
    omega
  | some =>
    simp only [map_some, getD_some]
    omega

lemma wait (h : Clocked activity s) (ms : ℕ) : Clocked activity { s with now := s.now + ms } where
  paused := h.paused
  since since hsince := ⟨(h.since since hsince).1, Nat.le_add_right_of_le (h.since since hsince).2⟩
  counted := Nat.le_add_right_of_le h.counted
  armed := h.armed
  spent htotal := Nat.le_zero.mp ((remainingTotalMs_wait activity s ms).trans_eq (h.spent htotal))

/-- The deadline may pass when no time is left. -/
lemma abortTotal (h : Clocked activity s) (hremaining : s.remainingTotalMs activity = 0) :
    Clocked activity (s.abortTotal activity) := by
  unfold ActivityState.abortTotal
  split
  · exact h
  · exact ⟨h.paused, h.since, h.counted, h.armed, fun _ => hremaining⟩

lemma armTotalTimer (h : Clocked activity { s with totalTimer := none }) :
    Clocked activity (s.armTotalTimer activity) := by
  unfold ActivityState.armTotalTimer
  split_ifs with hidle hremaining
  · exact h
  · exact h.abortTotal hremaining
  · rw [not_or, not_not] at hidle
    refine ⟨h.paused, h.since, h.counted, fun at_ hat => ?_, h.spent⟩
    obtain rfl := some.inj hat
    refine ⟨hidle.2, ?_⟩
    have hnone : s.pausedStartedAt = none := by
      have hpaused := h.paused
      rw [← not_isSome_iff_eq_none]
      exact fun hsome => hpaused.mp hsome hidle.2
    have hcounted : s.startedAt + s.pausedTotalMs ≤ s.now := h.counted
    simp only [ActivityState.remainingTotalMs, ActivityState.activeElapsedMs, hnone, map_none,
      getD_none]
    omega

lemma beginPause (h : Clocked activity s) (owner : String) : Clocked activity (s.beginPause owner) := by
  unfold ActivityState.beginPause
  dsimp only
  have howned : s.pauseOwners ++ [owner] ≠ [] := by simp
  split_ifs with hfirst
  · have hsome : s.pauseOwners ≠ [] := by
      rintro hnil
      rw [hnil] at hfirst
      exact hfirst rfl
    exact ⟨⟨fun _ => howned, fun _ => h.paused.mpr hsome⟩, h.since, h.counted,
      fun at_ hat => absurd (h.armed at_ hat).1 hsome, h.spent⟩
  · have hnil : s.pauseOwners = [] := by
      simpa using hfirst
    have hnone : s.pausedStartedAt = none := by
      rw [← not_isSome_iff_eq_none]
      exact fun hsome => h.paused.mp hsome hnil
    refine ⟨⟨fun _ => howned, fun _ => rfl⟩, fun since hsince => ?_, h.counted,
      fun _ hat => (nomatch hat), fun htotal => ?_⟩
    · obtain rfl := some.inj hsince
      exact ⟨h.counted, le_refl _⟩
    · have hspent := h.spent htotal
      simp only [ActivityState.remainingTotalMs, ActivityState.activeElapsedMs, hnone, map_none,
        getD_none, map_some, getD_some] at hspent ⊢
      omega

lemma countPause (h : Clocked activity s) :
    Clocked activity { s.countPause with pauseOwners := [], totalTimer := none } := by
  have hremaining := remainingTotalMs_countPause activity s
  unfold ActivityState.countPause at hremaining ⊢
  cases hsince : s.pausedStartedAt with
  | none =>
    exact ⟨by simp [hsince], fun since hmem => absurd hmem (by simp [hsince]), h.counted,
      fun _ hat => (nomatch hat), h.spent⟩
  | some since =>
    obtain ⟨_, _⟩ := h.since since hsince
    rw [hsince] at hremaining
    refine ⟨by simp, fun _ hmem => (nomatch hmem), ?_, fun _ hat => (nomatch hat), fun htotal => ?_⟩
    · dsimp only
      omega
    · exact hremaining.trans (h.spent htotal)

lemma endPause (h : Clocked activity s) {owner : String} (howner : owner ∈ s.pauseOwners) :
    Clocked activity (s.endPause activity owner) := by
  unfold ActivityState.endPause
  dsimp only
  split_ifs with hlast
  · have hsome : s.pauseOwners ≠ [] := ne_nil_of_mem howner
    exact ⟨⟨fun _ => hlast, fun _ => h.paused.mpr hsome⟩, h.since, h.counted,
      fun at_ hat => absurd (h.armed at_ hat).1 hsome, h.spent⟩
  · refine armTotalTimer ?_
    have hnil : s.pauseOwners.erase owner = [] := not_not.mp hlast
    have hcounted := h.countPause
    unfold ActivityState.countPause at hcounted ⊢
    cases hsince : s.pausedStartedAt <;> simp only [hsince, hnil] at hcounted ⊢ <;> exact hcounted

lemma closePauseWindow (h : Clocked activity s) : Clocked activity (s.closePauseWindow activity) := by
  unfold ActivityState.closePauseWindow
  split_ifs with hnil
  · exact h
  · exact armTotalTimer h.countPause

end Clocked

/-! ## The idle monitor -/

/-- What holds of an idle monitor under `depth` pauses, which last since `since`. -/
structure MonitorInv (activity : LLMActivity) (monitor : StreamActivityMonitor) (depth : ℕ)
    (since : Option ℕ) : Prop where
  live : monitor.disposed = false
  limit : monitor.options.maxPauseMs = some activity.policy.maxPauseMs
  depth_eq : monitor.pauseDepth = depth
  unpaused : depth = 0 → monitor.pauseTimer = none
  idle : 0 < depth → monitor.timer = none
  bounded : ∀ at_ ∈ monitor.pauseTimer, ∀ start ∈ since, start + activity.policy.maxPauseMs ≤ at_

namespace MonitorInv

variable {monitor : StreamActivityMonitor} {depth now : ℕ} {since : Option ℕ}

lemma of_new (h : withStreamActivity ⟨activity.policy.idleMs, some activity.policy.maxPauseMs⟩ now = some monitor) :
    MonitorInv activity monitor 0 none := by
  unfold withStreamActivity at h
  split_ifs at h
  obtain rfl := some.inj h
  exact ⟨rfl, rfl, rfl, fun _ => rfl, fun hpos => absurd hpos (lt_irrefl 0), fun _ hat => (nomatch hat)⟩

lemma observe (h : MonitorInv activity monitor depth since) (hnow : ∀ start ∈ since, start ≤ now) :
    MonitorInv activity (monitor.observe now) depth since := by
  unfold StreamActivityMonitor.observe
  rw [if_neg (by simp [h.live])]
  split_ifs with hpaused
  · have hdepth : monitor.pauseDepth ≠ 0 := by omega
    have hlive : ({ monitor with last := now } : StreamActivityMonitor).disposed = false := h.live
    rw [StreamActivityMonitor.schedulePause_eq hlive h.limit hdepth]
    refine ⟨h.live, h.limit, h.depth_eq, fun hzero => absurd (h.depth_eq.trans hzero) hdepth, h.idle,
      fun at_ hat start hstart => ?_⟩
    obtain rfl := some.inj hat
    exact Nat.add_le_add_right (hnow start hstart) _
  · have hdepth : depth = 0 := by
      rw [← h.depth_eq]
      omega
    have hlive : ({ monitor with last := now } : StreamActivityMonitor).disposed = false := h.live
    rw [StreamActivityMonitor.schedule_eq hlive (h.depth_eq.trans hdepth)]
    exact ⟨h.live, h.limit, h.depth_eq, h.unpaused, fun hpos => absurd hdepth (by omega), h.bounded⟩

lemma pause (h : MonitorInv activity monitor depth since) :
    MonitorInv activity (monitor.pause now) (depth + 1) (if depth = 0 then some now else since) := by
  unfold StreamActivityMonitor.pause
  rw [if_neg (by simp [h.live])]
  by_cases hzero : depth = 0
  · have hfirst : monitor.pauseDepth + 1 = 1 := by rw [h.depth_eq, hzero]
    rw [if_pos ⟨hfirst, by simp [h.limit], h.unpaused hzero⟩, if_pos hzero]
    have hlive : ({ monitor with pauseDepth := monitor.pauseDepth + 1 } : StreamActivityMonitor).clear.disposed =
      false := h.live
    rw [StreamActivityMonitor.schedulePause_eq hlive h.limit (Nat.succ_ne_zero _)]
    refine ⟨h.live, h.limit, congrArg Nat.succ h.depth_eq, fun hsucc => absurd hsucc (Nat.succ_ne_zero _),
      fun _ => rfl, fun at_ hat start hstart => ?_⟩
    obtain rfl := some.inj hat
    obtain rfl := some.inj hstart
    exact le_refl _
  · have hfirst : ¬(monitor.pauseDepth + 1 = 1) := by
      rw [h.depth_eq]
      omega
    rw [if_neg (fun hall => hfirst hall.1), if_neg hzero]
    exact ⟨h.live, h.limit, congrArg Nat.succ h.depth_eq, fun hsucc => absurd hsucc (Nat.succ_ne_zero _),
      fun _ => rfl, h.bounded⟩

/-- An owner gives its pause back; the last one clears the timer of the pause. -/
lemma resume (h : MonitorInv activity monitor (depth + 1) since) :
    MonitorInv activity (monitor.resume now) depth (if depth = 0 then none else since) := by
  unfold StreamActivityMonitor.resume
  have hdepth : monitor.pauseDepth - 1 = depth := by rw [h.depth_eq, Nat.add_sub_cancel]
  rw [if_neg (by simp [h.live, h.depth_eq])]
  dsimp only
  rw [hdepth]
  split_ifs with hzero
  · have hlive : ({ ({ monitor with pauseDepth := depth } : StreamActivityMonitor).clearPause with last := now } :
      StreamActivityMonitor).disposed = false := h.live
    rw [StreamActivityMonitor.schedule_eq hlive hzero]
    exact ⟨h.live, h.limit, rfl, fun _ => rfl, fun hpos => absurd hpos (by omega),
      fun _ hat => (nomatch hat)⟩
  · exact ⟨h.live, h.limit, rfl, fun hnil => absurd hnil hzero, fun _ => h.idle (Nat.succ_pos _), h.bounded⟩

lemma trip (h : MonitorInv activity monitor depth since) : MonitorInv activity monitor.trip depth since := by
  unfold StreamActivityMonitor.trip
  split_ifs
  · exact h
  · exact ⟨h.live, h.limit, h.depth_eq, h.unpaused, h.idle, h.bounded⟩

lemma tripPause (h : MonitorInv activity monitor depth since) (owners : List String) :
    MonitorInv activity (monitor.tripPause owners) depth since := by
  unfold StreamActivityMonitor.tripPause
  split_ifs
  · exact h
  · exact ⟨h.live, h.limit, h.depth_eq, h.unpaused, h.idle, h.bounded⟩

end MonitorInv

def Monitored (activity : LLMActivity) (s : ActivityState τ) : Prop :=
  ∀ attempt ∈ s.attempts[s.attempt]?, ∀ monitor ∈ attempt.monitor,
    MonitorInv activity monitor s.pauseOwners.length s.pausedStartedAt

variable {index : ℕ} {attempt : Attempt} {owner : String}

lemma Monitored.withAttempt (h : Monitored activity s) {next : Attempt}
    (hattempt : s.attempts[index]? = some attempt)
    (hnext : index = s.attempt → ∀ monitor ∈ next.monitor, (∀ old ∈ attempt.monitor,
      MonitorInv activity old s.pauseOwners.length s.pausedStartedAt) →
        MonitorInv activity monitor s.pauseOwners.length s.pausedStartedAt) :
    Monitored activity (s.withAttempt index next) := by
  intro current hcurrent monitor hmonitor
  by_cases hindex : index = s.attempt
  · have hlt : s.attempt < s.attempts.length := by
      rw [← hindex]
      exact (List.getElem?_eq_some_iff.mp hattempt).1
    have hsame : next = current := by
      simpa [ActivityState.withAttempt, hindex, hlt] using hcurrent
    subst hsame
    exact hnext hindex monitor hmonitor (h attempt (hindex ▸ hattempt))
  · have hsame : s.attempts[s.attempt]? = some current := by
      simpa [ActivityState.withAttempt, getElem?_set_ne hindex] using hcurrent
    exact h current hsame monitor hmonitor

/-! ## The invariant -/

def Phase.count (attempt : ℕ) : Phase τ → ℕ
  | .sleeping _ _ => attempt + 1
  | _ => attempt

inductive Told (activity : LLMActivity) (s : ActivityState τ) : Prop where
  | going (unsettled : s.phase.isSettled = false)
      (telling : Telling activity (s.phase.count s.attempt) s.events) (unended : Unended s.events)
  | ended (settled : s.phase.isSettled = true) (count : ℕ) (front : List LLMActivityEvent)
      (last : LLMActivityEvent) (outcome : Outcome) (events : s.events = front ++ [last])
      (telling : Telling activity count front) (unended : Unended front)
      (outcome_eq : last.outcome? = some outcome) (aborted : s.external.isSome → outcome = .aborted)

structure ActivityInv (activity : LLMActivity) (s : ActivityState τ) : Prop where
  told : Told activity s
  emitted : s.terminalEmitted = s.phase.isSettled
  clock : Clocked activity s
  monitored : Monitored activity s
  length : s.phase.isSettled = false → s.attempts.length = s.attempt + 1
  pending : ∀ event error, s.phase = .beforeRetry event error →
    event.attempt = s.attempt + 1 ∧ event.attempt ≤ activity.policy.cap event.cls event.lastHeartbeat

lemma ActivityInv.law (h : ActivityInv activity s) : ActivityLaw activity s where
  told := by
    cases h.told with
    | going _ telling => exact ⟨_, telling⟩
    | ended _ count _ last _ events telling _ hlast =>
      refine ⟨count, ?_⟩
      rw [events]
      cases last with
      | terminal => exact telling.tell rfl rfl
      | _ => cases hlast
  unended hunsettled := by
    cases h.told with
    | going _ _ unended => exact unended
    | ended settled => exact absurd (hunsettled.symm.trans settled) Bool.false_ne_true
  ended hsettled := by
    cases h.told with
    | going unsettled => exact absurd (unsettled.symm.trans hsettled) Bool.false_ne_true
    | ended _ _ front last outcome events _ unended hlast aborted =>
      exact ⟨front, last, outcome, events, unended, hlast, aborted⟩
  paused howners timer htimer hfires := by
    obtain ⟨since, hsince⟩ := isSome_iff_exists.mp (h.clock.paused.mpr howners)
    refine ⟨since, hsince, ?_⟩
    have hpos : 0 < s.pauseOwners.length := length_pos_iff.mpr howners
    simp only [heldBack, mem_cons, not_mem_nil, or_false] at htimer
    rcases htimer with rfl | rfl | rfl
    · simp only [fire] at hfires
      split_ifs at hfires with hdue
      · obtain ⟨at_, hat, -⟩ := due_eq_true.mp hdue.2
        exact absurd (h.clock.armed at_ hat).1 howners
      · cases hfires
    · obtain ⟨_, hfires⟩ := isSome_iff_exists.mp hfires
      obtain ⟨attempt, hattempt, hfires⟩ := bind_eq_some_iff.mp hfires
      obtain ⟨monitor, hmonitor, hfires⟩ := bind_eq_some_iff.mp hfires
      split_ifs at hfires with hdue
      have hidle := (h.monitored attempt hattempt monitor hmonitor).idle hpos
      rw [hidle] at hdue
      cases hdue.2
    · obtain ⟨_, hfires⟩ := isSome_iff_exists.mp hfires
      obtain ⟨attempt, hattempt, hfires⟩ := bind_eq_some_iff.mp hfires
      obtain ⟨monitor, hmonitor, hfires⟩ := bind_eq_some_iff.mp hfires
      split_ifs at hfires with hdue
      obtain ⟨at_, hat, hle⟩ := due_eq_true.mp hdue.2
      have hbounded := (h.monitored attempt hattempt monitor hmonitor).bounded at_ hat since hsince
      exact hbounded.trans hle

/-! ## Frames -/

structure Quiet (s s' : ActivityState τ) : Prop where
  phase : s'.phase = s.phase
  attempt : s'.attempt = s.attempt
  events : s'.events = s.events
  external : s'.external = s.external
  emitted : s'.terminalEmitted = s.terminalEmitted
  length : s'.attempts.length = s.attempts.length

namespace Quiet

lemma refl (s : ActivityState τ) : Quiet s s := ⟨rfl, rfl, rfl, rfl, rfl, rfl⟩

lemma trans {t : ActivityState τ} (h : Quiet s s') (h' : Quiet s' t) : Quiet s t :=
  ⟨h'.phase.trans h.phase, h'.attempt.trans h.attempt, h'.events.trans h.events,
    h'.external.trans h.external, h'.emitted.trans h.emitted, h'.length.trans h.length⟩

lemma abortTotal (activity : LLMActivity) (s : ActivityState τ) : Quiet s (s.abortTotal activity) := by
  unfold ActivityState.abortTotal
  split
  · exact refl s
  · exact ⟨rfl, rfl, rfl, rfl, rfl, length_map ..⟩

lemma armTotalTimer (activity : LLMActivity) (s : ActivityState τ) : Quiet s (s.armTotalTimer activity) := by
  unfold ActivityState.armTotalTimer
  split_ifs
  · exact ⟨rfl, rfl, rfl, rfl, rfl, rfl⟩
  · have hcleared : Quiet s { s with totalTimer := none } := ⟨rfl, rfl, rfl, rfl, rfl, rfl⟩
    exact hcleared.trans (abortTotal activity _)
  · exact ⟨rfl, rfl, rfl, rfl, rfl, rfl⟩

lemma countPause (s : ActivityState τ) : Quiet s s.countPause := by
  unfold ActivityState.countPause
  split
  · exact refl s
  · exact ⟨rfl, rfl, rfl, rfl, rfl, rfl⟩

lemma endPause (activity : LLMActivity) (s : ActivityState τ) (owner : String) :
    Quiet s (s.endPause activity owner) := by
  have howned : Quiet s { s with pauseOwners := s.pauseOwners.erase owner } := ⟨rfl, rfl, rfl, rfl, rfl, rfl⟩
  unfold ActivityState.endPause
  dsimp only
  split_ifs
  · exact howned
  · exact (howned.trans (countPause _)).trans (armTotalTimer activity _)

lemma closePauseWindow (activity : LLMActivity) (s : ActivityState τ) : Quiet s (s.closePauseWindow activity) := by
  unfold ActivityState.closePauseWindow
  split_ifs
  · exact refl s
  · have hcleared : Quiet s.countPause { s.countPause with pauseOwners := [] } :=
      ⟨rfl, rfl, rfl, rfl, rfl, rfl⟩
    exact ((countPause s).trans hcleared).trans (armTotalTimer activity _)

lemma closeAttempt (activity : LLMActivity) (s : ActivityState τ) : Quiet s (s.closeAttempt activity) := by
  have hclosed := closePauseWindow activity s
  exact hclosed.trans ⟨rfl, rfl, rfl, rfl, rfl, length_modify ..⟩

end Quiet

def SameMonitors (s s' : ActivityState τ) : Prop :=
  ∀ index : ℕ, (s'.attempts[index]?).map Attempt.monitor = (s.attempts[index]?).map Attempt.monitor

lemma SameMonitors.trans {t : ActivityState τ} (h : SameMonitors s s') (h' : SameMonitors s' t) :
    SameMonitors s t := fun index => (h' index).trans (h index)

lemma SameMonitors.composeAbort (s : ActivityState τ) (reason : Thrown) :
    SameMonitors s { s with attempts := s.composeAbort reason } := by
  intro index
  simp only [ActivityState.composeAbort, getElem?_map, Option.map_map]
  rfl

lemma SameMonitors.abortTotal (activity : LLMActivity) (s : ActivityState τ) :
    SameMonitors s (s.abortTotal activity) := by
  unfold ActivityState.abortTotal
  split
  · exact fun _ => rfl
  · exact SameMonitors.composeAbort s _

lemma SameMonitors.armTotalTimer (activity : LLMActivity) (s : ActivityState τ) :
    SameMonitors s (s.armTotalTimer activity) := by
  unfold ActivityState.armTotalTimer
  split_ifs
  · exact fun _ => rfl
  · have hcleared : SameMonitors s { s with totalTimer := none } := fun _ => rfl
    exact hcleared.trans (SameMonitors.abortTotal activity _)
  · exact fun _ => rfl

lemma Monitored.same (h : Monitored activity s) (hsame : SameMonitors s s') (hattempt : s'.attempt = s.attempt)
    (howners : s'.pauseOwners = s.pauseOwners) (hpaused : s'.pausedStartedAt = s.pausedStartedAt) :
    Monitored activity s' := by
  intro attempt hcurrent monitor hmonitor
  have hmap : (s.attempts[s.attempt]?).map Attempt.monitor = some attempt.monitor := by
    rw [← hsame, ← hattempt, hcurrent, map_some]
  obtain ⟨old, hold, heq⟩ := map_eq_some_iff.mp hmap
  rw [howners, hpaused]
  exact h old hold monitor (heq ▸ hmonitor)

lemma ActivityInv.frame (h : ActivityInv activity s) (hquiet : Quiet s s') (hclock : Clocked activity s')
    (hmonitored : Monitored activity s') : ActivityInv activity s' where
  told := by
    cases h.told with
    | going unsettled telling unended =>
      refine .going (hquiet.phase ▸ unsettled) ?_ (hquiet.events ▸ unended)
      rw [hquiet.phase, hquiet.attempt, hquiet.events]
      exact telling
    | ended settled count front last outcome events telling unended hlast aborted =>
      refine .ended (hquiet.phase ▸ settled) count front last outcome (hquiet.events.trans events) telling
        unended hlast ?_
      rw [hquiet.external]
      exact aborted
  emitted := by rw [hquiet.emitted, hquiet.phase, h.emitted]
  clock := hclock
  monitored := hmonitored
  length := by
    rw [hquiet.phase, hquiet.length, hquiet.attempt]
    exact h.length
  pending := by
    rw [hquiet.phase, hquiet.attempt]
    exact h.pending

lemma Clocked.withAttempts (h : Clocked activity s) (attempts : List Attempt) :
    Clocked activity { s with attempts } := ⟨h.paused, h.since, h.counted, h.armed, h.spent⟩

lemma ActivityInv.sink (h : ActivityInv activity s) (hgoing : s.terminalEmitted = false)
    (event : LLMActivityEvent) (hstarted : event.isStarted = false) (hretry : event.retry? = none)
    (hterminal : event.isTerminal = false) : ActivityInv activity (s.sink event) where
  told := by
    cases h.told with
    | going unsettled telling unended =>
      exact .going unsettled (telling.tell hstarted hretry) (unended.tell hterminal)
    | ended settled =>
      rw [h.emitted, settled] at hgoing
      cases hgoing
  emitted := h.emitted
  clock := ⟨h.clock.paused, h.clock.since, h.clock.counted, h.clock.armed, h.clock.spent⟩
  monitored := h.monitored
  length := h.length
  pending := h.pending

lemma ActivityInv.withAttempt (h : ActivityInv activity s) (hattempt : s.attempts[index]? = some attempt)
    (next : Attempt)
    (hnext : index = s.attempt → ∀ monitor ∈ next.monitor, (∀ old ∈ attempt.monitor,
      MonitorInv activity old s.pauseOwners.length s.pausedStartedAt) →
        MonitorInv activity monitor s.pauseOwners.length s.pausedStartedAt) :
    ActivityInv activity (s.withAttempt index next) :=
  h.frame ⟨rfl, rfl, rfl, rfl, rfl, length_set ..⟩ (h.clock.withAttempts _)
    (h.monitored.withAttempt hattempt hnext)

lemma ActivityInv.abortTotal (h : ActivityInv activity s) (hremaining : s.remainingTotalMs activity = 0) :
    ActivityInv activity (s.abortTotal activity) := by
  have hsame : (s.abortTotal activity).pauseOwners = s.pauseOwners ∧
      (s.abortTotal activity).pausedStartedAt = s.pausedStartedAt := by
    unfold ActivityState.abortTotal
    split <;> exact ⟨rfl, rfl⟩
  have hquiet := Quiet.abortTotal activity s
  exact h.frame hquiet (h.clock.abortTotal hremaining)
    (h.monitored.same (SameMonitors.abortTotal activity s) hquiet.attempt hsame.1 hsame.2)

/-! ## The timers -/

lemma Clocked.remainingTotalMs_of_due (h : Clocked activity s) (hdue : due s.totalTimer s.now = true) :
    s.remainingTotalMs activity = 0 := by
  obtain ⟨at_, hat, _⟩ := due_eq_true.mp hdue
  obtain ⟨howners, _⟩ := h.armed at_ hat
  have hnone : s.pausedStartedAt = none := by
    rw [← not_isSome_iff_eq_none]
    exact fun hsome => h.paused.mp hsome howners
  simp only [remainingTotalMs, activeElapsedMs, hnone, map_none,
    getD_none]
  omega

lemma ActivityInv.monitorTripped (h : ActivityInv activity s) {monitor tripped : StreamActivityMonitor}
    (hattempt : s.attempts[index]? = some attempt) (hmonitor : attempt.monitor = some monitor)
    (htrip : ∀ {depth since}, MonitorInv activity monitor depth since → MonitorInv activity tripped depth since) :
    ActivityInv activity (s.monitorTripped activity index attempt tripped) := by
  refine h.withAttempt hattempt _ fun _ next hnext hold => ?_
  obtain rfl := some.inj hnext
  exact htrip (hold monitor hmonitor)

lemma ActivityInv.fire (h : ActivityInv activity s) {timer : ActivityTimer}
    (hfire : s.fire activity timer = some s') : ActivityInv activity s' := by
  cases timer with
  | total =>
    simp only [ActivityState.fire] at hfire
    split_ifs at hfire with hdue
    obtain rfl := some.inj hfire
    exact h.abortTotal (h.clock.remainingTotalMs_of_due hdue.2)
  | firstByte =>
    obtain ⟨_, hattempt, hfire⟩ := bind_eq_some_iff.mp hfire
    split_ifs at hfire
    obtain rfl := some.inj hfire
    exact h.withAttempt hattempt _ fun _ monitor hmonitor hold => hold monitor hmonitor
  | idle =>
    obtain ⟨_, hattempt, hfire⟩ := bind_eq_some_iff.mp hfire
    obtain ⟨_, hmonitor, hfire⟩ := bind_eq_some_iff.mp hfire
    split_ifs at hfire
    obtain rfl := some.inj hfire
    exact h.monitorTripped hattempt hmonitor MonitorInv.trip
  | pause =>
    obtain ⟨_, hattempt, hfire⟩ := bind_eq_some_iff.mp hfire
    obtain ⟨_, hmonitor, hfire⟩ := bind_eq_some_iff.mp hfire
    split_ifs at hfire
    obtain rfl := some.inj hfire
    exact h.monitorTripped hattempt hmonitor fun hinv => hinv.tripPause s.pauseOwners

/-! ## Bumps, pauses and resumes -/

lemma Clocked.since_le (h : Clocked activity s) : ∀ start ∈ s.pausedStartedAt, start ≤ s.now :=
  fun start hstart => (h.since start hstart).2

lemma Clocked.pausedStartedAt_eq_none (h : Clocked activity s) (howners : s.pauseOwners = []) :
    s.pausedStartedAt = none := by
  rw [← not_isSome_iff_eq_none]
  exact fun hsome => h.paused.mp hsome howners

lemma ActivityInv.heartbeat (h : ActivityInv activity s) (hgoing : s.terminalEmitted = false)
    (hattempt : s.attempts[index]? = some attempt) (kind : HeartbeatKind) :
    ActivityInv activity (s.heartbeat index attempt kind) := by
  refine ActivityInv.sink (h.withAttempt hattempt _ fun _ monitor hmonitor hold => ?_) hgoing _ rfl rfl rfl
  obtain ⟨old, hold', rfl⟩ := map_eq_some_iff.mp hmonitor
  exact (hold old hold').observe h.clock.since_le

lemma ActivityInv.startIdleMonitor (h : ActivityInv activity s) {monitored : Attempt}
    (howners : index = s.attempt → s.pauseOwners = [])
    (hstart : s.startIdleMonitor activity attempt = some monitored) :
    index = s.attempt → ∀ monitor ∈ monitored.monitor, (∀ old ∈ attempt.monitor,
      MonitorInv activity old s.pauseOwners.length s.pausedStartedAt) →
        MonitorInv activity monitor s.pauseOwners.length s.pausedStartedAt := by
  intro hindex monitor hmonitor hold
  unfold ActivityState.startIdleMonitor at hstart
  split at hstart
  · obtain rfl := some.inj hstart
    exact hold monitor hmonitor
  · obtain ⟨_, hnew, rfl⟩ := map_eq_some_iff.mp hstart
    obtain rfl := some.inj hmonitor
    have hnone := howners hindex
    rw [hnone, h.clock.pausedStartedAt_eq_none hnone]
    exact MonitorInv.of_new hnew

lemma ActivityInv.bump (h : ActivityInv activity s) {kind : HeartbeatKind}
    (horderly : Orderly s (.bump index kind)) (hattempt : s.attempts[index]? = some attempt) :
    ActivityInv activity (s.bump activity index attempt kind) := by
  by_cases hemitted : s.terminalEmitted = true
  · rw [ActivityState.bump, if_pos hemitted]
    exact h
  have hgoing : s.terminalEmitted = false := by simpa using hemitted
  by_cases hagain : kind = .firstByte ∧ attempt.firstByteSeen
  · rw [ActivityState.bump, if_neg hemitted, if_pos hagain]
    exact h
  by_cases hfirst : attempt.firstByteSeen = false ∧ kind ∈ heartbeatFirstByte
  · rw [ActivityState.bump, if_neg hemitted, if_neg hagain, if_pos hfirst]
    have howners : index = s.attempt → s.pauseOwners = [] := by
      refine fun hindex => horderly hindex hgoing fun other hother => ?_
      obtain rfl := some.inj (hattempt.symm.trans hother)
      exact hfirst.1
    dsimp only
    cases hstart : s.startIdleMonitor activity
        { attempt with firstByteSeen := true, firstByteTimer := none } with
    | none => exact h.withAttempt hattempt _ fun _ monitor hmonitor hold => hold monitor hmonitor
    | some monitored =>
      have hmonitored := h.startIdleMonitor howners hstart
      have hreported := (h.withAttempt hattempt
        { monitored with lastHeartbeat := some (.firstByte, s.now) } hmonitored).sink hgoing
          (.heartbeat s.now .firstByte) rfl rfl rfl
      dsimp only
      split_ifs
      · exact hreported
      · have hlt : index < s.attempts.length := (List.getElem?_eq_some_iff.mp hattempt).1
        exact hreported.heartbeat hgoing (getElem?_set_self hlt) kind
  · rw [ActivityState.bump, if_neg hemitted, if_neg hagain, if_neg hfirst]
    exact h.heartbeat hgoing hattempt kind

lemma beginPause_frame (s : ActivityState τ) (owner : String) :
    Quiet s (s.beginPause owner) ∧ (s.beginPause owner).attempts = s.attempts ∧
      (s.beginPause owner).now = s.now ∧
      (s.beginPause owner).pauseOwners.length = s.pauseOwners.length + 1 ∧
      (s.beginPause owner).pausedStartedAt =
        if s.pauseOwners.length = 0 then some s.now else s.pausedStartedAt := by
  unfold beginPause
  dsimp only
  have hlength : (s.pauseOwners ++ [owner]).length = s.pauseOwners.length + 1 := by simp
  split_ifs with hfirst hnil hnil
  · omega
  · exact ⟨⟨rfl, rfl, rfl, rfl, rfl, rfl⟩, rfl, rfl, hlength, rfl⟩
  · exact ⟨⟨rfl, rfl, rfl, rfl, rfl, rfl⟩, rfl, rfl, hlength, rfl⟩
  · omega

lemma eq_attempt_of_monitor {monitor : StreamActivityMonitor} (hown : index = s.attempt ∨ Unmonitored s)
    (hcurrent : s.attempts[s.attempt]? = some attempt) (hmonitor : attempt.monitor = some monitor) :
    index = s.attempt := by
  rcases hown with hindex | hnone
  · exact hindex
  · rw [hnone attempt hcurrent] at hmonitor
    cases hmonitor

lemma ActivityInv.pause (h : ActivityInv activity s) (horderly : Orderly s (.pause index owner))
    (hattempt : s.attempts[index]? = some attempt) :
    ActivityInv activity (s.pause index attempt owner) := by
  unfold ActivityState.pause
  split_ifs with hidle
  · exact h
  · rw [not_or] at hidle
    have hgoing : s.terminalEmitted = false := by simpa using hidle.1
    have hown := horderly hgoing hidle.2
    obtain ⟨hquiet, hattempts, _, howners, hpaused⟩ := beginPause_frame s owner
    have hlength : (s.attempts.set index
        { attempt with monitor := attempt.monitor.map fun monitor => monitor.pause s.now }).length =
          s.attempts.length := length_set ..
    have hwindow : ActivityInv activity ((s.beginPause owner).withAttempt index
        { attempt with monitor := attempt.monitor.map fun monitor => monitor.pause s.now }) := by
      refine h.frame ⟨hquiet.phase, hquiet.attempt, hquiet.events, hquiet.external, hquiet.emitted, ?_⟩
        ((h.clock.beginPause owner).withAttempts _) ?_
      · rw [← hlength, ← hattempts]
        rfl
      · intro current hcurrent monitor hmonitor
        have hset : (s.attempts.set index
            { attempt with monitor := attempt.monitor.map fun monitor => monitor.pause s.now })[s.attempt]? =
              some current := by
          rw [← hattempts, ← hquiet.attempt]
          exact hcurrent
        have hdepth : MonitorInv activity monitor (s.pauseOwners.length + 1)
            (if s.pauseOwners.length = 0 then some s.now else s.pausedStartedAt) := by
          by_cases hindex : index = s.attempt
          · have hlt : index < s.attempts.length := (List.getElem?_eq_some_iff.mp hattempt).1
            rw [← hindex, getElem?_set_self hlt] at hset
            obtain rfl := some.inj hset
            obtain ⟨old, hold, rfl⟩ := map_eq_some_iff.mp hmonitor
            exact (h.monitored attempt (hindex ▸ hattempt) old hold).pause
          · rw [getElem?_set_ne hindex] at hset
            exact absurd (eq_attempt_of_monitor hown hset hmonitor) hindex
        rw [← howners, ← hpaused] at hdepth
        exact hdepth
    exact hwindow.sink (hquiet.emitted.trans hgoing) _ rfl rfl rfl

lemma armTotalTimer_pauses (activity : LLMActivity) (s : ActivityState τ) :
    (s.armTotalTimer activity).pauseOwners = s.pauseOwners ∧
      (s.armTotalTimer activity).pausedStartedAt = s.pausedStartedAt := by
  unfold armTotalTimer
  dsimp only
  split_ifs
  · exact ⟨rfl, rfl⟩
  · unfold abortTotal
    split <;> exact ⟨rfl, rfl⟩
  · exact ⟨rfl, rfl⟩

lemma countPause_frame (s : ActivityState τ) :
    s.countPause.pauseOwners = s.pauseOwners ∧ s.countPause.attempts = s.attempts ∧
      s.countPause.pausedStartedAt = none := by
  unfold countPause
  split
  · next hnone => exact ⟨rfl, rfl, hnone⟩
  · exact ⟨rfl, rfl, rfl⟩

lemma endPause_frame (activity : LLMActivity) (s : ActivityState τ) (howner : owner ∈ s.pauseOwners) :
    SameMonitors s (s.endPause activity owner) ∧
      (s.endPause activity owner).pauseOwners.length + 1 = s.pauseOwners.length ∧
      (s.endPause activity owner).pausedStartedAt =
        if (s.endPause activity owner).pauseOwners.length = 0 then none else s.pausedStartedAt := by
  have hlength : (s.pauseOwners.erase owner).length + 1 = s.pauseOwners.length :=
    length_erase_add_one howner
  by_cases hlast : s.pauseOwners.erase owner ≠ []
  · have hpos : (s.pauseOwners.erase owner).length ≠ 0 := by
      rwa [Ne, length_eq_zero_iff]
    rw [endPause, if_pos hlast]
    exact ⟨fun _ => rfl, hlength, (if_neg hpos).symm⟩
  · obtain ⟨howners, hattempts, hpaused⟩ :=
      countPause_frame { s with pauseOwners := s.pauseOwners.erase owner }
    obtain ⟨howners', hpaused'⟩ :=
      armTotalTimer_pauses activity { s with pauseOwners := s.pauseOwners.erase owner }.countPause
    have hnil : (s.pauseOwners.erase owner).length = 0 := by
      rw [not_not.mp hlast, length_nil]
    rw [endPause, if_neg hlast]
    refine ⟨?_, ?_, ?_⟩
    · refine SameMonitors.trans (fun index => ?_) (SameMonitors.armTotalTimer activity _)
      rw [hattempts]
    · rw [howners', howners]
      exact hlength
    · rw [howners', howners, hpaused', hpaused, if_pos hnil]

lemma ActivityInv.resume (h : ActivityInv activity s) (horderly : Orderly s (.resume index owner)) :
    ActivityInv activity (s.resume activity index owner) := by
  unfold ActivityState.resume
  split_ifs with hidle
  · exact h
  · rw [not_or, not_not] at hidle
    have hgoing : s.terminalEmitted = false := by simpa using hidle.1
    have hown := horderly hgoing hidle.2
    have hquiet := Quiet.endPause activity s owner
    obtain ⟨hsame, howners, hpaused⟩ := endPause_frame activity s hidle.2
    have hclock := h.clock.endPause hidle.2
    have hresumed : ActivityInv activity
        { s.endPause activity owner with
          attempts := (s.endPause activity owner).attempts.modify index fun attempt =>
            { attempt with
              monitor := attempt.monitor.map fun (monitor : StreamActivityMonitor) => monitor.resume s.now } } := by
      refine h.frame ⟨hquiet.phase, hquiet.attempt, hquiet.events, hquiet.external, hquiet.emitted,
        (length_modify ..).trans hquiet.length⟩ (hclock.withAttempts _) ?_
      intro current hcurrent monitor hmonitor
      rw [getElem?_modify, hquiet.attempt] at hcurrent
      obtain ⟨middle, hmiddle, rfl⟩ := map_eq_some_iff.mp hcurrent
      have hmap : (s.attempts[s.attempt]?).map Attempt.monitor = some middle.monitor := by
        rw [← hsame, hmiddle, map_some]
      obtain ⟨old, hold, heq⟩ := map_eq_some_iff.mp hmap
      split_ifs at hmonitor with hindex
      · obtain ⟨before, hbefore, rfl⟩ := map_eq_some_iff.mp hmonitor
        have hinv := h.monitored old hold before (heq.trans hbefore)
        rw [← howners] at hinv
        rw [hpaused]
        exact hinv.resume
      · exact absurd (eq_attempt_of_monitor hown hold (heq.trans hmonitor)) hindex
    exact hresumed.sink (hquiet.emitted.trans hgoing) _ rfl rfl rfl

end OpenCorvus.LLM
