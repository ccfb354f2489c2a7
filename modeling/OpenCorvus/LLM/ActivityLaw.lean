import OpenCorvus.Foundation.ExecutableSystem
import OpenCorvus.LLM.ActivityInvariant

/-!
# The protocol of an activity

An activity tells its start first and its end last, numbers its retries and keeps them within the caps, and ends as
aborted when the caller aborts it in time; its timers respect the pauses.  This holds of the runs in which no pause
is held at the first byte of an attempt, pauses are taken and given back through the run object of the attempt in
progress once it has an idle monitor, and the hook before a retry does not throw after an external abort.
-/

namespace OpenCorvus.LLM

open ExecutableSystem Option ActivityState

variable {τ : Type} {activity : LLMActivity} {s s' : ActivityState τ}

/-- An activity that goes on, between two awaits. -/
structure Going (activity : LLMActivity) (count : ℕ) (s : ActivityState τ) : Prop where
  telling : Telling activity count s.events
  unended : Unended s.events
  gone : s.terminalEmitted = false
  clock : Clocked activity s
  monitored : Monitored activity s

structure Ending (activity : LLMActivity) (s : ActivityState τ) : Prop where
  told : ∃ count front last outcome, s.events = front ++ [last] ∧ Telling activity count front ∧
    Unended front ∧ last.outcome? = some outcome ∧ (s.external.isSome → outcome = .aborted)
  emitted : s.terminalEmitted = true
  clock : Clocked activity s
  monitored : Monitored activity s

lemma ActivityInv.going (h : ActivityInv activity s) (hphase : s.phase.isSettled = false) :
    Going activity (s.phase.count s.attempt) s := by
  cases h.told with
  | going _ telling unended =>
    exact ⟨telling, unended, h.emitted.trans hphase, h.clock, h.monitored⟩
  | ended settled => exact absurd (hphase.symm.trans settled) Bool.false_ne_true

lemma Going.emitTerminal {count : ℕ} (h : Going activity count s) (outcome : Outcome)
    (haborted : s.external.isSome → outcome = .aborted) (cls : Option ErrorClass) (error : Option Thrown) :
    Ending activity (s.emitTerminal outcome cls error) := by
  have hgone : ¬s.terminalEmitted = true := by simp [h.gone]
  rw [ActivityState.emitTerminal, if_neg hgone]
  exact
    { told := ⟨count, s.events, _, outcome, rfl, h.telling, h.unended, rfl, haborted⟩
      emitted := rfl
      clock := ⟨h.clock.paused, h.clock.since, h.clock.counted, h.clock.armed, h.clock.spent⟩
      monitored := h.monitored }

lemma Ending.emitTerminal (h : Ending activity s) (outcome : Outcome) (cls : Option ErrorClass)
    (error : Option Thrown) : s.emitTerminal outcome cls error = s := by
  rw [ActivityState.emitTerminal, if_pos h.emitted]

/-- The report of the end changes nothing else. -/
lemma emitTerminal_frame (activity : LLMActivity) (s : ActivityState τ) (outcome : Outcome)
    (cls : Option ErrorClass) (error : Option Thrown) :
    (s.emitTerminal outcome cls error).pauseOwners = s.pauseOwners ∧
      (s.emitTerminal outcome cls error).external = s.external ∧
      (s.emitTerminal outcome cls error).remainingTotalMs activity = s.remainingTotalMs activity := by
  unfold emitTerminal
  split_ifs <;> exact ⟨rfl, rfl, rfl⟩

lemma abortTotal_frame (activity : LLMActivity) (s : ActivityState τ) :
    (s.abortTotal activity).pauseOwners = s.pauseOwners ∧
      (s.abortTotal activity).pausedStartedAt = s.pausedStartedAt ∧
      (s.abortTotal activity).remainingTotalMs activity = s.remainingTotalMs activity := by
  unfold abortTotal
  split <;> exact ⟨rfl, rfl, rfl⟩

/-- The deadline may pass when no time is left. -/
lemma Going.abortTotal {count : ℕ} (h : Going activity count s)
    (hremaining : s.remainingTotalMs activity = 0) : Going activity count (s.abortTotal activity) := by
  have hquiet := Quiet.abortTotal activity s
  obtain ⟨howners, hpaused, -⟩ := abortTotal_frame activity s
  exact
    { telling := hquiet.events ▸ h.telling
      unended := hquiet.events ▸ h.unended
      gone := hquiet.emitted.trans h.gone
      clock := h.clock.abortTotal hremaining
      monitored := h.monitored.same (SameMonitors.abortTotal activity s) hquiet.attempt howners hpaused }

lemma Ending.settle (h : Ending activity s) (result : Except LLMActivityError τ) :
    ActivityInv activity (s.settle result) := by
  obtain ⟨count, front, last, outcome, hevents, htelling, hunended, hlast, haborted⟩ := h.told
  rw [ActivityState.settle, if_pos h.emitted]
  exact
    { told := .ended rfl count front last outcome hevents htelling hunended hlast haborted
      emitted := h.emitted
      clock := ⟨h.clock.paused, h.clock.since, h.clock.counted, fun _ hat => (nomatch hat), h.clock.spent⟩
      monitored := h.monitored
      length := fun hunsettled => (nomatch hunsettled)
      pending := fun _ _ hphase => (nomatch hphase) }

lemma closePauseWindow_owners (activity : LLMActivity) (s : ActivityState τ) :
    (s.closePauseWindow activity).pauseOwners = [] := by
  unfold closePauseWindow
  split_ifs with hnil
  · exact hnil
  · exact (armTotalTimer_pauses activity _).1

lemma closeAttempt_monitored (activity : LLMActivity) (s : ActivityState τ) :
    Monitored activity (s.closeAttempt activity) := by
  intro attempt hattempt monitor hmonitor
  have hset : ((s.closePauseWindow activity).attempts.modify (s.closePauseWindow activity).attempt fun attempt =>
      { attempt with firstByteTimer := none, monitor := none })[(s.closePauseWindow activity).attempt]? =
        some attempt := hattempt
  rw [List.getElem?_modify] at hset
  obtain ⟨_, -, rfl⟩ := map_eq_some_iff.mp hset
  rw [if_pos rfl] at hmonitor
  cases hmonitor

lemma Going.closeAttempt {count : ℕ} (h : Going activity count s) :
    Going activity count (s.closeAttempt activity) := by
  have hquiet := Quiet.closeAttempt activity s
  exact
    { telling := hquiet.events ▸ h.telling
      unended := hquiet.events ▸ h.unended
      gone := hquiet.emitted.trans h.gone
      clock := h.clock.closePauseWindow.withAttempts _
      monitored := closeAttempt_monitored activity s }

lemma Ending.closeAttempt (h : Ending activity s) : Ending activity (s.closeAttempt activity) := by
  have hquiet := Quiet.closeAttempt activity s
  refine
    { told := ?_
      emitted := hquiet.emitted.trans h.emitted
      clock := h.clock.closePauseWindow.withAttempts _
      monitored := closeAttempt_monitored activity s }
  rw [hquiet.events, hquiet.external]
  exact h.told

lemma remainingTotalMs_closeAttempt (howners : s.pauseOwners = []) :
    (s.closeAttempt activity).remainingTotalMs activity = s.remainingTotalMs activity := by
  unfold closeAttempt closePauseWindow
  rw [if_pos howners]
  rfl

lemma Going.retry (h : Going activity s.attempt s) (hlength : s.attempts.length = s.attempt + 1)
    {event : RetryEvent} (hnumber : event.attempt = s.attempt + 1)
    (hcap : event.attempt ≤ activity.policy.cap event.cls event.lastHeartbeat) (error : Thrown) :
    ActivityInv activity (s.retry event error) where
  told := .going rfl (h.telling.tellRetry hnumber hcap) (h.unended.tell rfl)
  emitted := h.gone
  clock := ⟨h.clock.paused, h.clock.since, h.clock.counted, h.clock.armed, h.clock.spent⟩
  monitored := h.monitored
  length _ := hlength
  pending _ _ hphase := (nomatch hphase)

/-- The block `catch` of an attempt that goes on. -/
lemma Going.attemptFailed (h : Going activity s.attempt s) (hlength : s.attempts.length = s.attempt + 1)
    (error : Thrown) : ActivityInv activity (s.attemptFailed activity error) := by
  have hquiet := Quiet.closeAttempt activity s
  have hclosed := h.closeAttempt
  unfold ActivityState.attemptFailed
  dsimp only
  cases hexternal : (s.closeAttempt activity).external with
  | some => exact (hclosed.emitTerminal _ (fun _ => rfl) _ _).settle _
  | none =>
    have hfailed : ∀ {outcome : Outcome}, (s.closeAttempt activity).external.isSome → outcome = .aborted := by
      intro _ hsome
      rw [hexternal] at hsome
      cases hsome
    dsimp only
    split_ifs with hretryable hcap hremain hhook
    · exact (hclosed.emitTerminal _ hfailed _ _).settle _
    · exact (hclosed.emitTerminal _ hfailed _ _).settle _
    · exact (hclosed.emitTerminal _ hfailed _ _).settle _
    · exact
        { told := .going rfl (hquiet.attempt ▸ hclosed.telling) hclosed.unended
          emitted := hclosed.gone
          clock := ⟨hclosed.clock.paused, hclosed.clock.since, hclosed.clock.counted, hclosed.clock.armed,
            hclosed.clock.spent⟩
          monitored := hclosed.monitored
          length := fun _ => hquiet.length.trans (hlength.trans (congrArg (· + 1) hquiet.attempt.symm))
          pending := by
            rintro _ _ hphase
            cases hphase
            exact ⟨rfl, not_le.mp hcap⟩ }
    · have hcount : Going activity (s.closeAttempt activity).attempt (s.closeAttempt activity) := by
        rw [hquiet.attempt]
        exact hclosed
      apply hcount.retry
      · exact hquiet.length.trans (hlength.trans (congrArg (· + 1) hquiet.attempt.symm))
      · rfl
      · exact not_le.mp hcap

/-- The block `catch` of an attempt whose end was told: the activity throws what is left to throw. -/
lemma Ending.attemptFailed (h : Ending activity s) (howners : s.pauseOwners = [])
    (hcause : s.external.isSome ∨ s.remainingTotalMs activity = 0) (error : Thrown) :
    ActivityInv activity (s.attemptFailed activity error) := by
  have hquiet := Quiet.closeAttempt activity s
  have hclosed := h.closeAttempt
  unfold ActivityState.attemptFailed
  dsimp only
  cases hexternal : (s.closeAttempt activity).external with
  | some =>
    dsimp only
    rw [hclosed.emitTerminal]
    exact hclosed.settle _
  | none =>
    have hremaining : (s.closeAttempt activity).remainingTotalMs activity = 0 := by
      rw [remainingTotalMs_closeAttempt howners]
      refine hcause.resolve_left fun hsome => ?_
      rw [← hquiet.external, hexternal] at hsome
      cases hsome
    dsimp only
    rw [hclosed.emitTerminal, hclosed.emitTerminal, if_pos hremaining]
    split_ifs <;> exact hclosed.settle _

lemma Going.attemptReturned (h : Going activity s.attempt s) (value : τ) :
    ActivityInv activity (s.attemptReturned activity value) := by
  have hclosed := h.closeAttempt
  have howners : (s.closeAttempt activity).pauseOwners = [] := closePauseWindow_owners activity s
  unfold ActivityState.attemptReturned
  dsimp only
  cases hexternal : (s.closeAttempt activity).external with
  | some reason =>
    -- The error that follows the report is caught by the block of the attempt.
    have hending := hclosed.emitTerminal .aborted (fun _ => rfl) (some .externalAbort) (some reason)
    obtain ⟨howners', hexternal', -⟩ := emitTerminal_frame activity (s.closeAttempt activity) .aborted
      (some .externalAbort) (some reason)
    refine hending.attemptFailed (howners'.trans howners) (.inl ?_) _
    rw [hexternal', hexternal]
    rfl
  | none =>
    have hfailed : ∀ {outcome : Outcome}, (s.closeAttempt activity).external.isSome → outcome = .aborted := by
      intro _ hsome
      rw [hexternal] at hsome
      cases hsome
    dsimp only
    split_ifs with hspent
    · have hremaining : (s.closeAttempt activity).remainingTotalMs activity = 0 :=
        hspent.elim hclosed.clock.spent id
      have hquiet := Quiet.abortTotal activity (s.closeAttempt activity)
      obtain ⟨hsame, -, hleft⟩ := abortTotal_frame activity (s.closeAttempt activity)
      have haborted := hclosed.abortTotal hremaining
      rw [← hquiet.external] at hfailed
      have hending := haborted.emitTerminal .failed hfailed (some .totalTimeout)
        (some ((s.closeAttempt activity).total.getD (ActivityState.totalReason activity)))
      obtain ⟨howners', -, hremaining'⟩ := emitTerminal_frame activity
        ((s.closeAttempt activity).abortTotal activity) .failed (some .totalTimeout)
          (some ((s.closeAttempt activity).total.getD (ActivityState.totalReason activity)))
      refine hending.attemptFailed (howners'.trans (hsame.trans howners)) (.inr ?_) _
      rw [hremaining', hleft, hremaining]
    · exact (hclosed.emitTerminal _ hfailed _ _).settle _

/-- The head of the loop. -/
lemma Going.beginAttempt (h : Going activity s.attempt s) (hlength : s.attempts.length = s.attempt) :
    ActivityInv activity (s.beginAttempt activity) := by
  unfold ActivityState.beginAttempt
  split
  · exact (h.emitTerminal _ (fun _ => rfl) _ _).settle _
  · next hexternal =>
    have hfailed : ∀ {outcome : Outcome}, s.external.isSome → outcome = .aborted := by
      intro _ hsome
      rw [hexternal] at hsome
      cases hsome
    split
    · exact (h.emitTerminal _ hfailed _ _).settle _
    · split_ifs with hremaining
      · have haborted := h.abortTotal hremaining
        rw [← (Quiet.abortTotal activity s).external] at hfailed
        exact (haborted.emitTerminal _ hfailed _ _).settle _
      · refine
          { told := .going rfl h.telling h.unended
            emitted := h.gone
            clock := ⟨h.clock.paused, h.clock.since, h.clock.counted, h.clock.armed, h.clock.spent⟩
            monitored := ?_
            length := fun _ => by simp [hlength]
            pending := fun _ _ hphase => (nomatch hphase) }
        intro attempt hattempt monitor hmonitor
        rw [List.getElem?_append_right hlength.le, hlength, Nat.sub_self] at hattempt
        obtain rfl := some.inj hattempt
        cases hmonitor

lemma Going.woken (h : Going activity (s.attempt + 1) s) (hlength : s.attempts.length = s.attempt + 1)
    (error : Thrown) : ActivityInv activity (s.woken activity error) := by
  unfold ActivityState.woken
  split
  · exact (h.emitTerminal _ (fun _ => rfl) _ _).settle _
  · next hexternal =>
    split_ifs
    · refine (h.emitTerminal _ (fun hsome => ?_) _ _).settle _
      rw [hexternal] at hsome
      cases hsome
    · have hnext : Monitored activity { s with attempt := s.attempt + 1 } := by
        intro attempt hattempt
        rw [List.getElem?_eq_none hlength.le] at hattempt
        cases hattempt
      refine Going.beginAttempt (s := { s with attempt := s.attempt + 1 })
        ⟨h.telling, h.unended, h.gone, ?_, hnext⟩ hlength
      exact ⟨h.clock.paused, h.clock.since, h.clock.counted, h.clock.armed, h.clock.spent⟩

lemma ActivityInv.externalAbort (h : ActivityInv activity s) (hphase : s.phase.isSettled = false)
    (reason : Thrown) :
    ActivityInv activity { s with external := some reason, attempts := s.composeAbort reason } where
  told := .going hphase (h.going hphase).telling (h.going hphase).unended
  emitted := h.emitted
  clock := ⟨h.clock.paused, h.clock.since, h.clock.counted, h.clock.armed, h.clock.spent⟩
  monitored := h.monitored.same (SameMonitors.composeAbort s reason) rfl rfl rfl
  length hunsettled := (List.length_map ..).trans (h.length hunsettled)
  pending := h.pending

theorem withLLMActivity_inv {now : ℕ} {external : Option Thrown}
    (h : withLLMActivity activity now external = some s) : ActivityInv activity s := by
  unfold withLLMActivity at h
  split_ifs at h
  obtain rfl := some.inj h
  generalize hstarted : ({
    now
    events := [.started now activity.sessionID activity.provider activity.model]
    startedAt := now
    pausedStartedAt := none
    pausedTotalMs := 0
    pauseOwners := []
    totalTimer := none
    external
    total := none
    terminalEmitted := false
    attempt := 0
    attempts := []
    phase := .attempting } : ActivityState τ) = started
  have hquiet := Quiet.armTotalTimer activity started
  have hclock : Clocked activity { started with totalTimer := none } := by
    subst hstarted
    exact ⟨by simp, fun _ hsince => (nomatch hsince), le_refl _, fun _ hat => (nomatch hat),
      fun htotal => (nomatch htotal)⟩
  refine Going.beginAttempt ⟨?_, ?_, ?_, hclock.armTotalTimer, ?_⟩ ?_
  · rw [hquiet.attempt, hquiet.events, ← hstarted]
    exact ⟨⟨_, [], rfl, rfl, fun _ hother => (nomatch hother)⟩, rfl, fun _ hevent => (nomatch hevent)⟩
  · rw [hquiet.events, ← hstarted]
    intro event hevent
    rw [List.mem_singleton.mp hevent]
    rfl
  · rw [hquiet.emitted, ← hstarted]
  · have hnone : (started.armTotalTimer activity).attempts.length = 0 := by
      rw [hquiet.length, ← hstarted]
      rfl
    intro attempt hattempt
    rw [List.length_eq_zero_iff.mp hnone] at hattempt
    cases hattempt
  · rw [hquiet.length, hquiet.attempt, ← hstarted]
    rfl

theorem activityStep_inv (h : ActivityInv activity s) {action : ActivityAction τ} (horderly : Orderly s action)
    (hstep : activityStep activity s action = some s') : ActivityInv activity s' := by
  cases action with
  | wait ms =>
    obtain rfl := some.inj hstep
    exact h.frame ⟨rfl, rfl, rfl, rfl, rfl, rfl⟩ (h.clock.wait ms) h.monitored
  | externalAbort reason =>
    simp only [activityStep] at hstep
    split at hstep
    · cases hstep
    · next hphase =>
      obtain rfl := some.inj hstep
      refine h.externalAbort ?_ reason
      cases hsettled : s.phase with
      | settled result => exact absurd hsettled (hphase result)
      | _ => rfl
    · cases hstep
  | fire => exact h.fire hstep
  | bump =>
    obtain ⟨_, hattempt, rfl⟩ := map_eq_some_iff.mp hstep
    exact h.bump horderly hattempt
  | pause =>
    obtain ⟨_, hattempt, rfl⟩ := map_eq_some_iff.mp hstep
    exact h.pause horderly hattempt
  | resume =>
    obtain ⟨_, -, rfl⟩ := map_eq_some_iff.mp hstep
    exact h.resume horderly
  | attemptReturns value =>
    simp only [activityStep] at hstep
    split at hstep
    · next hphase =>
      obtain rfl := some.inj hstep
      have hgoing := h.going (by rw [hphase]; rfl)
      rw [hphase] at hgoing
      exact hgoing.attemptReturned value
    · cases hstep
  | attemptThrows error =>
    simp only [activityStep] at hstep
    split at hstep
    · next hphase =>
      obtain rfl := some.inj hstep
      have hunsettled : s.phase.isSettled = false := by rw [hphase]; rfl
      have hgoing := h.going hunsettled
      rw [hphase] at hgoing
      exact hgoing.attemptFailed (h.length hunsettled) error
    · cases hstep
  | beforeRetryReturns =>
    simp only [activityStep] at hstep
    split at hstep
    · next event error hphase =>
      obtain rfl := some.inj hstep
      have hunsettled : s.phase.isSettled = false := by rw [hphase]; rfl
      have hgoing := h.going hunsettled
      rw [hphase] at hgoing
      obtain ⟨hnumber, hcap⟩ := h.pending event error hphase
      exact hgoing.retry (h.length hunsettled) hnumber hcap error
    · cases hstep
  | beforeRetryThrows =>
    simp only [activityStep] at hstep
    split at hstep
    · next event _ hphase =>
      obtain rfl := some.inj hstep
      have hgoing := h.going (by rw [hphase]; rfl)
      refine (hgoing.emitTerminal _ (fun hsome => ?_) _ _).settle _
      have hnone : s.external = none := horderly
      rw [hnone] at hsome
      cases hsome
    · cases hstep
  | wake =>
    simp only [activityStep] at hstep
    split at hstep
    · next wakeAt error hphase =>
      split_ifs at hstep
      obtain rfl := some.inj hstep
      have hunsettled : s.phase.isSettled = false := by rw [hphase]; rfl
      have hgoing := h.going hunsettled
      rw [hphase] at hgoing
      exact hgoing.woken (h.length hunsettled) error
    · cases hstep

/-- The protocol of an activity holds after every orderly run of it. -/
theorem activity_protocol {now : ℕ} {external : Option Thrown} {started : ActivityState τ}
    (hcall : withLLMActivity activity now external = some started) {actions : List (ActivityAction τ)}
    (horderly : Within (activityStep activity) Orderly started actions)
    (hrun : exec (activityStep activity) started actions = some s) : ActivityLaw activity s :=
  (Within.exec (fun _ _ _ h hok hstep => activityStep_inv h hok hstep) (withLLMActivity_inv hcall) horderly
    hrun).law

/-- Whether a step is orderly can be decided. -/
instance decidableOrderly {τ : Type} (s : ActivityState τ) : (action : ActivityAction τ) → Decidable (Orderly s action)
  | .bump index _ => inferInstanceAs (Decidable (index = s.attempt → s.terminalEmitted = false →
      (∀ attempt ∈ s.attempts[index]?, attempt.firstByteSeen = false) → s.pauseOwners = []))
  | .pause index owner => inferInstanceAs (Decidable (s.terminalEmitted = false → owner ∉ s.pauseOwners →
      index = s.attempt ∨ ∀ attempt ∈ s.attempts[s.attempt]?, attempt.monitor = none))
  | .resume index owner => inferInstanceAs (Decidable (s.terminalEmitted = false → owner ∈ s.pauseOwners →
      index = s.attempt ∨ ∀ attempt ∈ s.attempts[s.attempt]?, attempt.monitor = none))
  | .beforeRetryThrows _ => inferInstanceAs (Decidable (s.external = none))
  | .wait _ | .externalAbort _ | .fire _ | .attemptReturns _ | .attemptThrows _ | .beforeRetryReturns | .wake =>
    inferInstanceAs (Decidable True)

def networkActivity : LLMActivity where
  sessionID := "ses_a"
  provider := "provider"
  model := "model"
  policy := defaultLLMActivityPolicy (fun _ _ => .network) fun _ _ _ => 1000
  hasBeforeRetry := true

/-- A tool call that pauses the activity after the first byte, for longer than the stream may be silent. -/
theorem activity_protocol_tool_call :
    ∃ started s : ActivityState String, withLLMActivity networkActivity 0 none = some started ∧
      exec (activityStep networkActivity) started
        [.bump 0 .toolCall, .pause 0 "tool", .wait 200000, .resume 0 "tool", .attemptReturns "text"] = some s ∧
      ActivityLaw networkActivity s := by
  refine ⟨_, _, rfl, rfl, ?_⟩
  have horderly : ∀ started : ActivityState String, withLLMActivity networkActivity 0 none = some started →
      Within (activityStep networkActivity) Orderly started
        [.bump 0 .toolCall, .pause 0 "tool", .wait 200000, .resume 0 "tool", .attemptReturns "text"] := by
    intro started hstarted
    obtain rfl := some.inj hstarted
    decide
  exact activity_protocol rfl (horderly _ rfl) rfl

/-- A tool call that pauses the activity before the first byte does not pause the idle monitor that is made
at the first byte: it may fire after `idleMs`, long before `maxPauseMs`. -/
theorem activity_protocol_fails_paused_before_first_byte :
    ∃ started s : ActivityState String, withLLMActivity networkActivity 0 none = some started ∧
      exec (activityStep networkActivity) started [.pause 0 "tool", .bump 0 .toolCall, .wait 180000] = some s ∧
      ¬ActivityLaw networkActivity s := by
  refine ⟨_, _, rfl, rfl, fun hlaw => ?_⟩
  obtain ⟨_, hsince, hle⟩ := hlaw.paused (by decide) (.idle 0) (by decide) (by decide)
  obtain rfl := some.inj hsince
  exact absurd hle (by decide)

end OpenCorvus.LLM
