import OpenCorvus.Protocol.LiveReplay

/-!
# When a live replay has no gap

A subscriber that has every live event of a Task up to a number asks for what came after it.  What is
dropped by age or by size raises the floor, so that the subscriber is told when it lost something; what is
superseded is not missed.
-/

namespace OpenCorvus.Protocol.LiveReplay

open List

def unsuperseded : List LiveEvent → List LiveEvent
  | [] => []
  | event :: rest =>
    if rest.any fun later => supersedes later event then unsuperseded rest
    else event :: unsuperseded rest

/-- The subscriber is told that its cursor expired, or is given every later event that is not superseded,
in the order of the numbers. -/
def NoGap (epoch : ℤ) (state : LiveState) (taskID : String) (after : ℕ) (now : ℤ)
    (later : List LiveEvent) : Prop :=
  match (listTaskLiveEventsAfter epoch state taskID after (some epoch) now).2 with
  | .expired _ => True
  | .events events =>
    events = unsuperseded later ∧ events.Pairwise fun left right => left.liveSequence < right.liveSequence

instance (epoch : ℤ) (state : LiveState) (taskID : String) (after : ℕ) (now : ℤ)
    (later : List LiveEvent) : Decidable (NoGap epoch state taskID after now later) := by
  unfold NoGap
  split <;> infer_instance

def LiveAction.ends (taskID : String) : LiveAction → Bool
  | .persist aggregate aggregateID type => endsTask aggregate type ∧ aggregateID = taskID
  | _ => false

variable {taskID : String} {events later : List LiveEvent} {event : LiveEvent}

lemma unsuperseded_concat (events : List LiveEvent) (event : LiveEvent) : unsuperseded (events ++ [event]) =
      (unsuperseded events).filter (fun candidate => !supersedes event candidate) ++ [event] := by
  induction events with
  | nil => rfl
  | cons first rest ih =>
    rw [cons_append, unsuperseded, unsuperseded, any_append, ih]
    by_cases hrest : (rest.any fun later => supersedes later first) = true
    · simp [hrest]
    · by_cases hevent : supersedes event first = true
      · simp [hrest, hevent]
      · simp [hrest, hevent]

lemma unsuperseded_sublist (events : List LiveEvent) : (unsuperseded events).Sublist events := by
  induction events with
  | nil => exact Sublist.refl _
  | cons first _ ih =>
    unfold unsuperseded
    split_ifs
    · exact ih.cons first
    · exact ih.cons_cons first

lemma trimEvents_spec (minTime : ℤ) (events : List LiveEvent) (floor : ℕ) :
    floor ≤ (trimEvents minTime events floor).2 ∧
      ∃ dropped, events = dropped ++ (trimEvents minTime events floor).1 ∧
        ∀ event ∈ dropped, event.liveSequence ≤ (trimEvents minTime events floor).2 := by
  induction events generalizing floor with
  | nil => exact ⟨le_refl floor, [], rfl, fun _ h => absurd h not_mem_nil⟩
  | cons first _ ih =>
    unfold trimEvents
    split_ifs
    · obtain ⟨hfloor, dropped, hevents, hdropped⟩ := ih (max floor first.liveSequence)
      refine ⟨le_trans (le_max_left _ _) hfloor, first :: dropped, ?_, ?_⟩
      · rw [cons_append, ← hevents]
      · intro event hevent
        rcases mem_cons.mp hevent with rfl | hevent
        · exact le_trans (le_max_right _ _) hfloor
        · exact hdropped event hevent
    · exact ⟨le_refl floor, [], rfl, fun _ h => absurd h not_mem_nil⟩

def Numbered (live : TaskLive) : Prop := ∀ event ∈ live.events, event.liveSequence ≤ live.sequence

def AtMost (bound : ℕ) (live : TaskLive) : Prop :=
  live.sequence ≤ bound ∧ ∀ event ∈ live.events, event.liveSequence ≤ bound

lemma trim_events_subset (now : ℤ) (live : TaskLive) : (trimTaskLiveReplay now live).events ⊆ live.events := by
  obtain ⟨-, dropped, hevents, -⟩ :=
    trimEvents_spec (now - TASK_LIVE_REPLAY_MAX_AGE_MS) live.events live.floor
  intro event hevent
  rw [hevents]
  exact mem_append_right dropped hevent

variable {live : TaskLive}

lemma Numbered.trim (h : Numbered live) (now : ℤ) : Numbered (trimTaskLiveReplay now live) :=
  fun event hevent => h event (trim_events_subset now live hevent)

lemma AtMost.trim {bound : ℕ} (h : AtMost bound live) (now : ℤ) : AtMost bound (trimTaskLiveReplay now live) :=
  ⟨h.1, fun event hevent => h.2 event (trim_events_subset now live hevent)⟩

structure Follows (cursor : ℕ) (live : TaskLive) (later : List LiveEvent) : Prop where
  kept : ∃ dropped, unsuperseded later = dropped ++ live.events.filter (fun event => cursor < event.liveSequence) ∧
    ∀ event ∈ dropped, event.liveSequence ≤ live.floor
  reached : cursor ≤ live.sequence
  ordered : later.Pairwise fun left right => left.liveSequence < right.liveSequence
  numbers : ∀ event ∈ later, cursor < event.liveSequence ∧ event.liveSequence ≤ live.sequence

/-- A sweep keeps what the subscriber needs. -/
lemma Follows.trim {cursor : ℕ} (h : Follows cursor live later) (now : ℤ) :
    Follows cursor (trimTaskLiveReplay now live) later := by
  obtain ⟨hfloor, dropped, hevents, hdropped⟩ :=
    trimEvents_spec (now - TASK_LIVE_REPLAY_MAX_AGE_MS) live.events live.floor
  obtain ⟨gone, hkept, hgone⟩ := h.kept
  refine ⟨⟨gone ++ dropped.filter (fun event => cursor < event.liveSequence), ?_, ?_⟩, h.reached,
    h.ordered, h.numbers⟩
  · rw [hkept, append_assoc, ← filter_append]
    exact congrArg (fun events => gone ++ List.filter _ events) hevents
  · intro event hevent
    rcases mem_append.mp hevent with hevent | hevent
    · exact le_trans (hgone event hevent) hfloor
    · exact hdropped event (mem_of_mem_filter hevent)

lemma Follows.push {cursor : ℕ} (h : Follows cursor live later) (hnumber : event.liveSequence = live.sequence + 1) :
    Follows cursor (live.push event) (later ++ [event]) := by
  have hcursor := h.reached
  have hlater : cursor < event.liveSequence := by omega
  obtain ⟨gone, hkept, hgone⟩ := h.kept
  refine ⟨⟨gone.filter (fun candidate => !supersedes event candidate), ?_, ?_⟩, le_of_lt hlater, ?_, ?_⟩
  · have hnew : [event].filter (fun event => cursor < event.liveSequence) = [event] := by
      simp [hlater]
    rw [unsuperseded_concat, hkept, filter_append, append_assoc]
    unfold TaskLive.push
    rw [filter_append, hnew, List.filter_filter, List.filter_filter]
    simp only [Bool.and_comm]
  · exact fun candidate hcandidate => hgone candidate (mem_of_mem_filter hcandidate)
  · rw [pairwise_append]
    refine ⟨h.ordered, pairwise_singleton _ _, fun left hleft right hright => ?_⟩
    rw [mem_singleton.mp hright, hnumber]
    exact Nat.lt_succ_of_le (h.numbers left hleft).2
  · intro candidate hcandidate
    rcases mem_append.mp hcandidate with hcandidate | hcandidate
    · obtain ⟨hafter, hgiven⟩ := h.numbers candidate hcandidate
      refine ⟨hafter, le_trans hgiven ?_⟩
      change live.sequence ≤ event.liveSequence
      omega
    · rw [mem_singleton.mp hcandidate]
      exact ⟨hlater, le_refl _⟩

variable {state : LiveState} {action : LiveAction} {cursor : ℕ}

lemma run_cases (taskID : String) (state : LiveState) (action : LiveAction) :
    (∃ event now, action.pushed taskID state = [event] ∧
        event.liveSequence = (state taskID).sequence + 1 ∧
        action.run state taskID = trimTaskLiveReplay now ((state taskID).push event)) ∨
      action.pushed taskID state = [] ∧ ((action.ends taskID = true ∧ action.run state taskID = .empty) ∨
          (∃ now, action.run state taskID = trimTaskLiveReplay now (state taskID)) ∨
          action.run state taskID = state taskID) := by
  cases action with
  | dispatch input now =>
    simp only [LiveAction.pushed, LiveAction.run, dispatchEphemeral]
    cases hlive : input.liveTaskID with
    | none => exact .inr ⟨rfl, .inr (.inr rfl)⟩
    | some other =>
      by_cases hother : other = taskID
      · subst hother
        refine .inl ⟨input.event other ((state other).sequence + 1) now, now, ?_, rfl, ?_⟩
        · simp [DispatchEphemeralInput.event]
        · simp [compactTaskLiveReplay]
      · refine .inr ⟨?_, .inr (.inl ⟨now, ?_⟩)⟩
        · simp [DispatchEphemeralInput.event, hother]
        · simp only [compactTaskLiveReplay]
          rw [Function.update_of_ne (Ne.symm hother)]
  | persist _ aggregateID =>
    refine .inr ⟨rfl, ?_⟩
    simp only [LiveAction.ends, LiveAction.run, publishEventSideEffects]
    split_ifs with hends
    · by_cases haggregate : aggregateID = taskID
      · subst haggregate
        exact .inl ⟨by simp [hends], Function.update_self _ _ _⟩
      · exact .inr (.inr (Function.update_of_ne (Ne.symm haggregate) _ _))
    · exact .inr (.inr rfl)
  | sweep now | list now => exact .inr ⟨rfl, .inr (.inl ⟨now, rfl⟩)⟩

variable (actions : List LiveAction)

lemma numbered_run (h : Numbered (state taskID)) : Numbered (runLive state actions taskID) := by
  induction actions generalizing state with
  | nil => exact h
  | cons action _ ih =>
    refine ih ?_
    rcases run_cases taskID state action with ⟨event, now, -, _, hrun⟩ |
      ⟨-, ⟨-, hrun⟩ | ⟨now, hrun⟩ | hrun⟩
    · rw [hrun]
      have hpushed : Numbered ((state taskID).push event) := by
        intro candidate hcandidate
        rcases mem_append.mp hcandidate with hcandidate | hcandidate
        · have hgiven := h candidate (mem_of_mem_filter hcandidate)
          change candidate.liveSequence ≤ event.liveSequence
          omega
        · rw [mem_singleton.mp hcandidate]
          exact le_refl _
      exact hpushed.trim now
    · rw [hrun]
      exact fun event hevent => absurd hevent not_mem_nil
    · rw [hrun]
      exact h.trim now
    · rw [hrun]
      exact h

lemma atMost_run (h : AtMost cursor (state taskID)) (hnone : liveEventsOf taskID state actions = []) :
    AtMost cursor (runLive state actions taskID) := by
  induction actions generalizing state with
  | nil => exact h
  | cons action _ ih =>
    obtain ⟨hpushed, hrest⟩ := append_eq_nil_iff.mp hnone
    refine ih ?_ hrest
    rcases run_cases taskID state action with ⟨event, now, hevent, -⟩ |
      ⟨-, ⟨-, hrun⟩ | ⟨now, hrun⟩ | hrun⟩
    · rw [hpushed] at hevent
      cases hevent
    · rw [hrun]
      exact ⟨Nat.zero_le cursor, fun event hevent => absurd hevent not_mem_nil⟩
    · rw [hrun]
      exact h.trim now
    · rw [hrun]
      exact h

lemma follows_run (h : Follows cursor (state taskID) later)
    (hruns : ∀ action ∈ actions, action.ends taskID = false) :
    Follows cursor (runLive state actions taskID) (later ++ liveEventsOf taskID state actions) := by
  induction actions generalizing state later with
  | nil =>
    rw [liveEventsOf, List.append_nil]
    exact h
  | cons action _ ih =>
    rw [liveEventsOf, ← append_assoc]
    refine ih ?_ fun action haction => hruns action (mem_cons_of_mem _ haction)
    rcases run_cases taskID state action with ⟨_, now, hpushed, hnumber, hrun⟩ |
      ⟨hpushed, ⟨hends, -⟩ | ⟨now, hrun⟩ | hrun⟩
    · rw [hpushed, hrun]
      exact (h.push hnumber).trim now
    · rw [hruns action mem_cons_self] at hends
      cases hends
    · rw [hpushed, hrun, List.append_nil]
      exact h.trim now
    · rw [hpushed, hrun, List.append_nil]
      exact h

lemma Follows.noGap {epoch now : ℤ} (h : Follows cursor (state taskID) later)
    (hcursor : cursor = 0 → (trimTaskLiveReplay now (state taskID)).floor = 0) :
    NoGap epoch state taskID cursor now later := by
  have hswept := h.trim now
  obtain ⟨dropped, hkept, hdropped⟩ := hswept.kept
  have hcurrent : ¬(some epoch).any (fun liveEpoch => decide (liveEpoch ≠ epoch)) = true := by simp
  have hlist : ∀ {result}, (listTaskLiveEventsAfter epoch state taskID cursor (some epoch) now).2 =
      result → (if 0 < cursor ∧ cursor < (trimTaskLiveReplay now (state taskID)).floor then
        .expired "selected task live replay retention expired"
      else .events ((trimTaskLiveReplay now (state taskID)).events.filter
        fun event => cursor < event.liveSequence)) = result :=
    fun {_} heq => (if_neg hcurrent).symm.trans heq
  unfold NoGap
  split
  · trivial
  next events hresult =>
    have hevents := hlist hresult
    split_ifs at hevents with hexpired
    obtain rfl := TaskLiveReplayResult.events.inj hevents
    -- nothing that is needed is at or below the floor
    have hnone : dropped = [] := by
      rw [eq_nil_iff_forall_not_mem]
      intro event hevent
      have hbelow := hdropped event hevent
      have hneeded : event ∈ unsuperseded later := hkept ▸ mem_append_left _ hevent
      have hafter := (h.numbers event ((unsuperseded_sublist later).subset hneeded)).1
      rcases Nat.eq_zero_or_pos cursor with hzero | hpos
      · have hfloor := hcursor hzero
        omega
      · have hcovered : ¬cursor < (trimTaskLiveReplay now (state taskID)).floor :=
          fun hlt => hexpired ⟨hpos, hlt⟩
        omega
    rw [hnone, nil_append] at hkept
    exact ⟨hkept.symm, hkept ▸ h.ordered.sublist (unsuperseded_sublist later)⟩

/-- A subscriber has every live event of a Task up to its cursor, and any actions follow.  If the Task
does not end among them, or pushes no live event, and if a subscriber without a cursor finds nothing
dropped by age or by size, the answer has no gap. -/
theorem liveReplay_noGap {before actions : List LiveAction} {taskID : String} {epoch now : ℤ}
    (hruns : (∀ action ∈ actions, action.ends taskID = false) ∨
      liveEventsOf taskID (runLive .initial before) actions = [])
    (hcursor : (runLive .initial before taskID).sequence = 0 →
      (trimTaskLiveReplay now (runLive (runLive .initial before) actions taskID)).floor = 0) :
    NoGap epoch (runLive (runLive .initial before) actions) taskID (runLive .initial before taskID).sequence now
      (liveEventsOf taskID (runLive .initial before) actions) := by
  have hnumbered : Numbered (runLive .initial before taskID) :=
    numbered_run before fun event hevent => absurd hevent not_mem_nil
  have hnothing : ∀ live : TaskLive, (∀ event ∈ live.events, event.liveSequence ≤
      (runLive .initial before taskID).sequence) → live.events.filter (fun event =>
        (runLive .initial before taskID).sequence < event.liveSequence) = [] := by
    intro live hlive
    rw [filter_eq_nil_iff]
    intro event hevent
    have hgiven := hlive event hevent
    simpa using hgiven
  rcases hruns with hruns | hnone
  · have hstart : Follows (runLive .initial before taskID).sequence (runLive .initial before taskID) [] :=
      { kept := ⟨[], (hnothing _ hnumbered).symm, fun _ h => absurd h not_mem_nil⟩
        reached := le_refl _
        ordered := List.Pairwise.nil
        numbers := fun _ h => absurd h not_mem_nil }
    have hend := follows_run actions hstart hruns
    rw [nil_append] at hend
    exact hend.noGap hcursor
  · have hquiet := (atMost_run actions ⟨le_refl _, hnumbered⟩ hnone).trim now
    rw [hnone]
    unfold NoGap
    split
    · trivial
    next events hresult =>
      unfold listTaskLiveEventsAfter at hresult
      dsimp only at hresult
      split_ifs at hresult
      obtain rfl := TaskLiveReplayResult.events.inj hresult
      have hempty := hnothing _ hquiet.2
      exact ⟨hempty, hempty ▸ List.Pairwise.nil⟩

def delta (part : String) : LiveAction :=
  .dispatch
    { type := .partDelta, aggregate := .task, taskID := some "t", sessionID := some "s", orderKey := "k"
      payload := { part := none, partID := some part, messageID := some "m", sessionID := some "s"
                   field := some "text", infoID := none } } 0

def close (part : String) : LiveAction :=
  .dispatch
    { type := .partUpdated, aggregate := .task, taskID := some "t", sessionID := some "s", orderKey := "k"
      payload := { part := some { id := some part, messageID := some "m", sessionID := some "s"
                                  type := .text, ended := true, status := none }
                   partID := none, messageID := none, sessionID := none, field := none
                   infoID := none } } 0

/-- A subscriber that has one delta is given a later one and the update that supersedes another. -/
theorem liveReplay_noGap_of_deltas : (runLive .initial [delta "p"] "t").sequence = 1 ∧
      (unsuperseded (liveEventsOf "t" (runLive .initial [delta "p"])
        [delta "p", delta "q", close "p"])).map (·.liveSequence) = [3, 4] ∧
      NoGap 7 (runLive (runLive .initial [delta "p"]) [delta "p", delta "q", close "p"]) "t"
        (runLive .initial [delta "p"] "t").sequence 1
        (liveEventsOf "t" (runLive .initial [delta "p"]) [delta "p", delta "q", close "p"]) := by
  refine ⟨by decide, by decide, liveReplay_noGap (.inl ?_) ?_⟩
  · decide
  · exact fun hzero => absurd hzero (by decide)

def endAndReopen : List LiveAction :=
  [.persist .task "t" "task.completed", .persist .task "t" "task.execution.reopened"]

/-- A subscriber that has two live events of a Task is not given the first event of the next epoch of the
Task, nor told that its cursor expired. -/
theorem not_noGap_of_reopened : (runLive .initial [delta "p", delta "q"] "t").sequence = 2 ∧
      ¬NoGap 7 (runLive (runLive .initial [delta "p", delta "q"]) (endAndReopen ++ [delta "r"])) "t"
        (runLive .initial [delta "p", delta "q"] "t").sequence 1
        (liveEventsOf "t" (runLive .initial [delta "p", delta "q"]) (endAndReopen ++ [delta "r"])) :=
  ⟨by decide, by decide⟩

end OpenCorvus.Protocol.LiveReplay
