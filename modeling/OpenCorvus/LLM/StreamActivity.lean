import Mathlib.Data.Nat.Notation

/-!
# The inactivity monitor of a stream

A monitor trips when its stream is silent for too long.  It can be paused: no idle timer is armed while the depth of
the pauses is positive, and one timer bounds the outermost pause.  A timer is the time from which it may fire; one
that has fired stays in its variable until it is rearmed or cleared.
-/

namespace OpenCorvus.LLM

/-- What `withStreamActivity` reads of its options. -/
structure StreamActivityOptions where
  idleMs : ℕ
  maxPauseMs : Option ℕ

/-- Why a monitor has tripped. -/
inductive Inactivity where
  | idle
  /-- The pause lasted too long; the live owners are named. -/
  | paused (owners : List String)

structure StreamActivityMonitor where
  options : StreamActivityOptions
  last : ℕ
  disposed : Bool
  timer : Option ℕ
  pauseTimer : Option ℕ
  pauseDepth : ℕ
  /-- The abort of the inactivity signal. -/
  inactivity : Option Inactivity

namespace StreamActivityMonitor

variable (monitor : StreamActivityMonitor) (now : ℕ)

def clear : StreamActivityMonitor := { monitor with timer := none }

def clearPause : StreamActivityMonitor := { monitor with pauseTimer := none }

def schedule : StreamActivityMonitor :=
  if monitor.disposed then monitor
  else if 0 < monitor.pauseDepth then monitor.clear
  else { monitor.clear with timer := some (now + monitor.options.idleMs) }

def schedulePause : StreamActivityMonitor :=
  if monitor.disposed then monitor
  else
    match monitor.options.maxPauseMs with
    | none => monitor.clearPause
    | some maxPauseMs =>
      if monitor.pauseDepth = 0 then monitor.clearPause
      else { monitor.clearPause with pauseTimer := some (now + maxPauseMs) }

variable {monitor now}

lemma schedule_eq (hlive : monitor.disposed = false) (hdepth : monitor.pauseDepth = 0) :
    monitor.schedule now = { monitor with timer := some (now + monitor.options.idleMs) } := by
  unfold schedule
  rw [if_neg (by simp [hlive]), if_neg (by omega)]
  rfl

lemma schedulePause_eq {maxPauseMs : ℕ} (hlive : monitor.disposed = false)
    (hlimit : monitor.options.maxPauseMs = some maxPauseMs) (hdepth : monitor.pauseDepth ≠ 0) :
    monitor.schedulePause now = { monitor with pauseTimer := some (now + maxPauseMs) } := by
  unfold schedulePause
  rw [if_neg (by simp [hlive]), hlimit]
  exact if_neg hdepth

variable (monitor now)

def trip : StreamActivityMonitor :=
  if monitor.disposed ∨ monitor.inactivity.isSome then monitor
  else { monitor with inactivity := some .idle }

def tripPause (owners : List String) : StreamActivityMonitor :=
  if monitor.disposed ∨ monitor.inactivity.isSome then monitor
  else { monitor with inactivity := some (.paused owners) }

/-- Something arrived: the timer that is armed starts again. -/
def observe : StreamActivityMonitor :=
  if monitor.disposed then monitor
  else if 0 < monitor.pauseDepth then { monitor with last := now }.schedulePause now
  else { monitor with last := now }.schedule now

def pause : StreamActivityMonitor :=
  if monitor.disposed then monitor
  else
    let paused := { monitor with pauseDepth := monitor.pauseDepth + 1 }.clear
    if paused.pauseDepth = 1 ∧ monitor.options.maxPauseMs.isSome ∧ monitor.pauseTimer = none then
      paused.schedulePause now
    else paused

/-- Leave a pause; leaving the outermost one arms the idle timer. -/
def resume : StreamActivityMonitor :=
  if monitor.disposed ∨ monitor.pauseDepth = 0 then monitor
  else
    let resumed := { monitor with pauseDepth := monitor.pauseDepth - 1 }
    if resumed.pauseDepth = 0 then { resumed.clearPause with last := now }.schedule now
    else resumed

end StreamActivityMonitor

def withStreamActivity (options : StreamActivityOptions) (now : ℕ) : Option StreamActivityMonitor :=
  if options.idleMs = 0 ∨ options.maxPauseMs = some 0 then none
  else
    let monitor : StreamActivityMonitor :=
      { options
        last := now
        disposed := false
        timer := none
        pauseTimer := none
        pauseDepth := 0
        inactivity := none }
    some (monitor.schedule now)

end OpenCorvus.LLM
