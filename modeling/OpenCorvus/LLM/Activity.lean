import OpenCorvus.Foundation.Utf16
import OpenCorvus.LLM.StreamActivity

/-!
# The activity of a request to a language model

An activity runs attempts of one request until one of them succeeds.  Four signals abort an attempt: the caller, the
deadline of the activity, the wait for the first byte and the silence of the stream.  Owners of pauses are shared by
all attempts, while every attempt makes its own idle monitor at its first byte.  Everything is reported to one sink.
-/

namespace OpenCorvus.LLM

/-! ## Errors -/

inductive ErrorClass where
  | externalAbort
  | totalTimeout
  | firstByte
  | idle
  | rateLimit
  | quotaExhausted
  | tls
  | network
  | server5xx
  | streamProtocol
  | client4xx
  | requestTimeout
  | payloadTooLarge
  | contextOverflow
  | authRequired
  | hostFault
  | unknown
deriving DecidableEq

def ErrorClass.text : ErrorClass → String
  | .externalAbort => "external_abort"
  | .totalTimeout => "total_timeout"
  | .firstByte => "first_byte"
  | .idle => "idle"
  | .rateLimit => "rate_limit"
  | .quotaExhausted => "quota_exhausted"
  | .tls => "tls"
  | .network => "network"
  | .server5xx => "server_5xx"
  | .streamProtocol => "stream_protocol"
  | .client4xx => "client_4xx"
  | .requestTimeout => "request_timeout"
  | .payloadTooLarge => "payload_too_large"
  | .contextOverflow => "context_overflow"
  | .authRequired => "auth_required"
  | .hostFault => "host_fault"
  | .unknown => "unknown"

structure APICallError where
  statusCode : Option ℕ
  responseBody : Option String

inductive Thrown where
  /-- An `Error`, with the marker `_activity_cause` when the activity made it. -/
  | error (name message : String) (activityCause : Option ErrorClass) (apiCall : Option APICallError)
  /-- Any other value, by its text. -/
  | value (text : String)

def readAbortCause : Thrown → Option ErrorClass
  | .error _ _ activityCause _ => activityCause
  | .value _ => none

def makeAbortReason (cause : ErrorClass) (message : String) : Thrown :=
  .error "AbortError" message (some cause) none

/-- The `APICallError` that a thrown value is. -/
def Thrown.apiCall? : Thrown → Option APICallError
  | .error _ _ _ apiCall => apiCall
  | .value _ => none

/-- The name and the message of an `Error`. -/
def Thrown.named : Thrown → Option (String × String)
  | .error name message _ _ => some (name, message)
  | .value _ => none

def Thrown.reason : Thrown → Utf16.Units
  | .error name message _ _ =>
    Utf16.encode (name ++ ": ").toList ++ (Utf16.encode message.toList).take 200
  | .value text => (Utf16.encode text.toList).take 200

structure LLMActivityError where
  name : String
  cls : ErrorClass
  attempts : ℕ
  cause : Thrown

/-- `new LLMActivityError(...)`. -/
def llmActivityError (cls : ErrorClass) (attempts : ℕ) (cause : Thrown) : LLMActivityError :=
  ⟨"LLMActivityError", cls, attempts, cause⟩

/-- `new LLMActivityAbortedError(...)`. -/
def llmActivityAbortedError (attempts : ℕ) (cause : Thrown) : LLMActivityError :=
  ⟨"LLMActivityAbortedError", .externalAbort, attempts, cause⟩

/-- An `LLMActivityError` as the value that is thrown. -/
def LLMActivityError.thrown (error : LLMActivityError) : Thrown :=
  .error error.name ("LLMActivity failed cls=" ++ error.cls.text ++ " attempts=" ++ toString error.attempts)
    none none

/-! ## Events -/

inductive HeartbeatKind where
  | firstByte
  | textDelta
  | reasoningDelta
  | toolInputStart
  | toolInputDelta
  | toolInputEnd
  | toolCall
  | toolResult
  | toolError
  | stepStart
  | stepFinish
  | manual
deriving DecidableEq

/-- `HEARTBEAT_FIRST_BYTE`: every kind counts as the first byte. -/
def heartbeatFirstByte : List HeartbeatKind :=
  [.firstByte, .textDelta, .reasoningDelta, .toolInputStart, .toolInputDelta, .toolInputEnd, .toolCall,
    .toolResult, .toolError, .stepStart, .stepFinish, .manual]

/-- How an activity ends. -/
inductive Outcome where
  | done
  | failed
  | aborted

structure RetryEvent where
  ts : ℕ
  attempt : ℕ
  cls : ErrorClass
  backoffMs : ℕ
  reason : Utf16.Units
  lastHeartbeat : Option (HeartbeatKind × ℕ)

inductive LLMActivityEvent where
  | started (ts : ℕ) (sessionID provider model : String)
  | heartbeat (ts : ℕ) (kind : HeartbeatKind)
  | paused (ts : ℕ) (reason : String)
  | resumed (ts : ℕ) (reason : String)
  | retry (event : RetryEvent)
  | terminal (ts : ℕ) (outcome : Outcome) (attempts : ℕ) (cls : Option ErrorClass)
      (error : Option (String × String))

/-! ## The policy -/

structure ClassifyContext where
  httpStatus : Option ℕ
  bodyHead : Option Utf16.Units
  abortReason : Option Thrown

/-- The policy of an activity; the functions are any pure ones. -/
structure LLMActivityPolicy where
  totalMs : ℕ
  idleMs : ℕ
  maxPauseMs : ℕ
  firstByteMs : ℕ
  maxRetries : ErrorClass → Option ℕ
  maxRetriesDefault : ℕ
  classify : Thrown → ClassifyContext → ErrorClass
  isRetryable : ErrorClass → Bool
  backoffMs : ErrorClass → ℕ → ℕ → ℤ

/-- How many retries a failure of a class may have.  A stream that fell silent after its first byte alone
has the limit of a request that never began. -/
def LLMActivityPolicy.cap (policy : LLMActivityPolicy) (cls : ErrorClass)
    (lastHeartbeat : Option (HeartbeatKind × ℕ)) : ℕ :=
  let configuredCap := (policy.maxRetries cls).getD policy.maxRetriesDefault
  if cls = .idle ∧ lastHeartbeat.map Prod.fst = some .firstByte then
    (policy.maxRetries .firstByte).getD configuredCap
  else configuredCap

/-- `RETRYABLE_CLASSES`. -/
def retryableClasses : List ErrorClass :=
  [.rateLimit, .server5xx, .network, .tls, .streamProtocol, .firstByte, .idle]

def defaultLLMActivityPolicy (classify : Thrown → ClassifyContext → ErrorClass)
    (backoffMs : ErrorClass → ℕ → ℕ → ℤ) : LLMActivityPolicy where
  totalMs := 60 * 60000
  idleMs := 180000
  maxPauseMs := 15 * 60000
  firstByteMs := 90000
  maxRetries
    | .rateLimit => some 15
    | .firstByte => some 1
    | _ => none
  maxRetriesDefault := 5
  classify
  isRetryable cls := cls ∈ retryableClasses
  backoffMs

/-! ## The state -/

/-- The variables of one attempt, which its run object closes over. -/
structure Attempt where
  firstByteTimer : Option ℕ
  /-- The reason of the abort for want of a first byte. -/
  firstByte : Option Thrown
  firstByteSeen : Bool
  monitor : Option StreamActivityMonitor
  /-- The reason of the abort for silence. -/
  idle : Option Thrown
  lastHeartbeat : Option (HeartbeatKind × ℕ)
  /-- The reason of the composed signal: that of the first of the four that aborted. -/
  composed : Option Thrown

/-- Where the runner of an activity with values in `τ` is. -/
inductive Phase (τ : Type) where
  /-- It awaits the attempt function. -/
  | attempting
  /-- It awaits the hook before the retry. -/
  | beforeRetry (event : RetryEvent) (error : Thrown)
  /-- It sleeps before the next attempt. -/
  | sleeping (wakeAt : ℕ) (error : Thrown)
  /-- The activity has returned or thrown. -/
  | settled (result : Except LLMActivityError τ)

/-- What an activity is started with. -/
structure LLMActivity where
  sessionID : String
  provider : String
  model : String
  policy : LLMActivityPolicy
  /-- The options have a hook before a retry. -/
  hasBeforeRetry : Bool

structure ActivityState (τ : Type) where
  now : ℕ
  /-- What the sink was told. -/
  events : List LLMActivityEvent
  startedAt : ℕ
  pausedStartedAt : Option ℕ
  pausedTotalMs : ℕ
  pauseOwners : List String
  totalTimer : Option ℕ
  /-- The reason of the external abort, while the activity listens to it. -/
  external : Option Thrown
  /-- The reason of the abort at the deadline. -/
  total : Option Thrown
  terminalEmitted : Bool
  attempt : ℕ
  /-- The attempts, of which the last is the one in progress. -/
  attempts : List Attempt
  phase : Phase τ

namespace ActivityState

variable {τ : Type} (activity : LLMActivity) (s : ActivityState τ)

/-! ## Time and events -/

/-- The time that counts for the deadline. -/
def activeElapsedMs : ℕ :=
  s.now - s.startedAt - s.pausedTotalMs - (s.pausedStartedAt.map fun since => s.now - since).getD 0

/-- The time that is left to the deadline. -/
def remainingTotalMs : ℕ := activity.policy.totalMs - s.activeElapsedMs

def sink (event : LLMActivityEvent) : ActivityState τ := { s with events := s.events ++ [event] }

def emitTerminal (outcome : Outcome) (cls : Option ErrorClass) (error : Option Thrown) : ActivityState τ :=
  if s.terminalEmitted then s
  else
    { s with terminalEmitted := true }.sink (.terminal s.now outcome (s.attempt + 1) cls (error.bind Thrown.named))

/-! ## The deadline and the pauses -/

def composeAbort (reason : Thrown) : List Attempt :=
  s.attempts.map fun attempt => { attempt with composed := attempt.composed <|> some reason }

def totalReason : Thrown :=
  makeAbortReason .totalTimeout
    ("LLMActivity total deadline " ++ toString activity.policy.totalMs ++ "ms exceeded")

/-- `totalCtrl.abort`. -/
def abortTotal : ActivityState τ :=
  match s.total with
  | some _ => s
  | none =>
    { s with
      total := some (totalReason activity)
      attempts := s.composeAbort (totalReason activity) }

def armTotalTimer : ActivityState τ :=
  let cleared := { s with totalTimer := none }
  if s.total.isSome ∨ s.pauseOwners ≠ [] then cleared
  else if s.remainingTotalMs activity = 0 then cleared.abortTotal activity
  else { cleared with totalTimer := some (s.now + s.remainingTotalMs activity) }

def beginPause (owner : String) : ActivityState τ :=
  let owned := { s with pauseOwners := s.pauseOwners ++ [owner] }
  if owned.pauseOwners.length ≠ 1 then owned
  else { owned with pausedStartedAt := some s.now, totalTimer := none }

def countPause : ActivityState τ :=
  match s.pausedStartedAt with
  | none => s
  | some since => { s with pausedTotalMs := s.pausedTotalMs + (s.now - since), pausedStartedAt := none }

def endPause (owner : String) : ActivityState τ :=
  let owned := { s with pauseOwners := s.pauseOwners.erase owner }
  if owned.pauseOwners ≠ [] then owned
  else owned.countPause.armTotalTimer activity

def closePauseWindow : ActivityState τ :=
  if s.pauseOwners = [] then s
  else { s.countPause with pauseOwners := [] }.armTotalTimer activity

/-! ## The run object of an attempt -/

def withAttempt (index : ℕ) (attempt : Attempt) : ActivityState τ :=
  { s with attempts := s.attempts.set index attempt }

/-- Make the idle monitor of an attempt; `withStreamActivity` may throw. -/
def startIdleMonitor (attempt : Attempt) : Option Attempt :=
  match attempt.monitor with
  | some _ => some attempt
  | none =>
    (withStreamActivity ⟨activity.policy.idleMs, some activity.policy.maxPauseMs⟩ s.now).map
      fun monitor => { attempt with monitor := some monitor }

def heartbeat (index : ℕ) (attempt : Attempt) (kind : HeartbeatKind) : ActivityState τ :=
  (s.withAttempt index
    { attempt with
      monitor := attempt.monitor.map fun monitor => monitor.observe s.now
      lastHeartbeat := some (kind, s.now) }).sink (.heartbeat s.now kind)

/-- `run.bump`. -/
def bump (index : ℕ) (attempt : Attempt) (kind : HeartbeatKind) : ActivityState τ :=
  if s.terminalEmitted then s
  else if kind = .firstByte ∧ attempt.firstByteSeen then s
  else if attempt.firstByteSeen = false ∧ kind ∈ heartbeatFirstByte then
    let seen := { attempt with firstByteSeen := true, firstByteTimer := none }
    match s.startIdleMonitor activity seen with
    | none => s.withAttempt index seen
    | some monitored =>
      let first := { monitored with lastHeartbeat := some (.firstByte, s.now) }
      let reported := (s.withAttempt index first).sink (.heartbeat s.now .firstByte)
      if kind = .firstByte then reported else reported.heartbeat index first kind
  else s.heartbeat index attempt kind

/-- `run.pause`. -/
def pause (index : ℕ) (attempt : Attempt) (owner : String) : ActivityState τ :=
  if s.terminalEmitted ∨ owner ∈ s.pauseOwners then s
  else
    (((s.beginPause owner).withAttempt index
      { attempt with monitor := attempt.monitor.map fun monitor => monitor.pause s.now }).sink
        (.paused s.now owner))

/-- `run.resume`. -/
def resume (index : ℕ) (owner : String) : ActivityState τ :=
  if s.terminalEmitted ∨ owner ∉ s.pauseOwners then s
  else
    let ended := s.endPause activity owner
    let resumed :=
      { ended with
        attempts := ended.attempts.modify index fun attempt =>
          { attempt with
            monitor := attempt.monitor.map fun (monitor : StreamActivityMonitor) => monitor.resume s.now } }
    resumed.sink (.resumed s.now owner)

/-! ## The runner -/

/-- The activity returns or throws: the block `finally`. -/
def settle (result : Except LLMActivityError τ) : ActivityState τ :=
  let ended := { s with totalTimer := none, phase := .settled result }
  if s.terminalEmitted then ended else ended.emitTerminal .failed (some .unknown) none

def beginAttempt : ActivityState τ :=
  match s.external with
  | some reason =>
    (s.emitTerminal .aborted (some ((readAbortCause reason).getD .externalAbort)) (some reason)).settle
      (.error (llmActivityAbortedError s.attempt reason))
  | none =>
    match s.total with
    | some reason =>
      (s.emitTerminal .failed (some .totalTimeout) (some reason)).settle
        (.error (llmActivityError .totalTimeout s.attempt reason))
    | none =>
      if s.remainingTotalMs activity = 0 then
        ((s.abortTotal activity).emitTerminal .failed (some .totalTimeout) (some (totalReason activity))).settle
          (.error (llmActivityError .totalTimeout s.attempt (totalReason activity)))
      else
        { s with
          phase := .attempting
          attempts := s.attempts ++
            [{ firstByteTimer := some (s.now + activity.policy.firstByteMs)
               firstByte := none
               firstByteSeen := false
               monitor := none
               idle := none
               lastHeartbeat := none
               composed := none }] }

def closeAttempt : ActivityState τ :=
  let closed := s.closePauseWindow activity
  { closed with
    attempts := closed.attempts.modify closed.attempt fun attempt =>
      { attempt with firstByteTimer := none, monitor := none } }

def retry (event : RetryEvent) (error : Thrown) : ActivityState τ :=
  { s.sink (.retry event) with phase := .sleeping (s.now + event.backoffMs) error }

/-- The block `catch` of an attempt. -/
def attemptFailed (error : Thrown) : ActivityState τ :=
  let closed := s.closeAttempt activity
  match closed.external with
  | some reason =>
    (closed.emitTerminal .aborted (some .externalAbort) (some reason)).settle
      (.error (llmActivityAbortedError closed.attempt reason))
  | none =>
    let attempt := closed.attempts[closed.attempt]?
    let apiCall := error.apiCall?
    let cls := activity.policy.classify error
      { httpStatus := apiCall.bind APICallError.statusCode
        bodyHead := (apiCall.bind APICallError.responseBody).map fun body =>
          (Utf16.encode body.toList).take 1024
        abortReason := attempt.bind Attempt.composed }
    let lastHeartbeat := attempt.bind Attempt.lastHeartbeat
    let remain := closed.remainingTotalMs activity
    if activity.policy.isRetryable cls = false then
      (closed.emitTerminal .failed (some cls) (some error)).settle
        (.error (llmActivityError cls closed.attempt error))
    else if activity.policy.cap cls lastHeartbeat ≤ closed.attempt then
      (closed.emitTerminal .failed (some cls) (some error)).settle
        (.error (llmActivityError cls closed.attempt error))
    else if remain = 0 then
      (closed.emitTerminal .failed (some .totalTimeout) (some error)).settle
        (.error (llmActivityError .totalTimeout closed.attempt error))
    else
      let event : RetryEvent :=
        { ts := closed.now
          attempt := closed.attempt + 1
          cls
          backoffMs := (max 0 (min (activity.policy.backoffMs cls closed.attempt remain) remain)).toNat
          reason := error.reason
          lastHeartbeat }
      if activity.hasBeforeRetry then { closed with phase := .beforeRetry event error }
      else closed.retry event error

def attemptReturned (value : τ) : ActivityState τ :=
  let closed := s.closeAttempt activity
  match closed.external with
  | some reason =>
    -- The error that is thrown here is caught by the block of the attempt.
    (closed.emitTerminal .aborted (some .externalAbort) (some reason)).attemptFailed activity
      (llmActivityAbortedError closed.attempt reason).thrown
  | none =>
    if closed.total.isSome ∨ closed.remainingTotalMs activity = 0 then
      let reason := closed.total.getD (totalReason activity)
      ((closed.abortTotal activity).emitTerminal .failed (some .totalTimeout) (some reason)).attemptFailed
        activity (llmActivityError .totalTimeout closed.attempt reason).thrown
    else (closed.emitTerminal .done none none).settle (.ok value)

def beforeRetryFailed (event : RetryEvent) (error : Thrown) : ActivityState τ :=
  (s.emitTerminal .failed (some event.cls) (some error)).settle
    (.error (llmActivityError event.cls s.attempt error))

/-- The sleep before the next attempt is over. -/
def woken (error : Thrown) : ActivityState τ :=
  match s.external with
  | some reason =>
    (s.emitTerminal .aborted (some .externalAbort) (some reason)).settle
      (.error (llmActivityAbortedError (s.attempt + 1) reason))
  | none =>
    if s.total.isSome then
      (s.emitTerminal .failed (some .totalTimeout) (some error)).settle
        (.error (llmActivityError .totalTimeout (s.attempt + 1) error))
    else { s with attempt := s.attempt + 1 }.beginAttempt activity

end ActivityState

/-! ## The system -/

/-- The call `withLLMActivity`, up to its first await; limits that are not positive are refused before
anything is told. -/
def withLLMActivity {τ : Type} (activity : LLMActivity) (now : ℕ) (external : Option Thrown) :
    Option (ActivityState τ) :=
  if activity.policy.totalMs = 0 ∨ activity.policy.idleMs = 0 ∨ activity.policy.firstByteMs = 0 then none
  else
    let started : ActivityState τ :=
      { now
        events := [.started now activity.sessionID activity.provider activity.model]
        startedAt := now
        pausedStartedAt := none
        pausedTotalMs := 0
        pauseOwners := []
        totalTimer := none
        external
        total := none
        terminalEmitted := false
        attempt := 0
        attempts := []
        phase := .attempting }
    some ((started.armTotalTimer activity).beginAttempt activity)

inductive ActivityTimer where
  | total
  | firstByte (index : ℕ)
  | idle (index : ℕ)
  | pause (index : ℕ)
deriving DecidableEq

/-- What happens next. -/
inductive ActivityAction (τ : Type) where
  | wait (ms : ℕ)
  | externalAbort (reason : Thrown)
  | fire (timer : ActivityTimer)
  | bump (index : ℕ) (kind : HeartbeatKind)
  | pause (index : ℕ) (owner : String)
  | resume (index : ℕ) (owner : String)
  | attemptReturns (value : τ)
  | attemptThrows (error : Thrown)
  | beforeRetryReturns
  | beforeRetryThrows (error : Thrown)
  | wake

section Step

variable {τ : Type} (activity : LLMActivity) (s : ActivityState τ)

def due (timer : Option ℕ) (now : ℕ) : Bool := timer.any (· ≤ now)

def ActivityState.monitorTripped (index : ℕ) (attempt : Attempt) (monitor : StreamActivityMonitor) :
    ActivityState τ :=
  let reason := makeAbortReason .idle ("LLMActivity idle > " ++ toString activity.policy.idleMs ++ "ms")
  s.withAttempt index
    { attempt with
      monitor := some monitor
      idle := attempt.idle <|> some reason
      composed := attempt.composed <|> some reason }

def ActivityState.fire : ActivityTimer → Option (ActivityState τ)
  | .total => if s.total = none ∧ due s.totalTimer s.now then some (s.abortTotal activity) else none
  | .firstByte index => do
    let attempt ← s.attempts[index]?
    if attempt.firstByte = none ∧ due attempt.firstByteTimer s.now then
      let reason := makeAbortReason .firstByte
        ("LLMActivity first byte > " ++ toString activity.policy.firstByteMs ++ "ms")
      some (s.withAttempt index
        { attempt with firstByte := some reason, composed := attempt.composed <|> some reason })
    else none
  | .idle index => do
    let attempt ← s.attempts[index]?
    let monitor ← attempt.monitor
    if monitor.inactivity = none ∧ due monitor.timer s.now then
      some (s.monitorTripped activity index attempt monitor.trip)
    else none
  | .pause index => do
    let attempt ← s.attempts[index]?
    let monitor ← attempt.monitor
    if monitor.inactivity = none ∧ due monitor.pauseTimer s.now then
      some (s.monitorTripped activity index attempt (monitor.tripPause s.pauseOwners))
    else none

def activityStep : ActivityAction τ → Option (ActivityState τ)
  | .wait ms => some { s with now := s.now + ms }
  | .externalAbort reason =>
    match s.external, s.phase with
    | none, .settled _ => none
    | none, _ => some { s with external := some reason, attempts := s.composeAbort reason }
    | some _, _ => none
  | .fire timer => s.fire activity timer
  | .bump index kind => (s.attempts[index]?).map fun attempt => s.bump activity index attempt kind
  | .pause index owner => (s.attempts[index]?).map fun attempt => s.pause index attempt owner
  | .resume index owner => (s.attempts[index]?).map fun _ => s.resume activity index owner
  | .attemptReturns value =>
    match s.phase with
    | .attempting => some (s.attemptReturned activity value)
    | _ => none
  | .attemptThrows error =>
    match s.phase with
    | .attempting => some (s.attemptFailed activity error)
    | _ => none
  | .beforeRetryReturns =>
    match s.phase with
    | .beforeRetry event error => some (s.retry event error)
    | _ => none
  | .beforeRetryThrows error =>
    match s.phase with
    | .beforeRetry event _ => some (s.beforeRetryFailed event error)
    | _ => none
  | .wake =>
    match s.phase with
    | .sleeping wakeAt error =>
      if wakeAt ≤ s.now ∨ s.external.isSome ∨ s.total.isSome then some (s.woken activity error) else none
    | _ => none

end Step

end OpenCorvus.LLM
