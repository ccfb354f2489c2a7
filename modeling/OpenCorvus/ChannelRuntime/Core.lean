import OpenCorvus.Foundation.PromiseChain

/-!
# The start of a channel runtime's adapters

`_doStart` registers a message callback with every candidate adapter and then starts the adapters in parallel.
Messages that arrive before an adapter has started are kept in its startup buffer; when the start resolves, they are
chained on the adapter's delivery promise, and later messages behind them.  The start of the adapter awaits their
delivery, and a rejection stops the adapter.
-/

namespace OpenCorvus.ChannelRuntime

open PromiseChain

/-- `STARTUP_MESSAGE_LIMIT`. -/
def startupMessageLimit : ℕ := 1000

inductive Startup where
  /-- `adapter.start()` has not settled. -/
  | starting
  /-- It awaits the delivery promise after the first `flushed` links. -/
  | delivering (flushed : ℕ)
  | fulfilled
  /-- It awaits `adapter.stop()` after a failure. -/
  | stopping
  | rejected
  deriving DecidableEq

structure Owner (μ : Type) where
  platform : String
  admitted : Bool
  settled : Bool
  buffer : List μ
  delivery : Chain μ
  failure : Option String
  startup : Startup
  deriving DecidableEq

/-- What the message callback answers the adapter. -/
inductive Reply where
  | resolved
  | rejected (failure : String)
  /-- The delivery promise with this many links. -/
  | delivery (links : ℕ)

namespace Owner

variable {μ : Type} (owner : Owner μ)

def candidate (platform : String) : Owner μ :=
  { platform, admitted := false, settled := false, buffer := [], delivery := .resolved, failure := none,
    startup := .starting }

def exceeded : String :=
  owner.platform ++ " adapter exceeded " ++ toString startupMessageLimit ++
    " buffered startup messages before readiness"

/-- The callback that `adapter.onMessage` registers. -/
def onMessage (m : μ) : Owner μ × Reply :=
  if owner.admitted then
    let delivery := owner.delivery.attach m
    ({ owner with delivery }, .delivery delivery.links.length)
  else
    match owner.failure with
    | some failure => (owner, .rejected failure)
    | none =>
      if owner.settled then (owner, .resolved)
      else if startupMessageLimit ≤ owner.buffer.length then
        ({ owner with failure := some owner.exceeded }, .rejected owner.exceeded)
      else ({ owner with buffer := owner.buffer ++ [m] }, .resolved)

/-- The catch branch of an adapter's start, up to the await of `adapter.stop()`. -/
def fail : Owner μ :=
  { owner with admitted := false, settled := true, buffer := [], startup := .stopping }

/-- `adapter.start()` has resolved: the buffer is chained and the adapter admitted, up to the await of the
delivery. -/
def started : Option (Owner μ) :=
  match owner.startup with
  | .starting =>
    match owner.failure with
    | some _ => some owner.fail
    | none =>
      let delivery := owner.buffer.foldl Chain.attach owner.delivery
      some { owner with delivery, buffer := [], admitted := true, startup := .delivering delivery.links.length }
  | _ => none

/-- `adapter.start()` has rejected. -/
def startFailed : Option (Owner μ) :=
  match owner.startup with
  | .starting => some owner.fail
  | _ => none

def delivered : Option (Owner μ) :=
  match owner.startup with
  | .delivering flushed =>
    match owner.delivery.promise flushed with
    | .fulfilled => some { owner with settled := true, startup := .fulfilled }
    | .rejected => some owner.fail
    | _ => none
  | _ => none

/-- `adapter.stop()` of the catch branch has settled. -/
def cleaned : Option (Owner μ) :=
  match owner.startup with
  | .stopping => some { owner with startup := .rejected }
  | _ => none

end Owner

/-- How `_doStart` ends. -/
inductive Receipt where
  | channels (channels failedChannels : List String)
  | unsettled (owners : ℕ)
  | nothingStarted
  deriving DecidableEq

/-- The variables of the runtime that the start and the stop of the adapters use; adapters are named by their
place among the candidates. -/
structure Runtime (μ : Type) where
  owners : List (Owner μ)
  adapters : List ℕ
  cleanupPending : List ℕ
  receipt : Option Receipt
  running : Bool
  deriving DecidableEq

namespace Runtime

variable {μ : Type} (runtime : Runtime μ)

/-- The runtime after the callbacks are registered and the starts are called. -/
def launched (platforms : List String) : Runtime μ :=
  { owners := platforms.map Owner.candidate, adapters := [], cleanupPending := [], receipt := none,
    running := true }

def act (i : ℕ) (action : Owner μ → Option (Owner μ)) : Option (Runtime μ) :=
  (runtime.owners[i]?).bind fun owner =>
    (action owner).map fun owner' => { runtime with owners := runtime.owners.set i owner' }

def publishActiveAdapters : Runtime μ :=
  { runtime with
    adapters := (List.range runtime.owners.length).filter fun i =>
      runtime.owners[i]?.any Owner.admitted }

def stop : Runtime μ := { runtime with running := false, receipt := none }

def platforms (places : List ℕ) : List String :=
  places.filterMap fun i => (runtime.owners[i]?).map Owner.platform

/-- Every adapter's start has settled: the receipt, or an error that is rolled back by `stop`. -/
def startSettled : Option (Runtime μ) :=
  if runtime.receipt.isNone ∧ ∀ owner ∈ runtime.owners, owner.startup = .fulfilled ∨ owner.startup = .rejected then
    if runtime.owners = [] then some { runtime with receipt := some (.channels [] []) }
    else if runtime.cleanupPending ≠ [] then
      some { runtime.stop with receipt := some (.unsettled runtime.cleanupPending.length) }
    else if runtime.adapters = [] then some { runtime.stop with receipt := some .nothingStarted }
    else
      some { runtime with
        receipt := some (.channels (runtime.platforms runtime.adapters)
          ((runtime.owners.filter fun owner => owner.startup = .rejected).map Owner.platform)) }
  else none

/-- What can happen to the runtime. -/
inductive Event (μ : Type) where
  /-- Adapter `i` calls its message callback. -/
  | message (i : ℕ) (m : μ)
  | started (i : ℕ)
  | startFailed (i : ℕ)
  /-- Link `k` of the delivery of adapter `i` reacts: `handleMessage` is invoked, or a rejection passed on. -/
  | reacts (i k : ℕ)
  /-- The invocation of `handleMessage` of link `k` of adapter `i` settles. -/
  | handled (i k : ℕ) (succeeded : Bool)
  | delivered (i : ℕ)
  | cleaned (i : ℕ) (succeeded : Bool)
  | startSettled
  | stop
  /-- `adapter.stop()` of the runtime's `stop` has resolved. -/
  | released (i : ℕ)

def step (runtime : Runtime μ) : Event μ → Option (Runtime μ)
  | .message i m => runtime.act i fun owner => some (owner.onMessage m).1
  | .started i => (runtime.act i Owner.started).map publishActiveAdapters
  | .startFailed i => (runtime.act i Owner.startFailed).map publishActiveAdapters
  | .reacts i k =>
    runtime.act i fun owner => (owner.delivery.react k).map fun delivery => { owner with delivery }
  | .handled i k succeeded =>
    runtime.act i fun owner => (owner.delivery.settle k succeeded).map fun delivery => { owner with delivery }
  | .delivered i =>
    -- The catch branch publishes the active adapters; where the delivery is fulfilled they are what they were.
    (runtime.act i Owner.delivered).map fun runtime' =>
      if runtime'.owners[i]?.any Owner.admitted then runtime' else runtime'.publishActiveAdapters
  | .cleaned i succeeded =>
    (runtime.act i Owner.cleaned).map fun runtime' =>
      if succeeded then runtime'
      else { runtime' with cleanupPending := runtime'.cleanupPending ++ [i] }
  | .startSettled => runtime.startSettled
  | .stop => some runtime.stop
  | .released i =>
    if runtime.running then none
    else some { runtime with adapters := runtime.adapters.erase i,
                             cleanupPending := runtime.cleanupPending.erase i }

end Runtime

end OpenCorvus.ChannelRuntime
